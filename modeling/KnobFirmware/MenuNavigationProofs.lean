import KnobFirmware.MenuWidgetProofs

/-! # The navigation history is the path to the page

    The buttons that the constructors create wire the pages into a tree: a page
    is opened from one other page alone, and every page but the main one has a
    Back button.  A button that is there belongs to the page that is shown
    (`PageOk.buttons`), so each press goes along an edge of the tree, and the
    menu stack is the path from the main page to the page's parent. -/

namespace MenuNavigation

open AudioTask (MenuId)
open Menu MenuWidget ObjectTree StepMachine

/-! ## The page tree -/

/-- A button of the page opens the other one. -/
def Opens (m page : MenuId) : Prop := ∃ cb ∈ buttonsOf m, cb.opens = some page

/-- `ps` leads from the main page to the page, which is left out. -/
inductive IsPath : List MenuId → MenuId → Prop where
  | main : IsPath [] .main
  | opened {ps : List MenuId} {m page : MenuId} (h : IsPath ps m) (hopens : Opens m page) :
      IsPath (ps ++ [m]) page

/-- The pages on the way to a page. -/
def pathTo : MenuId → List MenuId
  | .main => []
  | .mediaController | .settings | .hardwareTests | .about => [.main]
  | .display | .audio | .input => [.main, .settings]
  | .hwDisplay | .hwTouch | .hwEncoder | .hwBacklight | .hwMemory | .hwSd | .hwHaptics
  | .hwAudioMic | .hwBattery | .hwUnavailable => [.main, .hardwareTests]

/-- An edge of the tree extends the path. -/
theorem pathTo_of_opens {m page : MenuId} (h : Opens m page) : pathTo page = pathTo m ++ [m] := by
  have hall : ∀ cb ∈ buttonsOf m, ∀ page ∈ cb.opens, pathTo page = pathTo m ++ [m] := by
    cases m <;> decide
  obtain ⟨cb, hcb, hpage⟩ := h
  exact hall cb hcb page hpage

/-- **The tree has one path to each page.** -/
theorem IsPath.eq {ps : List MenuId} {m : MenuId} (h : IsPath ps m) : ps = pathTo m := by
  induction h with
  | main => rfl
  | opened _ hopens ih => rw [pathTo_of_opens hopens, ih]

/-- No path is as long as the menu stack. -/
theorem length_pathTo (m : MenuId) : (pathTo m).length ≤ 2 := by
  cases m <;> decide

/-- Only the main page is without a Back button. -/
theorem pathTo_ne_nil {m : MenuId} {cb : ButtonCb} (hcb : cb ∈ buttonsOf m)
    (hback : cb.isBack = true) : pathTo m ≠ [] := by
  have hall : ∀ cb ∈ buttonsOf m, cb.isBack = true → pathTo m ≠ [] := by
    cases m <;> decide
  exact hall cb hcb hback

/-! ## The stack -/

/-- What `menu_stack[0..menu_stack_top]` holds. -/
def history (n : Nav) : List MenuId := n.menuStack.take (n.menuStackTop + 1).toNat

/-- The stack holds the path to the page. -/
structure NavOk (n : Nav) : Prop where
  path : IsPath (history n) n.currentMenu
  top : n.menuStackTop = (history n).length - 1
  size : n.menuStack.length = menuStackSize

section Nav

variable {n : Nav} {page : MenuId}

theorem NavOk.history_eq (h : NavOk n) : history n = pathTo n.currentMenu := h.path.eq

theorem NavOk.top_eq (h : NavOk n) :
    n.menuStackTop + 1 = ((pathTo n.currentMenu).length : Int) := by
  rw [h.top, h.history_eq]
  omega

/-- There is always room for one more page. -/
theorem NavOk.room (h : NavOk n) : n.menuStackTop < menuStackSize - 1 := by
  have hlen := length_pathTo n.currentMenu
  have htop := h.top_eq
  simp only [menuStackSize]
  omega

/-- What `push_menu` makes of the history. -/
theorem NavOk.push (h : NavOk n) (hopens : Opens n.currentMenu page) :
    NavOk ⟨page, n.menuStack.set (n.menuStackTop + 1).toNat n.currentMenu,
      n.menuStackTop + 1⟩ := by
  have hlen := length_pathTo n.currentMenu
  have htop := h.top_eq
  have hsize := h.size
  obtain ⟨k, hk⟩ : ∃ k : Nat, n.menuStackTop + 1 = k := ⟨_, htop⟩
  have hkk : k = (pathTo n.currentMenu).length := by omega
  have hlt : k < n.menuStack.length := by
    rw [hsize, menuStackSize]
    omega
  have htake : history n = n.menuStack.take k := by rw [history, hk, Int.toNat_natCast]
  have hnew : history ⟨page, n.menuStack.set (n.menuStackTop + 1).toNat n.currentMenu,
      n.menuStackTop + 1⟩ = history n ++ [n.currentMenu] := by
    rw [history, htake, hk]
    show (n.menuStack.set (k : Int).toNat n.currentMenu).take ((k : Int) + 1).toNat = _
    rw [Int.toNat_natCast, show ((k : Int) + 1).toNat = k + 1 by omega,
      List.take_succ_eq_append_getElem (by simpa using hlt), List.getElem_set_self,
      List.take_set_of_le (Nat.le_refl k)]
  refine ⟨?_, ?_, ?_⟩
  · rw [hnew]
    exact h.path.opened hopens
  · rw [hnew, List.length_append, h.history_eq, ← hkk, hk]
    simp
  · simpa using hsize

/-- What `pop_menu` makes of it, where there is a page to go back to. -/
theorem NavOk.pop (h : NavOk n) (hne : pathTo n.currentMenu ≠ []) :
    0 ≤ n.menuStackTop ∧
      Opens (n.menuStack.getD n.menuStackTop.toNat .main) n.currentMenu ∧
      NavOk ⟨n.menuStack.getD n.menuStackTop.toNat .main, n.menuStack, n.menuStackTop - 1⟩ := by
  have htop := h.top_eq
  have hlen := length_pathTo n.currentMenu
  have hpath := h.path
  have hhist := h.history_eq
  -- the path ends with the parent
  generalize hps : history n = ps at hpath hhist
  generalize hm : n.currentMenu = m at hpath hhist
  cases hpath with
  | main => exact absurd (hm ▸ rfl) hne
  | @opened qs parent _ hqs hopens =>
      have hk : n.menuStackTop = (qs.length : Int) := by
        have hcur : (pathTo n.currentMenu).length = qs.length + 1 := by
          rw [hm, ← hhist]
          simp
        omega
      have htake : n.menuStack.take (qs.length + 1) = qs ++ [parent] := by
        rw [← hps, history, hk]
        rfl
      have hget : n.menuStack.getD n.menuStackTop.toNat .main = parent := by
        have hsome : n.menuStack[qs.length]? = some parent := by
          rw [← List.getElem?_take_of_lt (Nat.lt_succ_self qs.length), htake]
          simp
        rw [hk, Int.toNat_natCast, List.getD_eq_getElem?_getD, hsome]
        rfl
      rw [hget]
      have hold : history ⟨parent, n.menuStack, n.menuStackTop - 1⟩ = qs := by
        have hpre : (n.menuStack.take (qs.length + 1)).take qs.length = qs := by
          rw [htake]
          simp
        rw [List.take_take, Nat.min_eq_left (Nat.le_succ _)] at hpre
        rw [history, hk]
        show n.menuStack.take ((qs.length : Int) - 1 + 1).toNat = qs
        rw [show ((qs.length : Int) - 1 + 1).toNat = qs.length by omega]
        exact hpre
      refine ⟨by omega, hopens, ?_, ?_, h.size⟩
      · rw [hold]
        exact hqs
      · rw [hold, hk]

end Nav

/-! ## Every run -/

/-- The pages from which the page was opened, in order. -/
def openers (page : MenuId) (tr : List UiEv) : List MenuId :=
  tr.filterMap fun
    | .opened page' opener => if page' = page then some opener else none

theorem mem_openers {page q : MenuId} {tr : List UiEv} :
    q ∈ openers page tr ↔ .opened page q ∈ tr := by
  constructor
  · intro h
    obtain ⟨⟨page', opener⟩, hmem, heq⟩ := List.mem_filterMap.mp h
    have hpage : page' = page ∧ opener = q := by simpa using heq
    obtain ⟨rfl, rfl⟩ := hpage
    exact hmem
  · intro h
    exact List.mem_filterMap.mpr ⟨_, h, by simp⟩

/-- The stack, and what the trace says about its pages. -/
structure Navigated (u : Ui) (tr : List UiEv) : Prop where
  widgets : WidgetsOk u
  nav : NavOk u.toNav
  edges : ∀ page q, .opened page q ∈ tr → Opens q page
  opened : ∀ page ∈ history u.toNav ++ [u.currentMenu], page ≠ .main →
    ∃ q, .opened page q ∈ tr

section Steps

variable {u u' : Ui} {l : UiLab} {tr es : List UiEv} {cb : ButtonCb} {page : MenuId}

theorem pushMenu_toNav (h : u.menuStackTop < menuStackSize - 1) :
    (pushMenu page u).toNav = ⟨page, u.menuStack.set (u.menuStackTop + 1).toNat u.currentMenu,
      u.menuStackTop + 1⟩ := by
  rw [pushMenu, if_pos h]
  exact showMenu_toNav

theorem popMenu_toNav (h : 0 ≤ u.menuStackTop) :
    (popMenu u).toNav = ⟨u.menuStack.getD u.menuStackTop.toNat .main, u.menuStack,
      u.menuStackTop - 1⟩ := by
  rw [popMenu, if_pos h]
  exact showMenu_toNav

/-- The callbacks that stay on the page leave the navigation. -/
theorem act_toNav {failed : Bool} : (cb.act failed u).toNav = u.toNav := by
  cases cb with
  | sdMountRefreshCb | sdListRootCb | sdUnmountCb | audioMicOutputInfoCb => exact refresh_toNav
  | sdReadWriteTestCb => exact refresh_toNav.trans refresh_toNav
  | audioMicStartCb | audioDacStartToneCb | audioLoopbackStartCb =>
      rw [ButtonCb.act]
      split
      · exact refresh_toNav
      · rfl
  | _ => rfl

/-- Only a button leads to another page. -/
theorem step_toNav (hs : menu.step u l = some (u', es))
    (hl : ∀ o failed, l ≠ .press o failed) : u'.toNav = u.toNav ∧ es = [] := by
  cases l with
  | press o failed => exact absurd rfl (hl o failed)
  | slide o =>
      change uiStep u (.slide o) = _ at hs
      rw [uiStep] at hs
      split at hs
      · rename_i cb line ho
        obtain ⟨rfl, rfl⟩ := Prod.mk.inj (Option.some.inj hs)
        refine ⟨?_, rfl⟩
        cases cb with
        | bezelSensitivityChangedCb | backlightTestChangedCb => rfl
        | audioLoopbackGainChangedCb => exact refresh_toNav
      · cases hs
  | encoderScroll moved =>
      obtain ⟨rfl, rfl⟩ := Prod.mk.inj (Option.some.inj hs)
      refine ⟨?_, rfl⟩
      rw [encoderScrollTimerCb]
      split
      · rfl
      · split
        · rfl
        · split
          · exact refresh_toNav
          · split <;> rfl
  | mediaStatus =>
      obtain ⟨rfl, rfl⟩ := Prod.mk.inj (Option.some.inj hs)
      refine ⟨?_, rfl⟩
      rw [mediaStatusTimerCb]
      split <;> rfl
  | audioMicUi =>
      obtain ⟨rfl, rfl⟩ := Prod.mk.inj (Option.some.inj hs)
      refine ⟨?_, rfl⟩
      rw [audioMicUiTimerCb]
      split
      · rfl
      · show Ui.toNav (if _ then _ else _) = _
        split <;> simp only [refresh_toNav]
  | batteryAdcUi =>
      obtain ⟨rfl, rfl⟩ := Prod.mk.inj (Option.some.inj hs)
      refine ⟨?_, rfl⟩
      rw [batteryAdcUiTimerCb]
      split <;> rfl
  | touch =>
      obtain ⟨rfl, rfl⟩ := Prod.mk.inj (Option.some.inj hs)
      refine ⟨?_, rfl⟩
      rw [lvglTouchCb]
      split <;> rfl

/-- A button that is there is the page's. -/
theorem Navigated.button {o : Nat} {line : List Nat} (h : Navigated u tr)
    (ho : u.objs[o]? = some ⟨.button cb, line, true⟩) : cb ∈ buttonsOf u.currentMenu := by
  obtain ⟨c, hc⟩ := h.widgets
  exact hc.buttons o _ cb ho rfl rfl

/-- What a Back button does. -/
theorem back_toNav {failed : Bool} (h : Navigated u tr) (hcb : cb ∈ buttonsOf u.currentMenu)
    (hback : cb.isBack = true) :
    (cb.run failed u).toNav = ⟨u.menuStack.getD u.menuStackTop.toNat .main, u.menuStack,
      u.menuStackTop - 1⟩ := by
  have hpop : cb.run failed u = popMenu u := by
    cases cb with
    | backCb | audioMicBackCb => rfl
    | _ => cases hback
  rw [hpop]
  exact popMenu_toNav (h.nav.pop (pathTo_ne_nil hcb hback)).1

/-- A step that leaves the stack and the page alone. -/
theorem Navigated.stay (h : Navigated u tr) (hwidgets : WidgetsOk u')
    (hnav : u'.toNav = u.toNav) : Navigated u' tr := by
  refine ⟨hwidgets, hnav ▸ h.nav, h.edges, ?_⟩
  rw [hnav]
  exact h.opened

/-- One page deeper. -/
theorem Navigated.push (h : Navigated u tr) (hedge : Opens u.currentMenu page)
    (hwidgets : WidgetsOk (pushMenu page u)) :
    Navigated (pushMenu page u) (tr ++ [.opened page u.currentMenu]) := by
  have hnav : (pushMenu page u).toNav = _ := pushMenu_toNav h.nav.room
  have hcur : (pushMenu page u).currentMenu = page := congrArg Nav.currentMenu hnav
  have hnew : NavOk (pushMenu page u).toNav := hnav ▸ h.nav.push hedge
  refine ⟨hwidgets, hnew, ?_, ?_⟩
  · intro page' q hmem
    rcases List.mem_append.mp hmem with h1 | h1
    · exact h.edges page' q h1
    · have heq : page' = page ∧ q = u.currentMenu := by simpa using h1
      obtain ⟨rfl, rfl⟩ := heq
      exact hedge
  · rw [hnew.history_eq, hcur, pathTo_of_opens hedge, ← h.nav.history_eq]
    intro page' hmem hne
    rcases List.mem_append.mp hmem with h1 | h1
    · obtain ⟨q, hq⟩ := h.opened page' h1 hne
      exact ⟨q, List.mem_append_left _ hq⟩
    · obtain rfl := List.mem_singleton.mp h1
      exact ⟨u.currentMenu, List.mem_append_right _ (by simp)⟩

/-- Back to the parent. -/
theorem Navigated.back {failed : Bool} (h : Navigated u tr) (hcb : cb ∈ buttonsOf u.currentMenu)
    (hback : cb.isBack = true) (hwidgets : WidgetsOk (cb.run failed u)) :
    Navigated (cb.run failed u) tr := by
  obtain ⟨-, hedge, hparent⟩ := h.nav.pop (pathTo_ne_nil hcb hback)
  have hnav : (cb.run failed u).toNav = _ := back_toNav h hcb hback
  have hcur : (cb.run failed u).currentMenu =
      u.menuStack.getD u.menuStackTop.toNat .main := congrArg Nav.currentMenu hnav
  have hnew : NavOk (cb.run failed u).toNav := hnav ▸ hparent
  refine ⟨hwidgets, hnew, h.edges, ?_⟩
  rw [hnew.history_eq, hcur, ← pathTo_of_opens hedge, ← h.nav.history_eq]
  intro page' hmem
  exact h.opened page' (List.mem_append_left _ hmem)

/-- **A step goes along an edge of the tree, or stays on the page.** -/
theorem navigated_step (h : Navigated u tr) (hs : menu.step u l = some (u', es)) :
    Navigated u' (tr ++ es) := by
  have hwidgets := widgetsOk_step h.widgets hs
  by_cases hl : ∀ o failed, l ≠ .press o failed
  · obtain ⟨hnav, rfl⟩ := step_toNav hs hl
    rw [List.append_nil]
    exact h.stay hwidgets hnav
  obtain ⟨o, failed, rfl⟩ : ∃ o failed, l = .press o failed := by
    by_contra hno
    exact hl fun o failed hpress => hno ⟨o, failed, hpress⟩
  obtain ⟨cb, line, ho, rfl, rfl⟩ := uiStep_press hs
  have hcb := h.button ho
  cases hopens : cb.opens with
  | some page =>
      have hrun : cb.run failed u = pushMenu page u := by
        rw [ButtonCb.run, hopens]
      rw [hrun] at hwidgets ⊢
      exact h.push ⟨cb, hcb, hopens⟩ hwidgets
  | none =>
      rw [Option.map_none, Option.toList_none, List.append_nil]
      by_cases hback : cb.isBack = true
      · exact h.back hcb hback hwidgets
      · have hrun : cb.run failed u = cb.act failed u := by
          rw [ButtonCb.run, hopens]
          exact if_neg hback
        refine h.stay hwidgets ?_
        rw [hrun]
        exact act_toNav

theorem navigated_boot : Navigated bootUi [] := by
  have hnav : bootUi.toNav = {} := construct_toNav
  refine ⟨widgetsOk_boot, ?_, fun _ _ h => absurd h List.not_mem_nil, ?_⟩
  · rw [hnav]
    exact ⟨.main, rfl, rfl⟩
  · intro page hmem hne
    rw [hnav] at hmem
    exact absurd (List.mem_singleton.mp hmem) hne

end Steps

/-- The stack is the one path to the page, it has room, and Back returns to the
    page that opened the current one last. -/
structure HistoryOk (u : Ui) (tr : List UiEv) : Prop where
  path : IsPath (history u.toNav) u.currentMenu
  unique : ∀ ps, IsPath ps u.currentMenu → ps = history u.toNav
  range : -1 ≤ u.menuStackTop ∧ u.menuStackTop ≤ menuStackSize - 1
  notFull : u.menuStackTop < menuStackSize - 1
  back : ∀ o failed cb line u' es, u.objs[o]? = some ⟨.button cb, line, true⟩ →
    cb.isBack = true → menu.step u (.press o failed) = some (u', es) →
    (openers u.currentMenu tr).getLast? = some u'.currentMenu

/-- **The history is the path to the page**, after every run of button presses,
    sliders and timers. -/
theorem history_is_path {ls : List UiLab} {u : Ui} {tr : List UiEv}
    (h : Run menu bootUi ls u tr) : HistoryOk u tr := by
  have hn : Navigated u tr := h.invariant navigated_boot fun _ _ _ _ _ hP hs =>
    navigated_step hP hs
  have hroom := hn.nav.room
  have htop := hn.nav.top
  refine ⟨hn.nav.path, fun ps hps => hps.eq.trans hn.nav.history_eq.symm, ⟨by omega, by omega⟩,
    hroom, ?_⟩
  intro o failed cb line u' es ho hback hs
  obtain ⟨cb', line', ho', rfl, -⟩ := uiStep_press hs
  obtain ⟨rfl, -⟩ : cb = cb' ∧ line = line' := by
    have heq := Option.some.inj (ho.symm.trans ho')
    simpa using heq
  have hcb := hn.button ho
  have hne := pathTo_ne_nil hcb hback
  obtain ⟨-, hedge, -⟩ := hn.nav.pop hne
  have hcur : (cb.run failed u).currentMenu = u.menuStack.getD u.menuStackTop.toNat .main :=
    congrArg Nav.currentMenu (back_toNav hn hcb hback)
  rw [hcur]
  -- the page was opened, and by its parent each time
  have hmain : u.currentMenu ≠ .main := by
    intro h0
    rw [h0] at hne
    exact hne rfl
  obtain ⟨q, hq⟩ := hn.opened u.currentMenu (List.mem_append_right _ List.mem_cons_self) hmain
  have hsome : openers u.currentMenu tr ≠ [] := List.ne_nil_of_mem (mem_openers.mpr hq)
  rw [List.getLast?_eq_some_getLast hsome]
  have hlast := mem_openers.mp (List.getLast_mem hsome)
  have hpaths := (pathTo_of_opens (hn.edges _ _ hlast)).symm.trans (pathTo_of_opens hedge)
  exact congrArg some (List.cons.inj (List.append_inj' hpaths rfl).2).1

/-- Settings, its audio page, and Back. -/
def toAudioAndBack : List UiLab := [.press 4 false, .press 14 false, .press 24 false]

theorem history_is_path_at :
    ∃ u tr, Run menu bootUi toAudioAndBack u tr ∧ u.currentMenu = .settings ∧
      history u.toNav = [.main] ∧ openers .settings tr = [.main] ∧ HistoryOk u tr := by
  have hrun : ∃ u tr, exec menu bootUi toAudioAndBack = some (u, tr) ∧
      u.currentMenu = .settings ∧ history u.toNav = [.main] ∧ openers .settings tr = [.main] :=
    ⟨_, _, rfl, rfl, rfl, rfl⟩
  obtain ⟨u, tr, hexec, hcur, hhist, hopener⟩ := hrun
  exact ⟨u, tr, run_of_exec hexec, hcur, hhist, hopener, history_is_path (run_of_exec hexec)⟩

end MenuNavigation
