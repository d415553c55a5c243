import KnobFirmware.MenuProofs

/-! # No dangling page widgets

    All that a page creates descends from `menu_cont`, and every page-local
    pointer is NULL or points to one of these objects.  `show_menu` clears all
    the pointers before it deletes the container, so none of them is left
    behind, and a callback that finds a pointer not NULL may use it.

    `PageOk` carries this through the constructors, an item at a time. -/

namespace MenuWidget

open AudioTask (MenuId)
open Menu ObjectTree StepMachine

/-! ## The page under its container -/

/-- The page under the container `c`, with buttons for `cbs`. -/
structure PageOk (u : Ui) (c : Nat) (cbs : List ButtonCb) : Prop where
  cont : u.menuCont = some c
  rooted : Rooted u.objs c
  widgets : ∀ w o, u.widget w = some o → Anchored u.objs c o
  buttons : ∀ (o : Nat) (n : Node Kind) (cb : ButtonCb), u.objs[o]? = some n →
    n.live = true → n.kind = .button cb → cb ∈ cbs
  calls : ∀ call ∈ u.calls, call.2 = true

section Page

variable {u : Ui} {c o : Nat} {cbs : List ButtonCb} {w : Widget} {kind : Kind}

/-- A call on an object that lives. -/
theorem PageOk.pass (h : PageOk u c cbs) (ho : u.objs.isLive o = true) :
    PageOk (u.pass (some o)) c cbs where
  cont := h.cont
  rooted := h.rooted
  widgets := h.widgets
  buttons := h.buttons
  calls := by
    intro call hcall
    rcases List.mem_append.mp hcall with h1 | h1
    · exact h.calls call h1
    · obtain rfl := List.mem_singleton.mp h1
      exact ho

/-- A call on a pointer that is not NULL. -/
theorem PageOk.pass_widget (h : PageOk u c cbs) (hw : u.widget w ≠ none) :
    PageOk (u.pass (u.widget w)) c cbs := by
  obtain ⟨o, ho⟩ := Option.ne_none_iff_exists'.mp hw
  rw [ho]
  exact h.pass (h.widgets w o ho).live

theorem PageOk.refresh (h : PageOk u c cbs) (w : Widget) : PageOk (u.refresh w) c cbs := by
  rw [Ui.refresh]
  split
  · exact h
  · rename_i hw
    exact h.pass_widget hw

/-- A new object on the page. -/
theorem PageOk.create {p : Nat} (h : PageOk u c cbs) (hp : p = c ∨ u.objs.Below c p)
    (hlive : u.objs.isLive p = true) (hkind : ∀ cb, kind = .button cb → cb ∈ cbs) :
    PageOk (u.create kind (some p)) c cbs where
  cont := h.cont
  rooted := h.rooted.create hp
  widgets := fun w o ho => (h.widgets w o ho).create
  buttons := by
    intro o n cb hn hn' hcb
    by_cases ho : o < u.objs.length
    · exact h.buttons o n cb ((create_old ho).symm.trans hn) hn' hcb
    · obtain rfl : o = u.objs.length := by
        have hlt := (List.getElem?_eq_some_iff.mp hn).1
        simp only [Ui.create, Forest.create, List.length_append, List.length_singleton] at hlt
        omega
      obtain rfl := Option.some.inj (create_new.symm.trans hn)
      exact hkind cb hcb
  calls := (h.pass hlive).calls

theorem isLive_created {parent : Option Nat} :
    (u.create kind parent).objs.isLive u.objs.length = true :=
  isLive_create.mpr (.inr rfl)

/-- A pointer is set to an object of the page. -/
theorem PageOk.store (h : PageOk u c cbs) (ho : Anchored u.objs c o) (w : Widget) :
    PageOk (u.store w (some o)) c cbs where
  cont := h.cont
  rooted := h.rooted
  widgets := by
    intro w' o' hw
    by_cases hww : w' = w
    · subst hww
      obtain rfl : o = o' := by simpa [Ui.store] using hw
      exact ho
    · exact h.widgets w' o' (by simpa [Ui.store, hww] using hw)
  buttons := h.buttons
  calls := h.calls

theorem PageOk.add (h : PageOk u c cbs) (hkind : ∀ cb, kind = .button cb → cb ∈ cbs)
    (w : Option Widget) : PageOk (u.add kind w) c cbs := by
  have hnew : PageOk (u.create kind (some c)) c cbs := h.create (.inl rfl) h.rooted.root hkind
  rw [← h.cont] at hnew
  cases w with
  | none => exact hnew.pass isLive_created
  | some w =>
      have hbelow : Anchored (u.create kind u.menuCont).objs c u.objs.length := by
        rw [h.cont]
        exact anchored_new (.inl rfl)
      exact (hnew.store hbelow w).pass isLive_created

theorem PageOk.addLabelled (h : PageOk u c cbs) (hkind : ∀ cb, kind = .button cb → cb ∈ cbs) :
    PageOk (u.addLabelled kind) c cbs := by
  have hnew : PageOk (u.create kind (some c)) c cbs := h.create (.inl rfl) h.rooted.root hkind
  rw [Ui.addLabelled, h.cont]
  have hplain : ∀ cb, Kind.plain = .button cb → cb ∈ cbs := by simp
  have hlabel : PageOk _ c cbs :=
    (hnew.pass isLive_created).create (.inr (below_new (.inl rfl))) isLive_created hplain
  exact hlabel.pass isLive_created

/-- **One step of a constructor.** -/
theorem PageOk.build {item : Item} (h : PageOk u c cbs)
    (hitem : ∀ cb, item = .menuButton cb → cb ∈ cbs) : PageOk (item.build u) c cbs := by
  cases item with
  | label w => exact h.add (by simp) w
  | bar w => exact h.add (by simp) (some w)
  | slider w cb =>
      cases cb with
      | none => exact h.add (by simp) w
      | some cb => exact h.add (by simp) w
  | menuButton cb =>
      refine h.addLabelled fun cb' hcb => ?_
      obtain rfl := Kind.button.inj hcb
      exact hitem cb rfl
  | colorSwatch => exact h.addLabelled (by simp)
  | sdStatus => exact h.refresh .sdTestLabel

theorem PageOk.foldl {items : List Item} (h : PageOk u c cbs)
    (hitems : ∀ cb, .menuButton cb ∈ items → cb ∈ cbs) :
    PageOk (items.foldl Item.build u) c cbs := by
  induction items generalizing u with
  | nil => exact h
  | cons item items ih =>
      refine ih (h.build ?_) fun cb hcb => hitems cb (List.mem_cons_of_mem item hcb)
      rintro cb rfl
      exact hitems cb List.mem_cons_self

/-! ## A page is replaced -/

/-- The buttons of a page. -/
def buttonsOf (m : MenuId) : List ButtonCb :=
  (createMenu m).filterMap fun
    | .menuButton cb => some cb
    | _ => none

theorem mem_buttonsOf {m : MenuId} {cb : ButtonCb} :
    .menuButton cb ∈ createMenu m → cb ∈ buttonsOf m := by
  intro h
  exact List.mem_filterMap.mpr ⟨_, h, rfl⟩

/-- **A constructor builds its page** where nothing lives and no pointer is
    left. -/
theorem construct_ok {m : MenuId} (hdead : ∀ o, u.objs.isLive o = false)
    (hwidgets : ∀ w, u.widget w = none) (hcalls : ∀ call ∈ u.calls, call.2 = true) :
    PageOk (construct (createMenu m) u) u.objs.length (buttonsOf m) := by
  refine PageOk.foldl ?_ fun cb hcb => mem_buttonsOf hcb
  have hcont : PageOk { u with
      objs := u.objs.create .plain none
      menuCont := some u.objs.length } u.objs.length (buttonsOf m) := by
    refine ⟨rfl, rooted_first hdead, ?_, ?_, hcalls⟩
    · intro w o ho
      cases (hwidgets w).symm.trans ho
    · intro o n cb hn hlive hkind
      have ho : Forest.isLive (u.objs.create .plain none) o = true := by
        rw [Forest.isLive, hn]
        exact hlive
      rcases isLive_create.mp ho with h1 | rfl
      · cases (hdead o).symm.trans h1
      · obtain rfl := Option.some.inj (create_new.symm.trans hn)
        cases hkind
  exact hcont.pass isLive_created

/-- **`show_menu` leaves no pointer behind.** -/
theorem PageOk.showMenu (h : PageOk u c cbs) (m : MenuId) :
    ∃ c', PageOk (showMenu m u) c' (buttonsOf m) := by
  have hcont : u.menuCont = some c := h.cont
  rw [Menu.showMenu]
  simp only [hcont]
  exact ⟨_, construct_ok h.rooted.delete (fun _ => rfl) (h.pass h.rooted.root).calls⟩

/-! ## What a page keeps of the navigation -/

@[simp] theorem refresh_toNav : (u.refresh w).toNav = u.toNav := by
  rw [Ui.refresh]
  split <;> rfl

theorem build_toNav {item : Item} : (item.build u).toNav = u.toNav := by
  cases item with
  | label w | bar w => cases w <;> rfl
  | slider w cb => cases w <;> cases cb <;> rfl
  | menuButton cb => rfl
  | colorSwatch => rfl
  | sdStatus => exact refresh_toNav

theorem construct_toNav {items : List Item} : (construct items u).toNav = u.toNav := by
  have hfold : ∀ v : Ui, (items.foldl Item.build v).toNav = v.toNav := by
    induction items with
    | nil => exact fun _ => rfl
    | cons item items ih => exact fun v => (ih (item.build v)).trans build_toNav
  exact hfold _

/-- `show_menu` changes the current page alone. -/
theorem showMenu_toNav {m : MenuId} :
    (showMenu m u).toNav = { u.toNav with currentMenu := m } := by
  rw [Menu.showMenu]
  cases u.menuCont <;> exact construct_toNav

end Page

/-! ## Every run -/

/-- The page that is shown is in order. -/
def WidgetsOk (u : Ui) : Prop := ∃ c, PageOk u c (buttonsOf u.currentMenu)

section Steps

variable {u u' : Ui} {l : UiLab} {es : List UiEv}

theorem WidgetsOk.showMenu (h : WidgetsOk u) (m : MenuId) : WidgetsOk (showMenu m u) := by
  obtain ⟨c, hc⟩ := h
  obtain ⟨c', hc'⟩ := hc.showMenu m
  refine ⟨c', ?_⟩
  rw [show (Menu.showMenu m u).currentMenu = m from congrArg Nav.currentMenu showMenu_toNav]
  exact hc'

/-- The widgets do not depend on the history. -/
theorem WidgetsOk.history (h : WidgetsOk u) (stack : List MenuId) (top : Int) :
    WidgetsOk { u with menuStack := stack, menuStackTop := top } := by
  obtain ⟨c, hc⟩ := h
  exact ⟨c, hc.cont, hc.rooted, hc.widgets, hc.buttons, hc.calls⟩

theorem WidgetsOk.pushMenu (h : WidgetsOk u) (m : MenuId) : WidgetsOk (pushMenu m u) := by
  rw [Menu.pushMenu]
  split
  · exact (h.history _ _).showMenu m
  · exact h.showMenu m

theorem WidgetsOk.popMenu (h : WidgetsOk u) : WidgetsOk (popMenu u) := by
  rw [Menu.popMenu]
  split
  · exact (h.history u.menuStack _).showMenu _
  · split
    · exact h.showMenu .main
    · exact h

theorem WidgetsOk.refresh (h : WidgetsOk u) (w : Widget) : WidgetsOk (u.refresh w) := by
  obtain ⟨c, hc⟩ := h
  rw [WidgetsOk, show (u.refresh w).currentMenu = u.currentMenu from
    congrArg Nav.currentMenu refresh_toNav]
  exact ⟨c, hc.refresh w⟩

theorem WidgetsOk.pass_widget {w : Widget} (h : WidgetsOk u) (hw : u.widget w ≠ none) :
    WidgetsOk (u.pass (u.widget w)) := by
  obtain ⟨c, hc⟩ := h
  exact ⟨c, hc.pass_widget hw⟩

theorem WidgetsOk.act (h : WidgetsOk u) (failed : Bool) (cb : ButtonCb) :
    WidgetsOk (cb.act failed u) := by
  cases cb with
  | sdMountRefreshCb | sdListRootCb | sdUnmountCb => exact h.refresh _
  | sdReadWriteTestCb => exact (h.refresh _).refresh _
  | audioMicOutputInfoCb => exact h.refresh _
  | audioMicStartCb | audioDacStartToneCb | audioLoopbackStartCb =>
      rw [ButtonCb.act]
      split
      · exact h.refresh _
      · exact h
  | _ => exact h

/-- **A button's callback**, whichever it is. -/
theorem WidgetsOk.button (h : WidgetsOk u) (failed : Bool) (cb : ButtonCb) :
    WidgetsOk (cb.run failed u) := by
  rw [ButtonCb.run]
  split
  · exact h.pushMenu _
  · split
    · exact h.popMenu
    · exact h.act failed cb

/-- A slider's callback, with a target that lives. -/
theorem WidgetsOk.slider {o : Nat} (h : WidgetsOk u) (ho : u.objs.isLive o = true)
    (cb : SliderCb) : WidgetsOk (cb.run o u) := by
  obtain ⟨c, hc⟩ := h
  have hpass : WidgetsOk (u.pass (some o)) := ⟨c, hc.pass ho⟩
  cases cb with
  | bezelSensitivityChangedCb | backlightTestChangedCb => exact hpass
  | audioLoopbackGainChangedCb => exact hpass.refresh _

theorem WidgetsOk.encoderScroll (h : WidgetsOk u) (moved : Bool) :
    WidgetsOk (encoderScrollTimerCb moved u) := by
  rw [encoderScrollTimerCb]
  split
  · exact h
  · split
    · exact h
    · split
      · exact h.refresh _
      · split
        · exact h
        · obtain ⟨c, hc⟩ := h
          rw [hc.cont]
          exact ⟨c, hc.pass hc.rooted.root⟩

theorem WidgetsOk.mediaStatus (h : WidgetsOk u) : WidgetsOk (mediaStatusTimerCb u) := by
  rw [mediaStatusTimerCb]
  split
  · exact h
  · rename_i hguard
    exact h.pass_widget (not_or.mp hguard).2

theorem WidgetsOk.audioMicUi (h : WidgetsOk u) : WidgetsOk (audioMicUiTimerCb u) := by
  rw [audioMicUiTimerCb]
  split
  · exact h
  · have hmeter := (h.refresh .audioMicLevelBar).refresh .audioMicPeakLabel
    show WidgetsOk (if _ then _ else _)
    split
    · exact hmeter
    · exact (((hmeter.refresh _).refresh _).refresh _).refresh _

theorem WidgetsOk.batteryAdcUi (h : WidgetsOk u) : WidgetsOk (batteryAdcUiTimerCb u) := by
  rw [batteryAdcUiTimerCb]
  split
  · exact h
  · rename_i hguard
    obtain ⟨-, hguard⟩ := not_or.mp hguard
    obtain ⟨hstatus, hguard⟩ := not_or.mp hguard
    obtain ⟨hdetail, hbar⟩ := not_or.mp hguard
    have h1 : WidgetsOk (u.pass (u.widget .batteryAdcStatusLabel)) := h.pass_widget hstatus
    have h2 := h1.pass_widget (w := .batteryAdcDetailLabel) hdetail
    exact h2.pass_widget (w := .batteryAdcLevelBar) hbar

theorem WidgetsOk.touch (h : WidgetsOk u) : WidgetsOk (lvglTouchCb u) := by
  rw [lvglTouchCb]
  split
  · rename_i hguard
    exact h.pass_widget hguard.2
  · exact h

/-- What a step of the UI task is. -/
theorem uiStep_press {o : Nat} {failed : Bool} (hs : uiStep u (.press o failed) = some (u', es)) :
    ∃ cb line, u.objs[o]? = some ⟨.button cb, line, true⟩ ∧ u' = cb.run failed u ∧
      es = (cb.opens.map fun page => .opened page u.currentMenu).toList := by
  rw [uiStep] at hs
  split at hs
  · rename_i cb line ho
    obtain ⟨rfl, rfl⟩ := Prod.mk.inj (Option.some.inj hs)
    exact ⟨cb, line, ho, rfl, rfl⟩
  · cases hs

/-- **One step keeps the page in order.** -/
theorem widgetsOk_step (h : WidgetsOk u) (hs : menu.step u l = some (u', es)) :
    WidgetsOk u' := by
  cases l with
  | press o failed =>
      obtain ⟨cb, line, -, rfl, -⟩ := uiStep_press hs
      exact h.button failed cb
  | slide o =>
      change uiStep u (.slide o) = _ at hs
      rw [uiStep] at hs
      split at hs
      · rename_i cb line ho
        obtain ⟨rfl, -⟩ := Prod.mk.inj (Option.some.inj hs)
        refine h.slider ?_ cb
        rw [Forest.isLive, ho]
        rfl
      · cases hs
  | encoderScroll moved =>
      obtain ⟨rfl, -⟩ := Prod.mk.inj (Option.some.inj hs)
      exact h.encoderScroll moved
  | mediaStatus =>
      obtain ⟨rfl, -⟩ := Prod.mk.inj (Option.some.inj hs)
      exact h.mediaStatus
  | audioMicUi =>
      obtain ⟨rfl, -⟩ := Prod.mk.inj (Option.some.inj hs)
      exact h.audioMicUi
  | batteryAdcUi =>
      obtain ⟨rfl, -⟩ := Prod.mk.inj (Option.some.inj hs)
      exact h.batteryAdcUi
  | touch =>
      obtain ⟨rfl, -⟩ := Prod.mk.inj (Option.some.inj hs)
      exact h.touch

theorem widgetsOk_boot : WidgetsOk bootUi := by
  have hcur : bootUi.currentMenu = .main := congrArg Nav.currentMenu construct_toNav
  refine ⟨0, ?_⟩
  rw [hcur]
  exact construct_ok (m := .main) (fun _ => rfl) (fun _ => rfl)
    fun _ h => absurd h List.not_mem_nil

end Steps

theorem widgetsOk_of_run {ls : List UiLab} {u : Ui} {tr : List UiEv}
    (h : Run menu bootUi ls u tr) : WidgetsOk u :=
  h.invariant (P := fun u _ => WidgetsOk u) widgetsOk_boot fun _ _ _ _ _ hP hs =>
    widgetsOk_step hP hs

/-- Each page-local pointer is NULL or points to a live descendant of
    `menu_cont`, and LVGL has been given live objects only. -/
structure NoDangling (u : Ui) : Prop where
  widgets : ∀ w, u.widget w = none ∨
    ∃ o c, u.widget w = some o ∧ u.menuCont = some c ∧ u.objs.isLive o = true ∧
      u.objs.isLive c = true ∧ u.objs.Below c o
  calls : ∀ o alive, (o, alive) ∈ u.calls → alive = true

/-- **No page widget dangles**, in any run of buttons, sliders and timers. -/
theorem no_dangling_widgets {ls : List UiLab} {u : Ui} {tr : List UiEv}
    (h : Run menu bootUi ls u tr) : NoDangling u := by
  obtain ⟨c, hc⟩ := widgetsOk_of_run h
  refine ⟨fun w => ?_, fun o alive hmem => hc.calls _ hmem⟩
  cases hw : u.widget w with
  | none => exact .inl rfl
  | some o =>
      have ho := hc.widgets w o hw
      exact .inr ⟨o, c, rfl, hc.cont, ho.live, hc.rooted.root, ho.below⟩

/-- Hardware Tests and its audio page, whose timer runs. -/
def audioPageShown : List UiLab := [.press 6 false, .press 26 false, .audioMicUi]

theorem no_dangling_widgets_at :
    ∃ u tr, Run menu bootUi audioPageShown u tr ∧ u.widget .audioMicStatusLabel = some 36 ∧
      NoDangling u := by
  have hrun : ∃ u tr, exec menu bootUi audioPageShown = some (u, tr) ∧
      u.widget .audioMicStatusLabel = some 36 := ⟨_, _, rfl, rfl⟩
  obtain ⟨u, tr, hexec, hlabel⟩ := hrun
  exact ⟨u, tr, run_of_exec hexec, hlabel, no_dangling_widgets (run_of_exec hexec)⟩

end MenuWidget
