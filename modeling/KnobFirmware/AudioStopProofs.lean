import KnobFirmware.AudioOwnershipProofs

/-! # Leaving the audio page stops the workers

    The Back button of the audio page asks all three workers to stop and then
    leaves the page.  A request is a flag that the worker tests before each
    block.  It is cleared by the worker itself once it is past its loop, and by
    a start function where no task of the worker is left, so a worker that was
    asked begins no further block.

    `Leaving` carries the callback: while it runs, each worker is going to be
    asked, or has been.  `Away` carries the time after it: the buttons that
    start a worker are on the audio page alone. -/

namespace AudioStop

open AudioTask AudioOwnership StepMachine TaskPool

/-! ## What is claimed -/

/-- A task of the worker that has yet to test its flag has it set. -/
def Stopping (k : Worker) (p : AudioPool) : Prop :=
  ∀ t ∈ p.tasks, t.role = .worker k → .loop k ∈ t.todo → p.shared.stopRequested k = true

/-- The step goes round the processing loop of the worker. -/
def BeginsBlock (k : Worker) (p : AudioPool) : Lab Reply Callback → Prop
  | .run i _ => ∃ rest, p.tasks[i]? = some ⟨.worker k, .loop k :: rest⟩ ∧
      p.shared.stopRequested k = false
  | .call _ _ => False

/-- `audio_mic_back_cb` has run to its end, and the page has not been entered
    since. -/
inductive LeftByBack (p : AudioPool) : Prop where
  | mk {before during after : List (Lab Reply Callback)} {menu : MenuId}
      {p₁ p₂ p₃ : AudioPool} {tr₁ es tr₂ tr₃ : List AudioEv}
      (reached : Run audio bootAudio before p₁ tr₁)
      (pressed : audio.step p₁ (.call 0 (.audioMicBack menu)) = some (p₂, es))
      (runs : Run audio p₂ during p₃ tr₂) (noOther : ∀ i c, .call i c ∉ during)
      (ends : p₃.tasks[0]? = some ⟨.ui, []⟩)
      (goesOn : Run audio p₃ after p tr₃)
      (away : Always audio p₃ (fun q _ => q.shared.currentMenu ≠ .hwAudioMic) after) :
      LeftByBack p

/-- Every worker is told to stop or past its loop, and none begins a block. -/
structure NothingRunning (p : AudioPool) : Prop where
  told : ∀ k, ∀ t ∈ p.tasks, t.role = .worker k →
    p.shared.stopRequested k = true ∨ .loop k ∉ t.todo
  noBlock : ∀ k l, ¬ BeginsBlock k p l

/-- What a step that clears a stop flag is: the worker's own, past its loop, or
    a start where the worker that was asked is gone. -/
def ClearedInOrder (k : Worker) (p : AudioPool) (l : Lab Reply Callback) : Prop :=
  (∃ i r rest, l = .run i r ∧ p.tasks[i]? = some ⟨.worker k, .setStop k false :: rest⟩ ∧
      .loop k ∉ rest) ∨
    ((∃ i r rest, l = .run i r ∧ p.tasks[i]? = some ⟨.ui, .setStop k false :: rest⟩ ∧
        .create k ∈ rest) ∧
      ∀ t ∈ p.tasks, t.role = .worker k → t.todo = [])

/-- The step keeps a request that was made. -/
def RequestKept (k : Worker) (p p' : AudioPool) (l : Lab Reply Callback) : Prop :=
  p.shared.stopRequested k = true → p'.shared.stopRequested k = true ∨ ClearedInOrder k p l

/-! ## Loops and flags under one instruction -/

section Instructions

variable {k : Worker} {ρ : Role} {i fresh : Nat} {a : Instr} {rest : List Instr}
  {sh : Shared} {r : Reply} {tr : List AudioEv}

theorem loop_not_mem_fail (e : EspErr) : .loop k ∉ (failWith e ρ).code := by
  cases ρ with
  | ui => simp [failWith, Next.code]
  | worker k' => cases k' <;> simp [failWith, Next.code, cleanup, closes, leave]

/-- Nothing but the test of a loop leads round it again. -/
theorem loop_brought (h : .loop k ∈ (runInstr ρ i fresh a sh r).next.code) : a = .loop k := by
  have hfail : ∀ e, .loop k ∉ (failWith e ρ).code := loop_not_mem_fail
  cases a with
  | gpio | newChannel =>
      simp only [runInstr] at h
      split at h
      · simp [Next.code] at h
      · exact absurd h (hfail _)
  | call s op c =>
      simp only [runInstr] at h
      cases op with
      | disable | delete => simp [afterCall, Next.code] at h
      | init | enable | write =>
          rw [afterCall] at h
          split at h
          · simp [Next.code] at h
          · exact absurd h (hfail _)
      | read =>
          rw [afterCall] at h
          split at h
          · simp [Next.code] at h
          · split at h
            · cases s with
              | loopbackRx =>
                  rw [afterRead] at h
                  split at h <;> simp [Next.code] at h
              | micRx | dacTx | loopbackTx => simp [afterRead, Next.code] at h
            · exact absurd h (hfail _)
  | recheck cs =>
      cases cs with
      | nil => simp [runInstr, afterRecheck, Next.code] at h
      | cons c cs =>
          simp only [runInstr, afterRecheck] at h
          split at h
          · simp [Next.code] at h
          · exact absurd h (hfail _)
  | poll cs n =>
      cases cs with
      | nil => simp [runInstr, afterPoll, Next.code] at h
      | cons c cs =>
          simp only [runInstr, afterPoll] at h
          split at h
          · simp [Next.code] at h
          · split at h <;> simp [Next.code] at h
  | loop k' =>
      simp only [runInstr] at h
      split at h
      · simp [Next.code] at h
      · have hk : k = k' := by cases k' <;> simpa [Next.code, loopBody] using h
        rw [hk]
  | ifStopped | rejectIf =>
      simp only [runInstr] at h
      split at h <;> simp [Next.code, cleanup, closes, leave] at h
  | requestStop | stopUnlessError | create | pollStop | ifOpen | settleUnlessError
  | leaveAudio =>
      simp only [runInstr] at h
      split at h <;> simp [Next.code] at h
  | setState | setError | setStop | setMeter | publish | clearHandle | clearChan | setMenu
  | use | toggleMute => simp [runInstr, Next.code] at h

/-- A loop that is to come after a step was to come before it. -/
theorem loop_after (h : .loop k ∈ (runInstr ρ i fresh a sh r).next.after rest) :
    .loop k ∈ a :: rest := by
  rcases Next.mem_after h with h1 | h1
  · rw [loop_brought h1]
    exact List.mem_cons_self
  · exact List.mem_cons_of_mem a h1

/-- The UI task brings in a write of a stop flag to ask for a stop alone. -/
theorem ui_brings_flag (h : UiCode a) {b : Bool}
    (hmem : .setStop k b ∈ (runInstr .ui i fresh a sh r).next.code) : b = true := by
  cases a with
  | requestStop k' =>
      simp only [runInstr] at hmem
      split at hmem
      · simp [Next.code] at hmem
      · simp [Next.code] at hmem
        exact hmem.2
  | stopUnlessError | create | leaveAudio | rejectIf =>
      simp only [runInstr] at hmem
      split at hmem <;> simp [Next.code] at hmem
  | toggleMute | setState | setError | setStop | setMeter | clearHandle | setMenu =>
      simp [runInstr, Next.code] at hmem
  | _ => exact h.elim

/-- A worker clears its own flag, past its loop. -/
theorem worker_clears {k' : Worker} (h : Position k' (.setStop k false :: rest)) :
    k = k' ∧ .loop k ∉ rest := by
  rcases h.head with h1 | ⟨h1, -⟩ | h1
  · exact nomatch h1.2
  · exact nomatch h1
  · have hmem := h1.subset List.mem_cons_self
    have hk : k = k' := by cases k' <;> simpa [settled, leave] using hmem
    subst hk
    refine ⟨rfl, fun hloop => ?_⟩
    have hnone : .loop k ∉ settled k := by cases k <;> simp [settled, leave]
    exact hnone (h1.subset (List.mem_cons_of_mem _ hloop))

/-- A flag that is set stays so, unless the step is the write that clears it. -/
theorem flag_kept (hset : sh.stopRequested k = true) (ha : a ≠ .setStop k false) :
    (runInstr ρ i fresh a sh r).shared.stopRequested k = true := by
  have h : (runInstr ρ i fresh a sh r).shared.stopRequested k = sh.stopRequested k ∨ _ :=
    runInstr_stopRequested k
  rcases h with h1 | ⟨b, rfl, h1⟩
  · exact h1.trans hset
  · cases b with
    | true => exact h1
    | false => exact absurd rfl ha

end Instructions

/-! ## The UI task -/

/-- The UI task clears a flag in a start function alone. -/
def UiFlags (_ : Nat) (t : Task Role Instr) (_ : Shared) (_ : List AudioEv) : Prop :=
  t.role = .ui → ∀ k, .setStop k false ∈ t.todo → .create k ∈ t.todo

theorem uiFlags_step {p p' : AudioPool} {l : Lab Reply Callback} {tr es : List AudioEv}
    (hok : Owned p tr) (h : Holds (fun _ _ => True) UiFlags p tr)
    (hs : audio.step p l = some (p', es)) : Holds (fun _ _ => True) UiFlags p' (tr ++ es) := by
  refine holds_step h ?_ ?_ ?_ ?_ hs
  · intro i r ρ a rest _ hi ht
    refine ⟨trivial, ?_⟩
    rintro rfl k hmem
    obtain ⟨-, hui⟩ : i = 0 ∧ UiOk (a :: rest) p.shared := hok.2 i _ hi
    have hcode := hui.code a List.mem_cons_self
    rcases Next.mem_after hmem with h1 | h1
    · exact nomatch ui_brings_flag hcode h1
    · have hn : (∃ q, (runInstr .ui i p.tasks.length a p.shared r).next = .goOn q ∧ _) ∨ _ :=
        ui_next hcode
      rcases hn with ⟨q, hq, -⟩ | ⟨-, hq⟩
      · rcases List.mem_cons.mp (ht rfl k (List.mem_cons_of_mem a h1)) with rfl | h2
        · -- nothing follows a creation
          rw [hui.at_create.1] at h1
          exact absurd h1 List.not_mem_nil
        · show _ ∈ (runInstr .ui i p.tasks.length a p.shared r).next.after rest
          rw [hq]
          exact List.mem_append_right q h2
      · change _ ∈ (runInstr .ui i p.tasks.length a p.shared r).next.after rest at hmem
        rw [hq] at hmem
        exact absurd hmem List.not_mem_nil
  · intro i r ρ a rest j u _ _ _ _ _ hu
    exact hu
  · intro i r ρ a rest ρ' _ _ _ o hspawn hui
    obtain ⟨k, -, -, rfl⟩ := runInstr_spawn hspawn
    cases hui
  · intro i c ρ code _ _ _ hcall
    obtain ⟨rfl, rfl⟩ := audio_call_inv hcall
    intro _ k hmem
    cases c with
    | start k' =>
        have hk : k = k' := by
          cases k' <;> simpa [Callback.code, startCode, startWrites] using hmem
        subst hk
        exact List.mem_append_right _ List.mem_cons_self
    | _ => simp [Callback.code, showMenu, sdCardMount] at hmem

theorem uiFlags_of_run {ls : List (Lab Reply Callback)} {p : AudioPool} {tr : List AudioEv}
    (h : Run audio bootAudio ls p tr) : Holds (fun _ _ => True) UiFlags p tr := by
  have hboot : Holds (fun _ _ => True) UiFlags bootAudio [] := by
    refine ⟨trivial, fun i t hi _ k hmem => ?_⟩
    obtain ⟨rfl, rfl⟩ := boot_task hi
    exact absurd hmem List.not_mem_nil
  refine (h.invariant (P := fun p tr => Owned p tr ∧ Holds (fun _ _ => True) UiFlags p tr)
    ⟨owned_boot, hboot⟩ ?_).2
  intro s tr l s' es hP hs
  exact ⟨owned_step hP.1 hs, uiFlags_step hP.1 hP.2 hs⟩

/-- **A request is kept** until the worker has followed it, or is gone. -/
theorem request_kept {ls : List (Lab Reply Callback)} {p p' : AudioPool}
    {tr es : List AudioEv} {l : Lab Reply Callback} (h : Run audio bootAudio ls p tr)
    (hs : audio.step p l = some (p', es)) (k : Worker) : RequestKept k p p' l := by
  intro hset
  have hok := owned_of_run h
  cases l with
  | call i c =>
      obtain ⟨ρ, code, -, -, rfl, -⟩ := step_call_inv hs
      exact .inl hset
  | run i r =>
      obtain ⟨ρ, a, rest, hi, rfl, -⟩ := step_run_inv hs
      by_cases ha : a = .setStop k false
      · subst ha
        right
        cases ρ with
        | worker k' =>
            have hok' : WorkerOk k' i (.setStop k false :: rest) p.shared := hok.2 i _ hi
            obtain ⟨rfl, hloop⟩ := worker_clears hok'.position
            exact .inl ⟨i, r, rest, rfl, hi, hloop⟩
        | ui =>
            obtain ⟨-, hui⟩ : i = 0 ∧ UiOk (.setStop k false :: rest) p.shared := hok.2 i _ hi
            have hc : .create k ∈ Instr.setStop k false :: rest :=
              (uiFlags_of_run h).2 i _ hi rfl k List.mem_cons_self
            have hrest : .create k ∈ rest := (List.mem_cons.mp hc).resolve_left (by simp)
            refine .inr ⟨⟨i, r, rest, rfl, hi, hrest⟩, ?_⟩
            -- the start has passed its guards
            have hnull := hui.past_guards hc (by simp) (own_handle_mem_startGuards k)
            rintro t ht hrole
            obtain ⟨j, hj⟩ := List.mem_iff_getElem?.mp ht
            obtain ⟨ρ', todo⟩ := t
            obtain rfl : ρ' = .worker k := hrole
            have hj' : WorkerOk k j todo p.shared := hok.2 j _ hj
            by_contra hne
            exact nomatch hnull.symm.trans (hj'.live hne)
      · exact .inl (flag_kept hset ha)

/-! ## While the callback runs -/

/-- Code that starts no worker. -/
def Plain (todo : List Instr) : Prop :=
  ∀ k, .create k ∉ todo ∧ .setStop k false ∉ todo

/-- The code comes to ask the worker to stop, with no return before. -/
def Asks (k : Worker) : List Instr → Prop
  | [] => False
  | a :: rest =>
      (∀ g, a ≠ .rejectIf g) ∧ (a = .requestStop k ∨ a = .setStop k true ∨ Asks k rest)

structure Leaving (p : AudioPool) : Prop where
  plain : ∀ todo, p.tasks[0]? = some ⟨.ui, todo⟩ → Plain todo
  asks : ∀ todo, p.tasks[0]? = some ⟨.ui, todo⟩ → ∀ k, Asks k todo ∨ Stopping k p

section Steps

variable {k : Worker} {p p' : AudioPool} {l : Lab Reply Callback} {tr es : List AudioEv}
  {i fresh : Nat} {a : Instr} {rest : List Instr} {sh : Shared} {r : Reply}

theorem Asks.append {pre : List Instr} (h : Asks k rest) (hpre : ∀ b ∈ pre, ∀ g, b ≠ .rejectIf g) :
    Asks k (pre ++ rest) := by
  induction pre with
  | nil => exact h
  | cons b pre ih =>
      refine ⟨hpre b List.mem_cons_self, .inr (.inr ?_)⟩
      exact ih fun c hc => hpre c (List.mem_cons_of_mem b hc)

/-- The UI task goes on without a guard in what it brings in. -/
theorem ui_goes_on (h : UiCode a) (ha : ∀ g, a ≠ .rejectIf g) :
    ∃ q, (runInstr .ui i fresh a sh r).next = .goOn q ∧ ∀ b ∈ q, ∀ g, b ≠ .rejectIf g := by
  have hn : (∃ q, (runInstr .ui i fresh a sh r).next = .goOn q ∧ _) ∨ _ := ui_next h
  rcases hn with ⟨q, hq, -⟩ | ⟨⟨g, rfl⟩, -⟩
  · refine ⟨q, hq, ?_⟩
    rintro b hb g rfl
    have hcode : .rejectIf g ∈ (runInstr .ui i fresh a sh r).next.code := by
      rw [hq]
      exact hb
    exact runInstr_brought _ hcode
  · exact absurd rfl (ha g)

/-- Code that starts nothing goes on to start nothing. -/
theorem Plain.step (h : Plain (a :: rest)) (hcode : UiCode a) :
    Plain ((runInstr .ui i fresh a sh r).next.after rest) := by
  intro k
  refine ⟨fun hmem => ?_, fun hmem => ?_⟩
  · exact (h k).1 (List.mem_cons_of_mem a (rooted_after id hmem).1)
  · rcases Next.mem_after hmem with h1 | h1
    · exact nomatch ui_brings_flag hcode h1
    · exact (h k).2 (List.mem_cons_of_mem a h1)

/-- A worker that was told to stop stays told, while none is started. -/
theorem stopping_step (hok : Owned p tr)
    (hplain : ∀ todo, p.tasks[0]? = some ⟨.ui, todo⟩ → Plain todo) (h : Stopping k p)
    (hs : audio.step p l = some (p', es)) : Stopping k p' := by
  rintro ⟨ρ', todo'⟩ ht hrole hloop
  obtain rfl : ρ' = .worker k := hrole
  obtain ⟨j, hj⟩ := List.mem_iff_getElem?.mp ht
  cases l with
  | call i c =>
      obtain ⟨ρ, code, hi, hcall, rfl, -⟩ := step_call_inv hs
      obtain ⟨rfl, -⟩ := audio_call_inv hcall
      have hji : j ≠ i := by
        rintro rfl
        obtain ⟨hlt, -⟩ := List.getElem?_eq_some_iff.mp hi
        rw [List.getElem?_set_self hlt] at hj
        cases Option.some.inj hj
      rw [List.getElem?_set_ne (Ne.symm hji)] at hj
      exact h _ (List.mem_of_getElem? hj) rfl hloop
  | run i r =>
      obtain ⟨ρ, a, rest, hi, rfl, -⟩ := step_run_inv hs
      have ht' := hok.2 i _ hi
      have hflag : a ≠ .setStop k false ∨ (ρ = .worker k ∧ .loop k ∉ rest) := by
        by_cases ha : a = .setStop k false
        · subst ha
          right
          cases ρ with
          | ui =>
              obtain rfl : i = 0 := ht'.1
              exact absurd List.mem_cons_self (hplain _ hi k).2
          | worker k' =>
              have hw : WorkerOk k' i (.setStop k false :: rest) p.shared := ht'
              obtain ⟨rfl, hno⟩ := worker_clears hw.position
              exact ⟨rfl, hno⟩
        · exact .inl ha
      rcases tasks_run hj with ⟨rfl, hu⟩ | ⟨hne, hwas⟩ | ⟨rfl, ρ', hspawn, hu⟩
      · -- the task itself
        obtain ⟨rfl, rfl⟩ := Task.mk.inj hu
        have hwas : .loop k ∈ a :: rest := loop_after hloop
        have hset := h _ (List.mem_of_getElem? hi) rfl hwas
        refine flag_kept hset fun ha => ?_
        subst ha
        rcases hflag with h1 | ⟨-, h1⟩
        · exact h1 rfl
        · exact h1 ((List.mem_cons.mp hwas).resolve_left (by simp))
      · have hset := h _ (List.mem_of_getElem? hwas) rfl hloop
        refine flag_kept hset fun ha => ?_
        rcases hflag with h1 | ⟨rfl, -⟩
        · exact h1 ha
        · -- a second task of the worker has nothing left
          have hw : WorkerOk k j todo' p.shared := hok.2 j _ hwas
          exact hne (hw.unique ht' (List.ne_nil_of_mem hloop) (List.cons_ne_nil _ _))
      · obtain ⟨k', rfl, -, -⟩ := runInstr_spawn hspawn
        cases ρ with
        | ui =>
            obtain rfl : i = 0 := ht'.1
            exact absurd List.mem_cons_self (hplain _ hi k').1
        | worker k'' =>
            have hw : WorkerOk k'' i (.create k' :: rest) p.shared := ht'
            exact absurd List.mem_cons_self hw.position.create_not_mem

/-- Where a handle is NULL no task of the worker is left to stop. -/
theorem stopping_of_null (hok : Owned p tr) (h : p.shared.handle k = none) : Stopping k p := by
  rintro ⟨ρ, todo⟩ ht hrole hloop
  obtain rfl : ρ = .worker k := hrole
  obtain ⟨j, hj⟩ := List.mem_iff_getElem?.mp ht
  have hw : WorkerOk k j todo p.shared := hok.2 j _ hj
  exact nomatch h.symm.trans (hw.live (List.ne_nil_of_mem hloop))

/-- What the UI task has left to run after a step of some task. -/
theorem ui_after_run {ρ : Role} {todo : List Instr}
    (h : (p.tasks.set i ⟨ρ, (runInstr ρ i p.tasks.length a p.shared r).next.after rest⟩ ++
      audioProgram.spawned (runInstr ρ i p.tasks.length a p.shared r).spawn)[0]? =
        some ⟨.ui, todo⟩) :
    (i = 0 ∧ ρ = .ui ∧ todo = (runInstr .ui 0 p.tasks.length a p.shared r).next.after rest) ∨
      p.tasks[0]? = some ⟨.ui, todo⟩ := by
  rcases tasks_run h with ⟨rfl, hu⟩ | ⟨-, h1⟩ | ⟨-, ρ', hspawn, hu⟩
  · obtain ⟨rfl, rfl⟩ := Task.mk.inj hu
    exact .inl ⟨rfl, rfl, rfl⟩
  · exact .inr h1
  · obtain ⟨k, -, -, rfl⟩ := runInstr_spawn hspawn
    cases (Task.mk.inj hu).1

/-- **The callback goes on asking.** -/
theorem leaving_step (hok : Owned p tr) (h : Leaving p) (hl : ∀ i c, l ≠ .call i c)
    (hs : audio.step p l = some (p', es)) : Leaving p' := by
  have hstop : ∀ k, Stopping k p → Stopping k p' :=
    fun k hk => stopping_step hok h.plain hk hs
  cases l with
  | call i c => exact absurd rfl (hl i c)
  | run i r =>
      obtain ⟨ρ, a, rest, hi, rfl, -⟩ := step_run_inv hs
      have htask := hok.2 i _ hi
      refine ⟨fun todo h0 => ?_, fun todo h0 k => ?_⟩
      · rcases ui_after_run h0 with ⟨rfl, rfl, rfl⟩ | h1
        · exact (h.plain _ hi).step (htask.2.code a List.mem_cons_self)
        · exact h.plain todo h1
      · rcases ui_after_run h0 with ⟨rfl, rfl, rfl⟩ | h1
        · rcases h.asks _ hi k with ⟨hreject, hask⟩ | h2
          · obtain ⟨q, hq, hq'⟩ :
                ∃ q, (runInstr .ui 0 p.tasks.length a p.shared r).next = .goOn q ∧ _ :=
              ui_goes_on (htask.2.code a List.mem_cons_self) hreject
            rcases hask with rfl | rfl | hask
            · -- the test of the handle
              by_cases hnull : p.shared.handle k = none
              · exact .inr (hstop k (stopping_of_null hok hnull))
              · left
                show Asks k ((if _ then _ else _) ++ rest)
                rw [if_neg hnull]
                exact ⟨by simp, .inr (.inr ⟨by simp, .inr (.inl rfl)⟩)⟩
            · right
              intro t _ _ _
              simp [audioProgram, runInstr]
            · left
              rw [hq]
              exact hask.append hq'
          · exact .inr (hstop k h2)
        · exact (h.asks todo h1 k).imp_right (hstop k)

end Steps

/-! ## After the callback -/

/-- No start is under way, and every worker is told to stop. -/
structure Away (p : AudioPool) : Prop where
  plain : ∀ todo, p.tasks[0]? = some ⟨.ui, todo⟩ → Plain todo
  stopping : ∀ k, Stopping k p

/-- A callback that runs off the audio page starts no worker. -/
theorem plain_code {c : Callback} (hpage : c.page ≠ some .hwAudioMic) : Plain c.code := by
  intro k
  cases c with
  | start k' => exact absurd rfl hpage
  | _ => exact ⟨by simp [Callback.code, showMenu, sdCardMount],
      by simp [Callback.code, showMenu, sdCardMount]⟩

/-- **Away from the page every worker stays stopped.** -/
theorem away_step {p p' : AudioPool} {l : Lab Reply Callback} {tr es : List AudioEv}
    (hok : Owned p tr) (h : Away p) (haway : p.shared.currentMenu ≠ .hwAudioMic)
    (hs : audio.step p l = some (p', es)) : Away p' := by
  refine ⟨fun todo h0 => ?_, fun k => stopping_step hok h.plain (h.stopping k) hs⟩
  cases l with
  | call i c =>
      obtain ⟨ρ, code, hi, hcall, rfl, -⟩ := step_call_inv hs
      obtain ⟨rfl, rfl⟩ := audio_call_inv hcall
      obtain rfl : i = 0 := (hok.2 i _ hi).1
      obtain ⟨hlt, -⟩ := List.getElem?_eq_some_iff.mp hi
      rw [List.getElem?_set_self hlt] at h0
      obtain rfl := (Task.mk.inj (Option.some.inj h0)).2
      exact plain_code fun hpage => haway (audio_call_page hcall hpage)
  | run i r =>
      obtain ⟨ρ, a, rest, hi, rfl, -⟩ := step_run_inv hs
      rcases ui_after_run h0 with ⟨rfl, rfl, rfl⟩ | h1
      · exact (h.plain _ hi).step ((hok.2 _ _ hi).2.code a List.mem_cons_self)
      · exact h.plain todo h1

/-- The callback begins with all three requests to come. -/
theorem leaving_of_back {p p' : AudioPool} {menu : MenuId} {es : List AudioEv}
    (hs : audio.step p (.call 0 (.audioMicBack menu)) = some (p', es)) : Leaving p' := by
  obtain ⟨ρ, code, hi, hcall, rfl, -⟩ := step_call_inv hs
  obtain ⟨rfl, rfl⟩ := audio_call_inv hcall
  obtain ⟨hlt, -⟩ := List.getElem?_eq_some_iff.mp hi
  have hcode : ∀ todo, (p.tasks.set 0 ⟨.ui, (Callback.audioMicBack menu).code⟩)[0]? =
      some ⟨.ui, todo⟩ → todo = (Callback.audioMicBack menu).code := by
    intro todo h0
    rw [List.getElem?_set_self hlt] at h0
    exact ((Task.mk.inj (Option.some.inj h0)).2).symm
  refine ⟨fun todo h0 => ?_, fun todo h0 k => ?_⟩
  · obtain rfl := hcode todo h0
    intro k
    exact ⟨by simp [Callback.code, showMenu, sdCardMount],
      by simp [Callback.code, showMenu, sdCardMount]⟩
  · obtain rfl := hcode todo h0
    left
    cases k <;> simp [Callback.code, Asks]

/-- Every state that the page was left for is one with the workers stopped. -/
theorem away_of_left {p : AudioPool} (h : LeftByBack p) : Away p := by
  cases h with
  | @mk before during after menu p₁ p₂ p₃ tr₁ es tr₂ tr₃ reached pressed runs noOther ends
      goesOn away =>
      have hok₂ : Owned p₂ (tr₁ ++ es) := owned_step (owned_of_run reached) pressed
      have hno : Meets audio p₂ (fun _ l => ∀ i c, l ≠ .call i c) during := by
        rintro pre l post s tr rfl _ i c rfl
        exact noOther i c (by simp)
      have hleaving : Owned p₃ (tr₁ ++ es ++ tr₂) ∧ Leaving p₃ := by
        refine runs.invariant_of_meets (P := fun s tr => Owned s (tr₁ ++ es ++ tr) ∧ Leaving s)
          ⟨by simpa using hok₂, leaving_of_back pressed⟩ ?_ hno
        intro s tr l s' es' hP hC hs
        refine ⟨?_, leaving_step hP.1 hP.2 hC hs⟩
        rw [← List.append_assoc]
        exact owned_step hP.1 hs
      obtain ⟨hok₃, hleave⟩ := hleaving
      have hnow : Away p₃ :=
        ⟨hleave.plain, fun k => (hleave.asks [] ends k).resolve_left id⟩
      have haway : Meets audio p₃ (fun q _ => q.shared.currentMenu ≠ .hwAudioMic) after :=
        meets_of_always away fun _ _ _ hq => hq
      refine (goesOn.invariant_of_meets
        (P := fun s tr => Owned s (tr₁ ++ es ++ tr₂ ++ tr) ∧ Away s)
        ⟨by simpa using hok₃, hnow⟩ ?_ haway).2
      intro s tr l s' es' hP hC hs
      refine ⟨?_, away_step hP.1 hP.2 hC hs⟩
      rw [← List.append_assoc]
      exact owned_step hP.1 hs

/-- **Leaving the audio page leaves nothing running.**  In every state after the
    Back button's callback, until the page is entered again, each worker is
    told to stop or past its loop, and begins no block; and in every run a
    request to stop is cleared by the worker that it is for, or where that
    worker is gone (a start may so clear one that came after its worker had
    gone). -/
theorem left_page_stops :
    (∀ p, LeftByBack p → NothingRunning p) ∧
      ∀ ls p tr, Run audio bootAudio ls p tr →
        ∀ l p' es, audio.step p l = some (p', es) → ∀ k, RequestKept k p p' l := by
  refine ⟨fun p h => ?_, fun ls p tr h l p' es hs k => request_kept h hs k⟩
  have haway := away_of_left h
  refine ⟨fun k t ht hrole => ?_, fun k l hbegin => ?_⟩
  · by_cases hloop : .loop k ∈ t.todo
    · exact .inl (haway.stopping k t ht hrole hloop)
    · exact .inr hloop
  · cases l with
    | call i c => exact hbegin
    | run i r =>
        obtain ⟨rest, hi, hclear⟩ := hbegin
        have hset := haway.stopping k _ (List.mem_of_getElem? hi) rfl List.mem_cons_self
        exact nomatch hclear.symm.trans hset

/-- The Back button is pressed while the meter is in a block. -/
theorem left_page_stops_at :
    ∃ p p', LeftByBack p ∧ (∃ t ∈ p.tasks, t.role = .worker .mic ∧ .loop .mic ∈ t.todo) ∧
      NothingRunning p ∧ audio.step p (.run 1 {}) = some (p', []) ∧
      p.shared.stopRequested .mic = true ∧ RequestKept .mic p p' (.run 1 {}) := by
  have hon : ∃ p₁ tr₁, exec audio bootAudio meterOn = some (p₁, tr₁) ∧
      ∃ p₂, audio.step p₁ (.call 0 (.audioMicBack .hardwareTests)) = some (p₂, []) ∧
      ∃ p₃ tr₃, exec audio p₂ (List.replicate 14 (.run 0 {})) = some (p₃, tr₃) ∧
      p₃.tasks[0]? = some ⟨.ui, []⟩ ∧ p₃.shared.currentMenu ≠ .hwAudioMic ∧
      (∃ t ∈ p₃.tasks, t.role = .worker .mic ∧ .loop .mic ∈ t.todo) ∧
      p₃.shared.stopRequested .mic = true ∧
      ∃ p₄, audio.step p₃ (.run 1 {}) = some (p₄, []) :=
    ⟨_, _, rfl, _, rfl, _, _, rfl, rfl, by decide, ⟨_, .tail _ (.head _), rfl, by decide⟩, rfl,
      _, rfl⟩
  obtain ⟨p₁, tr₁, hbefore, p₂, hpress, p₃, tr₃, hduring, hdone, haway, ht, hflag, p₄, hnext⟩ := hon
  have hleft : LeftByBack p₃ :=
    .mk (run_of_exec hbefore) hpress (run_of_exec hduring) (by simp) hdone .nil (always_nil haway)
  have hrun : Run audio bootAudio _ p₃ _ :=
    ((run_of_exec hbefore).snoc hpress).append (run_of_exec hduring)
  exact ⟨p₃, p₄, hleft, ht, left_page_stops.1 p₃ hleft, hnext, hflag,
    left_page_stops.2 _ _ _ hrun _ _ _ hnext .mic⟩

end AudioStop
