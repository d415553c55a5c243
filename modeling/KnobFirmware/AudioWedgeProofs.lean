import KnobFirmware.AudioOwnershipProofs

/-! # No start is refused for a worker that is gone

    A start function refuses while the worker's state is STARTING, RUNNING or
    STOPPING, and only the worker itself leads it out of these states, in its
    cleanup.  A `xxx_request_stop` function tests the handle and writes STOPPING
    in a later step, so the worker may be past its cleanup by then.

    `StopsInTime` is the condition that this never happens: every STOPPING is
    written while a task of the worker has yet to settle its state.  Under it
    the state of a worker whose handle is NULL is STOPPED or ERROR, outside a
    start function; without it a STOPPING may stay for good. -/

namespace AudioWedge

open AudioTask AudioOwnership EspErr StepMachine TaskPool

/-! ## The condition -/

/-- The worker whose state the step sets to STOPPING. -/
def writesStopping (p : AudioPool) : Lab Reply Callback → Option Worker
  | .run i _ =>
      match p.tasks[i]? with
      | some ⟨_, .setState k .stopping :: _⟩ => some k
      | _ => none
  | .call _ _ => none

/-- A task of the worker that has yet to settle its state. -/
def Settling (k : Worker) (t : Task Role Instr) : Prop :=
  t.role = .worker k ∧ (.settleUnlessError k ∈ t.todo ∨ .setState k .stopped ∈ t.todo)

instance (k : Worker) (t : Task Role Instr) : Decidable (Settling k t) :=
  inferInstanceAs (Decidable (_ ∧ _))

/-- The step writes no STOPPING, or one that the worker will still settle. -/
def StopsInTime (p : AudioPool) (l : Lab Reply Callback) : Prop :=
  ∀ k ∈ writesStopping p l, ∃ t ∈ p.tasks, Settling k t

instance (p : AudioPool) (l : Lab Reply Callback) : Decidable (StopsInTime p l) :=
  inferInstanceAs (Decidable (∀ k ∈ _, _))

theorem writesStopping_run {p : AudioPool} {i : Nat} {r : Reply} {ρ : Role} {k : Worker}
    {rest : List Instr} (hi : p.tasks[i]? = some ⟨ρ, .setState k .stopping :: rest⟩) :
    writesStopping p (.run i r) = some k := by
  rw [writesStopping, hi]

theorem writesStopping_inv {p : AudioPool} {l : Lab Reply Callback} {k : Worker}
    (h : writesStopping p l = some k) :
    ∃ i r ρ rest, l = .run i r ∧ p.tasks[i]? = some ⟨ρ, .setState k .stopping :: rest⟩ := by
  cases l with
  | call i c => exact nomatch h
  | run i r =>
      rw [writesStopping] at h
      split at h
      · rename_i ρ k' rest hi
        obtain rfl := Option.some.inj h
        exact ⟨i, r, ρ, rest, rfl, hi⟩
      · exact nomatch h

/-! ## The assertions -/

/-- STOPPED or ERROR: a state in which a worker can be started. -/
def AtRest (st : TestState) : Prop := st = .stopped ∨ st = .error

/-- A start of the worker between its guards and its result. -/
def MidStart (k : Worker) (todo : List Instr) : Prop :=
  (.create k ∈ todo ∨ .setState k .error ∈ todo) ∧ ∀ g, .rejectIf g ∉ todo

/-- A worker that has code left has yet to settle its state, or has done so. -/
def WorkerSettles (k : Worker) (todo : List Instr) (sh : Shared) : Prop :=
  todo ≠ [] → .settleUnlessError k ∈ todo ∨ .setState k .stopped ∈ todo ∨
    AtRest (sh.testState k)

structure UiSettles (todo : List Instr) (sh : Shared) : Prop where
  /-- the states that the UI task writes -/
  writes : ∀ k st, .setState k st ∈ todo → st = .stopping ∨ AtRest st ∨ .create k ∈ todo
  /-- a worker that is gone is at rest, unless it is being started -/
  gone : ∀ k, sh.handle k = none → AtRest (sh.testState k) ∨ MidStart k todo

def TaskSettles (_ : Nat) (t : Task Role Instr) (sh : Shared) (_ : List AudioEv) : Prop :=
  match t.role with
  | .ui => UiSettles t.todo sh
  | .worker k => WorkerSettles k t.todo sh

abbrev Settles : AudioPool → List AudioEv → Prop := Holds (fun _ _ => True) TaskSettles

/-! ## One step -/

section Step

variable {k k' : Worker} {ρ : Role} {i j fresh : Nat} {a : Instr} {rest todo : List Instr}
  {st : TestState} {sh : Shared} {r : Reply} {tr : List AudioEv}

/-- The states of the other workers that a worker writes: the loopback asks
    them to stop. -/
theorem foreign_state (h : Position k' (.setState k st :: rest)) (hne : k ≠ k') :
    k' = .loopback ∧ (st = .stopped ∨ st = .stopping) := by
  have hnot : .setState k st ∉ settled k' := by cases k' <;> simp [settled, leave, hne]
  have hearly : Early k' (.setState k st) := h.early_of_not_mem (by simp) hnot
  exact hearly.resolve_left hne

/-- A worker's step settles its state, or leaves that to be done. -/
theorem WorkerSettles.step (hok : WorkerOk k i (a :: rest) sh)
    (h : WorkerSettles k (a :: rest) sh) :
    WorkerSettles k ((runInstr (.worker k) i fresh a sh r).next.after rest)
      (runInstr (.worker k) i fresh a sh r).shared := by
  intro _
  have hpos := hok.position
  generalize htodo : a :: rest = todo at hpos
  cases hpos with
  | @early pre hpre =>
      cases pre with
      | nil =>
          obtain ⟨rfl, rfl⟩ := List.cons.inj htodo
          rw [settle_step]
          split
          · -- the test finds ERROR and leaves it
            rename_i herr
            exact .inr (.inr (.inr herr))
          · exact .inr (.inl List.mem_cons_self)
      | cons b pre =>
          obtain ⟨rfl, rfl⟩ := List.cons.inj htodo
          obtain ⟨pre', hafter, -⟩ := early_step hpre i fresh sh r
          left
          show _ ∈ (runInstr (.worker k) i fresh a sh r).next.after (pre ++ settleTail k)
          rw [hafter]
          exact List.mem_append_right pre' List.mem_cons_self
  | late hlate =>
      subst htodo
      have hmem := hlate.subset List.mem_cons_self
      rw [settled_next hmem, Next.after_goOn, List.nil_append]
      have hset : (runInstr (.worker k) i fresh a sh r).shared.testState k = sh.testState k ∨
          _ := runInstr_testState k
      rcases hset with h1 | ⟨st, rfl, h1⟩
      · rcases h (List.cons_ne_nil _ _) with h2 | h2 | h2
        · have hnone : .settleUnlessError k ∉ settled k := by cases k <;> simp [settled, leave]
          exact absurd (hlate.subset h2) hnone
        · rcases List.mem_cons.mp h2 with rfl | h3
          · exact .inr (.inr (.inl (by simp [runInstr])))
          · exact .inr (.inl h3)
        · exact .inr (.inr (h1 ▸ h2))
      · have hst : st = .stopped := by cases k <;> simpa [settled, leave] using hmem
        exact .inr (.inr (.inl (h1.trans hst)))

/-- A step of another task leaves a worker to settle its state. -/
theorem WorkerSettles.frame (ht : TaskOk i ⟨ρ, a :: rest⟩ sh tr)
    (hui : ρ = .ui → UiSettles (a :: rest) sh) (hok : WorkerOk k j todo sh)
    (h : WorkerSettles k todo sh) (hne : j ≠ i)
    (hstop : todo ≠ [] → a = .setState k .stopping →
      .settleUnlessError k ∈ todo ∨ .setState k .stopped ∈ todo) :
    WorkerSettles k todo (runInstr ρ i fresh a sh r).shared := by
  intro htodo
  have hset : (runInstr ρ i fresh a sh r).shared.testState k = sh.testState k ∨ _ :=
    runInstr_testState k
  rcases hset with h1 | ⟨st, rfl, h1⟩
  · rw [h1]
    exact h htodo
  · have stopping : st = .stopping → .settleUnlessError k ∈ todo ∨
        .setState k .stopped ∈ todo ∨
          AtRest ((runInstr ρ i fresh (.setState k st) sh r).shared.testState k) := by
      rintro rfl
      exact (hstop htodo rfl).imp_right .inl
    cases ρ with
    | worker k' =>
        have hk : k ≠ k' := by
          rintro rfl
          exact hne (hok.unique ht htodo (List.cons_ne_nil _ _))
        rcases (foreign_state (ht : WorkerOk _ _ _ _).position hk).2 with h2 | h2
        · exact .inr (.inr (.inl (h1.trans h2)))
        · exact stopping h2
    | ui =>
        rcases (hui rfl).writes k st List.mem_cons_self with h2 | h2 | h2
        · exact stopping h2
        · rw [h1]
          exact .inr (.inr h2)
        · -- a start of a worker that is there
          exfalso
          have hnull := ht.2.past_guards h2 (fun _ h => nomatch h) (own_handle_mem_startGuards k)
          exact nomatch hnull.symm.trans (hok.live htodo)

/-- A worker leaves at rest, and the loopback stops the others in time. -/
theorem UiSettles.frame (hok : WorkerOk k' i (a :: rest) sh)
    (hset : WorkerSettles k' (a :: rest) sh) (h : UiSettles todo sh)
    (hstop : ∀ k, a = .setState k .stopping → sh.handle k ≠ none) :
    UiSettles todo (runInstr (.worker k') i fresh a sh r).shared where
  writes := h.writes
  gone := by
    intro k hnull
    have hstate : (runInstr (.worker k') i fresh a sh r).shared.testState k = sh.testState k ∨
        _ := runInstr_testState k
    by_cases hk : k = k'
    · subst hk
      have ht : TaskOk i ⟨.worker k, a :: rest⟩ sh [] := hok
      have hlive := hok.live (List.cons_ne_nil _ _)
      rcases task_handle ht fresh r k with h1 | ⟨-, rfl, rfl, -⟩ | ⟨h1, -⟩
      · cases (h1.symm.trans hnull).symm.trans hlive
      · -- the last access of the worker
        left
        rcases hset (List.cons_ne_nil _ _) with h2 | h2 | h2
        · simp at h2
        · simp at h2
        · simpa [runInstr] using h2
      · cases h1
    · rw [hok.others_handle hk] at hnull
      rcases hstate with h1 | ⟨st, rfl, h1⟩
      · rw [h1]
        exact h.gone k hnull
      · rcases (foreign_state hok.position hk).2 with h2 | h2
        · exact .inl (.inl (h1.trans h2))
        · exact absurd hnull (hstop k (by rw [h2]))

/-- The states that an instruction of the UI task brings in. -/
theorem ui_brings_state (h : UiCode a)
    (hmem : .setState k st ∈ (runInstr .ui i fresh a sh r).next.code) :
    st = .stopping ∨ AtRest st := by
  cases a with
  | requestStop k' =>
      simp only [runInstr] at hmem
      split at hmem
      · simp [Next.code] at hmem
      · simp [Next.code] at hmem
        exact .inl hmem.2
  | stopUnlessError k' =>
      simp only [runInstr] at hmem
      split at hmem
      · simp [Next.code] at hmem
      · simp [Next.code] at hmem
        exact .inr (.inl hmem.2)
  | create k' =>
      simp only [runInstr] at hmem
      split at hmem
      · simp [Next.code] at hmem
      · simp [Next.code] at hmem
        exact .inr (.inr hmem.2)
  | leaveAudio | rejectIf =>
      simp only [runInstr] at hmem
      split at hmem <;> simp [Next.code] at hmem
  | toggleMute | setState | setError | setStop | setMeter | clearHandle | setMenu =>
      simp [runInstr, Next.code] at hmem
  | _ => exact h.elim

/-- A step of the UI task: a start ends with its worker or with ERROR. -/
theorem UiSettles.step (hok : UiOk (a :: rest) sh) (h : UiSettles (a :: rest) sh)
    (hstop : ∀ k, a = .setState k .stopping → sh.handle k ≠ none) :
    UiSettles ((runInstr .ui 0 fresh a sh r).next.after rest)
      (runInstr .ui 0 fresh a sh r).shared where
  writes := by
    intro k st hmem
    have hn : (∃ q, (runInstr .ui 0 fresh a sh r).next = .goOn q ∧ _) ∨ _ :=
      ui_next (hok.code a List.mem_cons_self)
    rcases hn with ⟨q, hq, -⟩ | ⟨-, hq⟩
    · rcases Next.mem_after hmem with h1 | h1
      · exact (ui_brings_state (hok.code a List.mem_cons_self) h1).imp_right .inl
      · refine (h.writes k st (List.mem_cons_of_mem a h1)).imp_right (Or.imp_right fun h2 => ?_)
        rw [hq]
        rcases List.mem_cons.mp h2 with rfl | h3
        · rw [hok.at_create.1] at h1
          exact absurd h1 List.not_mem_nil
        · exact List.mem_append_right q h3
    · rw [hq] at hmem
      exact absurd hmem List.not_mem_nil
  gone := by
    intro k hnull
    have ht : TaskOk 0 ⟨.ui, a :: rest⟩ sh [] := ⟨rfl, hok⟩
    have hwas : sh.handle k = none := by
      rcases task_handle ht fresh r k with h1 | ⟨h1, -⟩ | ⟨-, -, h1, -⟩
      · exact h1.symm.trans hnull
      · cases h1
      · exact h1
    have hset : (runInstr .ui 0 fresh a sh r).shared.testState k = sh.testState k ∨ _ :=
      runInstr_testState k
    rcases hset with h1 | ⟨st, rfl, h1⟩
    · rcases h.gone k hwas with h2 | ⟨h2, h3⟩
      · rw [h1]
        exact .inl h2
      · have later : ∀ b ∈ rest, b ∈ (runInstr .ui 0 fresh a sh r).next.after rest := by
          intro b hb
          have hn : (∃ q, (runInstr .ui 0 fresh a sh r).next = .goOn q ∧ _) ∨ _ :=
            ui_next (hok.code a List.mem_cons_self)
          rcases hn with ⟨q, hq, -⟩ | ⟨⟨g, rfl⟩, -⟩
          · rw [hq]
            exact List.mem_append_right q hb
          · exact absurd List.mem_cons_self (h3 g)
        have hguards : ∀ g, .rejectIf g ∉ (runInstr .ui 0 fresh a sh r).next.after rest :=
          fun g hg => h3 g (List.mem_cons_of_mem a (rooted_after id hg).1)
        rcases h2 with h2 | h2
        · rcases List.mem_cons.mp h2 with rfl | h4
          · -- the creation fails
            have hc : r.created ≠ true := by
              intro hc
              simp [runInstr, hc] at hnull
            exact .inr ⟨.inr (by simp [runInstr, hc]), hguards⟩
          · exact .inr ⟨.inl (later _ h4), hguards⟩
        · rcases List.mem_cons.mp h2 with rfl | h4
          · exact .inl (.inr (by simp [runInstr]))
          · exact .inr ⟨.inr (later _ h4), hguards⟩
    · rcases h.writes k st List.mem_cons_self with rfl | h2 | h2
      · -- in time, so the worker is still there
        exact absurd hwas (hstop k rfl)
      · rw [h1]
        exact .inl h2
      · -- the start has passed its guards
        have hsuf := hok.creating k h2
        obtain ⟨-, hpast⟩ := start_past_guards hsuf (by simp)
        rcases List.mem_cons.mp h2 with h3 | h3
        · cases h3
        · exact .inr ⟨.inl h3, hpast⟩

theorem settle_mem_workerCode (k : Worker) : .settleUnlessError k ∈ workerCode k := by
  obtain ⟨front, hcode, -⟩ := workerCode_eq k
  rw [hcode, cleanup_eq]
  exact List.mem_append_right _ (List.mem_append_right _ List.mem_cons_self)

/-- A callback begins with every worker that is gone at rest. -/
theorem UiSettles.called (c : Callback) (h : UiSettles [] sh) : UiSettles c.code sh where
  writes := by
    intro k st hmem
    cases c with
    | start k' =>
        have hk : k = k' := by
          cases k' <;> simp [Callback.code, startCode, startWrites] at hmem <;> exact hmem.1
        subst hk
        exact .inr (.inr (List.mem_append_right _ List.mem_cons_self))
    | _ => simp [Callback.code, showMenu, sdCardMount] at hmem
  gone := by
    intro k hnull
    rcases h.gone k hnull with h1 | ⟨h1 | h1, -⟩
    · exact .inl h1
    · exact absurd h1 List.not_mem_nil
    · exact absurd h1 List.not_mem_nil

end Step

/-! ## Every run -/

theorem settles_boot : Settles bootAudio [] := by
  refine ⟨trivial, fun i t hi => ?_⟩
  obtain ⟨rfl, rfl⟩ := boot_task hi
  exact {
    writes := fun _ _ h => absurd h List.not_mem_nil
    gone := fun _ _ => .inl (.inl rfl) }

/-- A task that has yet to settle the state is the one that the handle names. -/
theorem Settling.live {p : AudioPool} {tr : List AudioEv} (h : Owned p tr) {k : Worker}
    {t : Task Role Instr} (ht : t ∈ p.tasks) (hset : Settling k t) :
    ∃ i, p.tasks[i]? = some t ∧ WorkerOk k i t.todo p.shared ∧ t.todo ≠ [] := by
  obtain ⟨i, hi⟩ := List.mem_iff_getElem?.mp ht
  obtain ⟨ρ, todo⟩ := t
  obtain ⟨rfl, hmem⟩ := hset
  refine ⟨i, hi, h.2 i _ hi, ?_⟩
  rcases hmem with h1 | h1
  · exact List.ne_nil_of_mem h1
  · exact List.ne_nil_of_mem h1

/-- **One step that stops in time keeps the assertions.** -/
theorem settles_step {p p' : AudioPool} {l : Lab Reply Callback} {tr es : List AudioEv}
    (hok : Owned p tr) (h : Settles p tr) (hC : StopsInTime p l)
    (hs : audio.step p l = some (p', es)) : Settles p' (tr ++ es) := by
  have hstop : ∀ i r ρ a rest, l = .run i r → p.tasks[i]? = some ⟨ρ, a :: rest⟩ →
      ∀ k, a = .setState k .stopping → ∃ t ∈ p.tasks, Settling k t := by
    rintro i r ρ a rest rfl hi k rfl
    exact hC k (writesStopping_run hi)
  have hlive : ∀ i r ρ a rest, l = .run i r → p.tasks[i]? = some ⟨ρ, a :: rest⟩ →
      ∀ k, a = .setState k .stopping → p.shared.handle k ≠ none := by
    intro i r ρ a rest hl hi k ha hnull
    obtain ⟨t, ht, hset⟩ := hstop i r ρ a rest hl hi k ha
    obtain ⟨j, -, hj, htodo⟩ := hset.live hok ht
    exact nomatch hnull.symm.trans (hj.live htodo)
  refine holds_step h ?_ ?_ ?_ ?_ hs
  · intro i r ρ a rest hl hi ht
    refine ⟨trivial, ?_⟩
    cases ρ with
    | ui =>
        obtain ⟨rfl, hui⟩ := hok.2 i _ hi
        exact UiSettles.step hui ht (hlive _ r _ a rest hl hi)
    | worker k => exact WorkerSettles.step (hok.2 i _ hi) ht
  · rintro i r ρ a rest j ⟨ρ', todo⟩ hl hi ht hne hj hu
    cases ρ' with
    | ui =>
        -- there is one UI task, so a worker moves
        cases ρ with
        | ui => exact absurd ((hok.2 j _ hj).1.trans (hok.2 i _ hi).1.symm) hne
        | worker k =>
            exact UiSettles.frame (hok.2 i _ hi) ht hu (hlive i r _ a rest hl hi)
    | worker k =>
        have hj' : WorkerOk k j todo p.shared := hok.2 j _ hj
        refine WorkerSettles.frame (hok.2 i _ hi) ?_ hj' hu hne ?_
        · rintro rfl
          exact ht
        · -- the task that the condition speaks of is this one
          intro htodo ha
          obtain ⟨t, hmem, hset⟩ := hstop i r ρ a rest hl hi k ha
          obtain ⟨m, hm, hmok, htodo'⟩ := hset.live hok hmem
          obtain rfl : j = m := hj'.unique hmok htodo htodo'
          obtain rfl := Option.some.inj (hm.symm.trans hj)
          exact hset.2
  · intro i r ρ a rest ρ' hl hi ht o hspawn
    obtain ⟨k, rfl, -, rfl⟩ := runInstr_spawn hspawn
    exact fun _ => .inl (settle_mem_workerCode k)
  · intro i c ρ code hl hi ht hcall
    obtain ⟨rfl, rfl⟩ := audio_call_inv hcall
    exact UiSettles.called c ht

/-- With no worker there and no start under way, every worker is STOPPED or
    ERROR, so that nothing refuses the next start or mount. -/
structure NoWedge (p : AudioPool) : Prop where
  atRest : ∀ k, p.shared.handle k = none →
    (∀ t ∈ p.tasks, t.role = .ui → ¬ MidStart k t.todo) → AtRest (p.shared.testState k)
  startable : (∀ k, p.shared.handle k = none) →
    (∀ k, ∀ t ∈ p.tasks, t.role = .ui → ¬ MidStart k t.todo) →
    ∀ k, ∀ g ∈ startGuards k ++ sdCardMountGuards, g.holds p.shared = false

/-- The worker whose variables a guard reads. -/
def guardReads : Guard → Worker
  | .handle k | .state k _ => k

/-- A guard refuses for a handle or for a state that is not at rest. -/
theorem guard_clear {sh : Shared} {k : Worker} {g : Guard}
    (hnull : sh.handle (guardReads g) = none) (hrest : AtRest (sh.testState (guardReads g)))
    (hg : g ∈ startGuards k ++ sdCardMountGuards) : g.holds sh = false := by
  cases g with
  | handle k' =>
      have hnull' : sh.handle k' = none := hnull
      simp [Guard.holds, hnull']
  | state k' st =>
      have hbusy : ¬ AtRest st := by
        rintro (rfl | rfl) <;> cases k <;>
          simp [startGuards, loopbackGuards, sdCardMountGuards] at hg
      rw [Guard.holds, beq_eq_false_iff_ne]
      intro heq
      exact hbusy (heq ▸ hrest)

/-- **No wedge.**  After every run whose stop requests come in time, a worker
    that is gone keeps no start from being accepted. -/
theorem no_wedge {ls : List (Lab Reply Callback)} {p : AudioPool} {tr : List AudioEv}
    (h : Run audio bootAudio ls p tr) (hin : Meets audio bootAudio StopsInTime ls) :
    NoWedge p := by
  have hsettles : Settles p tr := by
    refine (h.invariant_of_meets (C := StopsInTime) (P := fun p tr => Owned p tr ∧ Settles p tr)
      ⟨owned_boot, settles_boot⟩ ?_ hin).2
    intro p tr l p' es hP hC hs
    exact ⟨owned_step hP.1 hs, settles_step hP.1 hP.2 hC hs⟩
  obtain ⟨todo, h0⟩ := ui_of_run h
  have hui : UiSettles todo p.shared := hsettles.2 0 _ h0
  have hrest : ∀ k, p.shared.handle k = none →
      (∀ t ∈ p.tasks, t.role = .ui → ¬ MidStart k t.todo) → AtRest (p.shared.testState k) := by
    intro k hnull hmid
    exact (hui.gone k hnull).resolve_right (hmid _ (List.mem_of_getElem? h0) rfl)
  refine ⟨hrest, fun hnull hmid k g hg => ?_⟩
  exact guard_clear (hnull _) (hrest _ (hnull _) (hmid _)) hg

/-- The meter is started and stopped while it runs; its cleanup comes after. -/
def stoppedWhileRunning : List (Lab Reply Callback) :=
  meterOn ++ .call 0 (.stop .mic) :: List.replicate 3 (.run 0 {}) ++
    List.replicate 21 (.run 1 {})

theorem no_wedge_at :
    ∃ p tr, Run audio bootAudio stoppedWhileRunning p tr ∧
      p.shared.testState .mic = .stopped ∧ p.shared.handle .mic = none ∧ NoWedge p := by
  have hrun : ∃ p tr, exec audio bootAudio stoppedWhileRunning = some (p, tr) ∧
      p.shared.testState .mic = .stopped ∧ p.shared.handle .mic = none :=
    ⟨_, _, rfl, rfl, rfl⟩
  obtain ⟨p, tr, hexec, hstate, hhandle⟩ := hrun
  exact ⟨p, tr, run_of_exec hexec, hstate, hhandle,
    no_wedge (run_of_exec hexec) (meets_of_checks rfl)⟩

/-- A request to stop has tested the handle of the meter, which then fails and
    ends; STOPPING is written over its ERROR. -/
def stoppedTooLate : List (Lab Reply Callback) :=
  openAudioPage ++ .call 0 (.start .mic) :: List.replicate 18 (.run 0 {}) ++
    .call 0 (.stop .mic) :: .run 0 {} :: .run 1 { err := espFail } ::
      List.replicate 10 (.run 1 {}) ++ List.replicate 2 (.run 0 {})

/-- No worker is left and the UI task is idle, but the meter is STOPPING. -/
theorem wedged_by_late_stop :
    ¬ ∀ ls p tr, Run audio bootAudio ls p tr → (∀ k, p.shared.handle k = none) →
      (∀ t ∈ p.tasks, t.todo = []) → ∀ k, AtRest (p.shared.testState k) := by
  intro hall
  have hrun : ∃ p tr, exec audio bootAudio stoppedTooLate = some (p, tr) ∧
      (∀ k, p.shared.handle k = none) ∧ (p.tasks.all fun t => t.todo.isEmpty) = true ∧
      p.shared.testState .mic = .stopping := by
    refine ⟨_, _, rfl, fun k => ?_, rfl, rfl⟩
    cases k <;> rfl
  obtain ⟨p, tr, hexec, hnull, hidle, hstate⟩ := hrun
  have hdone : ∀ t ∈ p.tasks, t.todo = [] := by
    intro t ht
    exact List.isEmpty_iff.mp (List.all_eq_true.mp hidle t ht)
  rcases hall _ p tr (run_of_exec hexec) hnull hdone .mic with h1 | h1
  · exact nomatch hstate.symm.trans h1
  · exact nomatch hstate.symm.trans h1

end AudioWedge
