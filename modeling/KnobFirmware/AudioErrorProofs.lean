import KnobFirmware.AudioWedgeProofs

/-! # Errors are not lost

    A worker records a failure as a `last_error` and the state ERROR, and its
    cleanup leaves both alone; so does a `xxx_request_stop` function that finds
    no task.  One that finds the task writes STOPPING whatever the state is, and
    the cleanup takes the failure for a clean stop.

    The errors of a run are kept exactly when no STOPPING is written over an
    ERROR. -/

namespace AudioError

open AudioTask AudioOwnership AudioWedge EspErr StepMachine TaskPool

/-! ## The record in the trace -/

/-- The failure a worker has recorded since it was last started. -/
def recordStep (k : Worker) (o : Option EspErr) : AudioEv → Option EspErr
  | .failed k' e => if k' = k then some e else o
  | .started k' => if k' = k then none else o
  | .opened _ _ | .i2s _ _ _ | .returned _ => o

def recordedFailure (k : Worker) (tr : List AudioEv) : Option EspErr :=
  tr.foldl (recordStep k) none

theorem recordedFailure_append (k : Worker) (tr es : List AudioEv) :
    recordedFailure k (tr ++ es) = es.foldl (recordStep k) (recordedFailure k tr) :=
  List.foldl_append

/-- A recorded failure stands in the worker's variables. -/
def ErrorsKept (p : AudioPool) (tr : List AudioEv) : Prop :=
  ∀ k e, recordedFailure k tr = some e →
    p.shared.testState k = .error ∧ p.shared.lastError k = e

/-- The step writes no STOPPING over an ERROR. -/
def NoStopOverError (p : AudioPool) (l : Lab Reply Callback) : Prop :=
  ∀ k ∈ writesStopping p l, p.shared.testState k ≠ .error

instance (p : AudioPool) (l : Lab Reply Callback) : Decidable (NoStopOverError p l) :=
  inferInstanceAs (Decidable (∀ k ∈ _, _))

section Brought

variable {ρ : Role} {i fresh : Nat} {a : Instr} {sh : Shared} {r : Reply}
  {tr : List AudioEv}

/-- The record of a worker is changed by its own ERROR and by a start of it. -/
theorem recorded_step (k : Worker) :
    recordedFailure k (tr ++ (runInstr ρ i fresh a sh r).events) = recordedFailure k tr ∨
      (ρ = .worker k ∧ a = .setState k .error ∧
        recordedFailure k (tr ++ (runInstr ρ i fresh a sh r).events) =
          some (sh.lastError k)) ∨
      (ρ = .ui ∧ a = .setStop k false ∧
        recordedFailure k (tr ++ (runInstr ρ i fresh a sh r).events) = none) := by
  rw [recordedFailure_append]
  cases a with
  | setState k' st =>
      by_cases hfail : ρ = .worker k' ∧ st = .error
      · obtain ⟨rfl, rfl⟩ := hfail
        by_cases hk : k' = k
        · subst hk
          exact .inr (.inl ⟨rfl, rfl, by simp [runInstr, recordStep]⟩)
        · exact .inl (by simp [runInstr, recordStep, hk])
      · exact .inl (by simp [runInstr, hfail])
  | setStop k' b =>
      by_cases hstart : ρ = .ui ∧ b = false
      · obtain ⟨rfl, rfl⟩ := hstart
        by_cases hk : k' = k
        · subst hk
          exact .inr (.inr ⟨rfl, rfl, by simp [runInstr, recordStep]⟩)
        · exact .inl (by simp [runInstr, recordStep, hk])
      · exact .inl (by simp [runInstr, hstart])
  | rejectIf | newChannel =>
      left
      simp only [runInstr]
      split <;> rfl
  | _ => exact .inl rfl

/-- The writes to a worker's record, and the test before one, that an
    instruction brings in when it does not fail. -/
def Brings (a : Instr) (sh : Shared) (r : Reply) : Instr → Prop
  | .stopUnlessError k => a = .requestStop k ∧ sh.handle k = none
  | .setState k st =>
      (a = .requestStop k ∧ st = .stopping ∧ sh.handle k ≠ none) ∨
        ((a = .stopUnlessError k ∨ a = .settleUnlessError k) ∧ st = .stopped ∧
          sh.testState k ≠ .error) ∨
        (a = .create k ∧ st = .error ∧ r.created = false)
  | .setError k _ =>
      (a = .settleUnlessError k ∧ sh.testState k ≠ .error) ∨
        (a = .create k ∧ r.created = false)
  | .setStop k b => (a = .requestStop k ∧ b = true) ∨ (a = .ifStopped ∧ k = .loopback)
  | _ => True

/-- An instruction fails, or brings in what `Brings` says. -/
theorem fails_or_brings :
    (∃ e, (runInstr ρ i fresh a sh r).next = failWith e ρ) ∨
      ∀ b ∈ (runInstr ρ i fresh a sh r).next.code, Brings a sh r b := by
  cases a with
  | gpio | newChannel =>
      simp only [runInstr]
      split
      · exact .inr (by simp [Next.code])
      · exact .inl ⟨_, rfl⟩
  | call s op c =>
      simp only [runInstr]
      cases op with
      | disable | delete => exact .inr (by simp [afterCall, Next.code])
      | init | enable | write =>
          rw [afterCall]
          split
          · exact .inr (by simp [Next.code])
          · exact .inl ⟨_, rfl⟩
      | read =>
          rw [afterCall]
          split
          · exact .inr (by simp [Next.code])
          · split
            · right
              cases s with
              | loopbackRx =>
                  rw [afterRead]
                  split <;> simp [Next.code, Brings]
              | micRx | dacTx | loopbackTx => simp [afterRead, Next.code, Brings]
            · exact .inl ⟨_, rfl⟩
  | recheck cs =>
      cases cs with
      | nil => exact .inr (by simp [runInstr, afterRecheck, Next.code])
      | cons c cs =>
          simp only [runInstr, afterRecheck]
          split
          · exact .inr (by simp [Next.code, Brings])
          · exact .inl ⟨_, rfl⟩
  | poll cs n =>
      right
      cases cs with
      | nil => simp [runInstr, afterPoll, Next.code]
      | cons c cs =>
          simp only [runInstr, afterPoll]
          split
          · simp [Next.code, Brings]
          · split <;> simp [Next.code, Brings]
  | loop k =>
      right
      simp only [runInstr]
      split
      · simp [Next.code]
      · cases k <;> simp [Next.code, loopBody, Brings]
  | requestStop k | stopUnlessError k | settleUnlessError k | create k | ifStopped =>
      right
      simp only [runInstr]
      split <;> rename_i h <;> simp [Next.code, Brings, cleanup, closes, leave, h]
  | rejectIf | pollStop | ifOpen | leaveAudio =>
      right
      simp only [runInstr]
      split <;> simp [Next.code, Brings]
  | _ => exact .inr (by simp [runInstr, Next.code, Brings])

/-- The instructions that read or write the record of a worker. -/
def About (k : Worker) : Instr → Prop
  | .stopUnlessError k' | .setState k' _ | .setError k' _ | .setStop k' _ => k' = k
  | _ => False

/-- A task that is not the worker does not bring its failure in. -/
theorem brings_outside {k : Worker} {b : Instr} (hρ : ρ ≠ .worker k) (hb : About k b)
    (hmem : b ∈ (runInstr ρ i fresh a sh r).next.code) : Brings a sh r b := by
  have hn : (∃ e, (runInstr ρ i fresh a sh r).next = failWith e ρ) ∨ _ := fails_or_brings
  rcases hn with ⟨e, he⟩ | hall
  · exfalso
    rw [he] at hmem
    cases ρ with
    | ui => exact absurd hmem List.not_mem_nil
    | worker k' =>
        have hk : k' ≠ k := fun h => hρ (h ▸ rfl)
        have hother : ∀ c ∈ (failWith e (.worker k')).code, ¬ About k c := by
          cases k' <;> simp [failWith, Next.code, cleanup, closes, leave, About, hk]
        exact hother b hmem hb
  · exact hall b hmem

end Brought

/-! ## The assertions -/

/-- The instructions of a cleanup that has found an error. -/
def Closing (k : Worker) : Instr → Prop
  | .ifOpen _ | .clearChan _ | .setMeter _ _ | .setStop _ _ | .clearHandle _ => True
  | .use _ op | .call _ op _ => op = .disable ∨ op = .delete
  | .settleUnlessError k' => k' = k
  | _ => False

/-- The worker after its failure only closes its channels and leaves. -/
structure Inside (k : Worker) (todo : List Instr) (tr : List AudioEv) : Prop where
  closing : recordedFailure k tr ≠ none → ∀ b ∈ todo, Closing k b
  failing : .setState k .error ∈ todo →
    (∃ e, todo = .setError k e :: .setState k .error :: cleanup k) ∨
      todo = .setState k .error :: cleanup k

/-- A worker that is gone and has no failure recorded. -/
def Gone (k : Worker) (sh : Shared) (tr : List AudioEv) : Prop :=
  sh.handle k = none ∧ recordedFailure k tr = none

/-- The other tasks write to the record of a worker in a request to stop, or
    where it is gone. -/
structure Outside (k : Worker) (todo : List Instr) (sh : Shared) (tr : List AudioEv) :
    Prop where
  asking : .stopUnlessError k ∈ todo → sh.handle k = none
  writing : ∀ st, .setState k st ∈ todo → st = .stopping ∨ .create k ∈ todo ∨ Gone k sh tr
  erring : ∀ e, .setError k e ∈ todo → .create k ∈ todo ∨ Gone k sh tr
  failing : .setState k .error ∈ todo → sh.handle .loopback = none
  /-- STOPPING is written right after the test of the handle -/
  late : .setState k .stopping ∉ todo.tail
  stopping : .setState k .stopping ∈ todo → sh.testState k = .error →
    recordedFailure k tr ≠ none
  flag : .setStop k false ∈ todo → .create k ∈ todo
  unwritten : .create k ∈ todo →
    startWrites k ++ [.create k] <:+ todo ∨ recordedFailure k tr = none
  started : .create k ∈ todo →
    (∃ st, st ≠ .error ∧ .setState k st ∈ todo) ∨ sh.testState k ≠ .error

/-- The assertion of a task; the loopback also asks the other two to stop. -/
def TaskKeeps (_ : Nat) (t : Task Role Instr) (sh : Shared) (tr : List AudioEv) : Prop :=
  match t.role with
  | .ui => ∀ k, Outside k t.todo sh tr
  | .worker k => Inside k t.todo tr ∧
      (k = .loopback → ∀ k', k' ≠ .loopback → Outside k' t.todo sh tr)

structure SharedKeeps (sh : Shared) (tr : List AudioEv) : Prop where
  kept : ∀ k e, recordedFailure k tr = some e → sh.testState k = .error ∧ sh.lastError k = e
  /-- the ERROR of a worker that is there is its own -/
  alive : ∀ k, sh.handle k ≠ none → sh.testState k = .error → recordedFailure k tr ≠ none

abbrev Keeps : AudioPool → List AudioEv → Prop := Holds SharedKeeps TaskKeeps

/-! ## The moving task -/

section Own

variable {k : Worker} {ρ : Role} {i fresh : Nat} {a b : Instr} {rest todo : List Instr}
  {sh : Shared} {r : Reply} {tr : List AudioEv}

/-- Code that has nothing to do with the worker. -/
theorem Outside.of_not_about (h : ∀ b ∈ todo, ¬ About k b ∧ b ≠ .create k) :
    Outside k todo sh tr where
  asking := fun hmem => absurd rfl (h _ hmem).1
  writing := fun _ hmem => absurd rfl (h _ hmem).1
  erring := fun _ hmem => absurd rfl (h _ hmem).1
  failing := fun hmem => absurd rfl (h _ hmem).1
  late := fun hmem => absurd rfl (h _ (List.mem_of_mem_tail hmem)).1
  stopping := fun hmem => absurd rfl (h _ hmem).1
  flag := fun hmem => absurd rfl (h _ hmem).1
  unwritten := fun hmem => absurd rfl (h _ hmem).2
  started := fun hmem => absurd rfl (h _ hmem).2

/-- Only the worker itself records a failure. -/
theorem none_kept (hρ : ρ ≠ .worker k) (hnone : recordedFailure k tr = none) :
    recordedFailure k (tr ++ (runInstr ρ i fresh a sh r).events) = none := by
  have hrec : recordedFailure k (tr ++ (runInstr ρ i fresh a sh r).events) =
    recordedFailure k tr ∨ _ := recorded_step k
  rcases hrec with h1 | ⟨h1, -⟩ | ⟨-, -, h1⟩
  · exact h1.trans hnone
  · exact absurd h1 hρ
  · exact h1

/-- A creation to come is still to come while the start function goes on. -/
theorem create_kept (ht : TaskOk i ⟨ρ, a :: rest⟩ sh tr) (hc : .create k ∈ a :: rest)
    (hb : b ∈ rest) (hafter : b ∈ (runInstr ρ i fresh a sh r).next.after rest) :
    .create k ∈ (runInstr ρ i fresh a sh r).next.after rest := by
  cases ρ with
  | worker k' => exact absurd hc (ht : WorkerOk _ _ _ _).position.create_not_mem
  | ui =>
      have hn : (∃ q, (runInstr .ui i fresh a sh r).next = .goOn q ∧ _) ∨ _ :=
        ui_next (ht.2.code a List.mem_cons_self)
      rcases hn with ⟨q, hq, -⟩ | ⟨-, hq⟩
      · rcases List.mem_cons.mp hc with rfl | h1
        · rw [ht.2.at_create.1] at hb
          exact absurd hb List.not_mem_nil
        · rw [hq]
          exact List.mem_append_right q h1
      · rw [hq] at hafter
        exact absurd hafter List.not_mem_nil

/-- The first write of a start function is that of the stop flag. -/
theorem first_write (hsuf : a :: rest <:+ startCode k) (ha : ∀ g, a ≠ .rejectIf g)
    (hall : startWrites k ++ [.create k] <:+ a :: rest) : a = .setStop k false := by
  have hle := (start_past_guards hsuf ha).1
  have heq : startWrites k ++ [.create k] = a :: rest := hall.eq_of_length_le hle.length_le
  cases k <;> exact (List.cons.inj heq).1.symm

/-- Past its first write a start function has no failure recorded. -/
theorem Outside.none_of_start (ht : TaskOk i ⟨ρ, a :: rest⟩ sh tr)
    (h : Outside k (a :: rest) sh tr) (hc : .create k ∈ a :: rest)
    (ha : ∀ g, a ≠ .rejectIf g) (hflag : a ≠ .setStop k false) :
    recordedFailure k tr = none := by
  refine (h.unwritten hc).resolve_left fun hall => ?_
  cases ρ with
  | worker k' => exact absurd hc (ht : WorkerOk _ _ _ _).position.create_not_mem
  | ui => exact hflag (first_write (ht.2.creating k hc) ha hall)

theorem settle_owner (ht : TaskOk i ⟨ρ, .settleUnlessError k :: rest⟩ sh tr) :
    ρ = .worker k := by
  cases ρ with
  | ui => exact (ht.2.code _ List.mem_cons_self).elim
  | worker k' =>
      rcases (ht : WorkerOk _ _ _ _).position.head with h1 | ⟨h1, -⟩ | h1
      · exact h1.elim
      · rw [Instr.settleUnlessError.inj h1]
      · have hmem := h1.subset List.mem_cons_self
        cases k' <;> simp [settled, leave] at hmem

theorem Gone.kept (ht : TaskOk i ⟨ρ, a :: rest⟩ sh tr) (hρ : ρ ≠ .worker k) (hb : b ∈ rest)
    (h : Gone k sh tr) :
    Gone k (runInstr ρ i fresh a sh r).shared (tr ++ (runInstr ρ i fresh a sh r).events) :=
  ⟨null_stays ht fresh r (fun _ => .inl (List.ne_nil_of_mem hb)) h.1, none_kept hρ h.2⟩

/-- A worker whose state is not ERROR has no failure recorded. -/
theorem SharedKeeps.none_of_state (hsh : SharedKeeps sh tr) (hne : sh.testState k ≠ .error) :
    recordedFailure k tr = none := by
  by_contra hsome
  obtain ⟨e, he⟩ := Option.ne_none_iff_exists'.mp hsome
  exact hne (hsh.kept k e he).1

/-- After a failed creation the worker is gone. -/
theorem Outside.gone_of_create (ht : TaskOk i ⟨ρ, .create k :: rest⟩ sh tr)
    (hρ : ρ ≠ .worker k) (h : Outside k (.create k :: rest) sh tr) (hc : r.created = false) :
    Gone k (runInstr ρ i fresh (.create k) sh r).shared
      (tr ++ (runInstr ρ i fresh (.create k) sh r).events) := by
  have hnone : recordedFailure k tr = none :=
    h.none_of_start ht List.mem_cons_self (fun _ hg => nomatch hg) fun hg => nomatch hg
  refine ⟨?_, none_kept hρ hnone⟩
  cases ρ with
  | worker k' =>
      exact absurd List.mem_cons_self (ht : WorkerOk _ _ _ _).position.create_not_mem
  | ui => simpa [runInstr, hc] using ht.2.at_create.2 k (own_handle_mem_startGuards k)

/-- While the creation is to come, the start function has just gone on. -/
theorem start_goes_on (ht : TaskOk i ⟨ρ, a :: rest⟩ sh tr)
    (hmem : .create k ∈ (runInstr ρ i fresh a sh r).next.after rest) :
    ρ = .ui ∧ a :: rest <:+ startCode k ∧ .create k ∈ rest ∧
      (runInstr ρ i fresh a sh r).next.after rest = rest := by
  obtain ⟨hrest, q, hq, -⟩ := rooted_after id hmem
  have hc : .create k ∈ a :: rest := List.mem_cons_of_mem a hrest
  cases ρ with
  | worker k' => exact absurd hc (ht : WorkerOk _ _ _ _).position.create_not_mem
  | ui =>
      have hsuf := ht.2.creating k hc
      refine ⟨rfl, hsuf, hrest, ?_⟩
      rcases start_next hsuf (List.ne_nil_of_mem hrest) with h1 | h1
      · rw [h1, Next.after_goOn, List.nil_append]
      · exact nomatch hq.symm.trans h1

/-- Only the loopback tests its stop flag outside the loops. -/
theorem ifStopped_owner (ht : TaskOk i ⟨ρ, .ifStopped :: rest⟩ sh tr) :
    ρ = .worker .loopback := by
  cases ρ with
  | ui => exact (ht.2.code _ List.mem_cons_self).elim
  | worker k' =>
      have hnot : .ifStopped ∉ settled k' := by cases k' <;> simp [settled, leave]
      exact congrArg Role.worker
        ((ht : WorkerOk _ _ _ _).position.early_of_not_mem (by simp) hnot)

theorem error_not_mem_startCode : .setState k .error ∉ startCode k := by
  cases k <;> simp [startCode, startWrites]

/-- A step of a task that is not the worker keeps what it may write. -/
theorem Outside.step (ht : TaskOk i ⟨ρ, a :: rest⟩ sh tr) (hρ : ρ ≠ .worker k)
    (hsh : SharedKeeps sh tr) (h : Outside k (a :: rest) sh tr) :
    Outside k ((runInstr ρ i fresh a sh r).next.after rest)
      (runInstr ρ i fresh a sh r).shared (tr ++ (runInstr ρ i fresh a sh r).events) where
  asking := by
    intro hmem
    rcases Next.mem_after hmem with h1 | h1
    · obtain ⟨rfl, hnull⟩ : Brings a sh r (.stopUnlessError k) := brings_outside hρ rfl h1
      exact hnull
    · exact null_stays ht fresh r (fun _ => .inl (List.ne_nil_of_mem h1))
        (h.asking (List.mem_cons_of_mem a h1))
  writing := by
    intro st hmem
    rcases Next.mem_after hmem with h1 | h1
    · have hb : Brings a sh r (.setState k st) := brings_outside hρ rfl h1
      rcases hb with ⟨-, rfl, -⟩ | ⟨rfl | rfl, -, hne⟩ | ⟨rfl, -, hc⟩
      · exact .inl rfl
      · -- no task was found, and no error
        refine .inr (.inr ⟨h.asking List.mem_cons_self, ?_⟩)
        exact none_kept hρ (hsh.none_of_state hne)
      · exact absurd (settle_owner ht) hρ
      · -- the ERROR of a failed creation
        exact .inr (.inr (h.gone_of_create ht hρ hc))
    · rcases h.writing st (List.mem_cons_of_mem a h1) with h2 | h2 | h2
      · exact .inl h2
      · exact .inr (.inl (create_kept ht h2 h1 hmem))
      · exact .inr (.inr (h2.kept ht hρ h1))
  erring := by
    intro e hmem
    rcases Next.mem_after hmem with h1 | h1
    · have hb : Brings a sh r (.setError k e) := brings_outside hρ rfl h1
      rcases hb with ⟨rfl, -⟩ | ⟨rfl, hc⟩
      · exact absurd (settle_owner ht) hρ
      · exact .inr (h.gone_of_create ht hρ hc)
    · rcases h.erring e (List.mem_cons_of_mem a h1) with h2 | h2
      · exact .inl (create_kept ht h2 h1 hmem)
      · exact .inr (h2.kept ht hρ h1)
  failing := by
    intro hmem
    rcases Next.mem_after hmem with h1 | h1
    · have hb : Brings a sh r (.setState k .error) := brings_outside hρ rfl h1
      rcases hb with ⟨-, h2, -⟩ | ⟨-, h2, -⟩ | ⟨rfl, -, hc⟩
      · cases h2
      · cases h2
      · cases ρ with
        | worker k' =>
            exact absurd List.mem_cons_self (ht : WorkerOk _ _ _ _).position.create_not_mem
        | ui =>
            have hnull := ht.2.at_create.2 .loopback (loopback_handle_mem_startGuards k)
            simpa [runInstr, hc] using hnull
    · exact null_stays ht fresh r (fun _ => .inl (List.ne_nil_of_mem h1))
        (h.failing (List.mem_cons_of_mem a h1))
  late := by
    intro hmem
    rcases Next.mem_after (List.mem_of_mem_tail hmem) with h1 | h1
    · have hb : Brings a sh r (.setState k .stopping) := brings_outside hρ rfl h1
      rcases hb with ⟨rfl, -, hne⟩ | ⟨-, h2, -⟩ | ⟨-, h2, -⟩
      · simp only [runInstr, if_neg hne, Next.after_goOn, List.cons_append, List.nil_append,
          List.tail_cons, List.mem_cons, reduceCtorEq, false_or] at hmem
        exact h.late hmem
      · cases h2
      · cases h2
    · exact h.late h1
  stopping := by
    intro hmem herr
    rcases Next.mem_after hmem with h1 | h1
    · have hb : Brings a sh r (.setState k .stopping) := brings_outside hρ rfl h1
      rcases hb with ⟨rfl, -, hne⟩ | ⟨-, h2, -⟩ | ⟨-, h2, -⟩
      · -- the task that was found is there, so its ERROR is its own
        show recordedFailure k (tr ++ []) ≠ none
        rw [List.append_nil]
        exact hsh.alive k hne herr
      · cases h2
      · cases h2
    · exact absurd h1 h.late
  flag := by
    intro hmem
    rcases Next.mem_after hmem with h1 | h1
    · have hb : Brings a sh r (.setStop k false) := brings_outside hρ rfl h1
      rcases hb with ⟨-, h2⟩ | ⟨rfl, rfl⟩
      · cases h2
      · exact absurd (ifStopped_owner ht) hρ
    · exact create_kept ht (h.flag (List.mem_cons_of_mem a h1)) h1 hmem
  unwritten := by
    intro hmem
    obtain ⟨rfl, hsuf, hrest, hafter⟩ := start_goes_on ht hmem
    rw [hafter]
    rcases h.unwritten (List.mem_cons_of_mem a hrest) with h1 | h1
    · rcases List.suffix_cons_iff.mp h1 with h2 | h2
      · -- the first write of the start
        right
        have ha : a = .setStop k false := by
          cases k <;> exact (List.cons.inj h2).1.symm
        subst ha
        rw [recordedFailure_append]
        simp [runInstr, recordStep]
      · exact .inl h2
    · exact .inr (none_kept hρ h1)
  started := by
    intro hmem
    obtain ⟨rfl, hsuf, hrest, hafter⟩ := start_goes_on ht hmem
    rw [hafter]
    have hset : (runInstr .ui i fresh a sh r).shared.testState k = sh.testState k ∨ _ :=
      runInstr_testState k
    rcases h.started (List.mem_cons_of_mem a hrest) with ⟨st, hst, h1⟩ | h1
    · rcases List.mem_cons.mp h1 with rfl | h2
      · exact .inr (by simpa [runInstr] using hst)
      · exact .inl ⟨st, hst, h2⟩
    · rcases hset with h2 | ⟨st, rfl, h2⟩
      · exact .inr (h2 ▸ h1)
      · right
        rw [h2]
        rintro rfl
        exact error_not_mem_startCode (hsuf.subset List.mem_cons_self)

theorem cleanup_closing (k : Worker) : ∀ b ∈ cleanup k, Closing k b := by
  cases k <;> simp [cleanup, closes, leave, Closing]

/-- The cleanup after a failure goes on closing. -/
theorem closing_next (h : Closing k a) (herr : sh.testState k = .error) :
    ∀ b ∈ (runInstr ρ i fresh a sh r).next.code, Closing k b := by
  cases a with
  | ifOpen s =>
      simp only [runInstr]
      split <;> simp [Next.code, Closing]
  | use s op => simpa [runInstr, Next.code, Closing] using h
  | call s op c =>
      rcases h with rfl | rfl <;> simp [runInstr, afterCall, Next.code]
  | settleUnlessError k' =>
      obtain rfl : k' = k := h
      simp [runInstr, herr, Next.code]
  | clearChan | setMeter | setStop | clearHandle => simp [runInstr, Next.code]
  | _ => exact h.elim

/-- The worker's own step: a failure leads to its cleanup. -/
theorem Inside.step (hok : WorkerOk k i (a :: rest) sh) (hsh : SharedKeeps sh tr)
    (h : Inside k (a :: rest) tr) :
    Inside k ((runInstr (.worker k) i fresh a sh r).next.after rest)
      (tr ++ (runInstr (.worker k) i fresh a sh r).events) where
  closing := by
    intro hsome b hb
    have hrec : recordedFailure k (tr ++ (runInstr (.worker k) i fresh a sh r).events) =
      recordedFailure k tr ∨ _ := recorded_step k
    rcases hrec with h1 | ⟨-, rfl, -⟩ | ⟨h1, -⟩
    · rw [h1] at hsome
      have hclosing := h.closing hsome
      obtain ⟨e, he⟩ := Option.ne_none_iff_exists'.mp hsome
      rcases Next.mem_after hb with h2 | h2
      · exact closing_next (hclosing a List.mem_cons_self) (hsh.kept k e he).1 b h2
      · exact hclosing b (List.mem_cons_of_mem a h2)
    · -- the failure is recorded now, and the cleanup is all that is left
      rcases h.failing List.mem_cons_self with ⟨e, h2⟩ | h2
      · exact nomatch (List.cons.inj h2).1
      · obtain ⟨-, rfl⟩ := List.cons.inj h2
        exact cleanup_closing k b hb
    · exact nomatch h1
  failing := by
    intro hmem
    rcases Next.mem_after hmem with h1 | h1
    · have hn : (∃ e, (runInstr (.worker k) i fresh a sh r).next = failWith e (.worker k)) ∨ _ :=
        fails_or_brings
      rcases hn with ⟨e, he⟩ | hall
      · rw [he]
        exact .inl ⟨e, rfl⟩
      · rcases hall _ h1 with ⟨-, h2, -⟩ | ⟨-, h2, -⟩ | ⟨rfl, -⟩
        · exact nomatch h2
        · exact nomatch h2
        · exact absurd List.mem_cons_self hok.position.create_not_mem
    · rcases h.failing (List.mem_cons_of_mem a h1) with ⟨e, h2⟩ | h2
      · obtain ⟨rfl, rfl⟩ := List.cons.inj h2
        exact .inr rfl
      · obtain ⟨rfl, rfl⟩ := List.cons.inj h2
        cases k <;> simp [cleanup, closes, leave] at h1

theorem recorded_error :
    recordedFailure k (tr ++ (runInstr (.worker k) i fresh (.setState k .error) sh r).events) =
      some (sh.lastError k) := by
  rw [recordedFailure_append]
  simp [runInstr, recordStep]

/-- Who writes to the record of another worker. -/
theorem outside_of_write (ht : TaskOk i ⟨ρ, a :: rest⟩ sh tr)
    (hk : TaskKeeps i ⟨ρ, a :: rest⟩ sh tr) (hρ : ρ ≠ .worker k)
    (ha : (∃ st, a = .setState k st) ∨ ∃ e, a = .setError k e) :
    Outside k (a :: rest) sh tr := by
  cases ρ with
  | ui => exact hk k
  | worker k' =>
      have hne : k ≠ k' := fun h => hρ (h ▸ rfl)
      have hpos := (ht : WorkerOk _ _ _ _).position
      rcases ha with ⟨st, rfl⟩ | ⟨e, rfl⟩
      · obtain ⟨rfl, -⟩ := foreign_state hpos hne
        exact hk.2 rfl k hne
      · exfalso
        have hnot : .setError k e ∉ settled k' := by cases k' <;> simp [settled, leave, hne]
        exact hne (hpos.early_of_not_mem (by simp) hnot)

/-- **Nobody but a late stop writes to a recorded failure.** -/
theorem not_written (ht : TaskOk i ⟨ρ, a :: rest⟩ sh tr)
    (hk : TaskKeeps i ⟨ρ, a :: rest⟩ sh tr) (hsome : recordedFailure k tr ≠ none)
    (hstop : a ≠ .setState k .stopping) :
    (∀ st, a ≠ .setState k st) ∧ ∀ e, a ≠ .setError k e := by
  by_cases hρ : ρ = .worker k
  · subst hρ
    have hclosing := hk.1.closing hsome a List.mem_cons_self
    constructor
    · rintro st rfl
      exact hclosing
    · rintro e rfl
      exact hclosing
  · constructor
    · rintro st rfl
      have hout := outside_of_write ht hk hρ (.inl ⟨st, rfl⟩)
      rcases hout.writing st List.mem_cons_self with rfl | h1 | h1
      · exact hstop rfl
      · exact hsome (hout.none_of_start ht h1 (fun _ h => nomatch h) fun h => nomatch h)
      · exact hsome h1.2
    · rintro e rfl
      have hout := outside_of_write ht hk hρ (.inr ⟨e, rfl⟩)
      rcases hout.erring e List.mem_cons_self with h1 | h1
      · exact hsome (hout.none_of_start ht h1 (fun _ h => nomatch h) fun h => nomatch h)
      · exact hsome h1.2

/-- **A step that stops no failed worker keeps the shared assertion.** -/
theorem SharedKeeps.step (ht : TaskOk i ⟨ρ, a :: rest⟩ sh tr)
    (hk : TaskKeeps i ⟨ρ, a :: rest⟩ sh tr) (hsh : SharedKeeps sh tr)
    (hstop : ∀ k, a = .setState k .stopping → sh.testState k ≠ .error) :
    SharedKeeps (runInstr ρ i fresh a sh r).shared
      (tr ++ (runInstr ρ i fresh a sh r).events) where
  kept := by
    intro k e hrec'
    have hrec : recordedFailure k (tr ++ (runInstr ρ i fresh a sh r).events) =
      recordedFailure k tr ∨ _ := recorded_step k
    rcases hrec with h1 | ⟨rfl, rfl, h1⟩ | ⟨-, -, h1⟩
    · rw [h1] at hrec'
      obtain ⟨herr, hlast⟩ := hsh.kept k e hrec'
      have hsome : recordedFailure k tr ≠ none := by simp [hrec']
      obtain ⟨hstate, herror⟩ := not_written ht hk hsome fun h => hstop k h herr
      have hset : (runInstr ρ i fresh a sh r).shared.testState k = sh.testState k ∨ _ :=
        runInstr_testState k
      have hset' : (runInstr ρ i fresh a sh r).shared.lastError k = sh.lastError k ∨ _ :=
        runInstr_lastError k
      constructor
      · rcases hset with h2 | ⟨st, h2, -⟩
        · exact h2.trans herr
        · exact absurd h2 (hstate st)
      · rcases hset' with h2 | ⟨e', h2, -⟩
        · exact h2.trans hlast
        · exact absurd h2 (herror e')
    · obtain rfl := Option.some.inj (h1.symm.trans hrec')
      simp [runInstr]
    · cases h1.symm.trans hrec'
  alive := by
    intro k hlive herr
    have hrec : recordedFailure k (tr ++ (runInstr ρ i fresh a sh r).events) =
      recordedFailure k tr ∨ _ := recorded_step k
    have hset : (runInstr ρ i fresh a sh r).shared.testState k = sh.testState k ∨ _ :=
      runInstr_testState k
    rcases task_handle ht fresh r k with h1 | ⟨-, -, -, h1⟩ | ⟨rfl, rfl, -⟩
    · rw [h1] at hlive
      rcases hset with h2 | ⟨st, rfl, h2⟩
      · rw [h2] at herr
        rcases hrec with h3 | ⟨-, -, h3⟩ | ⟨rfl, rfl, -⟩
        · rw [h3]
          exact hsh.alive k hlive herr
        · simp [h3]
        · -- a start of a worker that is there
          have hc := (hk k).flag List.mem_cons_self
          exact absurd
            (ht.2.past_guards hc (by simp) (own_handle_mem_startGuards k)) hlive
      · obtain rfl : st = .error := h2.symm.trans herr
        by_cases hρ : ρ = .worker k
        · subst hρ
          rw [recorded_error]
          exact Option.some_ne_none _
        · have hout := outside_of_write ht hk hρ (.inl ⟨_, rfl⟩)
          rcases hout.writing _ List.mem_cons_self with h3 | h3 | h3
          · cases h3
          · exfalso
            cases ρ with
            | ui =>
                exact error_not_mem_startCode
                  ((ht.2.creating k h3).subset List.mem_cons_self)
            | worker k' => exact (ht : WorkerOk _ _ _ _).position.create_not_mem h3
          · exact absurd h3.1 hlive
    · exact absurd h1 hlive
    · -- the state is that of the start
      obtain ⟨rfl, -⟩ := ht.2.at_create
      rcases (hk k).started List.mem_cons_self with ⟨st, -, h1⟩ | h1
      · simp at h1
      · rcases hset with h2 | ⟨st, h2, -⟩
        · exact absurd (h2.symm.trans herr) h1
        · cases h2

end Own

/-! ## The other tasks -/

section Frame

variable {k k' : Worker} {ρ : Role} {i j fresh : Nat} {a : Instr} {rest todo : List Instr}
  {sh : Shared} {r : Reply} {tr : List AudioEv}

/-- A step of another task keeps a worker's own assertion. -/
theorem Inside.frame (ht : TaskOk i ⟨ρ, a :: rest⟩ sh tr) (hok : WorkerOk k j todo sh)
    (hne : j ≠ i) (h : Inside k todo tr) :
    Inside k todo (tr ++ (runInstr ρ i fresh a sh r).events) where
  closing := by
    intro hsome b hb
    have hrec : recordedFailure k (tr ++ (runInstr ρ i fresh a sh r).events) =
      recordedFailure k tr ∨ _ := recorded_step k
    rcases hrec with h1 | ⟨rfl, -⟩ | ⟨-, -, h1⟩
    · exact h.closing (h1 ▸ hsome) b hb
    · exact absurd (hok.unique ht (List.ne_nil_of_mem hb) (List.cons_ne_nil _ _)) hne
    · exact absurd h1 hsome
  failing := h.failing

/-- A worker that is gone has no failure to record. -/
theorem none_of_gone (ht : TaskOk i ⟨ρ, a :: rest⟩ sh tr) (h : Gone k sh tr) :
    recordedFailure k (tr ++ (runInstr ρ i fresh a sh r).events) = none := by
  refine none_kept ?_ h.2
  rintro rfl
  exact nomatch h.1.symm.trans ((ht : WorkerOk _ _ _ _).live (List.cons_ne_nil _ _))

theorem state_mem_startWrites (k : Worker) :
    ∃ st, st ≠ .error ∧ .setState k st ∈ startWrites k ++ [.create k] := by
  cases k with
  | mic => exact ⟨.starting, by decide, by simp [startWrites]⟩
  | dac => exact ⟨.starting, by decide, by simp [startWrites]⟩
  | loopback => exact ⟨.waiting, by decide, by simp [startWrites]⟩

/-- A step of another task keeps what a task may write to a worker's record,
    if no worker can be created beside it. -/
theorem Outside.frame (ht : TaskOk i ⟨ρ, a :: rest⟩ sh tr)
    (hk : TaskKeeps i ⟨ρ, a :: rest⟩ sh tr) (h : Outside k todo sh tr)
    (hnull : ∀ k', sh.handle k' = none → (runInstr ρ i fresh a sh r).shared.handle k' = none)
    (hui : ρ = .ui → .create k ∉ todo ∧ sh.handle .loopback ≠ none)
    (hstart : .create k ∈ todo →
      startWrites k ++ [.create k] <:+ todo ∨ sh.handle k = none) :
    Outside k todo (runInstr ρ i fresh a sh r).shared
      (tr ++ (runInstr ρ i fresh a sh r).events) where
  asking := fun hmem => hnull k (h.asking hmem)
  writing := by
    intro st hmem
    refine (h.writing st hmem).imp_right (Or.imp_right fun hgone => ?_)
    exact ⟨hnull k hgone.1, none_of_gone ht hgone⟩
  erring := by
    intro e hmem
    refine (h.erring e hmem).imp_right fun hgone => ?_
    exact ⟨hnull k hgone.1, none_of_gone ht hgone⟩
  failing := fun hmem => hnull .loopback (h.failing hmem)
  late := h.late
  stopping := by
    intro hmem herr
    have hrec : recordedFailure k (tr ++ (runInstr ρ i fresh a sh r).events) =
      recordedFailure k tr ∨ _ := recorded_step k
    have hset : (runInstr ρ i fresh a sh r).shared.testState k = sh.testState k ∨ _ :=
      runInstr_testState k
    rcases hset with h1 | ⟨st, rfl, h1⟩
    · rw [h1] at herr
      rcases hrec with h2 | ⟨-, -, h2⟩ | ⟨rfl, rfl, -⟩
      · rw [h2]
        exact h.stopping hmem herr
      · simp [h2]
      · -- a start beside a loopback
        have hc := (hk k).flag List.mem_cons_self
        exact absurd
          (ht.2.past_guards hc (fun _ h => nomatch h) (loopback_handle_mem_startGuards k))
          (hui rfl).2
    · obtain rfl : st = .error := h1.symm.trans herr
      cases ρ with
      | ui => exact absurd ((hk k).failing List.mem_cons_self) (hui rfl).2
      | worker k' =>
          by_cases hne : k = k'
          · subst hne
            rw [recorded_error]
            exact Option.some_ne_none _
          · rcases (foreign_state (ht : WorkerOk _ _ _ _).position hne).2 with h2 | h2
            · exact nomatch h2
            · exact nomatch h2
  flag := h.flag
  unwritten := by
    intro hmem
    rcases hstart hmem with h1 | h1
    · exact .inl h1
    · exact (h.unwritten hmem).imp_right fun h2 => none_of_gone ht ⟨h1, h2⟩
  started := by
    intro hmem
    rcases hstart hmem with h1 | h1
    · obtain ⟨st, hst, hwrite⟩ := state_mem_startWrites k
      exact .inl ⟨st, hst, h1.subset hwrite⟩
    · refine (h.started hmem).imp_right fun h2 => ?_
      have hset : (runInstr ρ i fresh a sh r).shared.testState k = sh.testState k ∨ _ :=
        runInstr_testState k
      rcases hset with h3 | ⟨st, rfl, h3⟩
      · rw [h3]
        exact h2
      · rw [h3]
        rintro rfl
        cases ρ with
        | ui => exact (hui rfl).1 hmem
        | worker k' =>
            by_cases hne : k = k'
            · subst hne
              exact nomatch h1.symm.trans
                ((ht : WorkerOk _ _ _ _).live (List.cons_ne_nil _ _))
            · rcases (foreign_state (ht : WorkerOk _ _ _ _).position hne).2 with h4 | h4
              · exact nomatch h4
              · exact nomatch h4

/-- A start function has written nothing yet, or has passed its guards. -/
theorem unwritten_or_null (h : UiOk todo sh) (hmem : .create k ∈ todo) :
    startWrites k ++ [.create k] <:+ todo ∨ sh.handle k = none := by
  have hwrites : startWrites k ++ [.create k] <:+ startCode k := by
    rw [startCode, List.append_assoc]
    exact List.suffix_append _ _
  rcases List.suffix_or_suffix_of_suffix hwrites (h.creating k hmem) with h1 | h1
  · exact .inl h1
  · refine .inr ((h.guarded k k hmem (own_handle_mem_startGuards k)).resolve_left fun h2 => ?_)
    have hmem' := h1.subset h2
    cases k <;> simp [startWrites] at hmem'

/-- The loopback's code has no record of another worker in it. -/
theorem loopback_outside (hne : k ≠ .loopback) : Outside k audioLoopbackTask sh tr := by
  refine .of_not_about fun b hb => ?_
  have hother : ∀ b ∈ audioLoopbackTask, ¬ About k b ∧ b ≠ .create k := by
    simp [audioLoopbackTask, loopbackHandOff, loopbackSetup, cleanup, closes, leave, About,
      Ne.symm hne]
  exact hother b hb

/-- A worker is created without a failure recorded. -/
theorem spawned (ht : TaskOk i ⟨ρ, a :: rest⟩ sh tr) (hk : TaskKeeps i ⟨ρ, a :: rest⟩ sh tr)
    (hspawn : (runInstr ρ i fresh a sh r).spawn = some (.worker k)) :
    TaskKeeps j ⟨.worker k, workerCode k⟩ (runInstr ρ i fresh a sh r).shared
      (tr ++ (runInstr ρ i fresh a sh r).events) := by
  obtain ⟨k', rfl, -, hk'⟩ := runInstr_spawn hspawn
  obtain rfl := Role.worker.inj hk'
  cases ρ with
  | worker k' =>
      exact absurd List.mem_cons_self (ht : WorkerOk _ _ _ _).position.create_not_mem
  | ui =>
      have hnone : recordedFailure k tr = none :=
        (hk k).none_of_start ht List.mem_cons_self (fun _ h => nomatch h) fun h => nomatch h
      refine ⟨{ closing := ?_, failing := ?_ }, ?_⟩
      · intro hsome
        exact absurd (none_kept (fun h : Role.ui = .worker k => nomatch h) hnone) hsome
      · intro hmem
        cases k <;> simp [workerCode, micCaptureTask, dacToneTask, audioLoopbackTask,
          loopbackHandOff, loopbackSetup, cleanup, closes, leave] at hmem
      · rintro rfl k' hne
        exact loopback_outside hne

/-- A callback begins with the assertion of the UI task. -/
theorem called (k : Worker) (c : Callback) : Outside k c.code sh tr := by
  by_cases hc : c = .start k
  · subst hc
    have hcreate : .create k ∈ startCode k := List.mem_append_right _ List.mem_cons_self
    have hwrites : startWrites k ++ [.create k] <:+ startCode k := by
      rw [startCode, List.append_assoc]
      exact List.suffix_append _ _
    have hstop : .setState k .stopping ∉ startCode k := by
      cases k <;> simp [startCode, startWrites]
    exact {
      asking := by
        intro hmem
        cases k <;> simp [Callback.code, startCode, startWrites] at hmem
      writing := fun _ _ => .inr (.inl hcreate)
      erring := fun _ _ => .inl hcreate
      failing := fun hmem => absurd hmem error_not_mem_startCode
      late := fun hmem => hstop (List.mem_of_mem_tail hmem)
      stopping := fun hmem => absurd hmem hstop
      flag := fun _ => hcreate
      unwritten := fun _ => .inl hwrites
      started := fun _ => by
        obtain ⟨st, hst, hmem⟩ := state_mem_startWrites k
        exact .inl ⟨st, hst, hwrites.subset hmem⟩ }
  · have hother : ∀ b ∈ c.code, ¬ About k b := by
      cases c with
      | start k' =>
          have hne : k' ≠ k := fun h => hc (h ▸ rfl)
          cases k' <;>
            simp [Callback.code, startCode, startGuards, loopbackGuards, startWrites, About, hne]
      | audioMicBack menu | navigate menu =>
          rw [Callback.code, showMenu]
          split <;> simp [sdCardMount, sdCardMountGuards, About]
      | stop | loopbackGainChanged | loopbackToggleMute | sdMount =>
          simp [Callback.code, sdCardMount, sdCardMountGuards, About]
    refine .of_not_about fun b hb => ⟨hother b hb, ?_⟩
    rintro rfl
    exact hc (create_mem_code hb)

end Frame

/-! ## Every run -/

theorem keeps_boot : Keeps bootAudio [] := by
  refine ⟨⟨fun _ _ h => (nomatch h), fun _ h => absurd rfl h⟩, fun i t hi => ?_⟩
  obtain ⟨rfl, rfl⟩ := boot_task hi
  exact fun k => .of_not_about fun b hb => absurd hb List.not_mem_nil

/-- **One step that stops no failed worker keeps the assertions.** -/
theorem keeps_step {p p' : AudioPool} {l : Lab Reply Callback} {tr es : List AudioEv}
    (hok : Owned p tr) (h : Keeps p tr) (hC : NoStopOverError p l)
    (hs : audio.step p l = some (p', es)) : Keeps p' (tr ++ es) := by
  refine holds_step h ?_ ?_ ?_ ?_ hs
  · rintro i r ρ a rest rfl hi hk
    have ht := hok.2 i _ hi
    refine ⟨SharedKeeps.step ht hk h.1 ?_, ?_⟩
    · rintro k rfl
      exact hC k (writesStopping_run hi)
    · cases ρ with
      | ui => exact fun k => (hk k).step ht (fun h => nomatch h) h.1
      | worker k =>
          refine ⟨hk.1.step ht h.1, ?_⟩
          rintro rfl k' hne
          exact (hk.2 rfl k' hne).step ht (fun h => hne (Role.worker.inj h).symm) h.1
  · rintro i r ρ a rest j ⟨ρ', todo⟩ - hi hk hne hj hu
    have ht := hok.2 i _ hi
    have ht' := hok.2 j _ hj
    cases ρ' with
    | ui =>
        cases ρ with
        | ui => exact absurd (ht'.1.trans ht.1.symm) hne
        | worker k' =>
            intro o k
            refine (hu k).frame ht hk ?_ (fun h => nomatch h) (unwritten_or_null ht'.2)
            exact fun _ => null_stays ht _ r fun h => nomatch h
    | worker k =>
        refine ⟨Inside.frame ht ht' hne hu.1, ?_⟩
        rintro rfl k' hk'
        have hok' : WorkerOk .loopback j todo p.shared := ht'
        have hcreate : .create k' ∉ todo := hok'.position.create_not_mem
        by_cases htodo : todo = []
        · subst htodo
          exact .of_not_about fun b hb => absurd hb List.not_mem_nil
        · have hlive : p.shared.handle .loopback ≠ none := by simp [hok'.live htodo]
          refine (hu.2 rfl k' hk').frame ht hk ?_ (fun _ => ⟨hcreate, hlive⟩)
            fun hmem => absurd hmem hcreate
          exact fun _ => null_stays ht _ r fun _ => .inr hlive
  · intro i r ρ a rest ρ' _ hi hk o hspawn
    obtain ⟨k, -, -, rfl⟩ := runInstr_spawn hspawn
    exact spawned (hok.2 i _ hi) hk hspawn
  · intro i c ρ code _ _ _ hcall
    obtain ⟨rfl, rfl⟩ := audio_call_inv hcall
    exact fun k => called k c

/-- A STOPPING over an ERROR is one over a recorded failure. -/
theorem recorded_of_stop {p : AudioPool} {tr : List AudioEv} {i : Nat} {ρ : Role}
    {k : Worker} {rest : List Instr} (hok : Owned p tr) (h : Keeps p tr)
    (hi : p.tasks[i]? = some ⟨ρ, .setState k .stopping :: rest⟩)
    (herr : p.shared.testState k = .error) : recordedFailure k tr ≠ none := by
  have ht := hok.2 i _ hi
  by_cases hρ : ρ = .worker k
  · subst hρ
    have hlive := (ht : WorkerOk _ _ _ _).live (List.cons_ne_nil _ _)
    exact h.1.alive k (by simp [hlive]) herr
  · exact (outside_of_write ht (h.2 i _ hi) hρ (.inl ⟨_, rfl⟩)).stopping List.mem_cons_self herr

/-- **Errors are kept exactly when no failed worker is stopped.**  In every run
    the recorded failures stand in the variables all along if and only if no
    step of it writes STOPPING over an ERROR. -/
theorem errors_kept_iff {ls : List (Lab Reply Callback)} {p : AudioPool}
    {tr : List AudioEv} (h : Run audio bootAudio ls p tr) :
    Always audio bootAudio ErrorsKept ls ↔ Meets audio bootAudio NoStopOverError ls := by
  have hall : Meets audio bootAudio (fun _ _ => True) ls := fun _ _ _ _ _ _ _ => trivial
  refine always_iff_meets_within (P := fun p tr => Owned p tr ∧ Keeps p tr)
    ⟨owned_boot, keeps_boot⟩ (fun p tr hP => hP.2.1.kept) ?_ ?_ h hall
  · intro p tr l p' es hP _ hC hs
    exact ⟨owned_step hP.1 hs, keeps_step hP.1 hP.2 hC hs⟩
  · intro p tr l p' es hP _ hs hkept k hk herr
    obtain ⟨i, r, ρ, rest, rfl, hi⟩ := writesStopping_inv hk
    obtain ⟨ρ', a, rest', hi', rfl, rfl⟩ := step_run_inv hs
    obtain ⟨rfl, rfl, rfl⟩ : ρ = ρ' ∧ .setState k .stopping = a ∧ rest = rest' := by
      simpa using Option.some.inj (hi.symm.trans hi')
    -- the record stays, the state does not
    obtain ⟨e, he⟩ := Option.ne_none_iff_exists'.mp (recorded_of_stop hP.1 hP.2 hi herr)
    have hrec : recordedFailure k (tr ++ (runInstr ρ i p.tasks.length
        (.setState k .stopping) p.shared r).events) = some e := by
      rw [recordedFailure_append]
      simpa [runInstr] using he
    have hstate := (hkept k e hrec).1
    simp [audioProgram, runInstr] at hstate

/-- The meter fails and leaves; a stop that comes later finds no task. -/
def failedThenStopped : List (Lab Reply Callback) :=
  openAudioPage ++ .call 0 (.start .mic) :: List.replicate 18 (.run 0 {}) ++
    .run 1 { err := espFail } :: List.replicate 10 (.run 1 {}) ++
      .call 0 (.stop .mic) :: List.replicate 2 (.run 0 {})

theorem errors_kept_iff_at : Always audio bootAudio ErrorsKept failedThenStopped := by
  have hrun : ∃ p tr, Run audio bootAudio failedThenStopped p tr := ⟨_, _, run_of_exec rfl⟩
  obtain ⟨p, tr, hrun⟩ := hrun
  exact (errors_kept_iff hrun).mpr (meets_of_checks rfl)

/-- The meter fails; it is stopped before its cleanup tests the state. -/
def stoppedInCleanup : List (Lab Reply Callback) :=
  openAudioPage ++ .call 0 (.start .mic) :: List.replicate 18 (.run 0 {}) ++
    .run 1 { err := espFail } :: List.replicate 2 (.run 1 {}) ++
      .call 0 (.stop .mic) :: List.replicate 3 (.run 0 {}) ++ List.replicate 10 (.run 1 {})

/-- The meter has failed and has not been started since, but it is STOPPED. -/
theorem error_lost :
    ¬ ∀ ls p tr, Run audio bootAudio ls p tr → ErrorsKept p tr := by
  intro hall
  have hrun : ∃ p tr, exec audio bootAudio stoppedInCleanup = some (p, tr) ∧
      recordedFailure .mic tr = some espFail ∧ p.shared.testState .mic = .stopped ∧
      p.shared.lastError .mic = espOk := ⟨_, _, rfl, rfl, rfl, rfl⟩
  obtain ⟨p, tr, hexec, hrec, hstate, -⟩ := hrun
  exact nomatch hstate.symm.trans (hall _ p tr (run_of_exec hexec) .mic espFail hrec).1

end AudioError
