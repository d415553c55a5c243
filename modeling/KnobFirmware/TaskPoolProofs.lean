import KnobFirmware.StepMachineProofs

/-! # Task pools — tasks that run code lists over shared variables

    A task is the list of the instructions it has still to run.  Its first
    instruction is one atomic step: it may read or write the shared state, and
    says what follows: `goOn pre` runs `pre` before the rest, as a branch does;
    `jump code` forgets the rest, as a `goto` or a `return` does.  It may also
    create a task, whose number is the next free one.  A task that has nothing
    left to run can be given a CALL, the code of one of its callbacks.

    Tasks are proved about by assertions: one on the shared state, and one for
    each task on its remaining code and the shared state.  `holds_step` is the
    rule: the assertions survive a step if the moving task re-establishes its
    own, and does not interfere with those of the others. -/

namespace TaskPool

open StepMachine

variable {Role Instr Shared Reply Call Ev : Type}

/-- What a task runs after an instruction. -/
inductive Next (Instr : Type) where
  | goOn (pre : List Instr)
  | jump (code : List Instr)

/-- The remaining code, given what was left after the instruction. -/
def Next.after : Next Instr → List Instr → List Instr
  | .goOn pre, rest => pre ++ rest
  | .jump code, _ => code

@[simp] theorem Next.after_goOn (pre rest : List Instr) :
    (Next.goOn pre).after rest = pre ++ rest := rfl

@[simp] theorem Next.after_jump (code rest : List Instr) :
    (Next.jump code).after rest = code := rfl

/-- The code that an instruction brings in. -/
def Next.code : Next Instr → List Instr
  | .goOn pre => pre
  | .jump code => code

theorem Next.mem_after {n : Next Instr} {rest : List Instr} {a : Instr}
    (h : a ∈ n.after rest) : a ∈ n.code ∨ a ∈ rest := by
  cases n with
  | goOn pre => exact List.mem_append.mp h
  | jump code => exact .inl h

/-- The same in the instructions of another program. -/
def Next.map {Instr' : Type} (f : Instr → Instr') : Next Instr → Next Instr'
  | .goOn pre => .goOn (pre.map f)
  | .jump code => .jump (code.map f)

/-- What an instruction does. -/
structure Outcome (Role Instr Shared Ev : Type) where
  shared : Shared
  next   : Next Instr := .goOn []
  spawn  : Option Role := none
  events : List Ev := []

/-- A task: its role, and the code it has still to run. -/
structure Task (Role Instr : Type) where
  role : Role
  todo : List Instr

structure Pool (Role Instr Shared : Type) where
  shared : Shared
  tasks  : List (Task Role Instr)

/-- A program: the code of a new task, the code of a call where it is allowed,
    and the meaning of an instruction for the task of a role and number.  The
    meaning is also told the number that a new task would get. -/
structure Program (Role Instr Shared Reply Call Ev : Type) where
  body : Role → List Instr
  call : Role → Shared → Call → Option (List Instr)
  exec : Role → Nat → Nat → Instr → Shared → Reply → Outcome Role Instr Shared Ev

/-- Who moves, and what the environment answers. -/
inductive Lab (Reply Call : Type) where
  | call (i : Nat) (c : Call)
  | run (i : Nat) (r : Reply)

/-- The task that moves. -/
def Lab.task : Lab Reply Call → Nat
  | .call i _ | .run i _ => i

/-- The task that an instruction created. -/
def Program.spawned (T : Program Role Instr Shared Reply Call Ev) :
    Option Role → List (Task Role Instr)
  | none => []
  | some ρ => [⟨ρ, T.body ρ⟩]

def Program.step (T : Program Role Instr Shared Reply Call Ev)
    (p : Pool Role Instr Shared) : Lab Reply Call → Option (Pool Role Instr Shared × List Ev)
  | .call i c =>
      match p.tasks[i]? with
      | some ⟨ρ, []⟩ =>
          (T.call ρ p.shared c).map fun code =>
            ({ p with tasks := p.tasks.set i ⟨ρ, code⟩ }, [])
      | _ => none
  | .run i r =>
      match p.tasks[i]? with
      | some ⟨ρ, a :: rest⟩ =>
          let o := T.exec ρ i p.tasks.length a p.shared r
          some (⟨o.shared, p.tasks.set i ⟨ρ, o.next.after rest⟩ ++ T.spawned o.spawn⟩,
            o.events)
      | _ => none

/-- The pool as a machine, from the given start states. -/
def Program.machine (T : Program Role Instr Shared Reply Call Ev)
    (start : Pool Role Instr Shared → Prop) :
    Machine (Pool Role Instr Shared) (Lab Reply Call) Ev where
  start := start
  step := T.step

section Steps

variable {T : Program Role Instr Shared Reply Call Ev} {p p' : Pool Role Instr Shared}
  {i : Nat} {es : List Ev}

theorem step_call_inv {c : Call} (h : T.step p (.call i c) = some (p', es)) :
    ∃ ρ code, p.tasks[i]? = some ⟨ρ, []⟩ ∧ T.call ρ p.shared c = some code ∧
      p' = { p with tasks := p.tasks.set i ⟨ρ, code⟩ } ∧ es = [] := by
  rw [Program.step] at h
  split at h
  · rename_i ρ hi
    obtain ⟨code, hcode, heq⟩ := Option.map_eq_some_iff.mp h
    obtain ⟨rfl, rfl⟩ := Prod.mk.inj heq
    exact ⟨ρ, code, hi, hcode, rfl, rfl⟩
  · exact nomatch h

theorem step_run_inv {r : Reply} (h : T.step p (.run i r) = some (p', es)) :
    ∃ ρ a rest, p.tasks[i]? = some ⟨ρ, a :: rest⟩ ∧
      p' = ⟨(T.exec ρ i p.tasks.length a p.shared r).shared,
        p.tasks.set i ⟨ρ, (T.exec ρ i p.tasks.length a p.shared r).next.after rest⟩ ++
          T.spawned (T.exec ρ i p.tasks.length a p.shared r).spawn⟩ ∧
      es = (T.exec ρ i p.tasks.length a p.shared r).events := by
  rw [Program.step] at h
  split at h
  · rename_i ρ a rest hi
    obtain ⟨rfl, rfl⟩ := Prod.mk.inj (Option.some.inj h)
    exact ⟨ρ, a, rest, hi, rfl, rfl⟩
  · exact nomatch h

theorem step_call {ρ : Role} {c : Call} {code : List Instr} (h : p.tasks[i]? = some ⟨ρ, []⟩)
    (hcall : T.call ρ p.shared c = some code) :
    T.step p (.call i c) = some ({ p with tasks := p.tasks.set i ⟨ρ, code⟩ }, []) := by
  rw [Program.step, h]
  show (T.call ρ p.shared c).map _ = _
  rw [hcall]
  rfl

theorem step_run {ρ : Role} {a : Instr} {rest : List Instr} {r : Reply}
    (h : p.tasks[i]? = some ⟨ρ, a :: rest⟩) :
    T.step p (.run i r) =
      some (⟨(T.exec ρ i p.tasks.length a p.shared r).shared,
        p.tasks.set i ⟨ρ, (T.exec ρ i p.tasks.length a p.shared r).next.after rest⟩ ++
          T.spawned (T.exec ρ i p.tasks.length a p.shared r).spawn⟩,
        (T.exec ρ i p.tasks.length a p.shared r).events) := by
  rw [Program.step, h]

/-- The step of a task whose next instruction is known. -/
theorem step_run_eq {ρ : Role} {a : Instr} {rest : List Instr} {r : Reply}
    (hi : p.tasks[i]? = some ⟨ρ, a :: rest⟩) (h : T.step p (.run i r) = some (p', es)) :
    p' = ⟨(T.exec ρ i p.tasks.length a p.shared r).shared,
        p.tasks.set i ⟨ρ, (T.exec ρ i p.tasks.length a p.shared r).next.after rest⟩ ++
          T.spawned (T.exec ρ i p.tasks.length a p.shared r).spawn⟩ ∧
      es = (T.exec ρ i p.tasks.length a p.shared r).events := by
  rw [step_run hi] at h
  obtain ⟨rfl, rfl⟩ := Prod.mk.inj (Option.some.inj h)
  exact ⟨rfl, rfl⟩

/-- A task after a run step is the moving one, one that was there, or new. -/
theorem tasks_run {ρ : Role} {todo : List Instr} {spawn : Option Role} {j : Nat}
    {u : Task Role Instr} {ts : List (Task Role Instr)}
    (h : (ts.set i ⟨ρ, todo⟩ ++ T.spawned spawn)[j]? = some u) :
    (j = i ∧ u = ⟨ρ, todo⟩) ∨ (j ≠ i ∧ ts[j]? = some u) ∨
      (j = ts.length ∧ ∃ ρ', spawn = some ρ' ∧ u = ⟨ρ', T.body ρ'⟩) := by
  rcases Nat.lt_or_ge j ts.length with hj | hj
  · rw [List.getElem?_append_left (by simpa using hj)] at h
    by_cases hji : j = i
    · subst hji
      rw [List.getElem?_set_self hj] at h
      exact .inl ⟨rfl, (Option.some.inj h).symm⟩
    · rw [List.getElem?_set_ne (Ne.symm hji)] at h
      exact .inr (.inl ⟨hji, h⟩)
  · -- only a created task has a number that was free
    rw [List.getElem?_append_right (by simpa using hj), List.length_set] at h
    cases spawn with
    | none => simp [Program.spawned] at h
    | some ρ' =>
        obtain ⟨h0, hu⟩ : j - ts.length = 0 ∧ (⟨ρ', T.body ρ'⟩ : Task Role Instr) = u := by
          cases hk : j - ts.length with
          | zero =>
              rw [hk] at h
              exact ⟨rfl, Option.some.inj h⟩
          | succ n =>
              rw [hk] at h
              exact nomatch h
        exact .inr (.inr ⟨Nat.le_antisymm (Nat.le_of_sub_eq_zero h0) hj, ρ', rfl, hu.symm⟩)

/-- A task keeps its number and its role. -/
theorem role_step {l : Lab Reply Call} {t : Task Role Instr}
    (h : T.step p l = some (p', es)) (hi : p.tasks[i]? = some t) :
    ∃ t', p'.tasks[i]? = some t' ∧ t'.role = t.role := by
  obtain ⟨hlt, -⟩ := List.getElem?_eq_some_iff.mp hi
  have hset : ∀ j ρ todo todo', p.tasks[j]? = some ⟨ρ, todo⟩ →
      ∃ t', (p.tasks.set j ⟨ρ, todo'⟩)[i]? = some t' ∧ t'.role = t.role := by
    intro j ρ todo todo' hj
    by_cases hji : j = i
    · subst hji
      obtain rfl := Option.some.inj (hj.symm.trans hi)
      exact ⟨_, List.getElem?_set_self hlt, rfl⟩
    · exact ⟨t, by rw [List.getElem?_set_ne hji, hi], rfl⟩
  cases l with
  | call j c =>
      obtain ⟨ρ, code, hj, -, rfl, -⟩ := step_call_inv h
      exact hset j ρ [] code hj
  | run j r =>
      obtain ⟨ρ, a, rest, hj, rfl, -⟩ := step_run_inv h
      obtain ⟨t', ht', hrole⟩ := hset j ρ (a :: rest) _ hj
      refine ⟨t', ?_, hrole⟩
      rw [List.getElem?_append_left (by simpa using hlt)]
      exact ht'

/-- A step leaves the other tasks as they are. -/
theorem other_step {l : Lab Reply Call} {t : Task Role Instr} (h : T.step p l = some (p', es))
    (hi : p.tasks[i]? = some t) (hne : l.task ≠ i) : p'.tasks[i]? = some t := by
  obtain ⟨hlt, -⟩ := List.getElem?_eq_some_iff.mp hi
  cases l with
  | call j c =>
      obtain ⟨ρ, code, -, -, rfl, -⟩ := step_call_inv h
      have hji : j ≠ i := hne
      show (p.tasks.set j _)[i]? = _
      rw [List.getElem?_set_ne hji, hi]
  | run j r =>
      obtain ⟨ρ, a, rest, -, rfl, -⟩ := step_run_inv h
      have hji : j ≠ i := hne
      show (p.tasks.set j _ ++ _)[i]? = _
      rw [List.getElem?_append_left (by simpa using hlt), List.getElem?_set_ne hji, hi]

/-- A task that has no code left, and that nobody calls, stays so. -/
theorem done_stays {start : Pool Role Instr Shared → Prop} {q : Pool Role Instr Shared}
    {ls : List (Lab Reply Call)} {tr : List Ev} {ρ : Role} (hcall : ∀ sh c, T.call ρ sh c = none)
    (hi : p.tasks[i]? = some ⟨ρ, []⟩)
    (h : Run (T.machine start) p ls q tr) : q.tasks[i]? = some ⟨ρ, []⟩ := by
  refine h.invariant (P := fun q _ => q.tasks[i]? = some ⟨ρ, []⟩) hi ?_
  intro q tr l q' es hq hs
  refine other_step hs hq ?_
  rintro rfl
  cases l with
  | call j c =>
      obtain ⟨ρ', code, hj, hcode, -⟩ := step_call_inv hs
      obtain rfl := (Task.mk.inj (Option.some.inj (hj.symm.trans hq))).1
      exact nomatch (hcall _ _).symm.trans hcode
  | run j r =>
      obtain ⟨ρ', a, rest, hj, -⟩ := step_run_inv hs
      exact nomatch (Task.mk.inj (Option.some.inj (hj.symm.trans hq))).2

end Steps

/-! ## Assertions -/

section Assertions

variable {T : Program Role Instr Shared Reply Call Ev}

/-- The assertion on the shared state and the trace, and the assertion of each
    task. -/
def Holds (G : Shared → List Ev → Prop) (L : Nat → Task Role Instr → Shared → List Ev → Prop)
    (p : Pool Role Instr Shared) (tr : List Ev) : Prop :=
  G p.shared tr ∧ ∀ i t, p.tasks[i]? = some t → L i t p.shared tr

/-- **The assertion rule.**  A step keeps the assertions if, whatever
    instruction it runs, the shared assertion and the moving task's own one
    hold afterwards (`own`), the other tasks' assertions hold with the new
    shared state (`others`), a created task starts with its assertion
    (`spawn`), and a call begins with the assertion of its task (`call`). -/
theorem holds_step {G : Shared → List Ev → Prop}
    {L : Nat → Task Role Instr → Shared → List Ev → Prop} {p p' : Pool Role Instr Shared}
    {l : Lab Reply Call} {tr es : List Ev} (h : Holds G L p tr)
    (own : ∀ i r ρ a rest, l = .run i r → p.tasks[i]? = some ⟨ρ, a :: rest⟩ →
      L i ⟨ρ, a :: rest⟩ p.shared tr →
      let o := T.exec ρ i p.tasks.length a p.shared r
      G o.shared (tr ++ o.events) ∧
        L i ⟨ρ, o.next.after rest⟩ o.shared (tr ++ o.events))
    (others : ∀ i r ρ a rest j u, l = .run i r → p.tasks[i]? = some ⟨ρ, a :: rest⟩ →
      L i ⟨ρ, a :: rest⟩ p.shared tr → j ≠ i → p.tasks[j]? = some u →
      L j u p.shared tr →
      let o := T.exec ρ i p.tasks.length a p.shared r
      L j u o.shared (tr ++ o.events))
    (spawn : ∀ i r ρ a rest ρ', l = .run i r → p.tasks[i]? = some ⟨ρ, a :: rest⟩ →
      L i ⟨ρ, a :: rest⟩ p.shared tr →
      let o := T.exec ρ i p.tasks.length a p.shared r
      o.spawn = some ρ' → L p.tasks.length ⟨ρ', T.body ρ'⟩ o.shared (tr ++ o.events))
    (call : ∀ i c ρ code, l = .call i c → p.tasks[i]? = some ⟨ρ, []⟩ →
      L i ⟨ρ, []⟩ p.shared tr → T.call ρ p.shared c = some code →
      L i ⟨ρ, code⟩ p.shared tr)
    (hs : T.step p l = some (p', es)) : Holds G L p' (tr ++ es) := by
  cases l with
  | call i c =>
      obtain ⟨ρ, code, hi, hcode, rfl, rfl⟩ := step_call_inv hs
      -- a call moves no other task and writes nothing
      have hL := call i c ρ code rfl hi (h.2 i _ hi) hcode
      rw [List.append_nil]
      refine ⟨h.1, fun j u hj => ?_⟩
      by_cases hji : j = i
      · subst hji
        obtain ⟨hlt, -⟩ := List.getElem?_eq_some_iff.mp hi
        rw [List.getElem?_set_self hlt] at hj
        obtain rfl := Option.some.inj hj
        exact hL
      · rw [List.getElem?_set_ne (Ne.symm hji)] at hj
        exact h.2 j u hj
  | run i r =>
      obtain ⟨ρ, a, rest, hi, rfl, rfl⟩ := step_run_inv hs
      have hL := h.2 i _ hi
      obtain ⟨hG, hown⟩ := own i r ρ a rest rfl hi hL
      refine ⟨hG, fun j u hj => ?_⟩
      rcases tasks_run hj with ⟨rfl, rfl⟩ | ⟨hne, hj⟩ | ⟨rfl, ρ', hspawn, rfl⟩
      · exact hown
      · exact others i r ρ a rest j u rfl hi hL hne hj (h.2 j u hj)
      · exact spawn i r ρ a rest ρ' rfl hi hL hspawn

end Assertions

end TaskPool
