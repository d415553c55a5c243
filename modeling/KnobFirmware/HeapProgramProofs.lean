import Mathlib.Logic.Function.Basic

/-! # Heap programs — blocks in use, faults, and weakest preconditions

    C code that allocates, frees and follows pointers, as a state monad over the
    blocks in use and the program's variables.  A block has a kind and, among
    the blocks of its kind, an address; a pointer that is known to be of one kind
    is an address.  The allocator's answers are arguments of the program, so that
    a run has one course.

    A program ends in one of three ways: it is DONE; it is STOPPED, because the
    allocator would have to hand out a block that is in use or because an
    assertion fails; or it is at FAULT, because it reads, writes or frees a block
    that is not in use.

    `wp stop x Q` holds of the memories from which `x` is never at fault, is
    stopped only if `stop`, and when it is done leaves `Q`.  With `stop` true this
    is safety, with `stop` false it is total correctness; the rules are the same
    for both. -/

namespace HeapProgram

/-! ## Heaps -/

/-- The blocks in use, by kind and address, with their content. -/
abbrev Heap {Kind : Type} (Content : Kind → Type) :=
  (k : Kind) → Nat → Option (Content k)

section Heaps

variable {Kind : Type} [DecidableEq Kind] {Content : Kind → Type}
  {h : Heap Content} {k k' : Kind} {a b : Nat}

/-- The heap with what is at an address replaced. -/
def put (h : Heap Content) (k : Kind) (a : Nat) (c : Option (Content k)) : Heap Content :=
  Function.update h k (Function.update (h k) a c)

@[simp] theorem put_same {c : Option (Content k)} : put h k a c k a = c := by
  simp [put]

/-- The blocks of the other kinds are untouched. -/
@[simp] theorem put_kind {c : Option (Content k)} (hne : k' ≠ k) :
    put h k a c k' = h k' := by
  simp [put, hne]

theorem put_pool {c : Option (Content k)} :
    put h k a c k = Function.update (h k) a c := by
  simp [put]

@[simp] theorem put_put {c d : Option (Content k)} :
    put (put h k a c) k a d = put h k a d := by
  simp [put]

/-- To replace a content by itself is to do nothing. -/
theorem put_self {c : Option (Content k)} (hc : h k a = c) : put h k a c = h := by
  subst hc
  simp [put]

/-- Blocks of different kinds are put in any order. -/
theorem put_comm {c : Option (Content k)} {d : Option (Content k')} (hne : k ≠ k') :
    put (put h k a c) k' b d = put (put h k' b d) k a c := by
  unfold put
  rw [Function.update_of_ne hne.symm, Function.update_of_ne hne,
    Function.update_comm hne]

/-- A block is freed again. -/
theorem put_none_iff {h' : Heap Content} {c : Content k} (hfree : h k a = none)
    (hused : h' k a = some c) : put h' k a none = h ↔ h' = put h k a (some c) := by
  constructor
  · rintro rfl
    rw [put_put, put_self hused]
  · rintro rfl
    rw [put_put, put_self hfree]

end Heaps

/-! ## Programs -/

/-- The blocks in use and the variables of the program. -/
structure Mem {Kind : Type} (Content : Kind → Type) (γ : Type) where
  heap    : Heap Content
  globals : γ

inductive Outcome (σ α : Type) where
  | done (a : α) (s : σ)
  | stopped
  | fault

/-- A program that returns an `α`. -/
def Prog {Kind : Type} (Content : Kind → Type) (γ α : Type) :=
  Mem Content γ → Outcome (Mem Content γ) α

section Programs

variable {Kind : Type} {Content : Kind → Type} {γ α β : Type}

def Prog.andThen (x : Prog Content γ α) (f : α → Prog Content γ β) : Prog Content γ β :=
  fun s =>
    match x s with
    | .done a s' => f a s'
    | .stopped => .stopped
    | .fault => .fault

instance : Monad (Prog Content γ) where
  pure a := fun s => .done a s
  bind := Prog.andThen

/-- The program may be told `answer` for a block of kind `k`: a block that is in
    use is no answer, unless `stop`. -/
def Granted [DecidableEq Kind] (stop : Prop) (h : Heap Content) (k : Kind)
    (answer : Option Nat) : Prop :=
  ∀ a, answer = some a → h k a ≠ none → stop

/-- Reads a variable. -/
def read (f : γ → α) : Prog Content γ α := fun s => .done (f s.globals) s

/-- Writes to the variables. -/
def modify (f : γ → γ) : Prog Content γ Unit :=
  fun s => .done () { s with globals := f s.globals }

/-- A failed assertion. -/
def halt : Prog Content γ α := fun _ => .stopped

variable [DecidableEq Kind]

/-- `malloc` and its like, with the answer of the allocator. -/
def malloc (k : Kind) (answer : Option Nat) (c : Content k) :
    Prog Content γ (Option Nat) := fun s =>
  match answer with
  | none => .done none s
  | some a =>
      match s.heap k a with
      | none => .done (some a) { s with heap := put s.heap k a (some c) }
      | some _ => .stopped

/-- `free`; NULL may be freed. -/
def free (k : Kind) (p : Option Nat) : Prog Content γ Unit := fun s =>
  match p with
  | none => .done () s
  | some a =>
      match s.heap k a with
      | none => .fault
      | some _ => .done () { s with heap := put s.heap k a none }

/-- The block behind a pointer. -/
def load (k : Kind) (a : Nat) : Prog Content γ (Content k) := fun s =>
  match s.heap k a with
  | none => .fault
  | some c => .done c s

/-- Writes to the block behind a pointer. -/
def store (k : Kind) (a : Nat) (c : Content k) : Prog Content γ Unit := fun s =>
  match s.heap k a with
  | none => .fault
  | some _ => .done () { s with heap := put s.heap k a (some c) }

theorem granted_true {h : Heap Content} {k : Kind} {answer : Option Nat} :
    Granted True h k answer := fun _ _ _ => trivial

/-- Blocks of other kinds do not matter. -/
theorem Granted.of_eq {stop : Prop} {h h' : Heap Content} {k : Kind} {answer : Option Nat}
    (hg : Granted stop h k answer) (heq : h' k = h k) : Granted stop h' k answer := by
  intro a ha hused
  rw [heq] at hused
  exact hg a ha hused

end Programs

/-! ## Weakest preconditions -/

section Rules

variable {Kind : Type} {Content : Kind → Type} {γ α β : Type}

/-- The memories from which a program meets `Q`. -/
def wp (stop : Prop) (x : Prog Content γ α) (Q : α → Mem Content γ → Prop)
    (s : Mem Content γ) : Prop :=
  match x s with
  | .done a s' => Q a s'
  | .stopped => stop
  | .fault => False

variable {stop : Prop} {Q R : α → Mem Content γ → Prop} {s : Mem Content γ}

/-- How a safe program ends. -/
theorem wp_ends {x : Prog Content γ α} (h : wp stop x Q s) :
    (∃ a s', x s = .done a s' ∧ Q a s') ∨ x s = .stopped ∧ stop := by
  unfold wp at h
  cases hx : x s with
  | done a s' =>
      rw [hx] at h
      exact .inl ⟨a, s', rfl, h⟩
  | stopped =>
      rw [hx] at h
      exact .inr ⟨rfl, h⟩
  | fault =>
      rw [hx] at h
      exact h.elim

@[simp] theorem wp_pure {a : α} :
    wp stop (pure a : Prog Content γ α) Q s ↔ Q a s := Iff.rfl

/-- **The rule of sequence.** -/
@[simp] theorem wp_bind {x : Prog Content γ α} {f : α → Prog Content γ β}
    {Q : β → Mem Content γ → Prop} :
    wp stop (x >>= f) Q s ↔ wp stop x (fun a s' => wp stop (f a) Q s') s := by
  show wp stop (x.andThen f) Q s ↔ _
  unfold wp Prog.andThen
  cases x s <;> rfl

/-- **The rule of consequence.** -/
theorem wp_mono {x : Prog Content γ α} (h : wp stop x Q s)
    (hQ : ∀ a s', Q a s' → R a s') : wp stop x R s := by
  unfold wp at *
  cases hx : x s with
  | done a s' =>
      rw [hx] at h
      exact hQ a s' h
  | stopped =>
      rw [hx] at h
      exact h
  | fault =>
      rw [hx] at h
      exact h

@[simp] theorem wp_ite {c : Prop} [Decidable c] {x y : Prog Content γ α} :
    wp stop (if c then x else y) Q s ↔ if c then wp stop x Q s else wp stop y Q s := by
  split <;> rfl

@[simp] theorem wp_read {f : γ → α} :
    wp stop (read f : Prog Content γ α) Q s ↔ Q (f s.globals) s := Iff.rfl

@[simp] theorem wp_modify {f : γ → γ} {Q : Unit → Mem Content γ → Prop} :
    wp stop (modify f : Prog Content γ Unit) Q s ↔
      Q () { s with globals := f s.globals } := Iff.rfl

@[simp] theorem wp_halt : wp stop (halt : Prog Content γ α) Q s ↔ stop := Iff.rfl

variable {k : Kind} {a : Nat} {c : Content k}

/-- A block that is read is in use. -/
@[simp] theorem wp_load {Q : Content k → Mem Content γ → Prop} :
    wp stop (load k a) Q s ↔ ∃ c, s.heap k a = some c ∧ Q c s := by
  unfold wp load
  cases s.heap k a <;> simp

variable [DecidableEq Kind]

@[simp] theorem wp_malloc_none {Q : Option Nat → Mem Content γ → Prop} :
    wp stop (malloc k none c) Q s ↔ Q none s := Iff.rfl

/-- A block that is handed out was not in use. -/
@[simp] theorem wp_malloc_some {Q : Option Nat → Mem Content γ → Prop} :
    wp stop (malloc k (some a) c) Q s ↔
      (s.heap k a = none → Q (some a) { s with heap := put s.heap k a (some c) }) ∧
        (s.heap k a ≠ none → stop) := by
  unfold wp malloc
  cases hk : s.heap k a <;> simp [hk]

@[simp] theorem wp_free_null {Q : Unit → Mem Content γ → Prop} :
    wp stop (free k none) Q s ↔ Q () s := Iff.rfl

/-- A block that is freed was in use. -/
@[simp] theorem wp_free_some {Q : Unit → Mem Content γ → Prop} :
    wp stop (free k (some a)) Q s ↔
      s.heap k a ≠ none ∧ Q () { s with heap := put s.heap k a none } := by
  unfold wp free
  cases hk : s.heap k a <;> simp [hk]

@[simp] theorem wp_store {Q : Unit → Mem Content γ → Prop} :
    wp stop (store k a c) Q s ↔
      s.heap k a ≠ none ∧ Q () { s with heap := put s.heap k a (some c) } := by
  unfold wp store
  cases s.heap k a <;> simp

end Rules

end HeapProgram
