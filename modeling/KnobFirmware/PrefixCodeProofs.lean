import Mathlib.Data.List.Basic
import Mathlib.Data.List.Flatten

/-! # Prefix codes — streams of words that say where they end

    A prefix code writes a word as a list of symbols and reads one word off the
    front of a stream.  The two fields `take_emit` and `emit_take` say that
    reading undoes writing and that nothing else is read, so that a stream has
    one reading.

    * `Code.read_eq_iff` — `read` splits a stream, in the only possible way, into
      the words at its front and a rest at which no word begins;
    * `Code.loop_eq` — a loop that handles each word as soon as it is read does
      what a fold over the words of the stream does, as far as it gets. -/

namespace PrefixCode

variable {α β σ : Type}

/-- A code for words `α` in symbols `β`. -/
structure Code (α β : Type) where
  emit : α → List β
  take : List β → Option (α × List β)
  emit_ne_nil : ∀ a, emit a ≠ []
  take_emit : ∀ a rest, take (emit a ++ rest) = some (a, rest)
  emit_take : ∀ {bs a rest}, take bs = some (a, rest) → emit a ++ rest = bs

namespace Code

variable (c : Code α β) {a : α} {as : List α} {bs rest : List β}

/-- A list of words, written one after the other. -/
def emitAll (as : List α) : List β := as.flatMap c.emit

@[simp] theorem emitAll_nil : c.emitAll [] = [] := rfl

@[simp] theorem emitAll_cons : c.emitAll (a :: as) = c.emit a ++ c.emitAll as :=
  List.flatMap_cons

@[simp] theorem emitAll_append (as as' : List α) :
    c.emitAll (as ++ as') = c.emitAll as ++ c.emitAll as' :=
  List.flatMap_append

/-! ## One word -/

theorem take_nil : c.take [] = none := by
  cases h : c.take [] with
  | none => rfl
  | some p =>
      have heq : c.emit p.1 ++ p.2 = [] := c.emit_take h
      exact absurd (List.append_eq_nil_iff.mp heq).1 (c.emit_ne_nil p.1)

/-- A word that is read leaves fewer symbols. -/
theorem length_lt_of_take (h : c.take bs = some (a, rest)) : rest.length < bs.length := by
  rw [← c.emit_take h, List.length_append]
  have hpos : 0 < (c.emit a).length := List.length_pos_iff.mpr (c.emit_ne_nil a)
  omega

/-! ## All words -/

/-- At most `n` words off the front of a stream, and what is left of it. -/
def readUpTo : Nat → List β → List α × List β
  | 0, bs => ([], bs)
  | n + 1, bs =>
      match c.take bs with
      | none => ([], bs)
      | some (a, rest) => (a :: (readUpTo n rest).1, (readUpTo n rest).2)

/-- The words of a stream.  A word takes a symbol at least, so that the length
    of the stream bounds their number. -/
def read (bs : List β) : List α × List β := c.readUpTo bs.length bs

theorem readUpTo_none {n : Nat} (h : c.take bs = none) : c.readUpTo n bs = ([], bs) := by
  cases n with
  | zero => rfl
  | succ n => simp only [readUpTo, h]

theorem readUpTo_some {n : Nat} (h : c.take bs = some (a, rest)) :
    c.readUpTo (n + 1) bs = (a :: (c.readUpTo n rest).1, (c.readUpTo n rest).2) := by
  simp only [readUpTo, h]

/-- A bound at least the length is no bound. -/
theorem readUpTo_eq_read {n : Nat} (h : bs.length ≤ n) : c.readUpTo n bs = c.read bs := by
  rw [read]
  generalize hk : bs.length = k at h ⊢
  have hkl : bs.length ≤ k := Nat.le_of_eq hk
  clear hk
  induction k generalizing n bs with
  | zero =>
      obtain rfl := List.length_eq_zero_iff.mp (Nat.le_zero.mp hkl)
      rw [c.readUpTo_none c.take_nil, c.readUpTo_none c.take_nil]
  | succ k ih =>
      cases ht : c.take bs with
      | none => rw [c.readUpTo_none ht, c.readUpTo_none ht]
      | some p =>
          obtain ⟨a, rest⟩ := p
          have hlt := c.length_lt_of_take ht
          obtain ⟨m, rfl⟩ : ∃ m, n = m + 1 := ⟨n - 1, by omega⟩
          rw [c.readUpTo_some ht, c.readUpTo_some ht,
            ih (Nat.le_of_succ_le_succ h) (by omega)]

theorem read_none (h : c.take bs = none) : c.read bs = ([], bs) := c.readUpTo_none h

theorem read_some (h : c.take bs = some (a, rest)) :
    c.read bs = (a :: (c.read rest).1, (c.read rest).2) := by
  have hlt := c.length_lt_of_take h
  obtain ⟨m, hm⟩ : ∃ m, bs.length = m + 1 := ⟨bs.length - 1, by omega⟩
  rw [read, hm, c.readUpTo_some h, c.readUpTo_eq_read (by omega)]

@[simp] theorem read_nil : c.read [] = ([], []) := c.read_none c.take_nil

theorem read_emit_append (a : α) (rest : List β) :
    c.read (c.emit a ++ rest) = (a :: (c.read rest).1, (c.read rest).2) :=
  c.read_some (c.take_emit a rest)

theorem read_emitAll_append (as : List α) (rest : List β) :
    c.read (c.emitAll as ++ rest) = (as ++ (c.read rest).1, (c.read rest).2) := by
  induction as with
  | nil => rfl
  | cons a as ih => rw [emitAll_cons, List.append_assoc, read_emit_append, ih]; rfl

/-- What has been read, written again, is what stood at the front. -/
theorem emitAll_read (bs : List β) : c.emitAll (c.read bs).1 ++ (c.read bs).2 = bs := by
  generalize hk : bs.length = k
  induction k using Nat.strongRecOn generalizing bs with
  | _ k ih =>
      cases ht : c.take bs with
      | none => rw [c.read_none ht]; rfl
      | some p =>
          obtain ⟨a, rest⟩ := p
          rw [c.read_some ht, emitAll_cons, List.append_assoc,
            ih rest.length (hk ▸ c.length_lt_of_take ht) rest rfl]
          exact c.emit_take ht

/-- At what is left no word begins. -/
theorem take_read (bs : List β) : c.take (c.read bs).2 = none := by
  generalize hk : bs.length = k
  induction k using Nat.strongRecOn generalizing bs with
  | _ k ih =>
      cases ht : c.take bs with
      | none => rw [c.read_none ht]; exact ht
      | some p =>
          obtain ⟨a, rest⟩ := p
          rw [c.read_some ht]
          exact ih rest.length (hk ▸ c.length_lt_of_take ht) rest rfl

/-- **The reading of a stream is unique.** -/
theorem read_eq_iff : c.read bs = (as, rest) ↔ c.emitAll as ++ rest = bs ∧ c.take rest = none := by
  constructor
  · intro h
    have hback := c.emitAll_read bs
    have hrest := c.take_read bs
    rw [h] at hback hrest
    exact ⟨hback, hrest⟩
  · rintro ⟨rfl, hrest⟩
    rw [read_emitAll_append, c.read_none hrest, List.append_nil]

theorem read_emitAll (as : List α) : c.read (c.emitAll as) = (as, []) :=
  c.read_eq_iff.mpr ⟨List.append_nil _, c.take_nil⟩

/-! ## Handling each word as it is read -/

/-- How a loop over a stream ends: with the stream, at a word that its handler
    refuses, or where no further word can be read. -/
inductive Verdict where
  | finished
  | rejected
  | cut
  deriving DecidableEq, Repr

/-- Read a word, handle it, go on; `n` words can be read. -/
def loop (step : σ → α → σ × Bool) : Nat → σ → List β → σ × Verdict
  | _, s, [] => (s, .finished)
  | 0, s, _ :: _ => (s, .cut)
  | n + 1, s, b :: bs =>
      match c.take (b :: bs) with
      | none => (s, .cut)
      | some (a, rest) =>
          match step s a with
          | (s', true) => loop step n s' rest
          | (s', false) => (s', .rejected)

/-- The fold of a handler over words, until it refuses one. -/
def handleAll (step : σ → α → σ × Bool) : σ → List α → σ × Bool
  | s, [] => (s, true)
  | s, a :: as =>
      match step s a with
      | (s', true) => handleAll step s' as
      | (s', false) => (s', false)

variable {step : σ → α → σ × Bool} {s s' : σ}

theorem handleAll_cons_true (h : step s a = (s', true)) :
    handleAll step s (a :: as) = handleAll step s' as := by
  simp only [handleAll, h]

theorem handleAll_cons_false (h : step s a = (s', false)) :
    handleAll step s (a :: as) = (s', false) := by
  simp only [handleAll, h]

/-- Words in two parts are handled one part after the other. -/
theorem handleAll_append (as as' : List α) (h : handleAll step s as = (s', true)) :
    handleAll step s (as ++ as') = handleAll step s' as' := by
  induction as generalizing s with
  | nil =>
      obtain ⟨rfl, -⟩ := Prod.mk.inj h
      rfl
  | cons a as ih =>
      rcases hs : step s a with ⟨s₁, ok⟩
      cases ok with
      | false =>
          rw [handleAll_cons_false hs] at h
          exact absurd (Prod.mk.inj h).2 Bool.false_ne_true
      | true =>
          rw [handleAll_cons_true hs] at h
          rw [List.cons_append, handleAll_cons_true hs]
          exact ih h

/-- After a word that is refused nothing is handled. -/
theorem handleAll_append_false (as as' : List α) (h : handleAll step s as = (s', false)) :
    handleAll step s (as ++ as') = (s', false) := by
  induction as generalizing s with
  | nil => exact absurd (Prod.mk.inj h).2.symm Bool.false_ne_true
  | cons a as ih =>
      rcases hs : step s a with ⟨s₁, ok⟩
      cases ok with
      | false =>
          rw [handleAll_cons_false hs] at h
          rw [List.cons_append, handleAll_cons_false hs]
          exact h
      | true =>
          rw [handleAll_cons_true hs] at h
          rw [List.cons_append, handleAll_cons_true hs]
          exact ih h

/-- What every word keeps, all words keep. -/
theorem handleAll_keeps {P : σ → Prop} (hstep : ∀ s a, P s → P (step s a).1) (h : P s)
    (as : List α) : P (handleAll step s as).1 := by
  induction as generalizing s with
  | nil => exact h
  | cons a as ih =>
      have ha := hstep s a h
      rcases hs : step s a with ⟨s₁, ok⟩
      rw [hs] at ha
      cases ok with
      | false => rw [handleAll_cons_false hs]; exact ha
      | true => rw [handleAll_cons_true hs]; exact ih ha

/-- What a first word brings about and every word keeps holds in the end. -/
theorem handleAll_cons_keeps {P : σ → Prop} (hstep : ∀ s a, P s → P (step s a).1)
    (h : P (step s a).1) (as : List α) : P (handleAll step s (a :: as)).1 := by
  rcases hs : step s a with ⟨s₁, ok⟩
  rw [hs] at h
  cases ok with
  | false => rw [handleAll_cons_false hs]; exact h
  | true => rw [handleAll_cons_true hs]; exact handleAll_keeps hstep h as

/-- **The loop is the fold.**  Where words enough can be read, the loop ends as
    the fold over the words of the stream ends, and else with the stream or at
    the rest that is no word. -/
theorem loop_eq {n : Nat} (h : bs.length ≤ n) :
    c.loop step n s bs =
      match handleAll step s (c.read bs).1 with
      | (s', true) => (s', if (c.read bs).2 = [] then .finished else .cut)
      | (s', false) => (s', .rejected) := by
  induction n generalizing s bs with
  | zero =>
      obtain rfl := List.length_eq_zero_iff.mp (Nat.le_zero.mp h)
      rw [read_nil]
      rfl
  | succ n ih =>
      cases bs with
      | nil => rw [read_nil]; rfl
      | cons b bs =>
          cases ht : c.take (b :: bs) with
          | none =>
              rw [c.read_none ht]
              simp only [loop, ht, handleAll, reduceCtorEq, if_false]
          | some p =>
              obtain ⟨a, rest⟩ := p
              have hlt := c.length_lt_of_take ht
              rw [c.read_some ht]
              rcases hs : step s a with ⟨s₁, ok⟩
              cases ok with
              | false => simp only [loop, ht, hs, handleAll_cons_false hs]
              | true =>
                  simp only [loop, ht, hs, handleAll_cons_true hs]
                  exact ih (by omega)

/-- What is written word by word is handled to its end. -/
theorem loop_emitAll {n : Nat} (h : (c.emitAll as).length ≤ n) :
    c.loop step n s (c.emitAll as) =
      match handleAll step s as with
      | (s', true) => (s', .finished)
      | (s', false) => (s', .rejected) := by
  rw [c.loop_eq h, c.read_emitAll, if_pos rfl]

end Code

end PrefixCode
