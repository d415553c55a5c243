import Mathlib.Data.List.Basic

/-! # Object trees — creation, deletion with descendants, dangling pointers

    Objects are numbered in the order of their creation, and a number is never
    used again, so that a pointer to a deleted object stays one.  An object
    remembers the line of its ancestors; deleting an object deletes all that
    descend from it.

    * `Rooted t c` — the objects that live are `c` and descendants of `c`, so
      that deleting `c` leaves none (`Rooted.delete`);
    * `Anchored t c o` — a pointer to `o` is good while `c` is: it lives and
      descends from `c`, and creations keep that (`Anchored.create`). -/

namespace ObjectTree

variable {Kind : Type}

structure Node (Kind : Type) where
  kind      : Kind
  /-- the parent, the parent of the parent, and so on -/
  ancestors : List Nat
  live      : Bool
  deriving DecidableEq, Repr

/-- The objects created so far, those deleted since included. -/
abbrev Forest (Kind : Type) := List (Node Kind)

namespace Forest

def isLive (t : Forest Kind) (o : Nat) : Bool := t[o]?.any Node.live

/-- `o` descends from `c`. -/
def Below (t : Forest Kind) (c o : Nat) : Prop := ∃ n, t[o]? = some n ∧ c ∈ n.ancestors

/-- The ancestors of a new child of `parent`. -/
def lineage (t : Forest Kind) : Option Nat → List Nat
  | none => []
  | some p => p :: (t[p]?.map Node.ancestors).getD []

/-- A new object; its number is the length of `t`. -/
def create (t : Forest Kind) (kind : Kind) (parent : Option Nat) : Forest Kind :=
  t ++ [⟨kind, t.lineage parent, true⟩]

/-- `c` and its descendants are deleted. -/
def delete (t : Forest Kind) (c : Nat) : Forest Kind :=
  t.mapIdx fun o n => if o = c ∨ c ∈ n.ancestors then { n with live := false } else n

end Forest

/-- The objects that live are `c` and its descendants. -/
structure Rooted (t : Forest Kind) (c : Nat) : Prop where
  root : t.isLive c = true
  only : ∀ o, t.isLive o = true → o = c ∨ t.Below c o

/-- A good pointer below `c`. -/
structure Anchored (t : Forest Kind) (c o : Nat) : Prop where
  live : t.isLive o = true
  below : t.Below c o

section Lemmas

variable {t : Forest Kind} {k : Kind} {parent : Option Nat} {c o p : Nat} {n : Node Kind}

theorem lt_of_isLive (h : t.isLive o = true) : o < t.length := by
  rw [Forest.isLive] at h
  cases ho : t[o]? with
  | none => simp [ho] at h
  | some n => exact (List.getElem?_eq_some_iff.mp ho).1

/-- A creation leaves the objects that there are. -/
theorem create_old (h : o < t.length) : (t.create k parent)[o]? = t[o]? :=
  List.getElem?_append_left h

theorem create_new :
    (t.create k parent)[t.length]? = some ⟨k, t.lineage parent, true⟩ := by
  simp [Forest.create]

theorem isLive_create :
    (t.create k parent).isLive o = true ↔ t.isLive o = true ∨ o = t.length := by
  constructor
  · intro h
    have hlt := lt_of_isLive h
    rw [Forest.create, List.length_append, List.length_singleton] at hlt
    rcases Nat.lt_succ_iff_lt_or_eq.mp hlt with h1 | h1
    · rw [Forest.isLive, create_old h1] at h
      exact .inl h
    · exact .inr h1
  · rintro (h | rfl)
    · rw [Forest.isLive, create_old (lt_of_isLive h)]
      exact h
    · rw [Forest.isLive, create_new]
      rfl

theorem Below.create (h : t.Below c o) : (t.create k parent).Below c o := by
  obtain ⟨n, hn, hc⟩ := h
  exact ⟨n, (create_old (List.getElem?_eq_some_iff.mp hn).1).trans hn, hc⟩

/-- A new child of `c`, or of a descendant of `c`. -/
theorem below_new (h : p = c ∨ t.Below c p) : (t.create k (some p)).Below c t.length := by
  refine ⟨_, create_new, ?_⟩
  rcases h with rfl | ⟨n, hn, hc⟩
  · exact List.mem_cons_self
  · rw [Forest.lineage, hn]
    exact List.mem_cons_of_mem p hc

theorem Anchored.create (h : Anchored t c o) : Anchored (t.create k parent) c o :=
  ⟨isLive_create.mpr (.inl h.live), Below.create h.below⟩

theorem anchored_new (h : p = c ∨ t.Below c p) :
    Anchored (t.create k (some p)) c t.length :=
  ⟨isLive_create.mpr (.inr rfl), below_new h⟩

/-- **Building below the root** keeps the tree rooted. -/
theorem Rooted.create (h : Rooted t c) (hp : p = c ∨ t.Below c p) :
    Rooted (t.create k (some p)) c where
  root := isLive_create.mpr (.inl h.root)
  only := by
    intro o ho
    rcases isLive_create.mp ho with h1 | rfl
    · exact (h.only o h1).imp_right Below.create
    · exact .inr (below_new hp)

/-- A first object is the root. -/
theorem rooted_first (h : ∀ o, t.isLive o = false) :
    Rooted (t.create k none) t.length where
  root := isLive_create.mpr (.inr rfl)
  only := by
    intro o ho
    rcases isLive_create.mp ho with h1 | rfl
    · exact absurd h1 (by simp [h o])
    · exact .inl rfl

theorem isLive_delete :
    (t.delete c).isLive o = true ↔ t.isLive o = true ∧ o ≠ c ∧ ¬ t.Below c o := by
  rw [Forest.isLive, Forest.delete, List.getElem?_mapIdx, Forest.isLive]
  cases ho : t[o]? with
  | none => simp
  | some n =>
      have hbelow : t.Below c o ↔ c ∈ n.ancestors := by
        constructor
        · rintro ⟨m, hm, hc⟩
          obtain rfl := Option.some.inj (ho.symm.trans hm)
          exact hc
        · exact fun hc => ⟨n, ho, hc⟩
      rw [hbelow]
      by_cases hgone : o = c ∨ c ∈ n.ancestors
      · have hnot : ¬ (o ≠ c ∧ c ∉ n.ancestors) := fun h1 => hgone.elim h1.1 h1.2
        simp [hgone, hnot]
      · simp [not_or.mp hgone]

/-- **Deleting the root leaves nothing.** -/
theorem Rooted.delete (h : Rooted t c) (o : Nat) : (t.delete c).isLive o = false := by
  by_contra hlive
  obtain ⟨h1, h2, h3⟩ := isLive_delete.mp (Bool.not_eq_false _ ▸ hlive)
  rcases h.only o h1 with h4 | h4
  · exact h2 h4
  · exact h3 h4

end Lemmas

end ObjectTree
