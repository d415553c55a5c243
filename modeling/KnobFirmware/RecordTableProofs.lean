import Mathlib.Algebra.BigOperators.Group.List.Basic
import Mathlib.Algebra.GroupWithZero.Nat
import Mathlib.Algebra.Order.Ring.Int
import Mathlib.Data.List.Basic

/-! # Record tables — blocks, offsets and first matches

    A table is often built in one allocated block: its records have different
    sizes and follow one another, a count made beforehand gave the block its
    length, and later a record is found again by a linear search.  The library
    keeps the three parts apart, over any type of cells and records.

    1. **Blocks.**  `put` writes a cell inside a block and fails outside of it.
       `putAll_written` says what filling a fresh block in order does.
    2. **Offsets.**  `offset` places the records; `offset_sep` keeps them apart.
    3. **Searches.**  `findAt` is a search through a list of lists, and
       `findAt_eq_some_iff` says that it finds the first match. -/

namespace RecordTable

/-! ## Blocks -/

section Blocks

variable {α : Type}

/-- Writes the cell `i` of a block, if it has one. -/
def put (block : List (Option α)) (i : Nat) (a : α) : Option (List (Option α)) :=
  if i < block.length then some (block.set i (some a)) else none

/-- Writes the cells from `i` on. -/
def putAll : List (Option α) → Nat → List α → Option (List (Option α))
  | block, _, [] => some block
  | block, i, a :: as => (put block i a).bind (putAll · (i + 1) as)

/-- A block whose first cells are written. -/
def written (as : List α) (spare : Nat) : List (Option α) :=
  as.map some ++ List.replicate spare none

/-- The next cell of a block that is filled in order. -/
theorem put_written (as : List α) (spare : Nat) (a : α) :
    put (written as (spare + 1)) as.length a = some (written (as ++ [a]) spare) := by
  have hroom : as.length < (written as (spare + 1)).length := by
    simp [written]
  have hset : (written as (spare + 1)).set as.length (some a) = written (as ++ [a]) spare := by
    rw [written, List.set_append_right _ _ (by simp), List.length_map, Nat.sub_self,
      List.replicate_succ, List.set_cons_zero, written, List.map_append, List.append_assoc]
    rfl
  rw [put, if_pos hroom, hset]

/-- **A block is filled in order.**  Cells that fit are written one after the
    other, and the rest of the block stays as it was. -/
theorem putAll_written (as bs : List α) (spare : Nat) :
    putAll (written as (bs.length + spare)) as.length bs = some (written (as ++ bs) spare) := by
  induction bs generalizing as with
  | nil => simp [putAll]
  | cons b bs ih =>
      have hnext := ih (as ++ [b])
      rw [List.length_append, List.length_singleton, List.append_assoc] at hnext
      rw [putAll, List.length_cons, Nat.add_right_comm, put_written]
      exact hnext

end Blocks

/-! ## Offsets -/

section Offsets

variable {α : Type} {size : α → Nat} {base i j : Nat} {xs : List α} {x : α}

/-- Where the `i`-th record begins. -/
def offset (size : α → Nat) (base : Nat) (xs : List α) (i : Nat) : Nat :=
  base + ((xs.take i).map size).sum

theorem offset_succ (h : xs[i]? = some x) :
    offset size base xs (i + 1) = offset size base xs i + size x := by
  have htake : xs.take (i + 1) = xs.take i ++ [x] := by
    rw [List.take_add_one, h]
    rfl
  rw [offset, offset, htake, List.map_append, List.sum_append, List.map_singleton,
    List.sum_singleton, Nat.add_assoc]

theorem offset_le (h : i ≤ j) : offset size base xs i ≤ offset size base xs j := by
  induction h with
  | refl => exact Nat.le_refl _
  | @step j _ ih =>
      cases hx : xs[j]? with
      | some x =>
          rw [offset_succ hx]
          exact Nat.le_trans ih (Nat.le_add_right _ _)
      | none =>
          have hlen := List.getElem?_eq_none_iff.mp hx
          have htake : xs.take (j + 1) = xs.take j := by
            rw [List.take_of_length_le (Nat.le_succ_of_le hlen), List.take_of_length_le hlen]
          rw [offset, offset, htake] at *
          exact ih

/-- **Records do not overlap**: one ends before the next begins. -/
theorem offset_sep (hx : xs[i]? = some x) (h : i < j) :
    offset size base xs i + size x ≤ offset size base xs j := by
  rw [← offset_succ hx]
  exact offset_le h

/-- Every record ends within the table. -/
theorem offset_end (hx : xs[i]? = some x) :
    offset size base xs i + size x ≤ base + (xs.map size).sum := by
  obtain ⟨hlt, -⟩ := List.getElem?_eq_some_iff.mp hx
  have hend := @offset_sep α size base i xs.length xs x hx hlt
  rw [offset, offset, List.take_length] at hend
  exact hend

/-- Two places within records are the same only in the same record. -/
theorem offset_inj {y : α} {a b : Nat} (hx : xs[i]? = some x) (hy : xs[j]? = some y)
    (ha : a < size x) (hb : b < size y)
    (h : offset size base xs i + a = offset size base xs j + b) : i = j := by
  by_contra hne
  rcases Nat.lt_or_gt_of_ne hne with hlt | hgt
  · have hsep := @offset_sep α size base i j xs x hx hlt
    omega
  · have hsep := @offset_sep α size base j i xs y hy hgt
    omega

end Offsets

/-! ## Searches -/

section Searches

variable {α : Type} {p : α → Bool}

/-- The place of the first element that meets `p`, list by list. -/
def findAt (p : α → Bool) : List (List α) → Option (Nat × Nat)
  | [] => none
  | xs :: rest =>
      match xs.findIdx? p with
      | some i => some (0, i)
      | none => (findAt p rest).map fun place => (place.1 + 1, place.2)

/-- What stands at a place of a list of lists. -/
def itemAt (xss : List (List α)) (place : Nat × Nat) : Option α :=
  xss[place.1]?.bind (·[place.2]?)

/-- The order in which the places are searched. -/
def Before (a b : Nat × Nat) : Prop := a.1 < b.1 ∨ a.1 = b.1 ∧ a.2 < b.2

theorem before_trichotomy (a b : Nat × Nat) : Before a b ∨ a = b ∨ Before b a := by
  obtain ⟨a₁, a₂⟩ := a
  obtain ⟨b₁, b₂⟩ := b
  simp only [Before, Prod.mk.injEq]
  omega

@[simp] theorem itemAt_zero (xs : List α) (rest : List (List α)) (i : Nat) :
    itemAt (xs :: rest) (0, i) = xs[i]? := rfl

@[simp] theorem itemAt_succ (xs : List α) (rest : List (List α)) (k i : Nat) :
    itemAt (xs :: rest) (k + 1, i) = itemAt rest (k, i) := rfl

/-- Within one list the first match is found. -/
theorem findIdx_eq_some_iff {xs : List α} {i : Nat} :
    xs.findIdx? p = some i ↔
      (∃ x, xs[i]? = some x ∧ p x = true) ∧
        ∀ j < i, ∀ x, xs[j]? = some x → p x = false := by
  induction xs generalizing i with
  | nil => simp
  | cons y ys ih =>
      rw [List.findIdx?_cons]
      cases hy : p y with
      | true =>
          rw [if_pos rfl, Option.some.injEq]
          constructor
          · rintro rfl
            exact ⟨⟨y, rfl, hy⟩, by simp⟩
          · rintro ⟨-, hfirst⟩
            by_contra hne
            have hfalse := hfirst 0 (Nat.pos_of_ne_zero (Ne.symm hne)) y rfl
            rw [hy] at hfalse
            cases hfalse
      | false =>
          rw [if_neg (by simp), Option.map_eq_some_iff]
          constructor
          · rintro ⟨j, hj, rfl⟩
            obtain ⟨⟨x, hx, hpx⟩, hfirst⟩ := ih.mp hj
            refine ⟨⟨x, hx, hpx⟩, ?_⟩
            intro k hk z hz
            cases k with
            | zero =>
                obtain rfl := Option.some.inj hz
                exact hy
            | succ k => exact hfirst k (Nat.lt_of_succ_lt_succ hk) z hz
          · rintro ⟨⟨x, hx, hpx⟩, hfirst⟩
            cases i with
            | zero =>
                obtain rfl := Option.some.inj hx
                rw [hy] at hpx
                cases hpx
            | succ i =>
                refine ⟨i, ih.mpr ⟨⟨x, hx, hpx⟩, ?_⟩, rfl⟩
                intro k hk z hz
                exact hfirst (k + 1) (Nat.succ_lt_succ hk) z hz

/-- **The search finds the first match**, in the order of the lists. -/
theorem findAt_eq_some_iff {xss : List (List α)} {place : Nat × Nat} :
    findAt p xss = some place ↔
      (∃ x, itemAt xss place = some x ∧ p x = true) ∧
        ∀ a, Before a place → ∀ x, itemAt xss a = some x → p x = false := by
  induction xss generalizing place with
  | nil => simp [findAt, itemAt]
  | cons xs rest ih =>
      obtain ⟨k, i⟩ := place
      rw [findAt]
      cases hfind : xs.findIdx? p with
      | some j =>
          obtain ⟨⟨x, hx, hpx⟩, hfirst⟩ := findIdx_eq_some_iff.mp hfind
          simp only [Option.some.injEq, Prod.mk.injEq]
          constructor
          · rintro ⟨rfl, rfl⟩
            refine ⟨⟨x, hx, hpx⟩, ?_⟩
            rintro ⟨k', i'⟩ (hlt | ⟨rfl, hlt⟩) z hz
            · exact absurd hlt (Nat.not_lt_zero _)
            · exact hfirst i' hlt z hz
          · rintro ⟨⟨z, hz, hpz⟩, hall⟩
            -- a later place would come after the match in the first list
            rcases before_trichotomy (0, j) (k, i) with hlt | heq | hgt
            · have hfalse := hall (0, j) hlt x hx
              rw [hpx] at hfalse
              cases hfalse
            · exact ⟨congrArg Prod.fst heq, congrArg Prod.snd heq⟩
            · obtain ⟨rfl, hij⟩ : k = 0 ∧ i < j := by
                rcases hgt with hlt | ⟨hk, hij⟩
                · exact absurd hlt (Nat.not_lt_zero _)
                · exact ⟨hk, hij⟩
              have hfalse := hfirst i hij z hz
              rw [hpz] at hfalse
              cases hfalse
      | none =>
          have hnone := List.findIdx?_eq_none_iff.mp hfind
          simp only [Option.map_eq_some_iff]
          constructor
          · rintro ⟨⟨k', i'⟩, hrest, heq⟩
            obtain ⟨rfl, rfl⟩ := Prod.mk.inj heq
            obtain ⟨⟨x, hx, hpx⟩, hall⟩ := ih.mp hrest
            refine ⟨⟨x, hx, hpx⟩, ?_⟩
            rintro ⟨m, j⟩ hbefore z hz
            cases m with
            | zero => exact hnone z (List.mem_of_getElem? hz)
            | succ m =>
                refine hall (m, j) ?_ z hz
                rcases hbefore with hlt | ⟨heq', hlt⟩
                · exact .inl (Nat.lt_of_succ_lt_succ hlt)
                · exact .inr ⟨Nat.succ.inj heq', hlt⟩
          · rintro ⟨⟨x, hx, hpx⟩, hall⟩
            cases k with
            | zero =>
                have hfalse := hnone x (List.mem_of_getElem? hx)
                rw [hpx] at hfalse
                cases hfalse
            | succ k =>
                refine ⟨(k, i), ih.mpr ⟨⟨x, hx, hpx⟩, ?_⟩, rfl⟩
                rintro ⟨m, j⟩ hbefore z hz
                refine hall (m + 1, j) ?_ z hz
                rcases hbefore with hlt | ⟨rfl, hlt⟩
                · exact .inl (Nat.succ_lt_succ hlt)
                · exact .inr ⟨rfl, hlt⟩

/-- A search that looks at a part of the elements only finds the same place in
    lists that agree in that part. -/
theorem findAt_congr {β : Type} {key : α → β} {q : β → Bool} {xss yss : List (List α)}
    (h : ∀ a, (itemAt xss a).map key = (itemAt yss a).map key) :
    findAt (q ∘ key) xss = findAt (q ∘ key) yss := by
  have hitem : ∀ {xss yss : List (List α)},
      (∀ a, (itemAt xss a).map key = (itemAt yss a).map key) →
      ∀ a x, itemAt xss a = some x → ∃ y, itemAt yss a = some y ∧ key y = key x := by
    intro xss yss heq a x hx
    have hkey := heq a
    rw [hx, Option.map_some] at hkey
    exact Option.map_eq_some_iff.mp hkey.symm
  have hmove : ∀ {xss yss : List (List α)},
      (∀ a, (itemAt xss a).map key = (itemAt yss a).map key) →
      ∀ place, findAt (q ∘ key) xss = some place → findAt (q ∘ key) yss = some place := by
    intro xss yss heq place hfind
    obtain ⟨⟨x, hx, hqx⟩, hfirst⟩ := findAt_eq_some_iff.mp hfind
    obtain ⟨y, hy, hyx⟩ := hitem heq place x hx
    refine findAt_eq_some_iff.mpr ⟨⟨y, hy, ?_⟩, ?_⟩
    · rw [Function.comp_apply, hyx]
      exact hqx
    · intro a hbefore z hz
      obtain ⟨w, hw, hwz⟩ := hitem (fun a => (heq a).symm) a z hz
      have hfalse := hfirst a hbefore w hw
      rw [Function.comp_apply, hwz] at hfalse
      exact hfalse
  refine Option.ext fun place => ?_
  exact ⟨hmove h place, hmove (fun a => (h a).symm) place⟩

/-- Changes the element at a place. -/
def modifyAt (place : Nat × Nat) (f : α → α) (xss : List (List α)) : List (List α) :=
  xss.modify place.1 (·.modify place.2 f)

theorem itemAt_modifyAt (place a : Nat × Nat) (f : α → α) (xss : List (List α)) :
    itemAt (modifyAt place f xss) a =
      if a = place then (itemAt xss a).map f else itemAt xss a := by
  obtain ⟨k, i⟩ := place
  obtain ⟨k', i'⟩ := a
  rw [itemAt, modifyAt, List.getElem?_modify, itemAt]
  by_cases hk : k = k'
  · subst hk
    cases hxs : xss[k]? with
    | none => simp
    | some xs =>
        by_cases hi : i = i'
        · subst hi
          simp
        · have hne : ¬ i' = i := fun heq => hi heq.symm
          simp [hi, hne]
  · have hne : ¬ (k' = k ∧ i' = i) := fun heq => hk heq.1.symm
    simp [hk, hne]

end Searches

end RecordTable
