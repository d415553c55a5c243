import Mathlib.Data.List.Basic

/-! # Checked integers — C arithmetic that must stay in its type

    A C expression of an integer type is defined only while the value fits the
    type (a signed overflow is undefined, an unsigned one and a narrowing cast
    lose the value) and while no divisor is zero.  Here an operation computes
    the mathematical value and CHECKS it against its type; `none` is the
    expression that leaves it.  A program written in these operations returns
    `some v` exactly when none of its intermediate values does.

    `foldlM_eq_some` is the rule for loops: where each turn of a loop takes the
    specification of what it has read to that of one element more, the loop
    ends in the specification of the whole. -/

namespace CheckedInt

/-- An integer type: its least and its greatest value. -/
structure Ty where
  lo : Int
  hi : Int
  deriving DecidableEq, Repr

def int16  : Ty := ⟨-32768, 32767⟩
def int32  : Ty := ⟨-2147483648, 2147483647⟩
def int64  : Ty := ⟨-9223372036854775808, 9223372036854775807⟩
def uint32 : Ty := ⟨0, 4294967295⟩
def uint64 : Ty := ⟨0, 18446744073709551615⟩

def Ty.Fits (t : Ty) (v : Int) : Prop := t.lo ≤ v ∧ v ≤ t.hi

instance (t : Ty) (v : Int) : Decidable (t.Fits v) := inferInstanceAs (Decidable (_ ∧ _))

/-- The value of an expression of type `t`, or of a cast to it. -/
def Ty.check (t : Ty) (v : Int) : Option Int := if t.Fits v then some v else none

/-- The same for a value that is not negative. -/
def Ty.checkNat (t : Ty) (v : Nat) : Option Nat := if t.Fits v then some v else none

/-- C's `/`, which rounds toward zero. -/
def Ty.div (t : Ty) (a b : Int) : Option Int := if b = 0 then none else t.check (a.tdiv b)

/-- C's `/` on unsigned values, whose quotient fits where the dividend does. -/
def divNat (a b : Nat) : Option Nat := if b = 0 then none else some (a / b)

section Check

variable {t : Ty} {v a b : Int} {m n : Nat}

theorem int16_fits : int16.Fits v ↔ -32768 ≤ v ∧ v ≤ 32767 := Iff.rfl

theorem int32_fits : int32.Fits v ↔ -2147483648 ≤ v ∧ v ≤ 2147483647 := Iff.rfl

theorem int64_fits :
    int64.Fits v ↔ -9223372036854775808 ≤ v ∧ v ≤ 9223372036854775807 := Iff.rfl

theorem uint32_fits : uint32.Fits v ↔ 0 ≤ v ∧ v ≤ 4294967295 := Iff.rfl

theorem uint64_fits : uint64.Fits v ↔ 0 ≤ v ∧ v ≤ 18446744073709551615 := Iff.rfl

theorem check_of_fits (h : t.Fits v) : t.check v = some v := if_pos h

theorem checkNat_of_fits (h : t.Fits m) : t.checkNat m = some m := if_pos h

theorem div_of_fits (hb : b ≠ 0) (h : t.Fits (a.tdiv b)) : t.div a b = some (a.tdiv b) := by
  rw [Ty.div, if_neg hb, check_of_fits h]

theorem divNat_of_ne (hn : n ≠ 0) : divNat m n = some (m / n) := if_neg hn

/-- A square fits in 64 bits where the number fits in 32. -/
theorem square_fits (h : v.natAbs ≤ 2147483647) : int64.Fits (v * v) := by
  have hsquare : v * v = ((v.natAbs * v.natAbs : Nat) : Int) := Int.natAbs_mul_self.symm
  have hle : v.natAbs * v.natAbs ≤ 2147483647 * 2147483647 := Nat.mul_le_mul h h
  rw [int64_fits, hsquare]
  omega

end Check

/-- **The loop rule.** -/
theorem foldlM_eq_some {α β : Type} {f : β → α → Option β} {F : List α → β} {xs : List α}
    (h : ∀ done x rest, xs = done ++ x :: rest → f (F done) x = some (F (done ++ [x]))) :
    xs.foldlM f (F []) = some (F xs) := by
  -- the turns that are left, after those in `done`
  have hrest : ∀ rest done, xs = done ++ rest → rest.foldlM f (F done) = some (F xs) := by
    intro rest
    induction rest with
    | nil =>
        intro done hxs
        rw [hxs, List.append_nil]
        rfl
    | cons x rest ih =>
        intro done hxs
        rw [List.foldlM_cons, h done x rest hxs]
        exact ih (done ++ [x]) (by rw [hxs, List.append_assoc]; rfl)
  exact hrest xs [] rfl

end CheckedInt
