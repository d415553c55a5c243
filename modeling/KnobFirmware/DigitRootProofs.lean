import Mathlib.Data.Nat.Sqrt
import Mathlib.Tactic.Ring

/-! # Square roots digit by digit

    The root of a number below `4 ^ n` has `n` binary digits.  The method finds
    them from the highest one down: while `k` of them are missing, `r` is the
    root with the missing digits 0, and the next digit is 1 exactly when the
    square of `r + 2 ^ (k - 1)` does not pass the number.

    A program keeps the rest `v - r * r` instead of `v`, and `r * 2 ^ k` instead
    of `r`: then the trial is a sum, `r * 2 ^ (k + 1) + 4 ^ k`.  The lemmas say
    what a turn does to the root (`RootAt.one`, `RootAt.zero`), that the trial
    tests the digit (`RootAt.trial_le_iff`), and that neither the trial nor the
    new result reaches `4 ^ n`. -/

namespace DigitRoot

/-- `r` is the root of `v` as far as it is known, with `k` of its `n` digits
    missing. -/
structure RootAt (n v k r : Nat) : Prop where
  square : r * r ≤ v
  above  : v < (r + 2 ^ k) * (r + 2 ^ k)
  digits : r + 2 ^ k ≤ 2 ^ n

section Digits

variable {n v k r : Nat}

theorem four_pow : 4 ^ k = 2 ^ k * 2 ^ k := Nat.mul_pow 2 2 k

/-- What the next digit adds to the square of the root. -/
theorem square_add_digit :
    (r + 2 ^ k) * (r + 2 ^ k) = r * r + (r * 2 ^ (k + 1) + 4 ^ k) := by
  rw [four_pow]
  ring

/-- The result that holds the next digit, for the digits after it. -/
theorem result_add_digit : (r + 2 ^ k) * 2 ^ k = r * 2 ^ k + 4 ^ k := by
  rw [Nat.add_mul, four_pow]

/-- All digits are missing. -/
theorem RootAt.start (hk : k ≤ n) (hv : v < 4 ^ k) : RootAt n v k 0 where
  square := Nat.zero_le v
  above := by
    rw [Nat.zero_add, ← four_pow]
    exact hv
  digits := by
    rw [Nat.zero_add]
    exact Nat.pow_le_pow_right (by decide) hk

/-- The next digit is 1. -/
theorem RootAt.one (h : RootAt n v (k + 1) r) (hdigit : (r + 2 ^ k) * (r + 2 ^ k) ≤ v) :
    RootAt n v k (r + 2 ^ k) := by
  have hnext : r + 2 ^ k + 2 ^ k = r + 2 ^ (k + 1) := by ring
  refine ⟨hdigit, ?_, ?_⟩
  · rw [hnext]
    exact h.above
  · rw [hnext]
    exact h.digits

/-- The next digit is 0. -/
theorem RootAt.zero (h : RootAt n v (k + 1) r) (hdigit : v < (r + 2 ^ k) * (r + 2 ^ k)) :
    RootAt n v k r := by
  have hle : 2 ^ k ≤ 2 ^ (k + 1) := Nat.pow_le_pow_right (by decide) (Nat.le_succ k)
  exact ⟨h.square, hdigit, (Nat.add_le_add_left hle r).trans h.digits⟩

/-- No digit is missing. -/
theorem RootAt.sqrt_eq (h : RootAt n v 0 r) : Nat.sqrt v = r :=
  (Nat.eq_sqrt.mpr ⟨h.square, h.above⟩).symm

/-- **The trial tests the digit.** -/
theorem RootAt.trial_le_iff (h : RootAt n v (k + 1) r) :
    r * 2 ^ (k + 1) + 4 ^ k ≤ v - r * r ↔ (r + 2 ^ k) * (r + 2 ^ k) ≤ v := by
  have hsquare := h.square
  rw [square_add_digit]
  omega

/-- The next root is below the end of its digits, so its square is below
    `4 ^ n`. -/
theorem RootAt.square_lt (h : RootAt n v (k + 1) r) : (r + 2 ^ k) * (r + 2 ^ k) < 4 ^ n := by
  have hpow : 2 ^ (k + 1) = 2 ^ k + 2 ^ k := Nat.two_pow_succ k
  have hpos : 0 < 2 ^ k := Nat.two_pow_pos k
  have hdigits := h.digits
  have hlt : r + 2 ^ k < 2 ^ n := by omega
  rw [four_pow]
  exact Nat.mul_self_lt_mul_self hlt

theorem RootAt.trial_lt (h : RootAt n v (k + 1) r) : r * 2 ^ (k + 1) + 4 ^ k < 4 ^ n := by
  have hsquare := h.square_lt
  rw [square_add_digit] at hsquare
  omega

theorem RootAt.result_lt (h : RootAt n v (k + 1) r) : r * 2 ^ k + 4 ^ k < 4 ^ n := by
  rw [← result_add_digit]
  exact (Nat.mul_le_mul_left _ (Nat.le_add_left _ _)).trans_lt h.square_lt

end Digits

end DigitRoot
