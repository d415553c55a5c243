import Mathlib.Algebra.BigOperators.Group.List.Basic
import Mathlib.Algebra.GroupWithZero.Nat
import Mathlib.Algebra.Order.BigOperators.Group.List
import Mathlib.Algebra.Ring.Int.Defs
import Mathlib.Algebra.Order.Ring.Abs
import Mathlib.Algebra.Order.Ring.Int
import Mathlib.Data.Nat.Sqrt
import Mathlib.Tactic.Ring

/-! # Block statistics — truncated mean, deviations and integer RMS

    What the level of a block of integers is in whole-number arithmetic: the
    mean is rounded toward zero, the mean square and its root are rounded down.
    The file holds the bounds that the rounding leaves intact:

    * the mean lies between the bounds of the block (`mean_mem`);
    * the deviations sum to less than one unit a number (`natAbs_sum_deviations_lt`),
      so that what is left of the mean is a fraction of a unit;
    * the RMS follows the magnitudes: it is bounded by them (`rms_le`) and grows
      with them (`Below.rms_le`);
    * the RMS of the deviations is that of the variance to within one, whatever
      the mean (`rms_offset`). -/

namespace BlockStats

variable {xs ys : List Int} {x lo hi : Int} {B : Nat}

/-! ## The mean -/

/-- The mean, rounded toward zero; that of no numbers is 0. -/
def mean (xs : List Int) : Int := xs.sum.tdiv xs.length

/-- What is left of the numbers without their mean. -/
def deviations (xs : List Int) : List Int := xs.map (· - mean xs)

theorem length_deviations : (deviations xs).length = xs.length := List.length_map ..

theorem sum_mem (h : ∀ x ∈ xs, lo ≤ x ∧ x ≤ hi) :
    xs.length * lo ≤ xs.sum ∧ xs.sum ≤ xs.length * hi := by
  induction xs with
  | nil => simp
  | cons x xs ih =>
      obtain ⟨hlo, hhi⟩ := h x List.mem_cons_self
      obtain ⟨ihlo, ihhi⟩ := ih fun y hy => h y (List.mem_cons_of_mem x hy)
      rw [List.sum_cons, List.length_cons, Int.natCast_succ, Int.add_mul, Int.add_mul]
      omega

/-- The sum is the mean times the count and a rest below the count. -/
theorem sum_eq (hne : xs ≠ []) :
    xs.sum = xs.length * mean xs + xs.sum.tmod xs.length ∧
      -(xs.length : Int) < xs.sum.tmod xs.length ∧ xs.sum.tmod xs.length < xs.length := by
  have hpos : (0 : Int) < xs.length := by
    exact_mod_cast List.length_pos_iff.mpr hne
  exact ⟨(Int.mul_tdiv_add_tmod _ _).symm, Int.lt_tmod_of_pos _ hpos, Int.tmod_lt_of_pos _ hpos⟩

/-- **The mean lies between the bounds of the numbers.** -/
theorem mean_mem (hne : xs ≠ []) (h : ∀ x ∈ xs, lo ≤ x ∧ x ≤ hi) :
    lo ≤ mean xs ∧ mean xs ≤ hi := by
  obtain ⟨hsum, hlt, hlt'⟩ := sum_eq hne
  obtain ⟨hlo, hhi⟩ := sum_mem h
  have hn : (0 : Int) ≤ xs.length := Int.natCast_nonneg _
  constructor
  · by_contra hno
    have hle : xs.length * (mean xs + 1) ≤ xs.length * lo :=
      Int.mul_le_mul_of_nonneg_left (by omega) hn
    rw [Int.mul_add, Int.mul_one] at hle
    omega
  · by_contra hno
    have hle : xs.length * (hi + 1) ≤ xs.length * mean xs :=
      Int.mul_le_mul_of_nonneg_left (by omega) hn
    rw [Int.mul_add, Int.mul_one] at hle
    omega

theorem natAbs_deviation_le (hne : xs ≠ []) (h : ∀ x ∈ xs, lo ≤ x ∧ x ≤ hi) (hx : x ∈ xs) :
    (x - mean xs).natAbs ≤ (hi - lo).toNat := by
  obtain ⟨hlo, hhi⟩ := mean_mem hne h
  have hmem := h x hx
  omega

theorem sum_deviations : (deviations xs).sum = xs.sum - xs.length * mean xs := by
  rw [deviations]
  generalize mean xs = m
  induction xs with
  | nil => simp
  | cons x xs ih =>
      rw [List.map_cons, List.sum_cons, ih, List.sum_cons, List.length_cons, Int.natCast_succ,
        Int.add_mul]
      omega

/-- **The rounding of the mean leaves less than one unit a number.** -/
theorem natAbs_sum_deviations_lt (hne : xs ≠ []) :
    (deviations xs).sum.natAbs < xs.length := by
  obtain ⟨hsum, hlt, hlt'⟩ := sum_eq hne
  rw [sum_deviations]
  omega

/-! ## The RMS -/

def squareSum (xs : List Int) : Nat := (xs.map fun x => x.natAbs ^ 2).sum

/-- The root of the mean square, both rounded down; that of no numbers is 0. -/
def rms (xs : List Int) : Nat := Nat.sqrt (squareSum xs / xs.length)

@[simp] theorem squareSum_nil : squareSum [] = 0 := rfl

@[simp] theorem squareSum_cons : squareSum (x :: xs) = x.natAbs ^ 2 + squareSum xs := rfl

theorem squareSum_append : squareSum (xs ++ ys) = squareSum xs + squareSum ys := by
  simp [squareSum]

theorem squareSum_le (h : ∀ x ∈ xs, x.natAbs ≤ B) : squareSum xs ≤ xs.length * B ^ 2 := by
  induction xs with
  | nil => simp
  | cons x xs ih =>
      have hx : x.natAbs ^ 2 ≤ B ^ 2 := Nat.pow_le_pow_left (h x List.mem_cons_self) 2
      have hxs := ih fun y hy => h y (List.mem_cons_of_mem x hy)
      rw [squareSum_cons, List.length_cons, Nat.succ_mul]
      omega

theorem meanSquare_le (h : ∀ x ∈ xs, x.natAbs ≤ B) : squareSum xs / xs.length ≤ B ^ 2 :=
  Nat.div_le_of_le_mul (squareSum_le h)

/-- **The RMS is bounded by the magnitudes.** -/
theorem rms_le (h : ∀ x ∈ xs, x.natAbs ≤ B) : rms xs ≤ B := by
  have hlt : squareSum xs / xs.length < (B + 1) ^ 2 :=
    Nat.lt_of_le_of_lt (meanSquare_le h) (Nat.pow_lt_pow_left (Nat.lt_succ_self B) two_ne_zero)
  exact Nat.le_of_lt_succ (Nat.sqrt_lt'.mpr hlt)

/-- The numbers of one list are, one by one, no larger than those of the other. -/
def Below (xs ys : List Int) : Prop := List.Forall₂ (fun x y => x.natAbs ≤ y.natAbs) xs ys

theorem Below.squareSum_le (h : Below xs ys) : squareSum xs ≤ squareSum ys := by
  induction h with
  | nil => exact Nat.le_refl 0
  | cons hle _ ih => exact Nat.add_le_add (Nat.pow_le_pow_left hle 2) ih

/-- **The RMS grows with the magnitudes.** -/
theorem Below.rms_le (h : Below xs ys) : rms xs ≤ rms ys := by
  rw [rms, rms, List.Forall₂.length_eq h]
  exact Nat.sqrt_le_sqrt (Nat.div_le_div_right h.squareSum_le)

/-! ## A constant offset -/

/-- The numbers with `d` added to each. -/
def offset (d : Int) (xs : List Int) : List Int := xs.map (· + d)

/-- The square of the count times the variance. -/
def spread (xs : List Int) : Int := xs.length * squareSum xs - xs.sum ^ 2

section Offset

variable {d : Int}

theorem length_offset : (offset d xs).length = xs.length := List.length_map ..

theorem offset_cons : offset d (x :: xs) = (x + d) :: offset d xs := rfl

theorem sum_offset : (offset d xs).sum = xs.sum + xs.length * d := by
  induction xs with
  | nil => simp [offset]
  | cons x xs ih =>
      rw [offset_cons, List.sum_cons, List.sum_cons, ih, List.length_cons, Int.natCast_succ]
      ring

theorem squareSum_offset :
    (squareSum (offset d xs) : Int) = squareSum xs + 2 * d * xs.sum + xs.length * d ^ 2 := by
  induction xs with
  | nil => simp [offset]
  | cons x xs ih =>
      rw [offset_cons, squareSum_cons, squareSum_cons, Nat.cast_add, ih, Nat.cast_add,
        Nat.cast_pow, Int.natAbs_pow_two, Nat.cast_pow, Int.natAbs_pow_two, List.sum_cons,
        List.length_cons, Int.natCast_succ]
      ring

/-- **An offset leaves the variance as it is.** -/
theorem spread_offset : spread (offset d xs) = spread xs := by
  rw [spread, spread, length_offset, squareSum_offset, sum_offset]
  ring

/-- **The variance identity**: the squares of the deviations, `n` times, are the
    spread and the square of what the rounding of the mean left. -/
theorem squareSum_deviations :
    (xs.length : Int) * squareSum (deviations xs) = spread xs + (deviations xs).sum ^ 2 := by
  have hspread : spread (deviations xs) = spread xs := spread_offset
  rw [← hspread, spread, length_deviations]
  ring

/-- Numbers with the same spread have square sums that differ by less than one
    unit a number. -/
theorem squareSum_deviations_lt (hne : xs ≠ []) (hlen : xs.length = ys.length)
    (hspread : spread xs = spread ys) :
    squareSum (deviations xs) < squareSum (deviations ys) + ys.length := by
  have hpos : (0 : Int) < ys.length := by
    rw [← hlen]
    exact_mod_cast List.length_pos_iff.mpr hne
  have hrest : (deviations xs).sum.natAbs < ys.length := hlen ▸ natAbs_sum_deviations_lt hne
  have hsquare : (deviations xs).sum ^ 2 < (ys.length : Int) ^ 2 := by
    rw [sq_lt_sq, Int.abs_eq_natAbs, Nat.abs_cast]
    exact_mod_cast hrest
  have hscaled : (ys.length : Int) * squareSum (deviations xs) <
      ys.length * (squareSum (deviations ys) + ys.length) := by
    calc (ys.length : Int) * squareSum (deviations xs)
        = spread ys + (deviations xs).sum ^ 2 := by
          rw [← hspread, ← squareSum_deviations, hlen]
      _ < spread ys + ys.length ^ 2 := by omega
      _ ≤ spread ys + (deviations ys).sum ^ 2 + ys.length ^ 2 := by
          have hnonneg := sq_nonneg (deviations ys).sum
          omega
      _ = ys.length * (squareSum (deviations ys) + ys.length) := by
          rw [← squareSum_deviations]
          ring
  exact_mod_cast lt_of_mul_lt_mul_left hscaled hpos.le

/-- The roots of two numbers less than two apart differ by one at most. -/
theorem sqrt_le_succ {m n : Nat} (h : m ≤ n + 1) : Nat.sqrt m ≤ Nat.sqrt n + 1 := by
  have hlt : n < (Nat.sqrt n + 1) ^ 2 := Nat.lt_succ_sqrt' n
  have hnext : m < (Nat.sqrt n + 1 + 1) ^ 2 := by
    calc m ≤ n + 1 := h
      _ < (Nat.sqrt n + 1) ^ 2 + 1 := Nat.succ_lt_succ hlt
      _ ≤ (Nat.sqrt n + 1 + 1) ^ 2 := Nat.pow_lt_pow_left (Nat.lt_succ_self _) two_ne_zero
  exact Nat.le_of_lt_succ (Nat.sqrt_lt'.mpr hnext)

/-- **The RMS without the mean is that of the spread, to within one.** -/
theorem rms_deviations_le (hne : xs ≠ []) (hlen : xs.length = ys.length)
    (hspread : spread xs = spread ys) : rms (deviations xs) ≤ rms (deviations ys) + 1 := by
  have hpos : 0 < ys.length := hlen ▸ List.length_pos_iff.mpr hne
  have hlt := squareSum_deviations_lt hne hlen hspread
  rw [rms, rms, length_deviations, length_deviations, hlen]
  refine sqrt_le_succ ?_
  rw [← Nat.add_div_right _ hpos]
  exact Nat.div_le_div_right hlt.le

/-- **DC immunity of the mean**: it moves with an offset to within one. -/
theorem mean_offset (hne : xs ≠ []) :
    mean xs + d - 1 ≤ mean (offset d xs) ∧ mean (offset d xs) ≤ mean xs + d + 1 := by
  have hne' : offset d xs ≠ [] := by simpa [offset] using hne
  obtain ⟨hsum, hlo, hhi⟩ := sum_eq hne
  obtain ⟨hsum', hlo', hhi'⟩ := sum_eq hne'
  rw [length_offset] at hsum' hlo' hhi'
  rw [sum_offset] at hsum' hlo' hhi'
  have hn : (0 : Int) ≤ xs.length := Int.natCast_nonneg _
  generalize mean (offset d xs) = m' at hsum' ⊢
  generalize mean xs = m at hsum ⊢
  constructor
  · by_contra hno
    have hle : (xs.length : Int) * (m' + 2) ≤ xs.length * (m + d) :=
      Int.mul_le_mul_of_nonneg_left (by omega) hn
    rw [Int.mul_add, Int.mul_add] at hle
    omega
  · by_contra hno
    have hle : (xs.length : Int) * (m + d + 2) ≤ xs.length * m' :=
      Int.mul_le_mul_of_nonneg_left (by omega) hn
    rw [Int.mul_add, Int.mul_add] at hle
    omega

/-- **DC immunity of the RMS**: an offset changes it by one at most. -/
theorem rms_offset (hne : xs ≠ []) :
    rms (deviations (offset d xs)) ≤ rms (deviations xs) + 1 ∧
      rms (deviations xs) ≤ rms (deviations (offset d xs)) + 1 := by
  have hne' : offset d xs ≠ [] := by simpa [offset] using hne
  exact ⟨rms_deviations_le hne' length_offset spread_offset,
    rms_deviations_le hne length_offset.symm spread_offset.symm⟩

end Offset

end BlockStats
