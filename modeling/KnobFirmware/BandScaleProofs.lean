import Mathlib.Algebra.Group.Nat.Defs
import Mathlib.Data.Nat.Log

/-! # Band scales — integer logarithms with interpolation

    The numbers from `m ^ k` up to `m ^ (k + 1)` are a BAND.  A band scale gives
    every band `b` points: a number has `b` points for each band below its own,
    and of its own band the part that it has passed, rounded down.  It is the
    logarithm to the base `m`, times `b`, with the curve of each band replaced
    by its chord.

    The scale never falls, although each band is rounded for itself, and a
    number that is `m` times another one stands exactly `b` points above it. -/

namespace BandScale

/-- The points of `n` inside its own band. -/
def inBand (m b n : Nat) : Nat := (n - m ^ Nat.log m n) * b / ((m - 1) * m ^ Nat.log m n)

/-- The points of `n`. -/
def points (m b n : Nat) : Nat := Nat.log m n * b + inBand m b n

section Scale

variable {m b n a c : Nat}

/-- The next band is not reached. -/
theorem inBand_lt (hm : 1 < m) (hb : 0 < b) : inBand m b n < b := by
  have hpos : 0 < m ^ Nat.log m n := Nat.pow_pos (Nat.zero_lt_of_lt hm)
  have habove : n < m ^ Nat.log m n * m := Nat.lt_pow_succ_log_self hm n
  rw [inBand]
  generalize m ^ Nat.log m n = base at hpos habove
  have hwidth : 0 < (m - 1) * base := Nat.mul_pos (Nat.sub_pos_of_lt hm) hpos
  have hsplit : base * m = (m - 1) * base + base := by
    rw [← Nat.succ_mul, Nat.succ_eq_add_one, Nat.sub_add_cancel (Nat.le_of_lt hm), Nat.mul_comm]
  have hrest : n - base < (m - 1) * base := by omega
  rw [Nat.div_lt_iff_lt_mul hwidth, Nat.mul_comm b]
  exact Nat.mul_lt_mul_of_pos_right hrest hb

/-- Inside a band the points do not fall. -/
theorem inBand_le_inBand (hlog : Nat.log m a = Nat.log m c) (h : a ≤ c) :
    inBand m b a ≤ inBand m b c := by
  rw [inBand, inBand, hlog]
  exact Nat.div_le_div_right (Nat.mul_le_mul_right b (Nat.sub_le_sub_right h _))

/-- **The points never fall.** -/
theorem points_mono (hm : 1 < m) (hb : 0 < b) : Monotone (points m b) := by
  intro a c h
  rcases (Nat.log_mono_right h : Nat.log m a ≤ Nat.log m c).lt_or_eq with hlt | heq
  · calc points m b a ≤ Nat.log m a * b + b :=
          Nat.add_le_add_left (Nat.le_of_lt (inBand_lt hm hb)) _
      _ = (Nat.log m a + 1) * b := (Nat.succ_mul _ _).symm
      _ ≤ Nat.log m c * b := Nat.mul_le_mul_right b hlt
      _ ≤ points m b c := Nat.le_add_right _ _
  · rw [points, points, heq]
    exact Nat.add_le_add_left (inBand_le_inBand heq h) _

/-- `m` times a number passes the same part of the next band. -/
theorem inBand_mul_base (hm : 1 < m) (hn : n ≠ 0) : inBand m b (n * m) = inBand m b n := by
  have hscale : (n * m - m ^ Nat.log m n * m) * b = (n - m ^ Nat.log m n) * b * m := by
    rw [← Nat.sub_mul, Nat.mul_right_comm]
  rw [inBand, inBand, Nat.log_mul_base hm hn, Nat.pow_succ, hscale, ← Nat.mul_assoc]
  exact Nat.mul_div_mul_right _ _ (Nat.zero_lt_of_lt hm)

/-- **`m` times a number stands `b` points above it.** -/
theorem points_mul_base (hm : 1 < m) (hn : n ≠ 0) :
    points m b (n * m) = points m b n + b := by
  rw [points, points, Nat.log_mul_base hm hn, inBand_mul_base hm hn, Nat.succ_mul,
    Nat.add_right_comm]

/-- The lower end of a band. -/
theorem points_pow (hm : 1 < m) (k : Nat) : points m b (m ^ k) = k * b := by
  rw [points, inBand, Nat.log_pow hm, Nat.sub_self, Nat.zero_mul, Nat.zero_div, Nat.add_zero]

end Scale

end BandScale
