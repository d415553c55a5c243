import KnobFirmware.CheckedIntProofs
import KnobFirmware.DigitRootProofs
import Mathlib.Tactic.Ring
import Mathlib.Tactic.Linarith

/-! # The meter functions — `mic_isqrt_u64` and `mic_level_from_rms`

    The microphone worker and the loopback worker both reduce a block to a mean
    square, take its integer root and turn the root into a level.

    The root is found bit by bit.  While the bit stands at `4 ^ k`, `result` is
    the root found so far, `r`, times `2 ^ (k + 1)`, and `value` is what `r * r`
    leaves of the argument; the true root lies below `r + 2 ^ (k + 1)`. -/

namespace MicMeter

open CheckedInt DigitRoot

/-! ## The integer square root -/

/-- The first loop of `mic_isqrt_u64`: the bit for the highest digit of the
    root. -/
def shrinkBit (value bit : Nat) : Nat :=
  if bit > value then shrinkBit value (bit >>> 2) else bit
termination_by bit
decreasing_by
  rw [Nat.shiftRight_eq_div_pow]
  omega

/-- The second loop. -/
def isqrtLoop (value result bit : Nat) : Option Nat :=
  if bit = 0 then some result
  else do
    let trial ← uint64.checkNat (result + bit)
    if value ≥ trial then
      let result ← uint64.checkNat ((result >>> 1) + bit)
      isqrtLoop (value - trial) result (bit >>> 2)
    else isqrtLoop value (result >>> 1) (bit >>> 2)
termination_by bit
decreasing_by
  all_goals
    rw [Nat.shiftRight_eq_div_pow]
    omega

/-- `mic_isqrt_u64`. -/
def micIsqrtU64 (value : Nat) : Option Nat := do
  let result ← isqrtLoop value 0 (shrinkBit value (1 <<< 62))
  uint32.checkNat result

/-- The bit before digit `k` of the root is tried; none is left at 0. -/
def bitAt : Nat → Nat
  | 0 => 0
  | k + 1 => 4 ^ k

theorem bitAt_zero : bitAt 0 = 0 := rfl

theorem bitAt_shift (k : Nat) : bitAt (k + 1) >>> 2 = bitAt k := by
  rw [Nat.shiftRight_eq_div_pow]
  cases k with
  | zero => rfl
  | succ k =>
      show 4 ^ (k + 1) / 4 = 4 ^ k
      rw [Nat.pow_succ]
      exact Nat.mul_div_cancel _ (by decide)

/-- The bits that the first loop passes over are above the value. -/
theorem shrinkBit_spec {v : Nat} :
    ∀ j, v < 4 ^ j → ∃ k ≤ j, shrinkBit v (bitAt j) = bitAt k ∧ v < 4 ^ k := by
  intro j
  induction j with
  | zero =>
      intro hv
      refine ⟨0, Nat.le_refl 0, ?_, hv⟩
      rw [shrinkBit, bitAt_zero, if_neg (Nat.not_lt_zero v)]
  | succ j ih =>
      intro hv
      rw [shrinkBit]
      split
      · rename_i hlt
        obtain ⟨k, hk, hbit, hvk⟩ := ih hlt
        rw [bitAt_shift]
        exact ⟨k, Nat.le_succ_of_le hk, hbit, hvk⟩
      · exact ⟨j + 1, Nat.le_refl _, rfl, hv⟩

/-- The result of a turn whose digit is 0. -/
theorem result_shift {k r : Nat} : (r * 2 ^ (k + 1)) >>> 1 = r * 2 ^ k := by
  rw [Nat.shiftRight_eq_div_pow, Nat.pow_succ, ← Nat.mul_assoc, Nat.pow_one]
  exact Nat.mul_div_cancel _ Nat.zero_lt_two

/-- Below `4 ^ 32` a value fits in 64 bits. -/
theorem fits_of_lt {n : Nat} (h : n < 4 ^ 32) : uint64.checkNat n = some n := by
  refine checkNat_of_fits (uint64_fits.mpr ?_)
  omega

/-- **The second loop**, by induction on the digits that are left: `r` is the
    root so far. -/
theorem isqrtLoop_spec {v : Nat} :
    ∀ k r, RootAt 32 v k r →
      isqrtLoop (v - r * r) (r * 2 ^ k) (bitAt k) = some (Nat.sqrt v) := by
  intro k
  induction k with
  | zero =>
      intro r h
      rw [isqrtLoop, bitAt_zero, if_pos rfl, Nat.pow_zero, Nat.mul_one, h.sqrt_eq]
  | succ k ih =>
      intro r h
      have hbit : bitAt (k + 1) ≠ 0 := Nat.ne_of_gt (Nat.pow_pos (by decide))
      rw [isqrtLoop, bitAt_shift, if_neg hbit, result_shift]
      show (do
        let trial ← uint64.checkNat (r * 2 ^ (k + 1) + 4 ^ k)
        if v - r * r ≥ trial then
          let result ← uint64.checkNat (r * 2 ^ k + 4 ^ k)
          isqrtLoop (v - r * r - trial) result (bitAt k)
        else isqrtLoop (v - r * r) (r * 2 ^ k) (bitAt k)) = _
      rw [fits_of_lt h.trial_lt, fits_of_lt h.result_lt]
      show (if v - r * r ≥ r * 2 ^ (k + 1) + 4 ^ k then
        isqrtLoop (v - r * r - (r * 2 ^ (k + 1) + 4 ^ k)) (r * 2 ^ k + 4 ^ k) (bitAt k)
        else isqrtLoop (v - r * r) (r * 2 ^ k) (bitAt k)) = _
      by_cases hdigit : (r + 2 ^ k) * (r + 2 ^ k) ≤ v
      · rw [if_pos (h.trial_le_iff.mpr hdigit), Nat.sub_sub, ← square_add_digit,
          ← result_add_digit]
        exact ih (r + 2 ^ k) (h.one hdigit)
      · rw [if_neg (mt h.trial_le_iff.mp hdigit)]
        exact ih r (h.zero (Nat.lt_of_not_le hdigit))

/-- **`mic_isqrt_u64` returns the root, rounded down**, of every 64-bit value:
    it ends, and no intermediate value leaves its type. -/
theorem micIsqrtU64_eq {v : Nat} (hv : v < 2 ^ 64) : micIsqrtU64 v = some (Nat.sqrt v) := by
  obtain ⟨k, hk, hbit, hvk⟩ := shrinkBit_spec 32 hv
  have hloop := isqrtLoop_spec k 0 (.start hk hvk)
  rw [Nat.zero_mul, Nat.zero_mul, Nat.sub_zero] at hloop
  have hroot : Nat.sqrt v < 2 ^ 32 := Nat.sqrt_lt'.mpr hv
  have hstart : 1 <<< 62 = bitAt 32 := rfl
  rw [micIsqrtU64, hstart, hbit, hloop]
  show uint32.checkNat (Nat.sqrt v) = _
  refine checkNat_of_fits (uint32_fits.mpr ?_)
  omega

/-! ## The level -/

/-- `__builtin_clz` on 32 bits, undefined at 0. -/
def builtinClz (v : Nat) : Option Nat := if v = 0 then none else some (31 - Nat.log2 v)

/-- `mic_level_from_rms`. -/
def micLevelFromRms (rms : Nat) : Option Int :=
  if rms ≤ 32 then some 0
  else if rms ≥ 32767 then some 100
  else do
    let clz ← builtinClz rms
    let highestBit ← int32.check (31 - clz)
    let level ← int32.check ((highestBit - 5) * 10)
    let base ← uint32.checkNat (1 <<< highestBit.toNat)
    let remainder ← uint32.check (rms - base)
    let tenfold ← uint32.checkNat (remainder.toNat * 10)
    let inBand ← divNat tenfold base
    let inBand ← int32.check inBand
    let level ← int32.check (level + inBand)
    some (if level < 0 then 0 else if level > 100 then 100 else level)

/-- The part of its power-of-two band that a value has passed, in tenths. -/
def inBand (rms : Nat) : Nat := (rms - 2 ^ Nat.log2 rms) * 10 / 2 ^ Nat.log2 rms

/-- The level by bands: ten points for each doubling above 32, and a point for
    each tenth of a band. -/
def levelOf (rms : Nat) : Int :=
  if rms ≤ 32 then 0
  else if rms ≥ 32767 then 100
  else (Nat.log2 rms - 5) * 10 + inBand rms

section Level

variable {rms : Nat}

theorem inBand_le : inBand rms ≤ 9 := by
  have hlt : rms < 2 ^ (Nat.log2 rms + 1) := Nat.lt_log2_self
  rw [Nat.pow_succ] at hlt
  have hten : (rms - 2 ^ Nat.log2 rms) * 10 < 10 * 2 ^ Nat.log2 rms := by omega
  exact Nat.le_of_lt_succ ((Nat.div_lt_iff_lt_mul (Nat.two_pow_pos _)).mpr hten)

/-- The bands of the values between the two cut-offs. -/
theorem log2_mem (hlo : 32 < rms) (hhi : rms < 32767) :
    5 ≤ Nat.log2 rms ∧ Nat.log2 rms ≤ 14 := by
  have hne : rms ≠ 0 := by omega
  constructor
  · rw [Nat.le_log2 hne]
    omega
  · refine Nat.le_of_lt_succ ((Nat.log2_lt hne).mpr ?_)
    omega

theorem levelOf_mem : 0 ≤ levelOf rms ∧ levelOf rms ≤ 100 := by
  rw [levelOf]
  split
  · omega
  split
  · omega
  · have hband : 5 ≤ Nat.log2 rms ∧ Nat.log2 rms ≤ 14 := log2_mem (by omega) (by omega)
    have hin : inBand rms ≤ 9 := inBand_le
    omega

/-- **`mic_level_from_rms` returns the level by bands** of every value: the
    clamps at its end change nothing and no intermediate value leaves its type. -/
theorem micLevelFromRms_eq : micLevelFromRms rms = some (levelOf rms) := by
  rw [micLevelFromRms, levelOf]
  split
  · rfl
  split
  · rfl
  have hne : rms ≠ 0 := by omega
  have hband : 5 ≤ Nat.log2 rms ∧ Nat.log2 rms ≤ 14 := log2_mem (by omega) (by omega)
  have hin : inBand rms ≤ 9 := inBand_le
  have hle : 2 ^ Nat.log2 rms ≤ rms := Nat.log2_self_le hne
  have hpos : 0 < 2 ^ Nat.log2 rms := Nat.two_pow_pos _
  rw [inBand] at hin ⊢
  rw [show builtinClz rms = some (31 - Nat.log2 rms) from if_neg hne]
  generalize Nat.log2 rms = highestBit at hband hle hpos hin ⊢
  generalize hbase : 2 ^ highestBit = base at hle hpos hin ⊢
  generalize htenths : (rms - base) * 10 / base = tenths at hin ⊢
  have hclz : (31 : Int) - (31 - highestBit : Nat) = highestBit := by omega
  have hshift : 1 <<< (highestBit : Int).toNat = base := by
    rw [Int.toNat_natCast, Nat.one_shiftLeft, hbase]
  have hremainder : ((rms : Int) - base).toNat = rms - base := by omega
  have h1 : int32.Fits highestBit := int32_fits.mpr (by omega)
  have h2 : int32.Fits (((highestBit : Int) - 5) * 10) := int32_fits.mpr (by omega)
  have h3 : uint32.Fits base := uint32_fits.mpr (by omega)
  have h4 : uint32.Fits (rms - base) := uint32_fits.mpr (by omega)
  have h5 : uint32.Fits ((rms - base) * 10 : Nat) := uint32_fits.mpr (by omega)
  have h6 : int32.Fits tenths := int32_fits.mpr (by omega)
  have h7 : int32.Fits (((highestBit : Int) - 5) * 10 + tenths) := int32_fits.mpr (by omega)
  simp only [bind, Option.bind, hclz, hshift, hremainder, check_of_fits, checkNat_of_fits,
    divNat_of_ne hpos.ne', htenths, h1, h2, h3, h4, h5, h6, h7]
  rw [if_neg (by omega), if_neg (by omega)]

end Level

end MicMeter
