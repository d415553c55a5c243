import KnobFirmware.BandScaleProofs
import KnobFirmware.MicMeterProofs
import Mathlib.Data.Int.ConditionallyCompleteOrder

/-! # The meter as a scale

    Between its two cut-offs `mic_level_from_rms` gives the points of a band
    scale with ten points for each doubling, counted from 32.  Below, the level
    is 0, where the scale starts; from 32767 on it is 100, where the scale would
    still be at 99.  So the level never falls, and twice an RMS is ten points
    more. -/

namespace MeterScale

open BandScale MicMeter

section Scale

variable {rms a b : Nat}

/-- **Between the cut-offs** the level is the scale, counted from 32. -/
theorem levelOf_eq_points (hlo : 32 ≤ rms) (hhi : rms < 32767) :
    levelOf rms = points 2 10 rms - 50 := by
  by_cases hcut : rms ≤ 32
  · -- the scale starts where the first cut-off ends
    obtain rfl := Nat.le_antisymm hcut hlo
    rw [levelOf, if_pos hcut, show 32 = 2 ^ 5 from rfl, points_pow (by decide)]
    rfl
  · rw [levelOf, if_neg hcut, if_neg (Nat.not_le_of_lt hhi), points, ← Nat.log2_eq_log_two,
      MicMeter.inBand, BandScale.inBand, ← Nat.log2_eq_log_two, Nat.succ_sub_one, Nat.one_mul]
    push_cast
    ring

/-- The first cut-off. -/
theorem levelOf_low (h : rms ≤ 32) : levelOf rms = 0 := if_pos h

/-- The second one. -/
theorem levelOf_high (h : 32767 ≤ rms) : levelOf rms = 100 := by
  rw [levelOf, if_neg (by omega), if_pos h]

/-- **The level never falls.** -/
theorem levelOf_mono : Monotone levelOf := by
  intro a b h
  rcases Nat.le_total a 32 with ha | ha
  · rw [levelOf_low ha]
    exact levelOf_mem.1
  rcases Nat.lt_or_ge b 32767 with hb | hb
  · rw [levelOf_eq_points ha (h.trans_lt hb), levelOf_eq_points (ha.trans h) hb]
    have hpoints : points 2 10 a ≤ points 2 10 b := points_mono (by decide) (by decide) h
    omega
  · rw [levelOf_high hb]
    exact levelOf_mem.2

/-- **Twice the RMS is ten points more.** -/
theorem levelOf_double (hlo : 32 ≤ rms) (hhi : 2 * rms < 32767) :
    levelOf (2 * rms) = levelOf rms + 10 := by
  have hdouble : points 2 10 (rms * 2) = points 2 10 rms + 10 :=
    points_mul_base (by decide) (by omega)
  rw [levelOf_eq_points (by omega) hhi, levelOf_eq_points hlo (by omega), Nat.mul_comm, hdouble]
  push_cast
  ring

end Scale

/-- **The law of the meter.**  On every RMS value `mic_level_from_rms` returns a
    level from 0 to 100, with no intermediate value out of its type and no count
    of the leading zeros of 0; a larger value has no lower level; and from 32 on,
    as long as the double stays below the upper cut-off, a doubling is ten
    points. -/
theorem mic_level_law :
    (∀ rms, ∃ level, micLevelFromRms rms = some level ∧ 0 ≤ level ∧ level ≤ 100) ∧
    (∀ a b la lb, a ≤ b → micLevelFromRms a = some la → micLevelFromRms b = some lb →
      la ≤ lb) ∧
    ∀ rms, 32 ≤ rms → 2 * rms < 32767 →
      ∃ level, micLevelFromRms rms = some level ∧
        micLevelFromRms (2 * rms) = some (level + 10) := by
  refine ⟨?_, ?_, ?_⟩
  · intro rms
    exact ⟨levelOf rms, micLevelFromRms_eq, levelOf_mem⟩
  · intro a b la lb h ha hb
    rw [micLevelFromRms_eq] at ha hb
    obtain rfl := Option.some.inj ha
    obtain rfl := Option.some.inj hb
    exact levelOf_mono h
  · intro rms hlo hhi
    refine ⟨levelOf rms, micLevelFromRms_eq, ?_⟩
    rw [micLevelFromRms_eq, levelOf_double hlo hhi]

end MeterScale
