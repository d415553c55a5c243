import KnobFirmware.BlockStatsProofs
import KnobFirmware.MicMeterProofs

/-! # PCM blocks — the arithmetic that the two microphone workers share

    The meter and the loopback each read a block of 16-bit samples, take its
    mean in 64-bit arithmetic, remove it, add up the squares of what is left and
    take the root of the mean square.  The expressions are the same in both; here
    they are checked against their C types, and shown to compute the block
    statistics for every content of a block, as long as its samples can be counted. -/

namespace PcmBlock

open CheckedInt BlockStats MicMeter

/-- The samples as numbers. -/
def values (samples : List Int16) : List Int := samples.map Int16.toInt

/-- The samples of a part of a block without the block's mean. -/
def centred (m : Int) (samples : List Int16) : List Int := (values samples).map (· - m)

/-- `sum += samples[i]`, in `int64_t`. -/
def addSample (sum : Int) (sample : Int16) : Option Int := int64.check (sum + sample.toInt)

/-- `(int32_t)(sum / (int64_t)count)`. -/
def blockMean (sum : Int) (count : Nat) : Option Int := do
  let quotient ← int64.div sum count
  int32.check quotient

/-- `square_sum += (uint64_t)((int64_t)v * (int64_t)v)`. -/
def addSquare (squareSum : Nat) (v : Int) : Option Nat := do
  let square ← int64.check (v * v)
  uint64.checkNat (squareSum + square.toNat)

/-- `mic_isqrt_u64(square_sum / count)`. -/
def blockRms (squareSum count : Nat) : Option Nat := do
  let meanSquare ← divNat squareSum count
  micIsqrtU64 meanSquare

section Samples

variable {samples done : List Int16} {sample : Int16} {xs : List Int} {v : Int} {x : Int}

theorem sample_mem (sample : Int16) : -32768 ≤ sample.toInt ∧ sample.toInt ≤ 32767 := by
  have hlo := Int16.le_toInt sample
  have hhi := Int16.toInt_lt sample
  omega

theorem values_mem : ∀ x ∈ values samples, -32768 ≤ x ∧ x ≤ 32767 := by
  intro x hx
  obtain ⟨sample, _, rfl⟩ := List.mem_map.mp hx
  exact sample_mem sample

theorem length_values : (values samples).length = samples.length := List.length_map ..

theorem values_ne_nil (h : samples ≠ []) : values samples ≠ [] := by
  simpa [values] using h

theorem values_append : values (done ++ [sample]) = values done ++ [sample.toInt] := by
  simp [values]

theorem centred_append {m : Int} :
    centred m (done ++ [sample]) = centred m done ++ [sample.toInt - m] := by
  simp [centred, values]

theorem length_centred {m : Int} : (centred m done).length = done.length := by
  simp [centred, values]

/-- The mean of a block is a sample value. -/
theorem mean_values_mem (h : samples ≠ []) :
    -32768 ≤ mean (values samples) ∧ mean (values samples) ≤ 32767 :=
  mean_mem (values_ne_nil h) values_mem

/-- A deviation fits in 17 bits. -/
theorem deviation_le (h : samples ≠ []) (hx : x ∈ values samples) :
    (x - mean (values samples)).natAbs ≤ 65535 :=
  natAbs_deviation_le (values_ne_nil h) values_mem hx

theorem deviations_le (h : samples ≠ []) : ∀ v ∈ deviations (values samples), v.natAbs ≤ 65535 := by
  intro v hv
  obtain ⟨x, hx, rfl⟩ := List.mem_map.mp hv
  exact deviation_le h hx

/-! ## What the expressions compute -/

/-- **The sum** stays in 64 bits for every block. -/
theorem addSample_eq (hlen : done.length + 1 < 2 ^ 32) :
    addSample (values done).sum sample = some (values (done ++ [sample])).sum := by
  have hmem : ∀ x ∈ values (done ++ [sample]), -32768 ≤ x ∧ x ≤ 32767 := values_mem
  obtain ⟨hlo, hhi⟩ := sum_mem hmem
  rw [length_values, List.length_append, List.length_singleton] at hlo hhi
  have heq : (values (done ++ [sample])).sum = (values done).sum + sample.toInt := by
    rw [values_append, List.sum_append, List.sum_singleton]
  rw [addSample, ← heq]
  refine check_of_fits (int64_fits.mpr ?_)
  omega

/-- **The mean** fits in a sample. -/
theorem blockMean_eq (h : samples ≠ []) :
    blockMean (values samples).sum samples.length = some (mean (values samples)) := by
  have hmem := mean_values_mem h
  have hmean : mean (values samples) = (values samples).sum.tdiv samples.length := by
    rw [mean, length_values]
  have hcount : (samples.length : Int) ≠ 0 := by
    have hpos := List.length_pos_iff.mpr h
    omega
  rw [hmean] at hmem ⊢
  rw [blockMean, div_of_fits hcount (int64_fits.mpr (by omega))]
  exact check_of_fits (int32_fits.mpr (by omega))

/-- **The squares** of 17-bit values add up in 64 bits. -/
theorem addSquare_eq (h : ∀ y ∈ xs ++ [v], y.natAbs ≤ 65535) (hlen : xs.length + 1 < 2 ^ 32) :
    addSquare (squareSum xs) v = some (squareSum (xs ++ [v])) := by
  have hv : v.natAbs ≤ 65535 := h v (by simp)
  have hsum : squareSum (xs ++ [v]) ≤ (xs ++ [v]).length * 65535 ^ 2 := squareSum_le h
  rw [List.length_append, List.length_singleton] at hsum
  have hsquare : (v * v).toNat = v.natAbs ^ 2 := by
    rw [Nat.pow_two, ← Int.natAbs_mul_self, Int.toNat_natCast]
  have heq : squareSum (xs ++ [v]) = squareSum xs + v.natAbs ^ 2 := by
    rw [squareSum_append, squareSum_cons, squareSum_nil, Nat.add_zero]
  rw [addSquare, check_of_fits (square_fits (by omega))]
  show uint64.checkNat (squareSum xs + (v * v).toNat) = _
  rw [hsquare, ← heq]
  exact checkNat_of_fits (uint64_fits.mpr (by omega))

/-- **The root** of the mean square is the RMS. -/
theorem blockRms_eq (h : ∀ y ∈ xs, y.natAbs ≤ 65535) (hne : xs ≠ []) :
    blockRms (squareSum xs) xs.length = some (rms xs) := by
  have hmean : squareSum xs / xs.length ≤ 65535 ^ 2 := meanSquare_le h
  rw [blockRms, divNat_of_ne (List.length_pos_iff.mpr hne).ne']
  exact micIsqrtU64_eq (by omega)

end Samples

end PcmBlock
