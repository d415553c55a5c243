import KnobFirmware.LoopbackBlockProofs
import KnobFirmware.MicBlockProofs

/-! # DC immunity — a constant offset against the two meters

    Both workers take the mean off a block before they measure it.  The mean is
    rounded toward zero, so that what is taken off a block and off the same block
    with an offset differs by a fraction of a unit that depends on the signs.

    The fraction costs less than one unit of mean square: the square sum of the
    deviations is the spread of the block, which an offset leaves as it is, and
    the square of a rest below one unit a sample.  Two mean squares less than one
    unit apart have floors and then roots that differ by one at most. -/

namespace DcImmunity

open BlockStats LoopbackBlock MicBlock PcmBlock

/-- The samples `ys` are the samples `xs` with `d` added to each; that they are
    samples says that no sum leaves 16 bits. -/
def Shifted (d : Int) (xs ys : List Int16) : Prop := values ys = offset d (values xs)

instance (d : Int) (xs ys : List Int16) : Decidable (Shifted d xs ys) :=
  inferInstanceAs (Decidable (_ = _))

/-- What two measurements must satisfy for the second to be that of the same
    signal with an offset of `d`. -/
structure Immune (d mean mean' : Int) (rms rms' : Nat) : Prop where
  mean_lo : mean + d - 1 ≤ mean'
  mean_hi : mean' ≤ mean + d + 1
  rms_lo  : rms ≤ rms' + 1
  rms_hi  : rms' ≤ rms + 1

section Sequences

variable {d : Int} {xs ys : List Int16} {k : Fin 2}

/-- The statistics of a block are immune. -/
theorem immune_of_shifted (hne : xs ≠ []) (h : Shifted d xs ys) :
    Immune d (mean (values xs)) (mean (values ys)) (rms (deviations (values xs)))
      (rms (deviations (values ys))) := by
  obtain ⟨hlo, hhi⟩ := mean_offset (d := d) (values_ne_nil hne)
  obtain ⟨hup, hdown⟩ := rms_offset (d := d) (values_ne_nil hne)
  rw [← h] at hlo hhi hup hdown
  exact ⟨hlo, hhi, hdown, hup⟩

theorem ne_nil_of_shifted (hne : xs ≠ []) (h : Shifted d xs ys) : ys ≠ [] := by
  intro hnil
  rw [Shifted, hnil] at h
  have hlen := congrArg List.length h
  rw [length_offset, length_values, length_values] at hlen
  exact hne (List.length_eq_zero_iff.mp hlen.symm)

theorem length_of_shifted (h : Shifted d xs ys) : ys.length = xs.length := by
  have hlen := congrArg List.length h
  rwa [length_offset, length_values, length_values] at hlen

/-- A block with the samples `xs` in both slots. -/
def inBothSlots (xs : List Int16) : List Int16 := xs.flatMap fun x => [x, x]

/-- Every sequence of samples is that of either slot of some block. -/
theorem slotPart_inBothSlots :
    ∀ (xs : List Int16) (i : Nat), slotPart ((inBothSlots xs).zipIdx (2 * i)) k = xs := by
  intro xs
  induction xs with
  | nil =>
      intro i
      rfl
  | cons x xs ih =>
      intro i
      have heven : 2 * i % 2 = 0 := Nat.mul_mod_right 2 i
      have hodd : (2 * i + 1) % 2 = 1 := by omega
      have hpair : slotPart [(x, 2 * i), (x, 2 * i + 1)] k = [x] := by
        match k with
        | 0 => simp [slotPart, heven, hodd]
        | 1 => simp [slotPart, heven, hodd]
      show slotPart ([(x, 2 * i), (x, 2 * i + 1)] ++ (inBothSlots xs).zipIdx (2 * (i + 1))) k = _
      rw [slotPart_append, hpair, ih (i + 1)]
      rfl

/-- **DC immunity.**  Let `xs` be a sequence of samples that is not empty, and
    let `ys` be the same samples with a constant added.  Whatever blocks of the
    microphone worker have `xs` and `ys` in a slot, and whatever controls the
    loopback worker plays `xs` and `ys` with, the processing of both ends, the
    two RMS of the sequence differ by at most one, and the mean moves by the
    constant to within one. -/
theorem dc_immunity (d : Int) (xs ys : List Int16) (hne : xs ≠ []) (h : Shifted d xs ys) :
    (∀ (block block' : List Int16) (k k' : Fin 2), block.length < 2 ^ 32 →
      block'.length < 2 ^ 32 → slotPart block.zipIdx k = xs → slotPart block'.zipIdx k' = ys →
      ∃ a a', analyse block = some a ∧ analyse block' = some a' ∧
        Immune d (a.mean k) (a'.mean k') (a.rms k) (a'.rms k')) ∧
    (xs.length < 2 ^ 32 → ∀ c c' : Controls,
      ∃ b b', processBlock c xs = some b ∧ processBlock c' ys = some b' ∧
        Immune d b.loopbackDc b'.loopbackDc b.loopbackRms b'.loopbackRms) := by
  constructor
  · rintro block block' k k' hlen hlen' rfl rfl
    exact ⟨_, _, analyse_eq hlen, analyse_eq hlen', immune_of_shifted hne h⟩
  · intro hlen c c'
    have hlen' : ys.length < 2 ^ 32 := by rwa [length_of_shifted h]
    exact ⟨_, _, processBlock_eq hne hlen, processBlock_eq (ne_nil_of_shifted hne h) hlen',
      immune_of_shifted hne h⟩

/-- An offset that moves the samples across zero: the mean of the first block is
    rounded up, that of the second down. -/
theorem dc_immunity_at :
    ∃ a a', analyse (inBothSlots [-3, -4, 2]) = some a ∧
      analyse (inBothSlots [97, 96, 102]) = some a' ∧
      Immune 100 (a.mean 1) (a'.mean 1) (a.rms 1) (a'.rms 1) :=
  (dc_immunity 100 [-3, -4, 2] [97, 96, 102] (by decide) (by decide)).1
    (inBothSlots [-3, -4, 2]) (inBothSlots [97, 96, 102]) 1 1 (by decide) (by decide)
    (slotPart_inBothSlots _ 0) (slotPart_inBothSlots _ 0)

end Sequences

end DcImmunity
