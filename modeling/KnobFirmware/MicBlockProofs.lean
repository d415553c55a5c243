import KnobFirmware.PcmBlockProofs
import Mathlib.Logic.Function.Basic

/-! # The microphone block — `mic_capture_task` between a read and its meters

    The PDM receiver interleaves two slots, and the microphone sits on either.
    The worker keeps the sum, the count and the sum of squares of each slot in
    arrays of two that the parity of the sample index selects, takes the mean and
    the RMS of each slot that has samples, and follows the louder slot.

    `slotPart` is the block as it is meant: the samples of one slot, in order.
    What the arrays hold after a part of the block is a function of the slots'
    samples so far, and that is what a turn of either loop keeps. -/

namespace MicBlock

open CheckedInt BlockStats MicMeter PcmBlock

/-! ## The code -/

/-- `(int)(i & 1U)`. -/
def slotOf (i : Nat) : Fin 2 := Fin.ofNat 2 i

/-- The loops over the two slots. -/
def forSlots {α : Type} (f : Fin 2 → Option α) : Option (Fin 2 → α) := do
  let first ← f 0
  let second ← f 1
  some fun slot => if slot = 0 then first else second

/-- `sum` and `count`. -/
structure Totals where
  sum   : Fin 2 → Int
  count : Fin 2 → Nat

/-- One turn of the first loop, over a sample and its index. -/
def addToSlot (t : Totals) (p : Int16 × Nat) : Option Totals := do
  let sum ← addSample (t.sum (slotOf p.2)) p.1
  let count ← uint32.checkNat (t.count (slotOf p.2) + 1)
  some ⟨Function.update t.sum (slotOf p.2) sum, Function.update t.count (slotOf p.2) count⟩

/-- One turn of the second loop. -/
def addSquareToSlot (mean : Fin 2 → Int) (squareSums : Fin 2 → Nat) (p : Int16 × Nat) :
    Option (Fin 2 → Nat) := do
  let centered ← int32.check (p.1.toInt - mean (slotOf p.2))
  let squares ← addSquare (squareSums (slotOf p.2)) centered
  some (Function.update squareSums (slotOf p.2) squares)

/-- What a block tells. -/
structure Analysis where
  mean       : Fin 2 → Int
  rms        : Fin 2 → Nat
  activeSlot : Fin 2
  newLevel   : Int

/-- The processing of a block, up to the level before attack and decay. -/
def analyse (samples : List Int16) : Option Analysis := do
  let totals ← samples.zipIdx.foldlM addToSlot ⟨fun _ => 0, fun _ => 0⟩
  let mean ← forSlots fun slot =>
    if totals.count slot ≠ 0 then blockMean (totals.sum slot) (totals.count slot) else some 0
  let squareSums ← samples.zipIdx.foldlM (addSquareToSlot mean) fun _ => 0
  let rms ← forSlots fun slot =>
    if totals.count slot ≠ 0 then blockRms (squareSums slot) (totals.count slot) else some 0
  let activeSlot : Fin 2 := if rms 1 > rms 0 then 1 else 0
  let newLevel ← micLevelFromRms (rms activeSlot)
  some ⟨mean, rms, activeSlot, newLevel⟩

/-- The published variables. -/
structure Meter where
  micLevelPercent : Int
  micRmsRaw       : Nat
  micDcRaw        : Int
  micActiveSlot   : Int
  micBlocksRead   : Nat
  deriving DecidableEq, Repr

/-- Fast attack, gentle decay. -/
def attackDecay (oldLevel newLevel : Int) : Int :=
  if newLevel ≥ oldLevel then newLevel else (oldLevel * 3 + newLevel).tdiv 4

/-- The writes to the published variables; the count of blocks wraps. -/
def publish (a : Analysis) (m : Meter) : Meter where
  micLevelPercent := attackDecay m.micLevelPercent a.newLevel
  micRmsRaw := a.rms a.activeSlot
  micDcRaw := a.mean a.activeSlot
  micActiveSlot := (a.activeSlot : Nat)
  micBlocksRead := (m.micBlocksRead + 1) % 2 ^ 32

/-! ## The slots -/

/-- The samples of slot `k` among samples with their indices. -/
def slotPart (indexed : List (Int16 × Nat)) (k : Fin 2) : List Int16 :=
  (indexed.filter fun p => p.2 % 2 = k.val).map Prod.fst

/-- The numbers of slot `k`: the samples at the indices congruent to `k`. -/
def slotValues (samples : List Int16) (k : Fin 2) : List Int := values (slotPart samples.zipIdx k)

/-- The slot that a block follows: the second where its RMS is larger. -/
def louderSlot (samples : List Int16) : Fin 2 :=
  if rms (deviations (slotValues samples 0)) < rms (deviations (slotValues samples 1)) then 1
  else 0

section Slots

variable {α β : Type} {done rest : List (Int16 × Nat)} {p : Int16 × Nat} {k : Fin 2}

theorem forSlots_eq {f : Fin 2 → Option α} {g : Fin 2 → α} (h : ∀ slot, f slot = some (g slot)) :
    forSlots f = some g := by
  rw [forSlots, h 0, h 1]
  refine congrArg some (funext fun slot => ?_)
  match slot with
  | 0 => rfl
  | 1 => rfl

theorem slotPart_append : slotPart (done ++ rest) k = slotPart done k ++ slotPart rest k := by
  simp [slotPart]

theorem slotPart_own : slotPart [p] (slotOf p.2) = [p.1] := by
  simp [slotPart, slotOf]

theorem slotPart_other (h : k ≠ slotOf p.2) : slotPart [p] k = [] := by
  have hne : ¬ p.2 % 2 = k.val := fun heq => h (Fin.ext heq.symm)
  simp [slotPart, hne]

theorem length_slotPart_le : (slotPart done k).length ≤ done.length := by
  rw [slotPart, List.length_map]
  exact List.length_filter_le ..

/-- A write to the entry of a sample's slot brings the array up to that sample. -/
theorem update_slot (g : Fin 2 → List Int16 → β) :
    Function.update (fun k => g k (slotPart done k)) (slotOf p.2)
        (g (slotOf p.2) (slotPart done (slotOf p.2) ++ [p.1])) =
      fun k => g k (slotPart (done ++ [p]) k) := by
  funext k
  by_cases hk : k = slotOf p.2
  · subst hk
    rw [Function.update_self, slotPart_append, slotPart_own]
  · rw [Function.update_of_ne hk, slotPart_append, slotPart_other hk, List.append_nil]

end Slots

/-! ## The loops -/

section Loops

variable {samples : List Int16} {done rest : List (Int16 × Nat)} {p : Int16 × Nat}
  {m : Fin 2 → Int} {k : Fin 2}

/-- `sum` and `count` after a part of the block. -/
def totalsOf (done : List (Int16 × Nat)) : Totals where
  sum k := (values (slotPart done k)).sum
  count k := (slotPart done k).length

theorem totalsOf_sum : (totalsOf done).sum k = (values (slotPart done k)).sum := rfl

theorem totalsOf_count : (totalsOf done).count k = (slotPart done k).length := rfl

/-- `square_sum` after a part of the block. -/
def squaresOf (m : Fin 2 → Int) (done : List (Int16 × Nat)) (k : Fin 2) : Nat :=
  squareSum (centred (m k) (slotPart done k))

/-- **One turn of the first loop.** -/
theorem addToSlot_eq (hlen : done.length + 1 < 2 ^ 32) :
    addToSlot (totalsOf done) p = some (totalsOf (done ++ [p])) := by
  have hpart : (slotPart done (slotOf p.2)).length ≤ done.length := length_slotPart_le
  have hsum : addSample (values (slotPart done (slotOf p.2))).sum p.1 =
      some (values (slotPart done (slotOf p.2) ++ [p.1])).sum := addSample_eq (by omega)
  have hcount : uint32.checkNat ((slotPart done (slotOf p.2)).length + 1) =
      some (slotPart done (slotOf p.2) ++ [p.1]).length := by
    rw [List.length_append, List.length_singleton]
    exact checkNat_of_fits (uint32_fits.mpr (by omega))
  rw [addToSlot, totalsOf_sum, totalsOf_count, hsum, hcount, Option.bind_eq_bind,
    Option.bind_some, Option.bind_eq_bind, Option.bind_some]
  refine congrArg some (congr (congrArg Totals.mk ?_) ?_)
  · exact update_slot fun _ part => (values part).sum
  · exact update_slot fun _ part => part.length

/-- **One turn of the second loop.** -/
theorem addSquareToSlot_eq
    (h : ∀ v ∈ centred (m (slotOf p.2)) (slotPart (done ++ [p]) (slotOf p.2)), v.natAbs ≤ 65535)
    (hlen : done.length + 1 < 2 ^ 32) :
    addSquareToSlot m (squaresOf m done) p = some (squaresOf m (done ++ [p])) := by
  have hpart : (slotPart done (slotOf p.2)).length ≤ done.length := length_slotPart_le
  rw [slotPart_append, slotPart_own, centred_append] at h
  have hv : (p.1.toInt - m (slotOf p.2)).natAbs ≤ 65535 := h _ (by simp)
  have hcentred : int32.check (p.1.toInt - m (slotOf p.2)) = some (p.1.toInt - m (slotOf p.2)) :=
    check_of_fits (int32_fits.mpr (by omega))
  have hsquare : addSquare (squaresOf m done (slotOf p.2)) (p.1.toInt - m (slotOf p.2)) =
      some (squareSum (centred (m (slotOf p.2)) (slotPart done (slotOf p.2) ++ [p.1]))) := by
    rw [centred_append]
    refine addSquare_eq h ?_
    rw [length_centred]
    omega
  rw [addSquareToSlot, hcentred]
  show (addSquare (squaresOf m done (slotOf p.2)) (p.1.toInt - m (slotOf p.2)) >>= _) = _
  rw [hsquare]
  exact congrArg some (update_slot fun k part => squareSum (centred (m k) part))

theorem totals_eq (hlen : samples.length < 2 ^ 32) :
    samples.zipIdx.foldlM addToSlot ⟨fun _ => 0, fun _ => 0⟩ = some (totalsOf samples.zipIdx) := by
  refine foldlM_eq_some (F := totalsOf) ?_
  intro done p rest hsplit
  refine addToSlot_eq ?_
  rw [← List.length_zipIdx (i := 0), hsplit, List.length_append, List.length_cons] at hlen
  omega

theorem squares_eq (h : ∀ k, ∀ v ∈ centred (m k) (slotPart samples.zipIdx k), v.natAbs ≤ 65535)
    (hlen : samples.length < 2 ^ 32) :
    samples.zipIdx.foldlM (addSquareToSlot m) (fun _ => 0) =
      some (squaresOf m samples.zipIdx) := by
  refine foldlM_eq_some (F := squaresOf m) ?_
  intro done p rest hsplit
  refine addSquareToSlot_eq ?_ ?_
  · intro v hv
    refine h (slotOf p.2) v ?_
    rw [hsplit, List.append_cons, slotPart_append]
    simp only [centred, values, List.map_append] at hv ⊢
    exact List.mem_append_left _ hv
  · rw [← List.length_zipIdx (i := 0), hsplit, List.length_append, List.length_cons] at hlen
    omega

end Loops

/-! ## The block -/

/-- What a block of samples tells, by the slots' own statistics. -/
def reference (samples : List Int16) : Analysis where
  mean k := mean (slotValues samples k)
  rms k := rms (deviations (slotValues samples k))
  activeSlot := louderSlot samples
  newLevel := levelOf (rms (deviations (slotValues samples (louderSlot samples))))

section Block

variable {samples : List Int16} {k : Fin 2}

/-- A slot without samples has mean and RMS 0. -/
theorem slot_empty (h : slotPart samples.zipIdx k = []) :
    mean (slotValues samples k) = 0 ∧ rms (deviations (slotValues samples k)) = 0 := by
  rw [slotValues, h]
  exact ⟨rfl, rfl⟩

theorem slot_mean_mem :
    -32768 ≤ mean (slotValues samples k) ∧ mean (slotValues samples k) ≤ 32767 := by
  by_cases hempty : slotPart samples.zipIdx k = []
  · rw [(slot_empty hempty).1]
    omega
  · exact mean_values_mem hempty

theorem slot_deviations_le :
    ∀ v ∈ deviations (slotValues samples k), v.natAbs ≤ 65535 := by
  by_cases hempty : slotPart samples.zipIdx k = []
  · intro v hv
    rw [slotValues, hempty] at hv
    exact absurd hv List.not_mem_nil
  · exact deviations_le hempty

theorem louderSlot_eq_one :
    louderSlot samples = 1 ↔
      rms (deviations (slotValues samples 0)) < rms (deviations (slotValues samples 1)) := by
  rw [louderSlot]
  split
  · rename_i hlouder
    exact ⟨fun _ => hlouder, fun _ => rfl⟩
  · rename_i hno
    exact ⟨fun heq => absurd heq (by decide), fun hlouder => absurd hlouder hno⟩

theorem slot_rms_le : rms (deviations (slotValues samples k)) ≤ 65535 := rms_le slot_deviations_le

/-- **The code computes the reference**, for every content of a block of fewer
    than 2^32 samples; no intermediate value leaves its C type. -/
theorem analyse_eq (hlen : samples.length < 2 ^ 32) :
    analyse samples = some (reference samples) := by
  have hmean : (forSlots fun slot =>
      if (totalsOf samples.zipIdx).count slot ≠ 0 then
        blockMean ((totalsOf samples.zipIdx).sum slot) ((totalsOf samples.zipIdx).count slot)
      else some 0) = some fun k => mean (slotValues samples k) := by
    refine forSlots_eq fun slot => ?_
    rw [totalsOf_sum, totalsOf_count]
    by_cases hempty : slotPart samples.zipIdx slot = []
    · rw [(slot_empty hempty).1, hempty]
      rfl
    · rw [if_pos (List.length_pos_iff.mpr hempty).ne']
      exact blockMean_eq hempty
  have hrms : (forSlots fun slot =>
      if (totalsOf samples.zipIdx).count slot ≠ 0 then
        blockRms (squaresOf (fun k => mean (slotValues samples k)) samples.zipIdx slot)
          ((totalsOf samples.zipIdx).count slot)
      else some 0) = some fun k => rms (deviations (slotValues samples k)) := by
    refine forSlots_eq fun slot => ?_
    rw [totalsOf_count]
    by_cases hempty : slotPart samples.zipIdx slot = []
    · rw [(slot_empty hempty).2, hempty]
      rfl
    · have hpos := List.length_pos_iff.mpr hempty
      have hcount : (deviations (slotValues samples slot)).length =
          (slotPart samples.zipIdx slot).length := by
        rw [length_deviations, slotValues, length_values]
      have hne : deviations (slotValues samples slot) ≠ [] := by
        rwa [← List.length_pos_iff, hcount]
      rw [if_pos hpos.ne', ← hcount]
      exact blockRms_eq slot_deviations_le hne
  have hsquares := squares_eq (m := fun k => mean (slotValues samples k))
    (fun k => slot_deviations_le) hlen
  simp only [analyse, totals_eq hlen, hmean, hsquares, hrms, micLevelFromRms_eq, bind, Option.bind]
  rfl

/-- **The microphone block is the reference of its two slots.**  For every block
    of at most 512 samples, an odd or empty one included, the processing ends
    with no intermediate value outside its C type and no division by zero.  With
    the samples at the even and at the odd indices as the two slots, the means
    and the RMS are those of the slots (0 for an empty one); the second slot is
    chosen exactly when its RMS is larger; what is published is the chosen slot's
    RMS and mean and its number, and the level before decay is that of its RMS;
    every mean is a 16-bit value and every RMS at most 65535. -/
theorem mic_block_correct (samples : List Int16) (hlen : samples.length ≤ 512) (m : Meter) :
    ∃ a, analyse samples = some a ∧
      (∀ k, a.mean k = mean (slotValues samples k) ∧
        a.rms k = rms (deviations (slotValues samples k)) ∧
        -32768 ≤ a.mean k ∧ a.mean k ≤ 32767 ∧ a.rms k ≤ 65535) ∧
      (a.activeSlot = 1 ↔ a.rms 0 < a.rms 1) ∧
      (publish a m).micRmsRaw = rms (deviations (slotValues samples a.activeSlot)) ∧
      (publish a m).micDcRaw = mean (slotValues samples a.activeSlot) ∧
      (publish a m).micActiveSlot = (a.activeSlot : Nat) ∧
      a.newLevel = levelOf (publish a m).micRmsRaw := by
  refine ⟨reference samples, analyse_eq (by omega), ?_, ?_, rfl, rfl, rfl, rfl⟩
  · intro k
    exact ⟨rfl, rfl, slot_mean_mem.1, slot_mean_mem.2, slot_rms_le⟩
  · exact louderSlot_eq_one

/-- An odd block with full-scale samples of opposite sign in the first slot. -/
theorem mic_block_correct_at :
    ∃ a, analyse [32767, 5, -32768, 5, 32767] = some a ∧ a.mean 0 = 10922 ∧ a.mean 1 = 5 := by
  obtain ⟨a, ha, hslots, -⟩ :=
    mic_block_correct [32767, 5, -32768, 5, 32767] (by decide) ⟨0, 0, 0, 0, 0⟩
  exact ⟨a, ha, (hslots 0).1.trans (by decide), (hslots 1).1.trans (by decide)⟩

end Block

end MicBlock
