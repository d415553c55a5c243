import KnobFirmware.PcmBlockProofs

/-! # The loopback block — `audio_loopback_task` between a read and its write

    The worker reads a block of samples, removes the mean, applies the gain and
    the mute of the page, saturates and hands the block to the DAC; on the way it
    measures the RMS before and after and counts what it has clipped.

    The block is given here twice: `processBlock` is the code, with every
    intermediate value checked against its C type, and `outputs`, `clippedOf` and
    the block statistics say what it is for.  `processBlock_eq` joins the two. -/

namespace LoopbackBlock

open CheckedInt BlockStats MicMeter PcmBlock

/-! ## The controls -/

def loopbackGainMinPercent : Int := 0
def loopbackGainMaxPercent : Int := 200

/-- The clamp of the slider's callback and of the worker. -/
def clampGain (gain : Int) : Int :=
  if gain < loopbackGainMinPercent then loopbackGainMinPercent
  else if gain > loopbackGainMaxPercent then loopbackGainMaxPercent
  else gain

/-- `loopback_gain_percent` and `loopback_muted`. -/
structure Controls where
  loopbackGainPercent : Int32
  loopbackMuted       : Bool
  deriving DecidableEq

/-- `audio_loopback_gain_changed_cb`, with the slider's value. -/
def audioLoopbackGainChangedCb (value : Int32) (c : Controls) : Controls :=
  { c with loopbackGainPercent := Int32.ofInt (clampGain value.toInt) }

/-- `audio_loopback_toggle_mute_cb`. -/
def audioLoopbackToggleMuteCb (c : Controls) : Controls :=
  { c with loopbackMuted := !c.loopbackMuted }

/-! ## The code -/

/-- The variables of the second pass. -/
structure Pass where
  txSamples        : List Int16
  inputSquareSum   : Nat
  outputSquareSum  : Nat
  clippedThisBlock : Nat
  deriving DecidableEq

/-- Gain, mute and saturation of one centred sample, with the clip count. -/
def scale (gain : Int) (muted : Bool) (centered : Int) (clipped : Nat) : Option (Int × Nat) :=
  if muted then some (0, clipped)
  else do
    let product ← int32.check (centered * gain)
    let scaled ← int32.div product 100
    if scaled > 32767 then
      let clipped ← uint32.checkNat (clipped + 1)
      some (32767, clipped)
    else if scaled < -32768 then
      let clipped ← uint32.checkNat (clipped + 1)
      some (-32768, clipped)
    else some (scaled, clipped)

/-- One turn of the second pass. -/
def processSample (mean gain : Int) (muted : Bool) (p : Pass) (sample : Int16) :
    Option Pass := do
  let centered ← int32.check (sample.toInt - mean)
  let inputSquareSum ← addSquare p.inputSquareSum centered
  let (scaled, clipped) ← scale gain muted centered p.clippedThisBlock
  let tx ← int16.check scaled
  let outputSquareSum ← addSquare p.outputSquareSum scaled
  some ⟨p.txSamples ++ [Int16.ofInt tx], inputSquareSum, outputSquareSum, clipped⟩

/-- What the worker sends to the DAC and publishes. -/
structure Block where
  txSamples              : List Int16
  loopbackDc             : Int
  loopbackRms            : Nat
  loopbackOutputRms      : Nat
  loopbackLevelPercent   : Int
  loopbackClippedSamples : Nat
  deriving DecidableEq

/-- The processing of a block that is not empty: `audio_loopback_task` skips an
    empty one. -/
def processBlock (c : Controls) (rxSamples : List Int16) : Option Block := do
  let sum ← rxSamples.foldlM addSample 0
  let mean ← blockMean sum rxSamples.length
  let blockGain := clampGain c.loopbackGainPercent.toInt
  let pass ← rxSamples.foldlM (processSample mean blockGain c.loopbackMuted) ⟨[], 0, 0, 0⟩
  let inputRms ← blockRms pass.inputSquareSum rxSamples.length
  let outputRms ← blockRms pass.outputSquareSum rxSamples.length
  let level ← micLevelFromRms inputRms
  some ⟨pass.txSamples, mean, inputRms, outputRms, level, pass.clippedThisBlock⟩

/-! ## What it computes -/

/-- The gain in percent, kept between 0 and 200. -/
def Controls.blockGain (c : Controls) : Int := max 0 (min c.loopbackGainPercent.toInt 200)

/-- The gain law, rounded toward zero. -/
def amplified (gain v : Int) : Int := (v * gain).tdiv 100

/-- The nearest 16-bit value. -/
def saturate (v : Int) : Int := max (-32768) (min v 32767)

/-- What is played for a centred sample. -/
def played (c : Controls) (v : Int) : Int :=
  if c.loopbackMuted then 0 else saturate (amplified c.blockGain v)

/-- A centred sample that the saturation changes. -/
def Clips (c : Controls) (v : Int) : Prop :=
  c.loopbackMuted = false ∧ ¬ int16.Fits (amplified c.blockGain v)

instance (c : Controls) (v : Int) : Decidable (Clips c v) := inferInstanceAs (Decidable (_ ∧ _))

/-- The outputs for a list of centred samples. -/
def outputs (c : Controls) (vs : List Int) : List Int := vs.map (played c)

def clippedOf (c : Controls) (vs : List Int) : Nat := vs.countP (fun v => decide (Clips c v))

section Sample

variable {c : Controls} {gain v : Int} {clipped : Nat}

theorem clampGain_eq : clampGain gain = max 0 (min gain 200) := by
  rw [clampGain, loopbackGainMinPercent, loopbackGainMaxPercent]
  split
  · omega
  split <;> omega

theorem blockGain_mem : 0 ≤ c.blockGain ∧ c.blockGain ≤ 200 := by
  rw [Controls.blockGain]
  omega

theorem saturate_mem : -32768 ≤ saturate v ∧ saturate v ≤ 32767 := by
  rw [saturate]
  omega

theorem played_mem : -32768 ≤ played c v ∧ played c v ≤ 32767 := by
  rw [played]
  split
  · omega
  · exact saturate_mem

/-- A product of a centred sample and a gain stays in 32 bits. -/
theorem natAbs_product_le (hv : v.natAbs ≤ 65535) (hg : 0 ≤ gain ∧ gain ≤ 200) :
    (v * gain).natAbs ≤ 13107000 := by
  have hg' : gain.natAbs ≤ 200 := by omega
  rw [Int.natAbs_mul]
  calc v.natAbs * gain.natAbs ≤ 65535 * 200 := Nat.mul_le_mul hv hg'
    _ = 13107000 := rfl

/-- **Gain, mute and saturation**, checked. -/
theorem scale_eq (hv : v.natAbs ≤ 65535) (hclipped : clipped + 1 < 2 ^ 32) :
    scale c.blockGain c.loopbackMuted v clipped =
      some (played c v, clipped + if Clips c v then 1 else 0) := by
  rw [scale, played]
  cases hmuted : c.loopbackMuted with
  | true =>
      have hno : ¬ Clips c v := fun h => Bool.noConfusion (h.1.symm.trans hmuted)
      rw [if_neg hno]
      rfl
  | false =>
      have hproduct := natAbs_product_le hv (blockGain_mem (c := c))
      have hscaled : (amplified c.blockGain v).natAbs ≤ 13107000 := by
        rw [amplified, Int.natAbs_tdiv]
        exact Nat.le_trans (Nat.div_le_self ..) hproduct
      have hmore : uint32.checkNat (clipped + 1) = some (clipped + 1) :=
        checkNat_of_fits (uint32_fits.mpr (by omega))
      have hdiv : int32.div (v * c.blockGain) 100 = some (amplified c.blockGain v) :=
        div_of_fits (by decide) (int32_fits.mpr (by rw [← amplified]; omega))
      rw [if_neg Bool.false_ne_true, if_neg Bool.false_ne_true,
        check_of_fits (int32_fits.mpr (by omega))]
      show (int32.div (v * c.blockGain) 100 >>= _) = _
      rw [hdiv, hmore]
      show (if amplified c.blockGain v > 32767 then _ else _) = _
      by_cases hhigh : amplified c.blockGain v > 32767
      · have hclips : Clips c v := ⟨hmuted, fun hfits => by rw [int16_fits] at hfits; omega⟩
        have hsaturate : saturate (amplified c.blockGain v) = 32767 := by
          rw [saturate]
          omega
        rw [if_pos hhigh, if_pos hclips, hsaturate]
        rfl
      · rw [if_neg hhigh]
        by_cases hlow : amplified c.blockGain v < -32768
        · have hclips : Clips c v := ⟨hmuted, fun hfits => by rw [int16_fits] at hfits; omega⟩
          have hsaturate : saturate (amplified c.blockGain v) = -32768 := by
            rw [saturate]
            omega
          rw [if_pos hlow, if_pos hclips, hsaturate]
          rfl
        · have hno : ¬ Clips c v := fun h => h.2 (int16_fits.mpr (by omega))
          have hsaturate : saturate (amplified c.blockGain v) = amplified c.blockGain v := by
            rw [saturate]
            omega
          rw [if_neg hlow, if_neg hno, hsaturate]
          rfl

end Sample

/-! ## The second pass -/

section Pass

variable {c : Controls} {rx done : List Int16} {m : Int} {x : Int16}

/-- The variables of the second pass after the samples `done`. -/
def passOf (c : Controls) (m : Int) (done : List Int16) : Pass where
  txSamples := (outputs c (centred m done)).map Int16.ofInt
  inputSquareSum := squareSum (centred m done)
  outputSquareSum := squareSum (outputs c (centred m done))
  clippedThisBlock := clippedOf c (centred m done)

theorem clippedOf_le : clippedOf c (centred m done) ≤ done.length := by
  rw [← length_centred (m := m)]
  exact List.countP_le_length

theorem outputs_append {vs : List Int} {v : Int} :
    outputs c (vs ++ [v]) = outputs c vs ++ [played c v] := by
  simp [outputs]

theorem clippedOf_append {vs : List Int} {v : Int} :
    clippedOf c (vs ++ [v]) = clippedOf c vs + if Clips c v then 1 else 0 := by
  by_cases hclips : Clips c v <;> simp [clippedOf, hclips]

theorem outputs_le {vs : List Int} : ∀ y ∈ outputs c vs, y.natAbs ≤ 65535 := by
  intro y hy
  obtain ⟨v, _, rfl⟩ := List.mem_map.mp hy
  have hmem : -32768 ≤ played c v ∧ played c v ≤ 32767 := played_mem
  omega

/-- **One turn of the second pass.** -/
theorem processSample_eq (h : ∀ v ∈ centred m (done ++ [x]), v.natAbs ≤ 65535)
    (hlen : done.length + 1 < 2 ^ 32) :
    processSample m c.blockGain c.loopbackMuted (passOf c m done) x =
      some (passOf c m (done ++ [x])) := by
  rw [centred_append] at h
  have hlen' : (centred m done).length + 1 < 2 ^ 32 := by rwa [length_centred]
  have hclipped : clippedOf c (centred m done) ≤ done.length := clippedOf_le
  have hv : (x.toInt - m).natAbs ≤ 65535 := h _ (by simp)
  have hplayed : -32768 ≤ played c (x.toInt - m) ∧ played c (x.toInt - m) ≤ 32767 := played_mem
  have hcentred : int32.check (x.toInt - m) = some (x.toInt - m) :=
    check_of_fits (int32_fits.mpr (by omega))
  have hinput : addSquare (squareSum (centred m done)) (x.toInt - m) =
      some (squareSum (centred m done ++ [x.toInt - m])) := addSquare_eq h hlen'
  have hcount : clippedOf c (centred m done) + 1 < 2 ^ 32 := by omega
  have hscale := scale_eq (c := c) hv hcount
  have htx : int16.check (played c (x.toInt - m)) = some (played c (x.toInt - m)) :=
    check_of_fits (int16_fits.mpr hplayed)
  have houtput : addSquare (squareSum (outputs c (centred m done))) (played c (x.toInt - m)) =
      some (squareSum (outputs c (centred m done) ++ [played c (x.toInt - m)])) := by
    refine addSquare_eq ?_ (by rwa [outputs, List.length_map])
    rw [← outputs_append]
    exact outputs_le
  simp only [processSample, passOf, hcentred, hinput, hscale, htx, houtput, bind, Option.bind,
    centred_append, outputs_append, clippedOf_append, List.map_append, List.map_cons, List.map_nil]

/-- **The second pass.** -/
theorem pass_eq (h : ∀ v ∈ centred m rx, v.natAbs ≤ 65535) (hlen : rx.length < 2 ^ 32) :
    rx.foldlM (processSample m c.blockGain c.loopbackMuted) ⟨[], 0, 0, 0⟩ =
      some (passOf c m rx) := by
  refine foldlM_eq_some (F := passOf c m) ?_
  intro done x rest hrx
  refine processSample_eq ?_ ?_
  · intro v hv
    refine h v ?_
    rw [hrx, List.append_cons]
    simp only [centred, values, List.map_append] at hv ⊢
    exact List.mem_append_left _ hv
  · rw [hrx, List.length_append, List.length_cons] at hlen
    omega

end Pass

/-! ## The block -/

/-- The block that a controls setting makes of the samples. -/
def reference (c : Controls) (rx : List Int16) : Block where
  txSamples := (outputs c (deviations (values rx))).map Int16.ofInt
  loopbackDc := mean (values rx)
  loopbackRms := rms (deviations (values rx))
  loopbackOutputRms := rms (outputs c (deviations (values rx)))
  loopbackLevelPercent := levelOf (rms (deviations (values rx)))
  loopbackClippedSamples := clippedOf c (deviations (values rx))

section Block

variable {c : Controls} {rx : List Int16}

/-- **The code computes the reference block**, for every content of a block of
    fewer than 2^32 samples; no intermediate value leaves its C type. -/
theorem processBlock_eq (hne : rx ≠ []) (hlen : rx.length < 2 ^ 32) :
    processBlock c rx = some (reference c rx) := by
  have hsum : rx.foldlM addSample 0 = some (values rx).sum := by
    refine foldlM_eq_some (F := fun done => (values done).sum) ?_
    intro done x rest hrx
    refine addSample_eq ?_
    rw [hrx, List.length_append, List.length_cons] at hlen
    omega
  have hmean : blockMean (values rx).sum rx.length = some (mean (values rx)) := blockMean_eq hne
  have hdev : ∀ v ∈ deviations (values rx), v.natAbs ≤ 65535 := deviations_le hne
  have hpass := pass_eq (c := c) hdev hlen
  have hcount : (deviations (values rx)).length = rx.length := by
    rw [length_deviations, length_values]
  have hfull : ∀ vs : List Int, vs.length = rx.length → vs ≠ [] := by
    intro vs hvs
    rwa [← List.length_pos_iff, hvs, List.length_pos_iff]
  have hinput : blockRms (squareSum (deviations (values rx))) rx.length =
      some (rms (deviations (values rx))) := by
    rw [← hcount]
    exact blockRms_eq hdev (hfull _ hcount)
  have houtput : blockRms (squareSum (outputs c (deviations (values rx)))) rx.length =
      some (rms (outputs c (deviations (values rx)))) := by
    have hout : (outputs c (deviations (values rx))).length = rx.length := by
      rw [outputs, List.length_map, hcount]
    rw [← hout]
    exact blockRms_eq outputs_le (hfull _ hout)
  rw [processBlock, hsum, clampGain_eq, ← Controls.blockGain]
  show (blockMean (values rx).sum rx.length >>= _) = _
  rw [hmean]
  show (rx.foldlM (processSample _ c.blockGain c.loopbackMuted) ⟨[], 0, 0, 0⟩ >>= _) = _
  rw [hpass]
  show (blockRms (squareSum (deviations (values rx))) rx.length >>= _) = _
  rw [hinput]
  show (blockRms (squareSum (outputs c (deviations (values rx)))) rx.length >>= _) = _
  rw [houtput]
  show (micLevelFromRms _ >>= _) = _
  rw [micLevelFromRms_eq]
  rfl

/-- The samples handed to the DAC are the outputs. -/
theorem reference_txSamples :
    (reference c rx).txSamples.map Int16.toInt = outputs c (deviations (values rx)) := by
  have hfits : ∀ y ∈ outputs c (deviations (values rx)), (Int16.ofInt y).toInt = y := by
    intro y hy
    obtain ⟨v, _, rfl⟩ := List.mem_map.mp hy
    have hmem : -32768 ≤ played c v ∧ played c v ≤ 32767 := played_mem
    exact Int16.toInt_ofInt_of_le (by omega) (by omega)
  rw [reference, List.map_map]
  exact (List.map_congr_left hfits).trans (List.map_id _)

/-- **The loopback block is the reference block.**  For every block of 1 to 1024
    samples, every gain and mute, the processing ends with no intermediate value
    outside its C type, and: there are as many output samples as inputs; an
    output is 0 when muted and else the centred sample times the clamped gain in
    percent, rounded toward zero and saturated; the clip count is the number of
    samples that saturation changes; DC, input RMS and output RMS are those of
    the block; and the centred samples sum to less than one unit a sample. -/
theorem loopback_block_correct (c : Controls) (rx : List Int16) (hne : rx ≠ [])
    (hlen : rx.length ≤ 1024) :
    ∃ b, processBlock c rx = some b ∧ b.txSamples.length = rx.length ∧
      b.txSamples.map Int16.toInt = outputs c (deviations (values rx)) ∧
      b.loopbackClippedSamples = clippedOf c (deviations (values rx)) ∧
      b.loopbackDc = mean (values rx) ∧
      b.loopbackRms = rms (deviations (values rx)) ∧
      b.loopbackOutputRms = rms (outputs c (deviations (values rx))) ∧
      (deviations (values rx)).sum.natAbs < rx.length := by
  refine ⟨reference c rx, processBlock_eq hne (by omega), ?_, reference_txSamples, rfl, rfl, rfl,
    rfl, ?_⟩
  · rw [reference, List.length_map, outputs, List.length_map, length_deviations, length_values]
  · rw [← length_values]
    exact natAbs_sum_deviations_lt (values_ne_nil hne)

/-- A block with full-scale samples of both signs at the highest gain. -/
theorem loopback_block_correct_at :
    ∃ b, processBlock ⟨200, false⟩ [32767, -32768, -32768] = some b ∧
      b.txSamples.length = 3 ∧ b.txSamples.map Int16.toInt = [32767, -32768, -32768] ∧
      b.loopbackClippedSamples = 3 := by
  obtain ⟨b, hb, hcount, hout, hclipped, -⟩ :=
    loopback_block_correct ⟨200, false⟩ [32767, -32768, -32768] (by decide) (by decide)
  exact ⟨b, hb, hcount, hout.trans (by decide), hclipped.trans (by decide)⟩

end Block

end LoopbackBlock
