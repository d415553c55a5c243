import KnobFirmware.LoopbackBlockProofs

/-! # The loopback laws — one block under two settings of the controls

    Gain and mute belong to the playback: what a block says of the microphone
    does not depend on them.  On the playback itself they act monotonically,
    through a truncating division and a saturation that is not symmetric: more
    gain never makes an output smaller or turns its sign, never unclips a sample
    and never lowers the output RMS. -/

namespace LoopbackLaw

open CheckedInt BlockStats MicMeter PcmBlock LoopbackBlock

section Sample

variable {c c₁ c₂ : Controls} {g g₁ g₂ v y : Int}

theorem natAbs_amplified : (amplified g v).natAbs = v.natAbs * g.natAbs / 100 := by
  rw [amplified, Int.natAbs_tdiv, Int.natAbs_mul]
  rfl

/-- The amplified sample has the sign of the sample. -/
theorem amplified_sign (hg : 0 ≤ g) :
    (0 ≤ v → 0 ≤ amplified g v) ∧ (v ≤ 0 → amplified g v ≤ 0) := by
  constructor
  · intro hv
    exact Int.tdiv_nonneg (Int.mul_nonneg hv hg) (by decide)
  · intro hv
    have hneg : amplified g v = -((-v * g).tdiv 100) := by
      rw [amplified, ← Int.neg_tdiv, Int.neg_mul, Int.neg_neg]
    have hnonneg : 0 ≤ (-v * g).tdiv 100 :=
      Int.tdiv_nonneg (Int.mul_nonneg (by omega) hg) (by decide)
    omega

/-- **More gain amplifies more.** -/
theorem amplified_mono (hg : 0 ≤ g₁) (hle : g₁ ≤ g₂) :
    (amplified g₁ v).natAbs ≤ (amplified g₂ v).natAbs := by
  rw [natAbs_amplified, natAbs_amplified]
  exact Nat.div_le_div_right (Nat.mul_le_mul_left _ (by omega))

/-- Up to unity the gain amplifies nothing. -/
theorem amplified_le (hg : 0 ≤ g) (hle : g ≤ 100) : (amplified g v).natAbs ≤ v.natAbs := by
  rw [natAbs_amplified]
  exact Nat.div_le_of_le_mul (by rw [Nat.mul_comm 100]; exact Nat.mul_le_mul_left _ (by omega))

theorem saturate_le : (saturate y).natAbs ≤ y.natAbs := by
  rw [saturate]
  omega

/-- The gains, clamped, are in the order of the gains. -/
theorem blockGain_mono
    (h : c₁.loopbackGainPercent.toInt ≤ c₂.loopbackGainPercent.toInt) :
    c₁.blockGain ≤ c₂.blockGain := by
  rw [Controls.blockGain, Controls.blockGain]
  omega

/-- A louder setting of two that are not muted. -/
structure Louder (c₁ c₂ : Controls) : Prop where
  open₁ : c₁.loopbackMuted = false
  open₂ : c₂.loopbackMuted = false
  gain  : c₁.loopbackGainPercent.toInt ≤ c₂.loopbackGainPercent.toInt

/-- The two amplified samples: no opposite signs, and the second no smaller. -/
theorem Louder.amplified (h : Louder c₁ c₂) (v : Int) :
    (0 ≤ amplified c₁.blockGain v ∧ amplified c₁.blockGain v ≤ amplified c₂.blockGain v) ∨
      (amplified c₂.blockGain v ≤ amplified c₁.blockGain v ∧ amplified c₁.blockGain v ≤ 0) := by
  have hg₁ : 0 ≤ c₁.blockGain ∧ c₁.blockGain ≤ 200 := blockGain_mem
  have hle := blockGain_mono h.gain
  have hmono : (LoopbackBlock.amplified c₁.blockGain v).natAbs ≤ _ := amplified_mono hg₁.1 hle
  have hsign₁ := amplified_sign (v := v) hg₁.1
  have hsign₂ := amplified_sign (v := v) (Int.le_trans hg₁.1 hle)
  rcases Int.le_total 0 v with hv | hv
  · have h1 := hsign₁.1 hv
    have h2 := hsign₂.1 hv
    omega
  · have h1 := hsign₁.2 hv
    have h2 := hsign₂.2 hv
    omega

/-- **One sample, louder**: the sign is kept and the magnitude does not fall. -/
theorem Louder.played (h : Louder c₁ c₂) (v : Int) :
    0 ≤ played c₁ v * played c₂ v ∧ (played c₁ v).natAbs ≤ (played c₂ v).natAbs := by
  rw [LoopbackBlock.played, LoopbackBlock.played, h.open₁, h.open₂, if_neg Bool.false_ne_true,
    if_neg Bool.false_ne_true, saturate, saturate]
  rcases h.amplified v with ⟨h0, hle⟩ | ⟨hle, h0⟩
  · exact ⟨Int.mul_nonneg (by omega) (by omega), by omega⟩
  · exact ⟨Int.mul_nonneg_of_nonpos_of_nonpos (by omega) (by omega), by omega⟩

/-- A sample that clips, clips when louder. -/
theorem Louder.clips (h : Louder c₁ c₂) (hclips : Clips c₁ v) : Clips c₂ v := by
  refine ⟨h.open₂, fun hfits => hclips.2 ?_⟩
  rw [int16_fits] at hfits ⊢
  rcases h.amplified v with hcase | hcase <;> omega

/-- Muted, or with no gain, a sample plays as 0. -/
theorem played_eq_zero (h : c.loopbackMuted = true ∨ c.loopbackGainPercent.toInt ≤ 0) (v : Int) :
    played c v = 0 := by
  rw [played]
  rcases h with h | h
  · rw [if_pos h]
  · have hgain : c.blockGain = 0 := by
      rw [Controls.blockGain]
      omega
    rw [hgain, amplified, Int.mul_zero]
    split <;> rfl

theorem not_clips (h : c.loopbackMuted = true ∨ c.loopbackGainPercent.toInt ≤ 0) (v : Int) :
    ¬ Clips c v := by
  rintro ⟨hopen, hfits⟩
  rcases h with h | h
  · exact Bool.noConfusion (hopen.symm.trans h)
  · have hgain : c.blockGain = 0 := by
      rw [Controls.blockGain]
      omega
    rw [hgain, amplified, Int.mul_zero] at hfits
    exact hfits (by decide)

/-- Up to unity gain a sample plays no louder than it came in. -/
theorem played_le (h : c.loopbackGainPercent.toInt ≤ 100) (v : Int) :
    (played c v).natAbs ≤ v.natAbs := by
  have hgain : 0 ≤ c.blockGain ∧ c.blockGain ≤ 100 := by
    rw [Controls.blockGain]
    omega
  rw [played]
  split
  · exact Nat.zero_le _
  · exact Nat.le_trans saturate_le (amplified_le hgain.1 hgain.2)

end Sample

/-! ## The block -/

section Block

variable {c c₁ c₂ : Controls} {vs : List Int} {rx : List Int16}

/-- Two outputs of one sample: no opposite signs, and the second no smaller. -/
def Grown (y₁ y₂ : Int16) : Prop :=
  0 ≤ y₁.toInt * y₂.toInt ∧ y₁.toInt.natAbs ≤ y₂.toInt.natAbs

theorem Louder.outputs (h : Louder c₁ c₂) :
    List.Forall₂ (fun y₁ y₂ => 0 ≤ y₁ * y₂ ∧ y₁.natAbs ≤ y₂.natAbs) (outputs c₁ vs)
      (outputs c₂ vs) := by
  induction vs with
  | nil => exact .nil
  | cons v vs ih => exact .cons (h.played v) ih

/-- **The output RMS does not fall.** -/
theorem Louder.rms_le (h : Louder c₁ c₂) : rms (LoopbackBlock.outputs c₁ vs) ≤
    rms (LoopbackBlock.outputs c₂ vs) := by
  have hbelow : Below (LoopbackBlock.outputs c₁ vs) (LoopbackBlock.outputs c₂ vs) :=
    h.outputs.imp fun _ _ hgrown => hgrown.2
  exact hbelow.rms_le

/-- **No clip is lost.** -/
theorem Louder.clippedOf_le (h : Louder c₁ c₂) : clippedOf c₁ vs ≤ clippedOf c₂ vs := by
  refine List.countP_mono_left fun v _ hclips => ?_
  exact decide_eq_true (h.clips (of_decide_eq_true hclips))

/-- The samples handed to the DAC, louder. -/
theorem Louder.txSamples (h : Louder c₁ c₂) :
    List.Forall₂ Grown (reference c₁ rx).txSamples (reference c₂ rx).txSamples := by
  have hgrown : List.Forall₂ _ (LoopbackBlock.outputs c₁ (deviations (values rx))) _ := h.outputs
  rw [← reference_txSamples, ← reference_txSamples, List.forall₂_map_left_iff,
    List.forall₂_map_right_iff] at hgrown
  exact hgrown

/-- Up to unity gain the block plays no louder than it came in. -/
theorem rms_outputs_le (h : c.loopbackGainPercent.toInt ≤ 100) :
    rms (outputs c vs) ≤ rms vs := by
  have hbelow : Below (outputs c vs) vs := by
    induction vs with
    | nil => exact .nil
    | cons v vs ih => exact .cons (played_le h v) ih
  exact hbelow.rms_le

/-- **Silence**: muted, or with no gain, the block plays as zeros. -/
theorem silent (h : c.loopbackMuted = true ∨ c.loopbackGainPercent.toInt ≤ 0) :
    (∀ y ∈ (reference c rx).txSamples, y = 0) ∧ (reference c rx).loopbackOutputRms = 0 ∧
      (reference c rx).loopbackClippedSamples = 0 := by
  have hzero : ∀ y ∈ outputs c (deviations (values rx)), y = 0 := by
    intro y hy
    obtain ⟨v, _, rfl⟩ := List.mem_map.mp hy
    exact played_eq_zero h v
  refine ⟨?_, ?_, ?_⟩
  · intro y hy
    obtain ⟨z, hz, rfl⟩ := List.mem_map.mp hy
    rw [hzero z hz]
    rfl
  · refine Nat.le_zero.mp (rms_le fun y hy => ?_)
    rw [hzero y hy]
    exact Nat.le_refl 0
  · refine List.countP_eq_zero.mpr fun v _ hclips => ?_
    exact not_clips h v (of_decide_eq_true hclips)

/-- **The loopback under two settings of the controls.**  For every block of 1
    to 1024 samples and any two settings: DC, input RMS and input level are the
    same; where neither is muted and the second gain is no lower, every output
    keeps its sign and does not get smaller, and the clip count and the output
    RMS do not fall; a gain of at most 100 leaves the output RMS within the input
    RMS; and mute, or a gain of at most 0, gives zeros only, with output RMS 0
    and no clip. -/
theorem control_laws (c₁ c₂ : Controls) (rx : List Int16) (hne : rx ≠ [])
    (hlen : rx.length ≤ 1024) :
    ∃ b₁ b₂, processBlock c₁ rx = some b₁ ∧ processBlock c₂ rx = some b₂ ∧
      (b₁.loopbackRms = b₂.loopbackRms ∧ b₁.loopbackDc = b₂.loopbackDc ∧
        b₁.loopbackLevelPercent = b₂.loopbackLevelPercent) ∧
      (c₁.loopbackMuted = false → c₂.loopbackMuted = false →
        c₁.loopbackGainPercent.toInt ≤ c₂.loopbackGainPercent.toInt →
        List.Forall₂ Grown b₁.txSamples b₂.txSamples ∧
          b₁.loopbackClippedSamples ≤ b₂.loopbackClippedSamples ∧
          b₁.loopbackOutputRms ≤ b₂.loopbackOutputRms) ∧
      (c₁.loopbackGainPercent.toInt ≤ 100 → b₁.loopbackOutputRms ≤ b₁.loopbackRms) ∧
      (c₁.loopbackMuted = true ∨ c₁.loopbackGainPercent.toInt ≤ 0 →
        (∀ y ∈ b₁.txSamples, y = 0) ∧ b₁.loopbackOutputRms = 0 ∧
          b₁.loopbackClippedSamples = 0) := by
  refine ⟨reference c₁ rx, reference c₂ rx, processBlock_eq hne (by omega),
    processBlock_eq hne (by omega),
    ⟨rfl, rfl, rfl⟩, ?_, rms_outputs_le, silent⟩
  intro hopen₁ hopen₂ hgain
  have hlouder : Louder c₁ c₂ := ⟨hopen₁, hopen₂, hgain⟩
  exact ⟨hlouder.txSamples, hlouder.clippedOf_le, hlouder.rms_le⟩

/-- Half gain and double gain on a block that clips at double gain. -/
theorem control_laws_at :
    ∃ b₁ b₂, processBlock ⟨50, false⟩ [20000, -20000, 3] = some b₁ ∧
      processBlock ⟨200, false⟩ [20000, -20000, 3] = some b₂ ∧
      b₁.loopbackRms = b₂.loopbackRms ∧ List.Forall₂ Grown b₁.txSamples b₂.txSamples := by
  obtain ⟨b₁, b₂, h₁, h₂, ⟨hrms, -⟩, hlouder, -⟩ :=
    control_laws ⟨50, false⟩ ⟨200, false⟩ [20000, -20000, 3] (by decide) (by decide)
  exact ⟨b₁, b₂, h₁, h₂, hrms, (hlouder rfl rfl (by decide)).1⟩

end Block

/-! ## The callbacks -/

/-- The callbacks that write the controls. -/
inductive ControlCb where
  | gainChanged (value : Int32)
  | toggleMute

def ControlCb.run (c : Controls) : ControlCb → Controls
  | .gainChanged value => audioLoopbackGainChangedCb value c
  | .toggleMute => audioLoopbackToggleMuteCb c

/-- The controls as initialised, with `LOOPBACK_GAIN_DEFAULT_PERCENT`. -/
def bootControls : Controls := ⟨50, false⟩

/-- One callback leaves a gain that the worker's clamp would not change. -/
theorem ControlCb.blockGain_run {c : Controls} (h : c.blockGain = c.loopbackGainPercent.toInt)
    (cb : ControlCb) : (cb.run c).blockGain = (cb.run c).loopbackGainPercent.toInt := by
  cases cb with
  | toggleMute => exact h
  | gainChanged value =>
      have hstored : (audioLoopbackGainChangedCb value c).loopbackGainPercent.toInt =
          max 0 (min value.toInt 200) := by
        rw [audioLoopbackGainChangedCb, clampGain_eq]
        exact Int32.toInt_ofInt_of_le (by omega) (by omega)
      rw [ControlCb.run, Controls.blockGain, hstored]
      omega

/-- **After any callbacks** the worker plays with the gain that is stored. -/
theorem blockGain_of_callbacks (cbs : List ControlCb) :
    (cbs.foldl ControlCb.run bootControls).blockGain =
      (cbs.foldl ControlCb.run bootControls).loopbackGainPercent.toInt := by
  have hrun : ∀ c : Controls, c.blockGain = c.loopbackGainPercent.toInt →
      (cbs.foldl ControlCb.run c).blockGain =
        (cbs.foldl ControlCb.run c).loopbackGainPercent.toInt := by
    induction cbs with
    | nil =>
        intro c h
        exact h
    | cons cb cbs ih =>
        intro c h
        exact ih (cb.run c) (cb.blockGain_run h)
  exact hrun bootControls (by decide)

end LoopbackLaw
