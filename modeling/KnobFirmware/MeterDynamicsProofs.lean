import KnobFirmware.MicBlockProofs
import KnobFirmware.PeakFollowerProofs
import Mathlib.Data.Int.ConditionallyCompleteOrder

/-! # The microphone meter over many blocks

    Each block that `mic_capture_task` analyses moves `mic_level_percent` by its
    attack and decay.  On levels from 0 to 100 the truncating division of the decay
    rounds down, so that the update is a peak follower (`meterFollower`): it neither
    dips below a block's level nor stands still above it.  `meter_dynamics` says
    so of the code's own sequence of published values. -/

namespace MeterDynamics

open CheckedInt MicBlock MicMeter PeakFollower

/-- The published variables after `n` blocks. -/
def published (start : Meter) (blocks : Nat → Analysis) : Nat → Meter
  | 0 => start
  | n + 1 => publish (blocks n) (published start blocks n)

/-- `mic_level_percent` after `n` blocks. -/
def levelAfter (start : Meter) (blocks : Nat → Analysis) (n : Nat) : Int :=
  (published start blocks n).micLevelPercent

/-- A level in percent. -/
abbrev Level := { v : Int // 0 ≤ v ∧ v ≤ 100 }

section Update

variable {old new : Int}

/-- Above the new level the decay is a division that rounds down. -/
theorem attackDecay_of_lt (h : new < old) (hnew : 0 ≤ new) :
    attackDecay old new = (old * 3 + new) / 4 := by
  have hsum : 0 ≤ old * 3 + new := by omega
  rw [attackDecay, if_neg (by omega), Int.tdiv_eq_ediv_of_nonneg hsum]

theorem attackDecay_mem (hold : 0 ≤ old ∧ old ≤ 100) (hnew : 0 ≤ new ∧ new ≤ 100) :
    0 ≤ attackDecay old new ∧ attackDecay old new ≤ 100 := by
  by_cases h : new < old
  · rw [attackDecay_of_lt h hnew.1]
    omega
  · rw [attackDecay, if_pos (by omega)]
    exact hnew

end Update

/-- The update of `mic_level_percent`, on levels. -/
def meterFollower : Follower Level where
  step := fun old new => ⟨attackDecay old.val new.val, attackDecay_mem old.property new.property⟩
  attack := by
    intro old new h
    exact Subtype.ext (if_pos h)
  falls := by
    intro old new h
    have hlt : new.val < old.val := h
    show attackDecay old.val new.val < old.val
    rw [attackDecay_of_lt hlt new.property.1]
    omega
  stays := by
    intro old new h
    have hlt : new.val < old.val := h
    show new.val ≤ attackDecay old.val new.val
    rw [attackDecay_of_lt hlt new.property.1]
    omega

/-- How far a level is above 0. -/
def levelRank (v : Level) : Nat := v.val.toNat

theorem levelRank_strictMono : StrictMono levelRank := by
  intro u v h
  have hlt : u.val < v.val := h
  have hlo : 0 ≤ u.val := u.property.1
  show u.val.toNat < v.val.toNat
  omega

/-- Every block that the worker analyses has a level in percent. -/
theorem newLevel_mem {samples : List Int16} {a : Analysis} (h : analyse samples = some a) :
    0 ≤ a.newLevel ∧ a.newLevel ≤ 100 := by
  simp only [analyse, Option.bind_eq_bind, Option.bind_eq_some_iff] at h
  obtain ⟨_, -, _, -, _, -, _, -, level, hlevel, heq⟩ := h
  rw [micLevelFromRms_eq] at hlevel
  obtain rfl := Option.some.inj hlevel
  obtain rfl := Option.some.inj heq
  exact levelOf_mem

section Blocks

variable {start : Meter} {blocks : Nat → Analysis}
  (hstart : 0 ≤ start.micLevelPercent ∧ start.micLevelPercent ≤ 100)
  (hblocks : ∀ n, 0 ≤ (blocks n).newLevel ∧ (blocks n).newLevel ≤ 100)

/-- **The published level is what the follower shows.** -/
theorem levelAfter_eq_shown (n : Nat) :
    levelAfter start blocks n =
      (meterFollower.shown ⟨start.micLevelPercent, hstart⟩
        (fun i => ⟨(blocks i).newLevel, hblocks i⟩) n).val := by
  induction n with
  | zero => rfl
  | succ n ih =>
      show attackDecay (levelAfter start blocks n) (blocks n).newLevel = _
      rw [ih]
      rfl

include hstart hblocks in
/-- **Meter dynamics.**  Over any blocks the published level stays in 0 to 100, is
    never below the last block's level, never above the larger of that and the
    level before, and comes down where it was above the block's level.  Over a
    stretch of blocks of one level `target` it is `target` from the block on that
    is as many blocks in as it was above, which is at most 100. -/
theorem meter_dynamics :
    (∀ n, 0 ≤ levelAfter start blocks n ∧ levelAfter start blocks n ≤ 100) ∧
    (∀ n, (blocks n).newLevel ≤ levelAfter start blocks (n + 1) ∧
      levelAfter start blocks (n + 1) ≤
        max (levelAfter start blocks n) (blocks n).newLevel ∧
      ((blocks n).newLevel < levelAfter start blocks n →
        levelAfter start blocks (n + 1) < levelAfter start blocks n)) ∧
    ∀ k len target, (∀ i, k ≤ i → i < k + len → (blocks i).newLevel = target) →
      ∀ j : Nat, 1 ≤ j → j ≤ len → levelAfter start blocks k ≤ target + j →
        levelAfter start blocks (k + j) = target := by
  have hshown : ∀ n, levelAfter start blocks n = _ := levelAfter_eq_shown hstart hblocks
  refine ⟨?_, ?_, ?_⟩
  · intro n
    rw [hshown n]
    exact (meterFollower.shown _ _ n).property
  · intro n
    rw [hshown n, hshown (n + 1)]
    refine ⟨input_le_shown (f := meterFollower), ?_, shown_lt (f := meterFollower)⟩
    rcases le_max_iff.mp (shown_le_max (f := meterFollower)) with hold | hnew
    · exact le_max_iff.mpr (.inl hold)
    · exact le_max_iff.mpr (.inr hnew)
  · intro k len target hinput j hj hlen hfar
    have htarget : 0 ≤ target ∧ target ≤ 100 := by
      rw [← hinput k (Nat.le_refl k) (by omega)]
      exact hblocks k
    have hsame : ∀ i, k ≤ i → i < k + len →
        (⟨(blocks i).newLevel, hblocks i⟩ : Level) = ⟨target, htarget⟩ := by
      intro i hi hi'
      exact Subtype.ext (hinput i hi hi')
    rw [hshown k] at hfar
    rw [hshown (k + j)]
    refine congrArg Subtype.val (shown_settles levelRank_strictMono hsame hj ?_ hlen)
    show Int.toNat _ ≤ target.toNat + j
    omega

end Blocks

/-- The state of the meter when the worker starts. -/
def meterAtStart : Meter where
  micLevelPercent := 0
  micRmsRaw := 0
  micDcRaw := 0
  micActiveSlot := 0
  micBlocksRead := 0

/-- A loud block, and then blocks of level 20. -/
def loudThenSteady (n : Nat) : Analysis where
  mean := fun _ => 0
  rms := fun _ => 0
  activeSlot := slotOf 0
  newLevel := if n = 0 then 90 else 20

/-- After the loud block the meter comes down to 20 in 70 blocks at most. -/
theorem meter_dynamics_at : levelAfter meterAtStart loudThenSteady 71 = 20 := by
  have hlevels : ∀ i, 0 ≤ (loudThenSteady i).newLevel ∧ (loudThenSteady i).newLevel ≤ 100 := by
    intro i
    rw [loudThenSteady]
    split <;> decide
  have hsteady : ∀ i, 1 ≤ i → i < 1 + 70 → (loudThenSteady i).newLevel = 20 := by
    intro i hi _
    exact if_neg (by omega)
  have hloud : levelAfter meterAtStart loudThenSteady 1 = 90 := rfl
  have hstart : 0 ≤ meterAtStart.micLevelPercent ∧ meterAtStart.micLevelPercent ≤ 100 :=
    ⟨by decide, by decide⟩
  exact (meter_dynamics hstart hlevels).2.2 1 70 20 hsteady 70 (by decide) (Nat.le_refl 70)
    (Int.le_of_eq hloud)

end MeterDynamics
