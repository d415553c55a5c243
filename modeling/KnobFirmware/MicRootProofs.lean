import KnobFirmware.MicMeterProofs

/-! # The integer square root in 64-bit words

    `micIsqrtU64` checks every value against its type.  The code itself computes
    in words that wrap.  Here the second loop of `mic_isqrt_u64` is run in these
    words: at the head of every turn the words hold the numbers of the digit
    method, so that no sum wraps and no difference falls below 0, and the last
    head holds the root. -/

namespace MicRoot

open CheckedInt DigitRoot MicMeter

/-- The variables at the head of the second loop. -/
structure LoopHead where
  value  : UInt64
  result : UInt64
  bit    : UInt64
  deriving DecidableEq, Repr

/-- One turn of the second loop, in words. -/
def LoopHead.turn (s : LoopHead) : LoopHead :=
  if s.value ≥ s.result + s.bit then
    ⟨s.value - (s.result + s.bit), (s.result >>> 1) + s.bit, s.bit >>> 2⟩
  else ⟨s.value, s.result >>> 1, s.bit >>> 2⟩

/-- The heads that a call passes through. -/
inductive Passes (v : UInt64) : LoopHead → Prop where
  | enter : Passes v ⟨v, 0, UInt64.ofNat (shrinkBit v.toNat (1 <<< 62))⟩
  | turn {s : LoopHead} : Passes v s → s.bit ≠ 0 → Passes v s.turn

/-- The turn computes what it computes without a bound on the words: the trial
    and the result do not wrap, and what is subtracted is there. -/
structure Unwrapped (s : LoopHead) : Prop where
  trial  : (s.result + s.bit).toNat = s.result.toNat + s.bit.toNat
  rest   : s.value ≥ s.result + s.bit →
    (s.value - (s.result + s.bit)).toNat + (s.result.toNat + s.bit.toNat) = s.value.toNat
  result : ((s.result >>> 1) + s.bit).toNat = s.result.toNat / 2 + s.bit.toNat

/-- The words hold the numbers of the digit method, with `k` digits missing. -/
structure Holds (v k r : Nat) (s : LoopHead) : Prop where
  root   : RootAt 32 v k r
  value  : s.value.toNat = v - r * r
  result : s.result.toNat = r * 2 ^ k
  bit    : s.bit.toNat = bitAt k

section Turns

variable {v : UInt64} {n k r : Nat} {s : LoopHead}

theorem Holds.bit_eq_zero_iff (h : Holds n k r s) : s.bit = 0 ↔ k = 0 := by
  rw [← UInt64.toNat_inj, h.bit]
  cases k with
  | zero => exact iff_of_true rfl rfl
  | succ k => exact iff_of_false (Nat.ne_of_gt (Nat.pow_pos (by decide))) (Nat.succ_ne_zero k)

theorem Holds.half (h : Holds n (k + 1) r s) : (s.result >>> 1).toNat = r * 2 ^ k := by
  rw [UInt64.toNat_shiftRight, h.result]
  exact result_shift

theorem Holds.trial (h : Holds n (k + 1) r s) :
    (s.result + s.bit).toNat = r * 2 ^ (k + 1) + 4 ^ k := by
  rw [UInt64.toNat_add, h.result, h.bit]
  exact Nat.mod_eq_of_lt h.root.trial_lt

theorem Holds.grown (h : Holds n (k + 1) r s) :
    ((s.result >>> 1) + s.bit).toNat = r * 2 ^ k + 4 ^ k := by
  rw [UInt64.toNat_add, h.half, h.bit]
  exact Nat.mod_eq_of_lt h.root.result_lt

theorem Holds.unwrapped (h : Holds n (k + 1) r s) : Unwrapped s where
  trial := by
    rw [h.trial, h.result, h.bit]
    rfl
  rest := by
    intro hle
    have hrest : (s.result + s.bit).toNat ≤ s.value.toNat := UInt64.le_iff_toNat_le.mp hle
    rw [h.trial] at hrest
    rw [UInt64.toNat_sub_of_le _ _ hle, h.trial, h.result, h.bit]
    exact Nat.sub_add_cancel hrest
  result := by
    rw [h.grown, h.bit, ← h.half, UInt64.toNat_shiftRight]
    rfl

/-- The bit of the next digit. -/
theorem Holds.next_bit (h : Holds n (k + 1) r s) : (s.bit >>> 2).toNat = bitAt k := by
  rw [UInt64.toNat_shiftRight, h.bit]
  exact bitAt_shift k

/-- **One turn** finds one digit. -/
theorem Holds.turn (h : Holds n (k + 1) r s) : ∃ r', Holds n k r' s.turn := by
  have htest : s.value ≥ s.result + s.bit ↔ (r + 2 ^ k) * (r + 2 ^ k) ≤ n := by
    rw [ge_iff_le, UInt64.le_iff_toNat_le, h.trial, h.value]
    exact h.root.trial_le_iff
  rw [LoopHead.turn]
  by_cases hdigit : (r + 2 ^ k) * (r + 2 ^ k) ≤ n
  · have hle := htest.mpr hdigit
    rw [if_pos hle]
    refine ⟨r + 2 ^ k, h.root.one hdigit, ?_, ?_, h.next_bit⟩
    · show (s.value - (s.result + s.bit)).toNat = _
      rw [UInt64.toNat_sub_of_le _ _ hle, h.trial, h.value, Nat.sub_sub, ← square_add_digit]
    · show ((s.result >>> 1) + s.bit).toNat = _
      rw [h.grown, result_add_digit]
  · rw [if_neg (mt htest.mp hdigit)]
    exact ⟨r, h.root.zero (Nat.lt_of_not_le hdigit), h.value, h.half, h.next_bit⟩

/-- The first head. -/
theorem holds_enter (v : UInt64) :
    ∃ k, Holds v.toNat k 0 ⟨v, 0, UInt64.ofNat (shrinkBit v.toNat (1 <<< 62))⟩ := by
  obtain ⟨k, hk, hbit, hlt⟩ := shrinkBit_spec 32 (show v.toNat < 4 ^ 32 from v.toNat_lt)
  have hword : bitAt k < 2 ^ 64 := by
    cases k with
    | zero => decide
    | succ k =>
        have hle : 4 ^ k ≤ 4 ^ 31 := Nat.pow_le_pow_right (by decide) (Nat.le_of_succ_le_succ hk)
        exact hle.trans_lt (by decide)
  refine ⟨k, .start hk hlt, rfl, (Nat.zero_mul _).symm, ?_⟩
  show (UInt64.ofNat (shrinkBit v.toNat (bitAt 32))).toNat = bitAt k
  rw [hbit]
  exact UInt64.toNat_ofNat_of_lt' hword

/-- **Every head** holds the numbers of the digit method. -/
theorem Passes.holds (h : Passes v s) : ∃ k r, Holds v.toNat k r s := by
  induction h with
  | enter =>
      obtain ⟨k, hk⟩ := holds_enter v
      exact ⟨k, 0, hk⟩
  | turn _ hbit ih =>
      obtain ⟨k, r, hs⟩ := ih
      cases k with
      | zero => exact absurd (hs.bit_eq_zero_iff.mpr rfl) hbit
      | succ k =>
          obtain ⟨r', hr'⟩ := hs.turn
          exact ⟨k, r', hr'⟩

/-- The loop ends: from a head with `k` digits missing, `k` turns lead to the
    last one. -/
theorem Holds.ends (h : Holds v.toNat k r s) (hs : Passes v s) :
    ∃ s', Passes v s' ∧ s'.bit = 0 := by
  induction k generalizing r s with
  | zero => exact ⟨s, hs, h.bit_eq_zero_iff.mpr rfl⟩
  | succ k ih =>
      obtain ⟨r', hr'⟩ := h.turn
      exact ih hr' (hs.turn (mt h.bit_eq_zero_iff.mp (Nat.succ_ne_zero k)))

/-- The last head holds the root. -/
theorem Holds.last (h : Holds n k r s) (hbit : s.bit = 0) : s.result.toNat = Nat.sqrt n := by
  obtain rfl := h.bit_eq_zero_iff.mp hbit
  rw [h.result, h.root.sqrt_eq, Nat.pow_zero, Nat.mul_one]

end Turns

/-- **`mic_isqrt_u64` returns the root of every 64-bit value, rounded down.**
    The loop ends, no turn of it wraps a sum or subtracts more than there is,
    and the word that it ends with fits in the 32 bits of the result. -/
theorem mic_isqrt_exact (v : UInt64) :
    ∃ r : UInt32, micIsqrtU64 v.toNat = some r.toNat ∧
      r.toNat * r.toNat ≤ v.toNat ∧ v.toNat < (r.toNat + 1) * (r.toNat + 1) ∧
      (∃ s, Passes v s ∧ s.bit = 0) ∧
      ∀ s, Passes v s →
        (s.bit ≠ 0 → Unwrapped s) ∧
        (s.bit = 0 → s.result.toNat = r.toNat ∧ s.result.toUInt32 = r) := by
  have hroot : Nat.sqrt v.toNat < 2 ^ 32 := Nat.sqrt_lt'.mpr v.toNat_lt
  have hcast : (UInt32.ofNat (Nat.sqrt v.toNat)).toNat = Nat.sqrt v.toNat :=
    UInt32.toNat_ofNat_of_lt' hroot
  refine ⟨UInt32.ofNat (Nat.sqrt v.toNat), ?_, ?_, ?_, ?_, ?_⟩
  · rw [hcast]
    exact micIsqrtU64_eq v.toNat_lt
  · rw [hcast]
    exact Nat.sqrt_le v.toNat
  · rw [hcast]
    exact Nat.lt_succ_sqrt v.toNat
  · obtain ⟨k, hk⟩ := holds_enter v
    exact hk.ends .enter
  · intro s hs
    obtain ⟨k, r, hr⟩ := hs.holds
    constructor
    · intro hbit
      cases k with
      | zero => exact absurd (hr.bit_eq_zero_iff.mpr rfl) hbit
      | succ k => exact hr.unwrapped
    · intro hbit
      have hlast : s.result.toNat = Nat.sqrt v.toNat := hr.last hbit
      refine ⟨hlast.trans hcast.symm, ?_⟩
      rw [← UInt32.toNat_inj, UInt64.toNat_toUInt32, hlast, hcast]
      exact Nat.mod_eq_of_lt hroot

end MicRoot
