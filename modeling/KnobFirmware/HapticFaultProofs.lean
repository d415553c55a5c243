import KnobFirmware.Drv2605Proofs

/-! # The direct haptic test — one failing register access

    `drv2605_rtp_test` puts the device into real-time playback at the strongest
    amplitude, waits half a second and takes it out again.  Both the start and
    the stop are two register writes that give up at the first error.

    `rtpTest_regs` says what the test leaves in the registers, whatever the bus
    answers.  With one failing access the actuator is left driven in three cases:
    the write that was to clear the amplitude fails, so that the stop does not
    leave the mode either; the start fails at the amplitude, which an earlier
    playback has left in the register or which arrives all the same; or it fails
    at the mode in the same way.  The mode that the dumps and the last write
    leave is harmless. -/

namespace HapticFault

open EspErr I2cBus Drv2605

/-- The actuator is driven in real-time playback. -/
def Driven (d : Device) : Prop := d.regs regMode = 0x05 ∧ d.regs regRtpin ≠ 0

instance (d : Device) : Decidable (Driven d) := inferInstanceAs (Decidable (_ ∧ _))

/-! ## The states before the test -/

/-- A bus without faults. -/
def good : Reply := ⟨espOk, espOk, true⟩

/-- The haptic operations. -/
inductive HapticOp where
  | playEffect (effect : UInt8)
  | stop
  | rtpStart (amplitude : UInt8)
  | rtpStop
  | rtpTest
  deriving DecidableEq, Repr

def HapticOp.run (replies : Nat → Reply) (d : Device) : HapticOp → Device
  | .playEffect effect => (drv2605PlayEffect replies effect d).2
  | .stop => (drv2605Stop replies d).2
  | .rtpStart amplitude => (drv2605RtpStart replies amplitude d).2
  | .rtpStop => (drv2605RtpStop replies d).2
  | .rtpTest => drv2605RtpTest replies d

/-- The device after a successful `drv2605_init`, whatever was in its registers,
    and haptic operations without a fault. -/
inductive Reachable : Device → Prop where
  | init (replies : Nat → Reply) (regs : UInt8 → UInt8) :
      (drv2605Init replies ⟨true, regs, 0⟩).1 = espOk →
      Reachable (drv2605Init replies ⟨true, regs, 0⟩).2
  | op {d : Device} (op : HapticOp) : Reachable d → Reachable (op.run (fun _ => good) d)

/-! ## What the test leaves -/

section Test

variable {replies : Nat → Reply} {d : Device} {reg₁ reg₂ v₁ v₂ : UInt8}

/-- Two writes under `ESP_RETURN_ON_ERROR`, with the answers `a` and `b`. -/
theorem writeRegs_two {a b : Reply} (h : d.handle = true) (ha : replies d.done = a)
    (hb : replies (d.done + 1) = b) :
    writeRegs replies (fun d => (espOk, d)) [(reg₁, v₁), (reg₂, v₂)] d =
      if a.code ≠ espOk then
        (a.code, ⟨true, written a reg₁ v₁ d.regs, d.done + 1⟩)
      else if b.code ≠ espOk then
        (b.code, ⟨true, written b reg₂ v₂ (written a reg₁ v₁ d.regs), d.done + 2⟩)
      else (espOk, ⟨true, written b reg₂ v₂ (written a reg₁ v₁ d.regs), d.done + 2⟩) := by
  rw [writeRegs, writeReg_eq h, ha, returnOnError, h]
  by_cases hacode : a.code ≠ espOk
  · rw [if_pos hacode, if_pos hacode]
  · rw [if_neg hacode, if_neg hacode]
    show returnOnError (drv2605WriteReg replies reg₂ v₂ ⟨true, written a reg₁ v₁ d.regs, _⟩) _ = _
    rw [writeReg_eq rfl, hb, returnOnError]
    by_cases hbcode : b.code ≠ espOk
    · rw [if_pos hbcode, if_pos hbcode]
    · rw [if_neg hbcode, if_neg hbcode]
      rfl

/-- **The registers after the test**, by the answers to its four writes. -/
theorem rtpTest_regs {a b c e : Reply} (h : d.handle = true) (ha : replies (d.done + 5) = a)
    (hb : replies (d.done + 6) = b) (hc : replies (d.done + 12) = c)
    (he : replies (d.done + 13) = e) :
    (drv2605RtpTest replies d).regs =
      if a.code ≠ espOk then written a regMode 0x05 d.regs
      else if b.code ≠ espOk then
        written b regRtpin 0x7F (written a regMode 0x05 d.regs)
      else if c.code ≠ espOk then
        written c regRtpin 0x00 (written b regRtpin 0x7F (written a regMode 0x05 d.regs))
      else
        written e regMode 0x00
          (written c regRtpin 0x00 (written b regRtpin 0x7F (written a regMode 0x05 d.regs))) := by
  have hdump : (drv2605DumpRegisters replies d).2 = ⟨true, d.regs, d.done + 5⟩ := by
    rw [dump_eq h, h]
  have hstart := @writeRegs_two replies ⟨true, d.regs, d.done + 5⟩ regMode regRtpin 0x05 0x7F
    a b rfl ha hb
  rw [drv2605RtpTest]
  dsimp only
  rw [hdump, drv2605RtpStart, hstart]
  by_cases hacode : a.code = espOk
  · rw [if_neg (not_not_intro hacode), if_neg (not_not_intro hacode)]
    by_cases hbcode : b.code = espOk
    · rw [if_neg (not_not_intro hbcode), if_neg (not_not_intro hbcode)]
      generalize written b regRtpin 0x7F (written a regMode 0x05 d.regs) = regs
      have hdump' : (drv2605DumpRegisters replies ⟨true, regs, d.done + 7⟩).2 =
          ⟨true, regs, d.done + 12⟩ := dump_eq rfl
      have hstop := @writeRegs_two replies ⟨true, regs, d.done + 12⟩ regRtpin regMode 0x00 0x00
        c e rfl hc he
      show (drv2605DumpRegisters replies (drv2605RtpStop replies
        (drv2605DumpRegisters replies ⟨true, regs, d.done + 7⟩).2).2).2.regs = _
      rw [hdump', drv2605RtpStop, hstop]
      by_cases hccode : c.code = espOk
      · rw [if_neg (not_not_intro hccode), if_neg (not_not_intro hccode)]
        split <;> rw [dump_eq rfl]
      · rw [if_pos hccode, if_pos hccode, dump_eq rfl]
    · rw [if_pos hbcode, if_pos hbcode]
      exact if_pos hbcode ▸ rfl
  · rw [if_pos hacode, if_pos hacode]
    exact if_pos hacode ▸ rfl

end Test

/-! ## One fault -/

/-- Access `k` is answered by `r`, and every other without a fault. -/
def single (k : Nat) (r : Reply) : Nat → Reply := fun i => if i = k then r else good

/-- The answer `r` to access `k` of the test leaves the actuator driven.  Access 5
    is the start's write of the mode, access 6 its write of the amplitude, and
    access 12 the stop's write of the amplitude. -/
def Endangers (d : Device) (k : Nat) (r : Reply) : Prop :=
  r.code ≠ espOk ∧
    (k = 5 ∧ d.regs regRtpin ≠ 0 ∧ (r.Reaches ∨ d.regs regMode = 0x05) ∨
      k = 6 ∧ (r.Reaches ∨ d.regs regRtpin ≠ 0) ∨
      k = 12 ∧ ¬ r.Reaches)

instance (d : Device) (k : Nat) (r : Reply) : Decidable (Endangers d k r) :=
  inferInstanceAs (Decidable (_ ∧ _))

section Fault

variable {d : Device} {k : Nat} {r : Reply}

theorem single_at {j : Nat} :
    single (d.done + k) r (d.done + j) = if j = k then r else good := by
  rw [single]
  by_cases hj : j = k
  · rw [if_pos hj, if_pos (by rw [hj])]
  · rw [if_neg hj, if_neg fun heq => hj (Nat.add_left_cancel heq)]

theorem good_ok : ¬ good.code ≠ espOk := by decide

theorem good_reaches : good.Reaches := by decide

theorem rtpin_ne_mode : regRtpin ≠ regMode := by decide

/-- **The test with one fault** leaves the actuator driven in the three cases, and
    in no other. -/
theorem driven_iff (h : d.handle = true) :
    Driven (drv2605RtpTest (single (d.done + k) r) d) ↔ Endangers d k r := by
  have hregs := rtpTest_regs h (@single_at d k r 5) (@single_at d k r 6) (@single_at d k r 12)
    (@single_at d k r 13)
  have hne : regMode ≠ regRtpin := rtpin_ne_mode.symm
  rw [Driven, Endangers, hregs]
  by_cases h5 : k = 5
  · -- the start's write of the mode
    subst h5
    by_cases hcode : r.code = espOk
    · simp [hcode, good_ok, good_reaches, written_self]
    · by_cases hreach : r.Reaches
      · simp [hcode, hreach, written_self, written_of_ne, rtpin_ne_mode]
      · simp [hcode, hreach, written_self, written_of_ne, rtpin_ne_mode, and_comm]
  by_cases h6 : k = 6
  · -- the start's write of the amplitude
    subst h6
    by_cases hcode : r.code = espOk
    · simp [hcode, good_ok, good_reaches, written_self]
    · by_cases hreach : r.Reaches
      · simp [hcode, hreach, good_ok, good_reaches, written_self, written_of_ne, hne]
      · simp [hcode, hreach, good_ok, good_reaches, written_self, written_of_ne, hne,
          rtpin_ne_mode]
  by_cases h12 : k = 12
  · -- the stop's write of the amplitude
    subst h12
    by_cases hcode : r.code = espOk
    · simp [hcode, good_ok, good_reaches, written_self]
    · by_cases hreach : r.Reaches
      · simp [hcode, hreach, good_ok, good_reaches, written_self, written_of_ne, hne]
      · simp [hcode, hreach, good_ok, good_reaches, written_self, written_of_ne, hne]
  -- the stop clears the amplitude, whatever becomes of the mode
  simp [h5, h6, h12, Ne.symm h5, Ne.symm h6, Ne.symm h12, good_ok, good_reaches, written_self,
    written_of_ne, rtpin_ne_mode]

/-- The haptic operations keep the handle. -/
theorem op_handle {replies : Nat → Reply} (op : HapticOp) (h : d.handle = true) :
    (op.run replies d).handle = true := by
  have hcall (call : HapticCall) := (call.returns replies).handle d h
  cases op with
  | playEffect effect => exact hcall (.playEffect effect)
  | stop => exact hcall .stop
  | rtpStart amplitude => exact hcall (.rtpStart amplitude)
  | rtpStop => exact hcall .rtpStop
  | rtpTest =>
      have hstart := ((HapticCall.rtpStart 0x7F).returns replies).handle _
        (@dump_handle replies d h)
      show (drv2605RtpTest replies d).handle = true
      rw [drv2605RtpTest]
      dsimp only
      split
      · exact hstart
      · exact dump_handle ((HapticCall.rtpStop.returns replies).handle _ (dump_handle hstart))

theorem Reachable.handle (h : Reachable d) : d.handle = true := by
  induction h with
  | init replies regs _ => exact (HapticCall.init.returns replies).handle _ rfl
  | op op _ ih => exact op_handle op ih

/-- **The direct haptic test is safe against one fault exactly where the fault does
    not fall on three writes.**  From every state after a successful
    initialisation and haptic operations without a fault, and for every answer to
    one of the test's accesses, the actuator is not left in real-time playback
    with an amplitude, if and only if the answer is no error that comes back of
    the start's write of the mode (with an amplitude in the register, and the
    mode there or arriving), of the start's write of the amplitude (with one in
    the register or arriving) or of the stop's write of the amplitude (not
    arriving). -/
theorem rtp_test_safe_iff {d : Device} (h : Reachable d) (k : Nat) (r : Reply) :
    ¬ Driven (drv2605RtpTest (single (d.done + k) r) d) ↔ ¬ Endangers d k r :=
  not_congr (driven_iff h.handle)

/-- The device as `drv2605_init` leaves it on a bus without faults. -/
def initialised : Device := (drv2605Init (fun _ => good) newDevice).2

theorem reachable_initialised : Reachable initialised := .init (fun _ => good) (fun _ => 0) rfl

/-- A transfer that times out and does not arrive. -/
def timedOut : Reply := ⟨espOk, espErrTimeout, false⟩

/-- The last write of the stop fails: the mode stays, with no amplitude. -/
theorem rtp_test_safe_iff_at :
    ¬ Driven (drv2605RtpTest (single (initialised.done + 13) timedOut) initialised) :=
  (rtp_test_safe_iff reachable_initialised 13 timedOut).mpr (by decide)

/-- The write that is to clear the amplitude fails: the test returns with the
    actuator driven at the strongest amplitude. -/
theorem left_driven :
    Reachable initialised ∧
      Driven (drv2605RtpTest (single (initialised.done + 12) timedOut) initialised) :=
  ⟨reachable_initialised, by decide⟩

end Fault

end HapticFault
