import KnobFirmware.I2cBusProofs
import Mathlib.Logic.Function.Basic

/-! # The DRV2605 driver — register accesses over the I2C layer

    Every function of the haptic driver is a sequence of register accesses.  Most
    of them return at the first error (`ESP_RETURN_ON_ERROR`); the dump of the
    registers goes on.  The device is here the values of its registers, and an
    access changes them when its transfer reaches the device, whatever the driver
    reports of it.

    `error_codes_kept_iff` follows an error from the I2C master driver to the
    callers of these functions. -/

namespace Drv2605

open EspErr I2cBus

/-! ## The registers -/

def regStatus     : UInt8 := 0x00
def regMode       : UInt8 := 0x01
def regRtpin      : UInt8 := 0x02
def regLibrary    : UInt8 := 0x03
def regWaveseq1   : UInt8 := 0x04
def regWaveseq2   : UInt8 := 0x05
def regGo         : UInt8 := 0x0C
def regOverdrive  : UInt8 := 0x0D
def regSustainpos : UInt8 := 0x0E
def regSustainneg : UInt8 := 0x0F
def regBreak      : UInt8 := 0x10
def regAudiomax   : UInt8 := 0x13
def regFeedback   : UInt8 := 0x1A
def regControl3   : UInt8 := 0x1D

/-- The device: whether `drv2605_dev_handle` has been created, the registers, and
    the number of accesses made so far, by which the bus answers. -/
structure Device where
  handle : Bool
  regs   : UInt8 → UInt8
  done   : Nat

/-- A transfer reaches the device; a transmission of two bytes is the write of a
    register. -/
def Device.take (d : Device) : Transfer → Device
  | .transmit [reg, value] => { d with regs := Function.update d.regs reg value }
  | _ => d

/-- The device after an access for which the transfer `sent` was made. -/
def Device.accessed (d : Device) (r : Reply) (sent : Option Transfer) : Device :=
  match sent with
  | none => { d with done := d.done + 1 }
  | some t =>
      if r.transfer = espOk ∨ r.taken = true then { d.take t with done := d.done + 1 }
      else { d with done := d.done + 1 }

/-! ## The functions -/

section Functions

variable (replies : Nat → Reply)

/-- `drv2605_write_reg`. -/
def drv2605WriteReg (reg value : UInt8) (d : Device) : EspErr × Device :=
  if d.handle = false then (espErrInvalidState, d)
  else
    let r := replies d.done
    let w := i2cWriteBuff r (reg.toNat : Int) [value]
    (ofByte w.1, d.accessed r w.2)

/-- `drv2605_read_reg` into a variable that holds `value`; no caller passes
    NULL. -/
def drv2605ReadReg (reg value : UInt8) (d : Device) : EspErr × UInt8 × Device :=
  if d.handle = false then (espErrInvalidState, value, d)
  else
    let r := replies d.done
    let w := i2cReadBuff r (reg.toNat : Int) 1
    (ofByte w.1, if w.2.isSome ∧ r.transfer = espOk then d.regs reg else value,
      d.accessed r w.2)

/-- `ESP_RETURN_ON_ERROR`. -/
def returnOnError (x : EspErr × Device) (next : Device → EspErr × Device) : EspErr × Device :=
  if x.1 ≠ espOk then x else next x.2

/-- Register writes, each under `ESP_RETURN_ON_ERROR`. -/
def writeRegs (next : Device → EspErr × Device) : List (UInt8 × UInt8) → Device → EspErr × Device
  | [], d => next d
  | (reg, value) :: rest, d =>
      returnOnError (drv2605WriteReg replies reg value d) (writeRegs next rest)

/-- A register read under `ESP_RETURN_ON_ERROR`. -/
def readThen (reg : UInt8) (next : UInt8 → Device → EspErr × Device) (d : Device) :
    EspErr × Device :=
  let r := drv2605ReadReg replies reg 0 d
  returnOnError (r.1, r.2.2) (next r.2.1)

/-- Register reads one after the other, whatever they return. -/
def readRegs : List UInt8 → Device → List (EspErr × UInt8) × Device
  | [], d => ([], d)
  | reg :: regs, d =>
      let r := drv2605ReadReg replies reg 0 d
      let rest := readRegs regs r.2.2
      ((r.1, r.2.1) :: rest.1, rest.2)

/-- `drv2605_dump_registers`, with the values that it logs when no read fails. -/
def drv2605DumpRegisters (d : Device) : Option (List UInt8) × Device :=
  let r := readRegs replies [regStatus, regMode, regRtpin, regFeedback, regControl3] d
  (if r.1.all (fun p => p.1 = espOk) then some (r.1.map Prod.snd) else none, r.2)

/-- The values that `drv2605_init` writes before it looks at the feedback. -/
def initWrites : List (UInt8 × UInt8) :=
  [(regMode, 0x00), (regRtpin, 0x00), (regLibrary, 0x01), (regWaveseq1, 1), (regWaveseq2, 0),
    (regOverdrive, 0), (regSustainpos, 0), (regSustainneg, 0), (regBreak, 0), (regAudiomax, 0x64)]

/-- `drv2605_init`. -/
def drv2605Init (d : Device) : EspErr × Device :=
  readThen replies regStatus
    (fun _ => writeRegs replies
      (readThen replies regFeedback fun feedback =>
        writeRegs replies
          (readThen replies regControl3 fun control3 =>
            writeRegs replies (fun d => (espOk, (drv2605DumpRegisters replies d).2))
              [(regControl3, control3 &&& ~~~0x20)])
          [(regFeedback, feedback ||| 0x80)])
      initWrites)
    d

/-- `drv2605_play_effect`. -/
def drv2605PlayEffect (effect : UInt8) : Device → EspErr × Device :=
  writeRegs replies (fun d => (espOk, d))
    [(regMode, 0x00), (regWaveseq1, effect), (regWaveseq2, 0), (regGo, 1)]

/-- `drv2605_stop`. -/
def drv2605Stop : Device → EspErr × Device := drv2605WriteReg replies regGo 0x00

/-- `drv2605_rtp_start`. -/
def drv2605RtpStart (amplitude : UInt8) : Device → EspErr × Device :=
  writeRegs replies (fun d => (espOk, d)) [(regMode, 0x05), (regRtpin, amplitude)]

/-- `drv2605_rtp_stop`. -/
def drv2605RtpStop : Device → EspErr × Device :=
  writeRegs replies (fun d => (espOk, d)) [(regRtpin, 0x00), (regMode, 0x00)]

/-- `drv2605_rtp_test`; the delay between start and stop makes no access. -/
def drv2605RtpTest (d : Device) : Device :=
  let d := (drv2605DumpRegisters replies d).2
  let started := drv2605RtpStart replies 0x7F d
  if started.1 ≠ espOk then started.2
  else
    let d := (drv2605DumpRegisters replies started.2).2
    (drv2605DumpRegisters replies (drv2605RtpStop replies d).2).2

end Functions

/-! ## One access -/

/-- The registers after the write of one, with the answer `r`. -/
def written (r : Reply) (reg value : UInt8) (regs : UInt8 → UInt8) : UInt8 → UInt8 :=
  if r.Reaches then Function.update regs reg value else regs

section Access

variable {replies : Nat → Reply} {reg value : UInt8} {d : Device} {r : Reply}
  {regs : UInt8 → UInt8}

theorem written_self : written r reg value regs reg = if r.Reaches then value else regs reg := by
  rw [written]
  split
  · exact Function.update_self ..
  · rfl

theorem written_of_ne {other : UInt8} (hne : other ≠ reg) :
    written r reg value regs other = regs other := by
  rw [written]
  split
  · exact Function.update_of_ne hne ..
  · rfl

theorem ofInt_toNat : UInt8.ofInt (reg.toNat : Int) = reg := by
  rw [UInt8.ofInt, Int.emod_eq_of_lt (Int.natCast_nonneg _) (by exact_mod_cast reg.toNat_lt),
    Int.toNat_natCast, UInt8.ofNat_toNat]

theorem reg_ne : (reg.toNat : Int) ≠ -1 := by
  have hnonneg : (0 : Int) ≤ reg.toNat := Int.natCast_nonneg _
  omega

/-- The device after a write, by whether it has reached the device. -/
theorem writeReg_eq (h : d.handle = true) :
    drv2605WriteReg replies reg value d = ((replies d.done).code,
      { d with regs := written (replies d.done) reg value d.regs, done := d.done + 1 }) := by
  have hhandle : ¬ d.handle = false := by rw [h]; decide
  rw [drv2605WriteReg, if_neg hhandle]
  refine Prod.ext ofByte_afterWait ?_
  show d.accessed _ (i2cWriteBuff _ _ _).2 = _
  rw [i2cWriteBuff, if_neg reg_ne, ofInt_toNat, afterWait, written]
  generalize replies d.done = r
  by_cases hwait : ofByte (toByte r.wait) = espOk
  · rw [if_neg (not_not_intro hwait)]
    by_cases htaken : r.transfer = espOk ∨ r.taken = true
    · rw [if_pos (show r.Reaches from ⟨hwait, htaken⟩)]
      exact if_pos htaken
    · rw [if_neg (show ¬ r.Reaches from fun hreach => htaken hreach.2)]
      exact if_neg htaken
  · rw [if_pos hwait, if_neg (show ¬ r.Reaches from fun hreach => hwait hreach.1)]
    rfl

/-- A read leaves the registers as they are. -/
theorem readReg_eq (h : d.handle = true) :
    (drv2605ReadReg replies reg value d).1 = (replies d.done).code ∧
      (drv2605ReadReg replies reg value d).2.2 = { d with done := d.done + 1 } := by
  have hhandle : ¬ d.handle = false := by rw [h]; decide
  rw [drv2605ReadReg, if_neg hhandle]
  refine ⟨ofByte_afterWait, ?_⟩
  show d.accessed _ (i2cReadBuff _ _ _).2 = _
  rw [i2cReadBuff, if_neg reg_ne, afterWait]
  split
  · rfl
  · exact ite_self _

/-- The dump leaves everything as it is. -/
theorem dump_eq (h : d.handle = true) :
    (drv2605DumpRegisters replies d).2 = { d with done := d.done + 5 } := by
  have hreads : ∀ (regs : List UInt8) (d : Device), d.handle = true →
      (readRegs replies regs d).2 = { d with done := d.done + regs.length } := by
    intro regs
    induction regs with
    | nil =>
        intro d _
        rfl
    | cons reg regs ih =>
        intro d hd
        show (readRegs replies regs (drv2605ReadReg replies reg 0 d).2.2).2 = _
        rw [(readReg_eq hd).2, ih { d with done := d.done + 1 } hd, List.length_cons, Nat.add_assoc,
          Nat.add_comm 1]
  exact hreads _ d h

theorem dump_handle (h : d.handle = true) : (drv2605DumpRegisters replies d).2.handle = true := by
  rw [dump_eq h]
  exact h

end Access

/-! ## Chains of accesses -/

/-- The replies to `n` accesses from access `k` on. -/
def answers (replies : Nat → Reply) (k n : Nat) : List Reply := (List.range' k n).map replies

/-- `f` makes `n` accesses under `ESP_RETURN_ON_ERROR` and returns the first error
    that comes back; the handle stays. -/
structure Returns (replies : Nat → Reply) (n : Nat) (f : Device → EspErr × Device) : Prop where
  err    : ∀ d, d.handle = true →
    (f d).1 = firstError ((answers replies d.done n).map Reply.code)
  handle : ∀ d, d.handle = true → (f d).2.handle = true

section Chain

variable {replies : Nat → Reply} {reg value : UInt8} {n : Nat} {f : Device → EspErr × Device}

theorem answers_succ {k : Nat} :
    answers replies k (n + 1) = replies k :: answers replies (k + 1) n :=
  rfl

/-- Whatever is done after the last access. -/
theorem Returns.ok {g : Device → Device} (hg : ∀ d, d.handle = true → (g d).handle = true) :
    Returns replies 0 fun d => (espOk, g d) where
  err _ _ := rfl
  handle d h := hg d h

/-- **One more access in front.**  `x` is the access: it returns what comes back
    of the next answer and leaves a device with one access more. -/
theorem Returns.cons {x : Device → EspErr × Device} (hf : Returns replies n f)
    (hx : ∀ d, d.handle = true → (x d).1 = (replies d.done).code ∧
      (x d).2.handle = true ∧ (x d).2.done = d.done + 1) :
    Returns replies (n + 1) fun d => returnOnError (x d) f where
  err := by
    intro d h
    obtain ⟨hcode, hhandle, hdone⟩ := hx d h
    rw [answers_succ, List.map_cons, firstError, ← hcode]
    show (returnOnError (x d) f).1 = _
    rw [returnOnError]
    by_cases herr : (x d).1 = espOk
    · rw [if_neg (not_not_intro herr), if_neg (not_not_intro herr), hf.err _ hhandle, hdone]
    · rw [if_pos herr, if_pos herr]
  handle := by
    intro d h
    obtain ⟨-, hhandle, -⟩ := hx d h
    show (returnOnError (x d) f).2.handle = true
    rw [returnOnError]
    split
    · exact hhandle
    · exact hf.handle _ hhandle

theorem writeReg_access {d : Device} (h : d.handle = true) :
    (drv2605WriteReg replies reg value d).1 = (replies d.done).code ∧
      (drv2605WriteReg replies reg value d).2.handle = true ∧
      (drv2605WriteReg replies reg value d).2.done = d.done + 1 := by
  rw [writeReg_eq h]
  exact ⟨rfl, h, rfl⟩

theorem Returns.writes (hf : Returns replies n f) :
    ∀ pairs : List (UInt8 × UInt8),
      Returns replies (n + pairs.length) (writeRegs replies f pairs) := by
  intro pairs
  induction pairs with
  | nil => exact hf
  | cons p rest ih => exact ih.cons fun _ => writeReg_access

/-- Writes and nothing after them. -/
theorem Returns.writesOnly (pairs : List (UInt8 × UInt8)) :
    Returns replies pairs.length (writeRegs replies (fun d => (espOk, d)) pairs) := by
  have hwrites := (@Returns.ok replies id fun _ h => h).writes pairs
  rwa [Nat.zero_add] at hwrites

theorem Returns.read {next : UInt8 → Device → EspErr × Device}
    (hnext : ∀ v, Returns replies n (next v)) :
    Returns replies (n + 1) (readThen replies reg next) := by
  -- the value that is read takes no part in the errors
  have hread : ∀ v, Returns replies (n + 1) fun d =>
      returnOnError ((drv2605ReadReg replies reg 0 d).1, (drv2605ReadReg replies reg 0 d).2.2)
        (next v) := by
    intro v
    refine (hnext v).cons ?_
    intro d h
    obtain ⟨hcode, hdevice⟩ := @readReg_eq replies reg 0 d h
    exact ⟨hcode, by rw [hdevice]; exact h, by rw [hdevice]⟩
  constructor
  · intro d h
    exact (hread _).err d h
  · intro d h
    exact (hread _).handle d h

end Chain

/-! ## The error codes -/

/-- The functions that return the result of their accesses. -/
inductive HapticCall where
  | init
  | playEffect (effect : UInt8)
  | stop
  | rtpStart (amplitude : UInt8)
  | rtpStop
  deriving DecidableEq, Repr

def HapticCall.run (replies : Nat → Reply) : HapticCall → Device → EspErr × Device
  | .init => drv2605Init replies
  | .playEffect effect => drv2605PlayEffect replies effect
  | .stop => drv2605Stop replies
  | .rtpStart amplitude => drv2605RtpStart replies amplitude
  | .rtpStop => drv2605RtpStop replies

/-- The accesses whose results a function returns. -/
def HapticCall.accesses : HapticCall → Nat
  | .init => 15
  | .playEffect _ => 4
  | .stop => 1
  | .rtpStart _ => 2
  | .rtpStop => 2

theorem firstError_one {err : EspErr} : firstError [err] = err := by
  rw [firstError]
  by_cases herr : err = espOk
  · rw [if_neg (not_not_intro herr), herr]
    rfl
  · rw [if_pos herr]

/-- **Every function returns the first error that comes back of its accesses.** -/
theorem HapticCall.returns (replies : Nat → Reply) (call : HapticCall) :
    Returns replies call.accesses (call.run replies) := by
  cases call with
  | init =>
      have hcontrol3 (v : UInt8) := Returns.writes
        (@Returns.ok replies (fun d => (drv2605DumpRegisters replies d).2) fun _ => dump_handle)
        [(regControl3, v)]
      have hfeedback (v : UInt8) := Returns.writes
        (@Returns.read replies regControl3 _ _ fun control3 => hcontrol3 (control3 &&& ~~~0x20))
        [(regFeedback, v)]
      have hinit := Returns.writes
        (@Returns.read replies regFeedback _ _ fun feedback => hfeedback (feedback ||| 0x80))
        initWrites
      exact @Returns.read replies regStatus _ _ fun _ => hinit
  | stop =>
      constructor
      · intro d h
        exact (writeReg_access h).1.trans firstError_one.symm
      · intro d h
        exact (writeReg_access h).2.1
  | playEffect effect =>
      exact Returns.writesOnly
        [(regMode, 0x00), (regWaveseq1, effect), (regWaveseq2, 0), (regGo, 1)]
  | rtpStart amplitude => exact Returns.writesOnly [(regMode, 0x05), (regRtpin, amplitude)]
  | rtpStop => exact Returns.writesOnly [(regRtpin, 0x00), (regMode, 0x00)]

/-- **Error codes survive the I2C layer exactly when they fit in a byte.**
    Whatever the driver answers: a function of the I2C layer and a register
    access return the error that the driver reports, and a function of the haptic
    driver the first one reported to its accesses (`ESP_OK` where none is), if and
    only if that error is between 0 and 255. -/
theorem error_codes_kept_iff (r : Reply) (replies : Nat → Reply) {d : Device}
    (h : d.handle = true) :
    (∀ (reg : Int) (buf : List UInt8),
      ofByte (i2cWriteBuff r reg buf).1 = r.reported ↔ InByte r.reported) ∧
    (∀ (reg : Int) (len : UInt8),
      ofByte (i2cReadBuff r reg len).1 = r.reported ↔ InByte r.reported) ∧
    (∀ reg value, (drv2605WriteReg replies reg value d).1 = (replies d.done).reported ↔
      InByte (replies d.done).reported) ∧
    (∀ reg value, (drv2605ReadReg replies reg value d).1 = (replies d.done).reported ↔
      InByte (replies d.done).reported) ∧
    ∀ call : HapticCall,
      (call.run replies d).1 =
          firstError ((answers replies d.done call.accesses).map Reply.reported) ↔
        InByte (firstError ((answers replies d.done call.accesses).map Reply.reported)) := by
  refine ⟨fun _ _ => afterWait_eq_iff, fun _ _ => afterWait_eq_iff, ?_, ?_, ?_⟩
  · intro reg value
    rw [writeReg_eq h]
    exact code_eq_iff
  · intro reg value
    rw [(readReg_eq h).1]
    exact code_eq_iff
  · intro call
    rw [(call.returns replies).err d h]
    exact firstError_eq_iff

/-- The device after `i2c_master_Init`. -/
def newDevice : Device := ⟨true, fun _ => 0, 0⟩

/-- A start of real-time playback on a bus that works. -/
theorem error_codes_kept_iff_at :
    (HapticCall.run (fun _ => ⟨espOk, espOk, true⟩) (.rtpStart 0x7F) newDevice).1 = espOk := by
  have hkept := error_codes_kept_iff ⟨espOk, espOk, true⟩ (fun _ => ⟨espOk, espOk, true⟩)
    (show newDevice.handle = true from rfl)
  exact (hkept.2.2.2.2 (.rtpStart 0x7F)).mpr (by decide)

/-- A transfer that times out: the byte that is left of the error is no error
    code that the driver has. -/
theorem timeout_not_kept :
    ofByte (i2cWriteBuff ⟨espOk, espErrTimeout, false⟩ 0x01 [0x05]).1 = 0x07 ∧
      (drv2605WriteReg (fun _ => ⟨espOk, espErrTimeout, false⟩) regMode 0x05 newDevice).1 ≠
        espErrTimeout := by
  decide

end Drv2605
