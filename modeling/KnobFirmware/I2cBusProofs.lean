import KnobFirmware.EspErrProofs
import Mathlib.Data.List.Basic

/-! # The I2C layer — error codes in a byte

    `i2c_bsp.c` stands between the drivers of the board and the I2C master
    driver.  Each of its functions waits for the bus, makes one transfer, and
    returns the `esp_err_t` that it got, in a `uint8_t`.

    `code` is what comes back of a reply and `reported` is what the driver said;
    they are the same exactly for the codes of one byte (`code_eq_iff`), which
    `ESP_FAIL` and every `ESP_ERR` constant are not.  A code whose low byte is 0
    even passes for `ESP_OK`.  For a function that returns at the first error of
    a chain of transfers the same holds of the first error (`firstError_eq_iff`). -/

namespace I2cBus

open EspErr

/-! ## The functions -/

/-- What the driver answers to a function of the layer: the results of
    `i2c_master_bus_wait_all_done` and of the transfer, and whether the device
    has taken a transfer that failed. -/
structure Reply where
  wait     : EspErr
  transfer : EspErr
  taken    : Bool
  deriving DecidableEq, Repr

/-- `i2c_master_transmit`, `i2c_master_receive`, `i2c_master_transmit_receive`. -/
inductive Transfer where
  | transmit (bytes : List UInt8)
  | receive (len : UInt8)
  | transmitReceive (bytes : List UInt8) (len : UInt8)
  deriving DecidableEq, Repr

/-- `esp_err_t` in a `uint8_t`. -/
def toByte (err : EspErr) : UInt8 := UInt8.ofInt err

/-- A `uint8_t` as an `esp_err_t`. -/
def ofByte (ret : UInt8) : EspErr := (ret.toNat : Int)

/-- The wait and the transfer, which is made only when the wait has succeeded:
    the byte returned, and the transfer made. -/
def afterWait (r : Reply) (t : Transfer) : UInt8 × Option Transfer :=
  let ret := toByte r.wait
  if ofByte ret ≠ espOk then (ret, none) else (toByte r.transfer, some t)

/-- `i2c_write_buff`; register -1 sends the buffer alone. -/
def i2cWriteBuff (r : Reply) (reg : Int) (buf : List UInt8) : UInt8 × Option Transfer :=
  afterWait r (if reg = -1 then .transmit buf else .transmit (UInt8.ofInt reg :: buf))

/-- `i2c_master_write_read_dev`. -/
def i2cMasterWriteReadDev (r : Reply) (writeBuf : List UInt8) (readLen : UInt8) :
    UInt8 × Option Transfer :=
  afterWait r (.transmitReceive writeBuf readLen)

/-- `i2c_read_buff`; register -1 reads without addressing one. -/
def i2cReadBuff (r : Reply) (reg : Int) (len : UInt8) : UInt8 × Option Transfer :=
  afterWait r (if reg = -1 then .receive len else .transmitReceive [UInt8.ofInt reg] len)

/-! ## What comes back of an error -/

/-- The error that the driver reports: that of the wait, or else that of the
    transfer. -/
def Reply.reported (r : Reply) : EspErr := if r.wait ≠ espOk then r.wait else r.transfer

/-- What the layer makes of it. -/
def Reply.code (r : Reply) : EspErr :=
  if ofByte (toByte r.wait) ≠ espOk then ofByte (toByte r.wait) else ofByte (toByte r.transfer)

/-- The transfer of `r` is made and reaches the device. -/
def Reply.Reaches (r : Reply) : Prop :=
  ofByte (toByte r.wait) = espOk ∧ (r.transfer = espOk ∨ r.taken = true)

instance (r : Reply) : Decidable r.Reaches := inferInstanceAs (Decidable (_ ∧ _))

/-- The values of a `uint8_t`. -/
def InByte (err : EspErr) : Prop := 0 ≤ err ∧ err ≤ 255

instance (err : EspErr) : Decidable (InByte err) := inferInstanceAs (Decidable (_ ∧ _))

section Codes

variable {r : Reply} {t : Transfer} {err : EspErr} {errs : List EspErr} {rs : List Reply}

theorem ofByte_toByte : ofByte (toByte err) = err % 256 := by
  have hlo : 0 ≤ err % 256 := Int.emod_nonneg err (by decide)
  have hhi : (err % 256).toNat < 256 :=
    (Int.toNat_lt hlo).mpr (Int.emod_lt_of_pos err (by decide))
  rw [ofByte, toByte, UInt8.ofInt, UInt8.toNat_ofNat']
  show (((err % 256).toNat % 256 : Nat) : Int) = err % 256
  rw [Nat.mod_eq_of_lt hhi]
  exact Int.toNat_of_nonneg hlo

theorem inByte_emod : InByte (err % 256) :=
  ⟨Int.emod_nonneg err (by decide), Int.le_of_lt_add_one (Int.emod_lt_of_pos err (by decide))⟩

theorem emod_of_inByte (h : InByte err) : err % 256 = err :=
  Int.emod_eq_of_lt h.1 (Int.lt_add_one_of_le h.2)

theorem ofByte_afterWait : ofByte (afterWait r t).1 = r.code := by
  rw [Reply.code, afterWait]
  by_cases hwait : ofByte (toByte r.wait) ≠ espOk
  · rw [if_pos hwait, if_pos hwait]
  · rw [if_neg hwait, if_neg hwait]

theorem inByte_code : InByte r.code := by
  rw [Reply.code, ofByte_toByte, ofByte_toByte]
  split <;> exact inByte_emod

/-- An error is lost altogether when all that was reported is divisible by 256. -/
theorem code_ok_iff : r.code = espOk ↔ r.wait % 256 = 0 ∧ r.transfer % 256 = 0 := by
  rw [Reply.code, ofByte_toByte, ofByte_toByte]
  by_cases hwait : r.wait % 256 = espOk
  · rw [if_neg (not_not_intro hwait)]
    exact (and_iff_right hwait).symm
  · rw [if_pos hwait]
    exact (iff_of_false hwait fun h => hwait h.1)

/-- **An error code comes back unchanged exactly when it fits in a byte.** -/
theorem code_eq_iff : r.code = r.reported ↔ InByte r.reported := by
  constructor
  · intro heq
    rw [← heq]
    exact inByte_code
  · intro hbyte
    rw [Reply.code, ofByte_toByte, ofByte_toByte]
    rw [Reply.reported] at hbyte ⊢
    by_cases hwait : r.wait = espOk
    · rw [if_neg (not_not_intro hwait)] at hbyte ⊢
      rw [hwait]
      exact emod_of_inByte hbyte
    · rw [if_pos hwait] at hbyte ⊢
      rw [emod_of_inByte hbyte, if_pos hwait]

/-- **The functions of the layer** return an error unchanged exactly when it fits
    in a byte. -/
theorem afterWait_eq_iff : ofByte (afterWait r t).1 = r.reported ↔ InByte r.reported := by
  rw [ofByte_afterWait]
  exact code_eq_iff

/-! ## Chains of transfers -/

theorem inByte_firstError (h : ∀ err ∈ errs, InByte err) : InByte (firstError errs) := by
  induction errs with
  | nil => exact ⟨Int.le_refl 0, by decide⟩
  | cons err errs ih =>
      rw [firstError]
      split
      · exact h err List.mem_cons_self
      · exact ih fun e he => h e (List.mem_cons_of_mem err he)

/-- **The first error of a chain comes back unchanged exactly when it fits in a
    byte**: the errors after it do not make up for one that is cut off or lost. -/
theorem firstError_eq_iff :
    firstError (rs.map Reply.code) = firstError (rs.map Reply.reported) ↔
      InByte (firstError (rs.map Reply.reported)) := by
  constructor
  · intro heq
    rw [← heq]
    refine inByte_firstError ?_
    intro err herr
    obtain ⟨r, _, rfl⟩ := List.mem_map.mp herr
    exact inByte_code
  · induction rs with
    | nil =>
        intro _
        rfl
    | cons r rs ih =>
        intro hbyte
        rw [List.map_cons, firstError] at hbyte ⊢
        rw [List.map_cons, firstError]
        by_cases hr : r.reported = espOk
        · rw [if_neg (not_not_intro hr)] at hbyte ⊢
          have hcode : r.code = espOk := by
            rw [code_eq_iff.mpr (by rw [hr]; decide), hr]
          rw [if_neg (not_not_intro hcode)]
          exact ih hbyte
        · rw [if_pos hr] at hbyte ⊢
          rw [code_eq_iff.mpr hbyte, if_pos hr]

end Codes

end I2cBus
