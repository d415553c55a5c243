import KnobFirmware.AudioTaskProofs
import KnobFirmware.DisplayAreaProofs
import KnobFirmware.I2cBusProofs

/-! # Touch input — from the register block to an LVGL point

    `tpGetCoordinates` reads seven registers of the touch controller and decodes
    two coordinates of twelve bits; `lvgl_touch_cb` mirrors them, because the
    panel is mounted upside down, and clamps the result.

    The clamp looks at the upper end alone, which the mirrored coordinates cannot
    exceed; a coordinate beyond the panel makes them negative.  `touch_mapping_iff`
    says for which register blocks the point reported is a point of the display. -/

namespace TouchMap

open AudioTask (MenuId)
open CheckedInt DisplayArea EspErr I2cBus

/-! ## The code -/

/-- Seven bytes, by their index. -/
abbrev Block := Fin 7 → UInt8

/-- `data` after `i2c_read_buff`, whose result is ignored: the registers, or the
    zeros it is initialised with. -/
def received (r : Reply) (regs : Block) : Block :=
  if (i2cReadBuff r 0x00 7).2.isSome ∧ r.transfer = espOk then regs else fun _ => 0

/-- A coordinate: the low four bits of one byte and all of the next. -/
def coordinate (high low : UInt8) : UInt16 := ((high &&& 0x0f).toUInt16 <<< 8) + low.toUInt16

/-- `tpGetCoordinates`; `none` is the return of 0. -/
def tpGetCoordinates (r : Reply) (regs : Block) : Option (UInt16 × UInt16) :=
  let data := received r regs
  if data 2 ≠ 0 then some (coordinate (data 3) (data 4), coordinate (data 5) (data 6)) else none

/-- `lv_point_t`, with coordinates of 32 bits. -/
structure LvPoint where
  x : Int
  y : Int
  deriving DecidableEq, Repr

/-- `lv_indev_state_t`. -/
inductive IndevState where
  | released
  | pressed
  deriving DecidableEq, Repr

/-- `lv_indev_data_t`. -/
structure IndevData where
  point : LvPoint
  state : IndevState
  deriving DecidableEq, Repr

/-- What the callback sees of the page: `current_menu`, and the text of
    `touch_test_label` when that is not NULL. -/
structure TouchPage where
  currentMenu    : MenuId
  touchTestLabel : Option String
  deriving DecidableEq, Repr

/-- A text for the diagnostic label, where the page has one. -/
def TouchPage.setText (page : TouchPage) (text : String) : TouchPage :=
  if page.currentMenu = .hwTouch ∧ page.touchTestLabel ≠ none then
    { page with touchTestLabel := some text }
  else page

/-- The point for a touch. -/
def touchPoint (tpX tpY : UInt16) : LvPoint :=
  let x := (lcdHRes - 1) - (tpX.toNat : Int)
  let y := (lcdVRes - 1) - (tpY.toNat : Int)
  { x := if x ≥ lcdHRes then lcdHRes - 1 else x
    y := if y ≥ lcdVRes then lcdVRes - 1 else y }

/-- `lvgl_touch_cb`. -/
def lvglTouchCb (r : Reply) (regs : Block) (data : IndevData) (page : TouchPage) :
    IndevData × TouchPage :=
  match tpGetCoordinates r regs with
  | some (tpX, tpY) =>
      let point := touchPoint tpX tpY
      ({ data with point := point, state := .pressed },
        page.setText ("X: " ++ toString point.x ++ "   Y: " ++ toString point.y ++ "\nPressed"))
  | none => ({ data with state := .released }, page.setText "Released")

/-! ## What is decoded -/

/-- The twelve bits in two bytes. -/
def twelveBits (high low : UInt8) : Int := high.toNat % 16 * 256 + low.toNat

/-- The touched column and row, as the block has them. -/
def column (data : Block) : Int := twelveBits (data 3) (data 4)
def row (data : Block) : Int := twelveBits (data 5) (data 6)

/-- Both coordinates are on the panel. -/
def OnPanel (data : Block) : Prop := column data < lcdHRes ∧ row data < lcdVRes

/-- What `lvgl_touch_cb` is to report of a block: pressed where byte 2 is not 0,
    and then a point of the display, which is the touched point turned by 180
    degrees when that is on the panel. -/
def Mapped (data : Block) (res : IndevData) : Prop :=
  (res.state = .pressed ↔ data 2 ≠ 0) ∧
    (res.state = .pressed →
      (0 ≤ res.point.x ∧ res.point.x < lcdHRes) ∧ (0 ≤ res.point.y ∧ res.point.y < lcdVRes) ∧
        (OnPanel data →
          res.point = ⟨lcdHRes - 1 - column data, lcdVRes - 1 - row data⟩))

section Decoding

variable {high low : UInt8} {r : Reply} {regs : Block} {data : IndevData} {page : TouchPage}

theorem twelveBits_nonneg : 0 ≤ twelveBits high low := by
  rw [twelveBits]
  omega

/-- The decoding in 16 bits loses nothing. -/
theorem coordinate_toNat : ((coordinate high low).toNat : Int) = twelveBits high low := by
  have hhigh : high.toNat % 16 < 16 := Nat.mod_lt _ (by decide)
  have hlow : low.toNat < 256 := low.toNat_lt
  have hnibble : (high &&& 0x0f).toNat = high.toNat % 16 := by
    rw [UInt8.toNat_and]
    exact Nat.and_two_pow_sub_one_eq_mod high.toNat 4
  have hshift : ((high &&& 0x0f).toUInt16 <<< 8).toNat = high.toNat % 16 * 256 := by
    rw [UInt16.toNat_shiftLeft, UInt8.toNat_toUInt16, hnibble, Nat.shiftLeft_eq]
    show high.toNat % 16 * 2 ^ 8 % 65536 = high.toNat % 16 * 256
    omega
  rw [coordinate, UInt16.toNat_add, hshift, UInt8.toNat_toUInt16, twelveBits]
  omega

/-- The mirrored coordinates are below the upper end, so that the clamp never
    acts. -/
theorem touchPoint_eq {tpX tpY : UInt16} :
    touchPoint tpX tpY = ⟨lcdHRes - 1 - (tpX.toNat : Int), lcdVRes - 1 - (tpY.toNat : Int)⟩ := by
  have hx : ¬ lcdHRes - 1 - (tpX.toNat : Int) ≥ lcdHRes := by omega
  have hy : ¬ lcdVRes - 1 - (tpY.toNat : Int) ≥ lcdVRes := by omega
  rw [touchPoint, if_neg hx, if_neg hy]

theorem lvglTouchCb_released (h : received r regs 2 = 0) :
    (lvglTouchCb r regs data page).1 = { data with state := .released } := by
  rw [lvglTouchCb, tpGetCoordinates]
  dsimp only
  rw [if_neg (not_not_intro h)]

theorem lvglTouchCb_pressed (h : received r regs 2 ≠ 0) :
    (lvglTouchCb r regs data page).1 =
      ⟨⟨lcdHRes - 1 - column (received r regs), lcdVRes - 1 - row (received r regs)⟩,
        .pressed⟩ := by
  rw [lvglTouchCb, tpGetCoordinates]
  dsimp only
  rw [if_pos h]
  dsimp only
  rw [touchPoint_eq, coordinate_toNat, coordinate_toNat]
  rfl

/-- **The touch mapping.**  The callback reports what it is to report of a block
    exactly when nothing is touched or both coordinates are on the panel. -/
theorem touch_mapping_iff (r : Reply) (regs : Block) (data : IndevData) (page : TouchPage) :
    Mapped (received r regs) (lvglTouchCb r regs data page).1 ↔
      received r regs 2 = 0 ∨ OnPanel (received r regs) := by
  by_cases htouched : received r regs 2 = 0
  · refine iff_of_true ?_ (.inl htouched)
    rw [lvglTouchCb_released htouched]
    constructor
    · exact iff_of_false (by simp) (not_not_intro htouched)
    · intro hpressed
      exact absurd hpressed (by simp)
  · rw [lvglTouchCb_pressed htouched, or_iff_right htouched]
    have hcolumn : 0 ≤ column (received r regs) := twelveBits_nonneg
    have hrow : 0 ≤ row (received r regs) := twelveBits_nonneg
    constructor
    · intro hmapped
      obtain ⟨⟨hx, -⟩, ⟨hy, -⟩, -⟩ := hmapped.2 rfl
      have hx' : 0 ≤ lcdHRes - 1 - column (received r regs) := hx
      have hy' : 0 ≤ lcdVRes - 1 - row (received r regs) := hy
      constructor
      · omega
      · omega
    · rintro ⟨hx, hy⟩
      refine ⟨iff_of_true rfl htouched, fun _ => ⟨?_, ?_, fun _ => rfl⟩⟩
      · show 0 ≤ lcdHRes - 1 - column (received r regs) ∧
          lcdHRes - 1 - column (received r regs) < lcdHRes
        omega
      · show 0 ≤ lcdVRes - 1 - row (received r regs) ∧
          lcdVRes - 1 - row (received r regs) < lcdVRes
        omega

/-- The page shows the point that is reported. -/
theorem shown_point (hpage : page.currentMenu = .hwTouch) (hlabel : page.touchTestLabel ≠ none)
    (h : (lvglTouchCb r regs data page).1.state = .pressed) :
    (lvglTouchCb r regs data page).2.touchTestLabel =
      some ("X: " ++ toString (lvglTouchCb r regs data page).1.point.x ++ "   Y: " ++
        toString (lvglTouchCb r regs data page).1.point.y ++ "\nPressed") := by
  have htext : ∀ text, (page.setText text).touchTestLabel = some text := by
    intro text
    rw [TouchPage.setText, if_pos ⟨hpage, hlabel⟩]
  rw [lvglTouchCb] at h ⊢
  cases htouch : tpGetCoordinates r regs with
  | none =>
      rw [htouch] at h
      exact absurd h (by simp)
  | some p => exact htext _

end Decoding

/-- Column 360 is one beyond the panel: the point reported has column -1. -/
theorem beyond_panel_not_mapped :
    ¬ ∀ r regs data page, Mapped (received r regs) (lvglTouchCb r regs data page).1 := by
  intro hall
  have hmapped := hall ⟨espOk, espOk, false⟩ (fun i => if i = 4 then 0x68 else 1)
    ⟨⟨0, 0⟩, .released⟩ ⟨.hwTouch, none⟩
  obtain ⟨⟨hx, -⟩, -⟩ := hmapped.2 rfl
  exact absurd hx (by decide)

end TouchMap
