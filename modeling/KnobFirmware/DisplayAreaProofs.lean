import KnobFirmware.CheckedIntProofs
import KnobFirmware.GridBoxProofs
import Mathlib.Algebra.Ring.Int.Parity

/-! # The areas that go to the panel

    LVGL reports every area that has become invalid to `lvgl_rounder_event_cb`,
    which rounds its borders for the panel, and hands the rendered pixels of an
    area to `lvgl_flush_cb`, which swaps the bytes of each pixel and sends them.

    On the screen the rounder is the alignment to cells of two by two pixels
    (`lvglRounderEventCb_eq`), so that `rounder_is_closure` follows from the
    closure; `flush_rounded` is what the flush callback makes of its result. -/

namespace DisplayArea

open CheckedInt GridBox

/-! ## The code -/

def lcdHRes : Int := 360
def lcdVRes : Int := 360

/-- `lv_area_t`. -/
abbrev LvArea := Box

/-- `(v >> 1) << 1` of a `uint16_t`. -/
def evenBelow (v : UInt16) : Nat := (v.toNat >>> 1) <<< 1

/-- `lvgl_rounder_event_cb`. -/
def lvglRounderEventCb (area : LvArea) : LvArea :=
  let x1 := UInt16.ofInt area.x1
  let x2 := UInt16.ofInt area.x2
  let y1 := UInt16.ofInt area.y1
  let y2 := UInt16.ofInt area.y2
  { x1 := evenBelow x1
    y1 := evenBelow y1
    x2 := evenBelow x2 + 1
    y2 := evenBelow y2 + 1 }

/-- `pixel_count`, a product in `int` that is kept in a `uint32_t`. -/
def pixelCount (area : LvArea) : Option Nat := do
  let columns ← int32.check (area.x2 - area.x1)
  let columns ← int32.check (columns + 1)
  let rows ← int32.check (area.y2 - area.y1)
  let rows ← int32.check (rows + 1)
  let count ← int32.check (columns * rows)
  return (count % 2 ^ 32).toNat

/-- The two bytes of a pixel change places. -/
def swapPixel (p : UInt16) : UInt16 := (p >>> 8) ||| (p <<< 8)

/-- The loop over the pixels; `none` is an access past the end of the buffer. -/
def swapPixels : Nat → List UInt16 → Option (List UInt16)
  | 0, pixels => some pixels
  | _ + 1, [] => none
  | n + 1, p :: pixels => (swapPixels n pixels).map (swapPixel p :: ·)

/-- A call of `esp_lcd_panel_draw_bitmap`, whose window ends before `xEnd` and
    `yEnd`. -/
structure DrawBitmap where
  xStart : Int
  yStart : Int
  xEnd   : Int
  yEnd   : Int
  pixels : List UInt16
  deriving DecidableEq, Repr

/-- `lvgl_flush_cb`. -/
def lvglFlushCb (area : LvArea) (pxMap : List UInt16) : Option DrawBitmap := do
  let count ← pixelCount area
  let pixels ← swapPixels count pxMap
  let xEnd ← int32.check (area.x2 + 1)
  let yEnd ← int32.check (area.y2 + 1)
  return ⟨area.x1, area.y1, xEnd, yEnd, pixels⟩

/-! ## What it is for -/

/-- The whole screen. -/
def screen : LvArea := ⟨0, 0, lcdHRes - 1, lcdVRes - 1⟩

/-- A part of the screen, not empty. -/
def OnScreen (area : LvArea) : Prop :=
  (0 ≤ area.x1 ∧ area.x1 ≤ area.x2 ∧ area.x2 < lcdHRes) ∧
    0 ≤ area.y1 ∧ area.y1 ≤ area.y2 ∧ area.y2 < lcdVRes

/-- What the panel path requires. -/
def Aligned (area : LvArea) : Prop :=
  Even area.x1 ∧ Even area.y1 ∧ Odd area.x2 ∧ Odd area.y2

section Areas

variable {area : LvArea} {v : Int}

theorem onScreen_iff : OnScreen area ↔ area.Nonempty ∧ area ≤ screen := by
  rw [OnScreen, Box.Nonempty, le_iff, screen]
  dsimp only
  omega

theorem aligned_iff : Aligned area ↔ area.OnGrid 2 := by
  rw [Aligned, Box.OnGrid, Int.even_iff, Int.even_iff, Int.odd_iff, Int.odd_iff]
  omega

/-- On the screen the rounder is the alignment to cells of two by two. -/
theorem lvglRounderEventCb_eq (h : OnScreen area) : lvglRounderEventCb area = area.align 2 := by
  -- a coordinate on the screen survives the conversion
  have keeps : ∀ v : Int, 0 ≤ v → v < 360 → (evenBelow (UInt16.ofInt v) : Int) = v / 2 * 2 := by
    intro v hlo hhi
    have hsame : (UInt16.ofInt v).toNat = v.toNat := by
      rw [UInt16.ofInt, UInt16.toNat_ofNat']
      omega
    rw [evenBelow, hsame, Nat.shiftRight_eq_div_pow, Nat.shiftLeft_eq]
    omega
  obtain ⟨⟨hx1, hx, hx2⟩, hy1, hy, hy2⟩ := h
  rw [lcdHRes] at hx2
  rw [lcdVRes] at hy2
  have h1 := keeps area.x1 hx1 (by omega)
  have h2 := keeps area.y1 hy1 (by omega)
  have h3 := keeps area.x2 (by omega) hx2
  have h4 := keeps area.y2 (by omega) hy2
  refine Box.ext h1 h2 ?_ ?_
  · show (evenBelow (UInt16.ofInt area.x2) : Int) + 1 = (area.x2 / 2 + 1) * 2 - 1
    omega
  · show (evenBelow (UInt16.ofInt area.y2) : Int) + 1 = (area.y2 / 2 + 1) * 2 - 1
    omega

/-- **The rounder stays on the screen**, which is itself on the grid. -/
theorem onScreen_rounder (h : OnScreen area) : OnScreen (lvglRounderEventCb area) := by
  obtain ⟨hne, hle⟩ := onScreen_iff.mp h
  have hgrid : screen.OnGrid 2 := ⟨by decide, by decide, by decide, by decide⟩
  rw [lvglRounderEventCb_eq h]
  exact onScreen_iff.mpr ⟨hne.mono (le_align (by decide)), align_le (by decide) hle hgrid⟩

/-- **`pixel_count` is the number of pixels** of every area on the screen. -/
theorem pixelCount_eq (h : OnScreen area) : pixelCount area = some area.pixels.ncard := by
  obtain ⟨hne, -⟩ := onScreen_iff.mp h
  have hcard : (area.pixels.ncard : Int) = area.width * area.height := ncard_pixels hne
  obtain ⟨⟨hx1, hx, hx2⟩, hy1, hy, hy2⟩ := h
  rw [lcdHRes] at hx2
  rw [lcdVRes] at hy2
  have hw : area.x2 - area.x1 + 1 = area.width := rfl
  have hh : area.y2 - area.y1 + 1 = area.height := rfl
  have hw' : 0 ≤ area.width ∧ area.width ≤ 360 := by omega
  have hh' : 0 ≤ area.height ∧ area.height ≤ 360 := by omega
  have hlo : 0 ≤ area.width * area.height := Int.mul_nonneg hw'.1 hh'.1
  have hhi : area.width * area.height ≤ 360 * 360 :=
    Int.mul_le_mul hw'.2 hh'.2 hh'.1 (by decide)
  rw [pixelCount, check_of_fits (int32_fits.mpr (by omega)), Option.bind_eq_bind,
    Option.bind_some, hw, check_of_fits (int32_fits.mpr (by omega)), Option.bind_some,
    check_of_fits (int32_fits.mpr (by omega)), Option.bind_some, hh,
    check_of_fits (int32_fits.mpr (by omega)), Option.bind_some]
  generalize area.width * area.height = count at hcard hlo hhi
  rw [check_of_fits (int32_fits.mpr (by omega)), Option.bind_some]
  refine congrArg some ?_
  omega

end Areas

/-- **The rounder is an alignment closure inside the screen.**  It yields the
    smallest area with even first and odd last coordinates that contains the area,
    on the screen; it is idempotent and monotone; and the count of pixels that
    `lvgl_flush_cb` takes of its result is width times height, both even. -/
theorem rounder_is_closure {area : LvArea} (h : OnScreen area) :
    IsLeast {b | area.pixels ⊆ b.pixels ∧ Aligned b} (lvglRounderEventCb area) ∧
    OnScreen (lvglRounderEventCb area) ∧
    lvglRounderEventCb (lvglRounderEventCb area) = lvglRounderEventCb area ∧
    (∀ area', OnScreen area' → area.pixels ⊆ area'.pixels →
      (lvglRounderEventCb area).pixels ⊆ (lvglRounderEventCb area').pixels) ∧
    ∃ count, pixelCount (lvglRounderEventCb area) = some count ∧
      (count : Int) = (lvglRounderEventCb area).width * (lvglRounderEventCb area).height ∧
      Even (lvglRounderEventCb area).width ∧ Even (lvglRounderEventCb area).height := by
  have hne : area.Nonempty := (onScreen_iff.mp h).1
  have hon : OnScreen (lvglRounderEventCb area) := onScreen_rounder h
  have hne' : (lvglRounderEventCb area).Nonempty := (onScreen_iff.mp hon).1
  refine ⟨?_, hon, ?_, ?_, _, pixelCount_eq hon, ncard_pixels hne', ?_⟩
  · have hset : {b | area.pixels ⊆ b.pixels ∧ Aligned b} = {b | area ≤ b ∧ b.OnGrid 2} := by
      ext b
      exact and_congr (pixels_subset_iff hne) aligned_iff
    rw [hset, lvglRounderEventCb_eq h]
    exact align_isLeast (by decide)
  · rw [lvglRounderEventCb_eq hon, lvglRounderEventCb_eq h]
    exact align_align (by decide)
  · intro area' h' hsub
    rw [pixels_subset_iff hne', lvglRounderEventCb_eq h, lvglRounderEventCb_eq h']
    exact align_mono (by decide) ((pixels_subset_iff hne).mp hsub)
  · rw [lvglRounderEventCb_eq h, even_iff_two_dvd, even_iff_two_dvd]
    exact (onGrid_align (by decide)).dvd_size

/-- An area with an odd first and an even last column, at the lower right. -/
theorem rounder_is_closure_at :
    IsLeast {b | (⟨301, 350, 358, 359⟩ : LvArea).pixels ⊆ b.pixels ∧ Aligned b}
      ⟨300, 350, 359, 359⟩ := by
  have hon : OnScreen ⟨301, 350, 358, 359⟩ :=
    ⟨⟨by decide, by decide, by decide⟩, by decide, by decide, by decide⟩
  exact (rounder_is_closure hon).1

/-! ## The flush of a rounded area -/

section Flush

variable {area : LvArea} {n : Nat} {pixels : List UInt16}

theorem swapPixels_eq (h : n ≤ pixels.length) :
    swapPixels n pixels = some ((pixels.take n).map swapPixel ++ pixels.drop n) := by
  induction n generalizing pixels with
  | zero => rfl
  | succ n ih =>
      cases pixels with
      | nil => exact absurd h (Nat.not_succ_le_zero n)
      | cons p pixels =>
          have hrest := ih (Nat.le_of_succ_le_succ h)
          rw [swapPixels, hrest]
          rfl

/-- **The flush of a rounded area** swaps exactly its pixels and sends the window
    that holds them, when the buffer has room for the area. -/
theorem flush_rounded (h : OnScreen area)
    (hroom : (lvglRounderEventCb area).pixels.ncard ≤ pixels.length) :
    lvglFlushCb (lvglRounderEventCb area) pixels = some
      { xStart := (lvglRounderEventCb area).x1
        yStart := (lvglRounderEventCb area).y1
        xEnd := (lvglRounderEventCb area).x2 + 1
        yEnd := (lvglRounderEventCb area).y2 + 1
        pixels := (pixels.take (lvglRounderEventCb area).pixels.ncard).map swapPixel ++
          pixels.drop (lvglRounderEventCb area).pixels.ncard } := by
  have hon : OnScreen (lvglRounderEventCb area) := onScreen_rounder h
  obtain ⟨⟨hx1, hx, hx2⟩, hy1, hy, hy2⟩ := id hon
  rw [lcdHRes] at hx2
  rw [lcdVRes] at hy2
  rw [lvglFlushCb, pixelCount_eq hon, Option.bind_eq_bind, Option.bind_some,
    swapPixels_eq hroom, Option.bind_eq_bind, Option.bind_some,
    check_of_fits (int32_fits.mpr (by omega)), Option.bind_eq_bind, Option.bind_some,
    check_of_fits (int32_fits.mpr (by omega))]
  rfl

end Flush

end DisplayArea
