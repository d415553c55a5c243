import Mathlib.Data.Finset.Prod
import Mathlib.Data.Int.Interval
import Mathlib.Data.Set.Card
import Mathlib.Order.Closure

/-! # Boxes on a grid — the alignment of a rectangle as a closure

    A box is a rectangle of pixels, given by its first and its last column and
    row.  Boxes are ordered by inclusion (`pixels_subset_iff`).

    A box is on the grid of cells of `m` by `m` pixels when it begins and ends at
    borders of cells.  `align` moves the borders of a box outward to the next
    ones.  It is a closure (`alignClosure`): the aligned box is the least one on
    the grid that contains the box (`align_isLeast`), so that alignment is
    monotone and idempotent, and does not leave a box on the grid
    (`align_le`). -/

namespace GridBox

/-! ## Boxes -/

@[ext] structure Box where
  x1 : Int
  y1 : Int
  x2 : Int
  y2 : Int
  deriving DecidableEq, Repr

/-- Inclusion, border by border. -/
instance : PartialOrder Box where
  le a b := b.x1 ≤ a.x1 ∧ b.y1 ≤ a.y1 ∧ a.x2 ≤ b.x2 ∧ a.y2 ≤ b.y2
  le_refl a := ⟨le_refl a.x1, le_refl a.y1, le_refl a.x2, le_refl a.y2⟩
  le_trans a b c h h' :=
    ⟨h'.1.trans h.1, h'.2.1.trans h.2.1, h.2.2.1.trans h'.2.2.1, h.2.2.2.trans h'.2.2.2⟩
  le_antisymm a b h h' :=
    Box.ext (le_antisymm h'.1 h.1) (le_antisymm h'.2.1 h.2.1) (le_antisymm h.2.2.1 h'.2.2.1)
      (le_antisymm h.2.2.2 h'.2.2.2)

namespace Box

def Nonempty (b : Box) : Prop := b.x1 ≤ b.x2 ∧ b.y1 ≤ b.y2

def width (b : Box) : Int := b.x2 - b.x1 + 1

def height (b : Box) : Int := b.y2 - b.y1 + 1

/-- The pixels of a box, both borders included. -/
def pixels (b : Box) : Set (Int × Int) :=
  {p | (b.x1 ≤ p.1 ∧ p.1 ≤ b.x2) ∧ b.y1 ≤ p.2 ∧ p.2 ≤ b.y2}

end Box

section Pixels

variable {a b : Box}

theorem le_iff : a ≤ b ↔ b.x1 ≤ a.x1 ∧ b.y1 ≤ a.y1 ∧ a.x2 ≤ b.x2 ∧ a.y2 ≤ b.y2 := Iff.rfl

theorem mem_pixels {p : Int × Int} :
    p ∈ b.pixels ↔ (b.x1 ≤ p.1 ∧ p.1 ≤ b.x2) ∧ b.y1 ≤ p.2 ∧ p.2 ≤ b.y2 := Iff.rfl

/-- **The order is inclusion of pixels.** -/
theorem pixels_subset_iff (h : a.Nonempty) : a.pixels ⊆ b.pixels ↔ a ≤ b := by
  constructor
  · intro hsub
    -- the corners decide
    have hfirst : (a.x1, a.y1) ∈ b.pixels :=
      hsub (mem_pixels.mpr ⟨⟨le_refl _, h.1⟩, le_refl _, h.2⟩)
    have hlast : (a.x2, a.y2) ∈ b.pixels :=
      hsub (mem_pixels.mpr ⟨⟨h.1, le_refl _⟩, h.2, le_refl _⟩)
    obtain ⟨⟨hx1, -⟩, hy1, -⟩ := mem_pixels.mp hfirst
    obtain ⟨⟨-, hx2⟩, -, hy2⟩ := mem_pixels.mp hlast
    exact ⟨hx1, hy1, hx2, hy2⟩
  · rintro ⟨hx1, hy1, hx2, hy2⟩ p hp
    obtain ⟨⟨h1, h2⟩, h3, h4⟩ := mem_pixels.mp hp
    exact mem_pixels.mpr ⟨⟨hx1.trans h1, h2.trans hx2⟩, hy1.trans h3, h4.trans hy2⟩

theorem ncard_pixels (h : b.Nonempty) : (b.pixels.ncard : Int) = b.width * b.height := by
  obtain ⟨hx, hy⟩ := h
  have hw : ((b.x2 + 1 - b.x1).toNat : Int) = b.width := by
    rw [Box.width]
    omega
  have hh : ((b.y2 + 1 - b.y1).toNat : Int) = b.height := by
    rw [Box.height]
    omega
  have hset : b.pixels = ↑(Finset.Icc b.x1 b.x2 ×ˢ Finset.Icc b.y1 b.y2) := by
    ext p
    rw [mem_pixels, Finset.mem_coe, Finset.mem_product, Finset.mem_Icc, Finset.mem_Icc]
  rw [hset, Set.ncard_coe_finset, Finset.card_product, Int.card_Icc, Int.card_Icc,
    Int.natCast_mul, hw, hh]

end Pixels

/-! ## One border -/

section Border

variable {m v b : Int}

/-- The last border at or before `v`. -/
theorem lower_isGreatest (hm : 0 < m) : IsGreatest {b | m ∣ b ∧ b ≤ v} (v / m * m) := by
  constructor
  · exact ⟨⟨v / m, Int.mul_comm _ _⟩, Int.ediv_mul_le v (ne_of_gt hm)⟩
  · rintro b ⟨⟨k, rfl⟩, hle⟩
    have hk : k ≤ v / m := (Int.le_ediv_iff_mul_le hm).mpr (by rwa [Int.mul_comm])
    rw [Int.mul_comm]
    exact Int.mul_le_mul_of_nonneg_right hk (le_of_lt hm)

/-- The first pixel at or after `v` that a border follows. -/
theorem upper_isLeast (hm : 0 < m) : IsLeast {b | m ∣ b + 1 ∧ v ≤ b} ((v / m + 1) * m - 1) := by
  constructor
  · refine ⟨⟨v / m + 1, ?_⟩, ?_⟩
    · rw [Int.sub_add_cancel, Int.mul_comm]
    · have hlt : v < (v / m + 1) * m := Int.lt_ediv_add_one_mul_self v hm
      exact Int.le_sub_one_of_lt hlt
  · rintro b ⟨⟨k, hk⟩, hle⟩
    have hlt : v < k * m := by
      rw [Int.mul_comm, ← hk]
      exact Int.lt_add_one_of_le hle
    have hdiv : v / m + 1 ≤ k := Int.add_one_le_of_lt (Int.ediv_lt_of_lt_mul hm hlt)
    have hmul : (v / m + 1) * m ≤ k * m := Int.mul_le_mul_of_nonneg_right hdiv (le_of_lt hm)
    have hb : b = k * m - 1 := by
      rw [Int.mul_comm, ← hk, Int.add_sub_cancel]
    rw [hb]
    exact Int.sub_le_sub_right hmul 1

end Border

/-! ## Alignment -/

/-- The box begins and ends at borders of cells. -/
def Box.OnGrid (m : Int) (b : Box) : Prop := m ∣ b.x1 ∧ m ∣ b.y1 ∧ m ∣ b.x2 + 1 ∧ m ∣ b.y2 + 1

/-- The box with its borders moved outward to borders of cells. -/
def Box.align (m : Int) (b : Box) : Box where
  x1 := b.x1 / m * m
  y1 := b.y1 / m * m
  x2 := (b.x2 / m + 1) * m - 1
  y2 := (b.y2 / m + 1) * m - 1

section Align

variable {m : Int} {a b : Box}

theorem le_align (hm : 0 < m) : b ≤ b.align m :=
  ⟨(lower_isGreatest hm).1.2, (lower_isGreatest hm).1.2, (upper_isLeast hm).1.2,
    (upper_isLeast hm).1.2⟩

theorem onGrid_align (hm : 0 < m) : (b.align m).OnGrid m :=
  ⟨(lower_isGreatest hm).1.1, (lower_isGreatest hm).1.1, (upper_isLeast hm).1.1,
    (upper_isLeast hm).1.1⟩

/-- Alignment stays within every box on the grid. -/
theorem align_le (hm : 0 < m) (h : a ≤ b) (hb : b.OnGrid m) : a.align m ≤ b :=
  ⟨(lower_isGreatest hm).2 ⟨hb.1, h.1⟩, (lower_isGreatest hm).2 ⟨hb.2.1, h.2.1⟩,
    (upper_isLeast hm).2 ⟨hb.2.2.1, h.2.2.1⟩, (upper_isLeast hm).2 ⟨hb.2.2.2, h.2.2.2⟩⟩

/-- **Alignment is a closure**; its closed boxes are those on the grid. -/
def alignClosure (hm : 0 < m) : ClosureOperator Box :=
  .ofPred (Box.align m) (Box.OnGrid m) (fun _ => le_align hm) (fun _ => onGrid_align hm)
    fun _ _ => align_le hm

theorem align_mono (hm : 0 < m) (h : a ≤ b) : a.align m ≤ b.align m :=
  (alignClosure hm).monotone h

theorem align_align (hm : 0 < m) : (b.align m).align m = b.align m :=
  (alignClosure hm).idempotent b

/-- **The aligned box is the least one on the grid that contains the box.** -/
theorem align_isLeast (hm : 0 < m) : IsLeast {c | b ≤ c ∧ c.OnGrid m} (b.align m) :=
  ⟨⟨le_align hm, onGrid_align hm⟩, fun _ hc => align_le hm hc.1 hc.2⟩

theorem Box.Nonempty.mono (ha : a.Nonempty) (h : a ≤ b) : b.Nonempty :=
  ⟨h.1.trans (ha.1.trans h.2.2.1), h.2.1.trans (ha.2.trans h.2.2.2)⟩

/-- A box on the grid is made of whole cells. -/
theorem Box.OnGrid.dvd_size (h : b.OnGrid m) : m ∣ b.width ∧ m ∣ b.height := by
  obtain ⟨hx1, hy1, hx2, hy2⟩ := h
  have hw : b.width = b.x2 + 1 - b.x1 := by
    rw [Box.width]
    omega
  have hh : b.height = b.y2 + 1 - b.y1 := by
    rw [Box.height]
    omega
  rw [hw, hh]
  exact ⟨Int.dvd_sub hx2 hx1, Int.dvd_sub hy2 hy1⟩

end Align

end GridBox
