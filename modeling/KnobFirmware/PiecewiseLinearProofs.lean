import Mathlib.Algebra.Order.Field.Basic
import Mathlib.Algebra.Order.Floor.Ring
import Mathlib.Order.Monotone.Basic

/-! # Piecewise linear functions — a table of points and the lines between them

    A table lists points from left to right.  Its `value` is constant before the
    first point and after the last one, and follows the straight line between
    two neighbours.  When the points rise, the value

    * goes through every point (`value_point`),
    * is the line between any two neighbours (`value_between`),
    * is monotone (`value_mono`), and
    * stays between the first and the last height (`head_le_value`,
      `value_le_last`).

    `floor_line` is the rule for integer code: on integers the floor of a line
    is one multiplication and one floored division. -/

namespace PiecewiseLinear

structure Point (K : Type) where
  x : K
  y : K

/-! ## Points that rise -/

section Rising

variable {K : Type} [LinearOrder K] {p q : Point K} {ps rest : List (Point K)}

/-- Further to the right, and not lower. -/
def Below (p q : Point K) : Prop := p.x < q.x ∧ p.y ≤ q.y

/-- The points of a table rise from left to right. -/
def Rising (ps : List (Point K)) : Prop := ps.Pairwise Below

theorem Rising.head (h : Rising (p :: q :: rest)) : Below p q :=
  List.rel_of_pairwise_cons h List.mem_cons_self

theorem Rising.tail (h : Rising (p :: ps)) : Rising ps := List.Pairwise.of_cons h

end Rising

/-! ## One line -/

variable {K : Type} [Field K] {p q : Point K} {ps pre post rest : List (Point K)} {x : K}

/-- The line through two points. -/
def line (p q : Point K) (x : K) : K := p.y + (x - p.x) * (q.y - p.y) / (q.x - p.x)

theorem line_left : line p q p.x = p.y := by
  rw [line, sub_self, zero_mul, zero_div, add_zero]

variable [LinearOrder K]

/-- The height of the table at `x`. -/
def value : List (Point K) → K → K
  | [], _ => 0
  | [p], _ => p.y
  | p :: q :: rest, x =>
      if x ≤ p.x then p.y else if x ≤ q.x then line p q x else value (q :: rest) x

theorem line_right (h : Below p q) : line p q q.x = q.y := by
  have hne : q.x - p.x ≠ 0 := sub_ne_zero.mpr (ne_of_gt h.1)
  rw [line, mul_div_cancel_left₀ _ hne, add_sub_cancel]

theorem value_of_le (h : x ≤ p.x) : value (p :: ps) x = p.y := by
  cases ps with
  | nil => rfl
  | cons q rest => rw [value, if_pos h]

/-- Between the first two points the value is their line, both ends included. -/
theorem value_segment (hlo : p.x ≤ x) (hhi : x ≤ q.x) :
    value (p :: q :: rest) x = line p q x := by
  rw [value]
  by_cases hp : x ≤ p.x
  · rw [if_pos hp, le_antisymm hp hlo, line_left]
  · rw [if_neg hp, if_pos hhi]

/-- From the second point on, the first one plays no part. -/
theorem value_past (h : Below p q) (hlo : q.x ≤ x) :
    value (p :: q :: rest) x = value (q :: rest) x := by
  have hp : ¬ x ≤ p.x := not_le.mpr (lt_of_lt_of_le h.1 hlo)
  rw [value, if_neg hp]
  by_cases hq : x ≤ q.x
  · rw [if_pos hq, le_antisymm hq hlo, line_right h, value_of_le (le_refl q.x)]
  · rw [if_neg hq]

/-! ## The points of a table -/

/-- **Between two neighbours the value is their line.** -/
theorem value_between (h : Rising (pre ++ p :: q :: post)) (hlo : p.x ≤ x) (hhi : x ≤ q.x) :
    value (pre ++ p :: q :: post) x = line p q x := by
  induction pre with
  | nil => exact value_segment hlo hhi
  | cons r pre ih =>
      have hrest : value (pre ++ p :: q :: post) x = line p q x := ih h.tail
      cases pre with
      | nil =>
          rw [← hrest]
          exact value_past h.head hlo
      | cons s pre =>
          rw [← hrest]
          have hs : Below s p :=
            List.rel_of_pairwise_cons h.tail (List.mem_append_right _ List.mem_cons_self)
          exact value_past h.head (hs.1.le.trans hlo)

/-- **The value goes through every point.** -/
theorem value_point (h : Rising ps) (hp : p ∈ ps) : value ps p.x = p.y := by
  induction ps with
  | nil => exact absurd hp List.not_mem_nil
  | cons r ps ih =>
      rcases List.mem_cons.mp hp with rfl | hmem
      · exact value_of_le (le_refl p.x)
      · rw [← ih h.tail hmem]
        cases ps with
        | nil => exact absurd hmem List.not_mem_nil
        | cons s rest =>
            refine value_past h.head ?_
            rcases List.mem_cons.mp hmem with rfl | hlater
            · exact le_refl p.x
            · exact (List.rel_of_pairwise_cons h.tail hlater).1.le

theorem value_of_ge (h : Rising (pre ++ [q])) (hx : q.x ≤ x) : value (pre ++ [q]) x = q.y := by
  induction pre with
  | nil => rfl
  | cons r pre ih =>
      rw [← ih h.tail]
      cases pre with
      | nil => exact value_past h.head hx
      | cons s pre =>
          have hs : Below s q :=
            List.rel_of_pairwise_cons h.tail (List.mem_append_right _ List.mem_cons_self)
          exact value_past h.head (hs.1.le.trans hx)

/-! ## The order -/

variable [IsStrictOrderedRing K]

theorem line_mono (h : Below p q) : Monotone (line p q) := by
  intro x x' hx
  have hwidth : 0 ≤ q.x - p.x := sub_nonneg.mpr h.1.le
  have hheight : 0 ≤ q.y - p.y := sub_nonneg.mpr h.2
  have hinto : x - p.x ≤ x' - p.x := sub_le_sub_right hx p.x
  have hscaled : (x - p.x) * (q.y - p.y) ≤ (x' - p.x) * (q.y - p.y) :=
    mul_le_mul_of_nonneg_right hinto hheight
  exact (add_le_add_iff_left p.y).mpr (div_le_div_of_nonneg_right hscaled hwidth)

/-- **The value is monotone.** -/
theorem value_mono (h : Rising ps) : Monotone (value ps) := by
  induction ps with
  | nil => exact fun _ _ _ => le_refl _
  | cons p ps ih =>
      cases ps with
      | nil => exact fun _ _ _ => le_refl _
      | cons q rest =>
          intro x x' hx
          have hpq : Below p q := h.head
          have hrest : Monotone (value (q :: rest)) := ih h.tail
          have hq : value (q :: rest) q.x = q.y := value_of_le (le_refl q.x)
          rcases le_total x' p.x with hp' | hp'
          · rw [value_of_le hp', value_of_le (hx.trans hp')]
          · rcases le_total x q.x with hq₁ | hq₁
            · -- `x` is left of the second point: compare through the line
              have hleft : value (p :: q :: rest) x ≤ line p q (max x p.x) := by
                rcases le_total x p.x with hp | hp
                · rw [value_of_le hp, max_eq_right hp, line_left]
                · rw [value_segment hp hq₁, max_eq_left hp]
              refine hleft.trans ?_
              rcases le_total x' q.x with hq' | hq'
              · rw [value_segment hp' hq']
                exact line_mono hpq (max_le hx hp')
              · have hmax : max x p.x ≤ q.x := max_le hq₁ hpq.1.le
                rw [value_past hpq hq']
                calc line p q (max x p.x) ≤ line p q q.x := line_mono hpq hmax
                  _ = value (q :: rest) q.x := by rw [line_right hpq, hq]
                  _ ≤ value (q :: rest) x' := hrest hq'
            · rw [value_past hpq hq₁, value_past hpq (hq₁.trans hx)]
              exact hrest hx

theorem head_le_value (h : Rising (p :: ps)) : p.y ≤ value (p :: ps) x := by
  rcases le_total x p.x with hx | hx
  · rw [value_of_le hx]
  · calc p.y = value (p :: ps) p.x := (value_of_le (le_refl p.x)).symm
      _ ≤ value (p :: ps) x := value_mono h hx

theorem value_le_last (h : Rising (pre ++ [q])) : value (pre ++ [q]) x ≤ q.y := by
  rcases le_total x q.x with hx | hx
  · rw [← value_point h (List.mem_append_right pre List.mem_cons_self)]
    exact value_mono h hx
  · rw [value_of_ge h hx]

/-! ## Integer tables -/

/-- **The floor of a line on integers** is a product and a floored quotient. -/
theorem floor_line [FloorRing K] {x₀ y₀ x₁ y₁ x : Int} (h : x₀ ≤ x₁) :
    ⌊line (⟨x₀, y₀⟩ : Point K) ⟨x₁, y₁⟩ x⌋ = y₀ + (x - x₀) * (y₁ - y₀) / (x₁ - x₀) := by
  have hcast : line (⟨x₀, y₀⟩ : Point K) ⟨x₁, y₁⟩ x =
      (y₀ : K) + (((x - x₀) * (y₁ - y₀) : Int) : K) / ((x₁ - x₀ : Int) : K) := by
    rw [line]
    push_cast
    rfl
  rw [hcast, Int.floor_intCast_add, Int.floor_div_cast_of_nonneg (Int.sub_nonneg.mpr h),
    Int.floor_intCast]

end PiecewiseLinear
