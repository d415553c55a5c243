import Mathlib.Order.Lattice
import Mathlib.Order.Monotone.Basic

/-! # Peak followers — a shown value that runs after an input

    A follower shows its input at once when that is no lower than what it shows,
    and otherwise comes down, strictly and never below the input.

    Along any input a shown value lies between the input and the higher of input
    and old value (`input_le_shown`, `shown_le_max`).  While the input stays the
    same, the shown value falls strictly as long as it is above (`shown_lt`), and a
    rank bounds for how long (`shown_settles`): after that it is the input. -/

namespace PeakFollower

variable {α : Type} [LinearOrder α]

/-- One step, from the shown value and the input to the next shown value. -/
structure Follower (α : Type) [LinearOrder α] where
  step   : α → α → α
  attack : ∀ {old new}, old ≤ new → step old new = new
  falls  : ∀ {old new}, new < old → step old new < old
  stays  : ∀ {old new}, new < old → new ≤ step old new

/-- What is shown after `n` inputs. -/
def Follower.shown (f : Follower α) (start : α) (input : Nat → α) : Nat → α
  | 0 => start
  | n + 1 => f.step (f.shown start input n) (input n)

section Shown

variable {f : Follower α} {start old new target : α} {input : Nat → α} {k n len : Nat}

theorem new_le_step : new ≤ f.step old new := by
  rcases lt_or_ge new old with h | h
  · exact f.stays h
  · exact (f.attack h).ge

theorem step_le_max : f.step old new ≤ max old new := by
  rcases lt_or_ge new old with h | h
  · exact (f.falls h).le.trans (le_max_left old new)
  · exact (f.attack h).le.trans (le_max_right old new)

theorem input_le_shown : input n ≤ f.shown start input (n + 1) := new_le_step

theorem shown_le_max :
    f.shown start input (n + 1) ≤ max (f.shown start input n) (input n) := step_le_max

/-- The shown value falls as long as it is above the input. -/
theorem shown_lt (h : input n < f.shown start input n) :
    f.shown start input (n + 1) < f.shown start input n := f.falls h

/-- The value `target` once shown stays, while it is the input. -/
theorem shown_holds (hinput : ∀ i, k ≤ i → i < k + len → input i = target)
    (h : f.shown start input k = target) : ∀ j ≤ len, f.shown start input (k + j) = target := by
  intro j
  induction j with
  | zero => exact fun _ => h
  | succ j ih =>
      intro hj
      have hshown : f.shown start input (k + j) = target := ih (Nat.le_of_succ_le hj)
      have hin : input (k + j) = target := hinput (k + j) (by omega) (by omega)
      show f.step (f.shown start input (k + j)) (input (k + j)) = target
      rw [hshown, hin]
      exact f.attack (le_refl target)

/-- From above, each input brings the shown value one rank nearer, or it has
    arrived. -/
theorem shown_nears {rank : α → Nat} (hrank : StrictMono rank)
    (hinput : ∀ i, k ≤ i → i < k + len → input i = target)
    (habove : target ≤ f.shown start input k) :
    ∀ j ≤ len, target ≤ f.shown start input (k + j) ∧ (f.shown start input (k + j) = target ∨
      rank (f.shown start input (k + j)) + j ≤ rank (f.shown start input k)) := by
  intro j
  induction j with
  | zero => exact fun _ => ⟨habove, .inr (Nat.le_refl _)⟩
  | succ j ih =>
      intro hj
      obtain ⟨hge, hnear⟩ := ih (Nat.le_of_succ_le hj)
      have hin : input (k + j) = target := hinput (k + j) (by omega) (by omega)
      have hnext : f.shown start input (k + (j + 1)) =
          f.step (f.shown start input (k + j)) target := by
        show f.step (f.shown start input (k + j)) (input (k + j)) = _
        rw [hin]
      rw [hnext]
      refine ⟨new_le_step, ?_⟩
      rcases eq_or_lt_of_le hge with heq | hlt
      · left
        rw [← heq]
        exact f.attack (le_refl target)
      · right
        have hfall : rank (f.step (f.shown start input (k + j)) target) <
            rank (f.shown start input (k + j)) := hrank (f.falls hlt)
        rcases hnear with heq | hle
        · exact absurd heq (ne_of_gt hlt)
        · omega

/-- **A steady input is reached.**  Over a stretch of the same input the shown
    value is that input after one step and as many as its rank is above. -/
theorem shown_settles {rank : α → Nat} (hrank : StrictMono rank)
    (hinput : ∀ i, k ≤ i → i < k + len → input i = target) {j : Nat} (hj : 1 ≤ j)
    (hfar : rank (f.shown start input k) ≤ rank target + j) (hlen : j ≤ len) :
    f.shown start input (k + j) = target := by
  rcases le_total (f.shown start input k) target with hle | hge
  · -- the first input is shown at once
    have hin : input k = target := hinput k (Nat.le_refl k) (by omega)
    have hfirst : f.shown start input (k + 1) = target := by
      show f.step (f.shown start input k) (input k) = target
      rw [hin]
      exact f.attack hle
    have hrest : ∀ i, k + 1 ≤ i → i < k + 1 + (len - 1) → input i = target := by
      intro i hi hi'
      exact hinput i (by omega) (by omega)
    have hshown := shown_holds hrest hfirst (j - 1) (by omega)
    rw [show k + j = k + 1 + (j - 1) by omega]
    exact hshown
  · obtain ⟨habove, hnear⟩ := shown_nears hrank hinput hge j hlen
    rcases hnear with heq | hle
    · exact heq
    · have hrankLe : rank (f.shown start input (k + j)) ≤ rank target := by omega
      exact le_antisymm (hrank.le_iff_le.mp hrankLe) habove

end Shown

end PeakFollower
