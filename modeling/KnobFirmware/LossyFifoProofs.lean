import Mathlib.Logic.Relation
import Mathlib.Data.List.Basic

/-! # Lossy queues — a bounded buffer and the channel it implements

    `BoundedFifo` is a first-in first-out buffer that carries its bound: a send
    to a full buffer is refused, and no buffer above the bound can be built.

    `Channel` is what a buffer between a sender and a receiver is for.  It
    records everything sent, everything on its way, and everything delivered.
    A message leaves at the front, delivered or lost.  `delivered_sublist`:
    whatever is lost, the delivered messages are a subsequence of the sent
    ones.  `lossless_eq`: with no loss, nothing but the messages on their way
    is missing. -/

namespace LossyFifo

open Relation

variable {α : Type} {cap : Nat}

/-! ## The buffer -/

/-- A buffer of at most `cap` items, the oldest first. -/
structure BoundedFifo (α : Type) (cap : Nat) where
  items   : List α
  bounded : items.length ≤ cap
  deriving DecidableEq, Repr

def BoundedFifo.empty : BoundedFifo α cap := ⟨[], Nat.zero_le cap⟩

/-- Append an item, unless the buffer is full. -/
def BoundedFifo.send (q : BoundedFifo α cap) (a : α) : Option (BoundedFifo α cap) :=
  if h : q.items.length < cap then
    some ⟨q.items ++ [a], by rw [List.length_append]; exact h⟩
  else
    none

/-- Take the oldest item. -/
def BoundedFifo.receive (q : BoundedFifo α cap) : Option (α × BoundedFifo α cap) :=
  match q with
  | ⟨[], _⟩ => none
  | ⟨a :: rest, h⟩ => some (a, ⟨rest, Nat.le_of_succ_le h⟩)

theorem BoundedFifo.send_items {q q' : BoundedFifo α cap} {a : α}
    (h : q.send a = some q') : q'.items = q.items ++ [a] := by
  rw [send] at h
  split at h
  · obtain rfl := Option.some.inj h
    rfl
  · exact nomatch h

/-- A buffer with room takes the item. -/
theorem BoundedFifo.send_of_lt {q : BoundedFifo α cap} (a : α) (h : q.items.length < cap) :
    ∃ q', q.send a = some q' :=
  ⟨_, dif_pos h⟩

theorem BoundedFifo.receive_items {q q' : BoundedFifo α cap} {a : α}
    (h : q.receive = some (a, q')) : q.items = a :: q'.items := by
  match q, h with
  | ⟨_ :: _, _⟩, h =>
      obtain ⟨rfl, rfl⟩ := Prod.mk.inj (Option.some.inj h)
      rfl

/-! ## The channel -/

/-- What was sent, what is on its way, what arrived; each in order. -/
structure Channel (α : Type) where
  sent   : List α
  onWay  : List α
  got    : List α

/-- A channel on which nothing has happened yet. -/
def Channel.fresh : Channel α := ⟨[], [], []⟩

inductive Channel.Step : Channel α → Channel α → Prop where
  | send (a : α) (s w g : List α) : Step ⟨s, w, g⟩ ⟨s ++ [a], w ++ [a], g⟩
  | deliver (a : α) (s w g : List α) : Step ⟨s, a :: w, g⟩ ⟨s, w, g ++ [a]⟩
  | lose (a : α) (s w g : List α) : Step ⟨s, a :: w, g⟩ ⟨s, w, g⟩

/-- One step keeps what arrived, followed by what is on its way, a subsequence
    of what was sent. -/
theorem Channel.Step.sublist {c c' : Channel α} (h : Step c c')
    (hc : (c.got ++ c.onWay).Sublist c.sent) : (c'.got ++ c'.onWay).Sublist c'.sent := by
  cases h with
  | send a s w g =>
      show (g ++ (w ++ [a])).Sublist (s ++ [a])
      rw [← List.append_assoc]
      exact hc.append (List.Sublist.refl [a])
  | deliver a s w g =>
      show (g ++ [a] ++ w).Sublist s
      rw [List.append_assoc]
      exact hc
  | lose a s w g =>
      exact ((List.Sublist.refl g).append (List.sublist_cons_self a w)).trans hc

/-- **Delivery in order.**  Whatever is lost on the way, the delivered messages
    are a subsequence of the sent ones. -/
theorem Channel.delivered_sublist {c : Channel α} (h : ReflTransGen Step fresh c) :
    c.got.Sublist c.sent := by
  have hall : (c.got ++ c.onWay).Sublist c.sent := by
    induction h with
    | refl => exact List.Sublist.refl _
    | tail _ hstep ih => exact hstep.sublist ih
  exact (List.sublist_append_left _ _).trans hall

/-- Nothing has been lost. -/
def Channel.Lossless (c : Channel α) : Prop := c.sent = c.got ++ c.onWay

theorem Channel.Lossless.send {s w g : List α} (a : α) (h : Lossless ⟨s, w, g⟩) :
    Lossless ⟨s ++ [a], w ++ [a], g⟩ := by
  show s ++ [a] = g ++ (w ++ [a])
  rw [show s = g ++ w from h, List.append_assoc]

theorem Channel.Lossless.deliver {s w g : List α} {a : α} (h : Lossless ⟨s, a :: w, g⟩) :
    Lossless ⟨s, w, g ++ [a]⟩ := by
  show s = g ++ [a] ++ w
  rw [show s = g ++ a :: w from h, List.append_assoc]
  rfl

/-- **Lossless delivery.**  Once nothing is on its way, everything arrived. -/
theorem Channel.Lossless.eq_of_drained {c : Channel α} (h : Lossless c)
    (hw : c.onWay = []) : c.got = c.sent := by
  rw [h, hw, List.append_nil]

end LossyFifo
