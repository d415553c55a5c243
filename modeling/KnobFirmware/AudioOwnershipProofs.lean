import KnobFirmware.AudioTaskProofs

/-! # Who owns the I2S controllers

    At most one task of each worker is between its creation and the clearing of
    its handle, no controller is open in two channel variables, and a channel
    is used by the task that opened it alone.

    The assertion of a worker task says where it is in its code, that the
    worker's handle names it while it has code left, and that a channel
    variable is NULL unless the task is about to close it.  The assertion of
    the UI task says what the guards it has passed have shown.  The loopback's
    assertion carries its hand-off: each test after the wait shows that one
    handle is NULL, and it stays NULL since the UI starts nothing beside a
    loopback. -/

namespace AudioOwnership

open AudioTask EspErr StepMachine TaskPool

/-! ## Where a worker is -/

/-- The cleanup of a worker from its test of the state on. -/
def settleTail (k : Worker) : List Instr := .settleUnlessError k :: leave k

/-- The same once the test has found no error. -/
def settled (k : Worker) : List Instr :=
  [.setState k .stopped, .setError k espOk] ++ leave k

/-- The cleanup of a worker from the close of a channel on. -/
def closeTail : Slot → List Instr
  | .micRx => cleanup .mic
  | .dacTx => cleanup .dac
  | .loopbackRx => cleanup .loopback
  | .loopbackTx => .ifOpen .loopbackTx :: settleTail .loopback

/-- The instructions that a worker runs before the test of the state. -/
def Early (k : Worker) : Instr → Prop
  | .setState k' st => k' = k ∨ k = .loopback ∧ (st = .stopped ∨ st = .stopping)
  | .setError k' _ => k' = k
  | .setStop _ b => k = .loopback ∧ b = true
  | .setMeter _ _ | .publish _ | .gpio => True
  | .requestStop k' | .stopUnlessError k' => k = .loopback ∧ k' ≠ .loopback
  | .newChannel s | .use s _ | .call s _ _ | .ifOpen s | .clearChan s => s.owner = k
  | .loop k' => k' = k
  | .pollStop _ | .poll _ _ | .ifStopped | .recheck _ => k = .loopback
  | .clearHandle _ | .rejectIf _ | .create _ | .settleUnlessError _ | .leaveAudio _
  | .setMenu _ | .toggleMute => False

/-- A worker is before the test of the state, or after it. -/
inductive Position (k : Worker) : List Instr → Prop where
  | early {pre : List Instr} (h : ∀ a ∈ pre, Early k a) : Position k (pre ++ settleTail k)
  | late {todo : List Instr} (h : todo <:+ settled k) : Position k todo

theorem cleanup_eq (k : Worker) : cleanup k = closes k ++ settleTail k := rfl

theorem closes_early (k : Worker) : ∀ a ∈ closes k, Early k a := by
  cases k <;> simp [closes, Early, Slot.owner]

theorem loopBody_early (k : Worker) : ∀ a ∈ loopBody k ++ [.loop k], Early k a := by
  cases k <;> simp [loopBody, Early, Slot.owner]

theorem afterRead_early (samples : Nat) (s : Slot) :
    ∀ a ∈ afterRead samples s, Early s.owner a := by
  cases s with
  | micRx => simp [afterRead, Early]
  | loopbackRx =>
      rw [afterRead]
      split <;> simp [Early, Slot.owner]
  | dacTx | loopbackTx => simp [afterRead]

/-- What an early instruction is followed by: more early code before the rest,
    or early code before the cleanup. -/
def EarlyNext (k : Worker) (n : Next Instr) : Prop :=
  (∃ q, n = .goOn q ∧ ∀ b ∈ q, Early k b) ∨
    ∃ q, n = .jump (q ++ cleanup k) ∧ ∀ b ∈ q, Early k b

theorem EarlyNext.nil (k : Worker) : EarlyNext k (.goOn []) :=
  .inl ⟨[], rfl, by simp⟩

theorem EarlyNext.fail (k : Worker) (e : EspErr) :
    EarlyNext k (failWith e (.worker k)) := by
  refine .inr ⟨[.setError k e, .setState k .error], rfl, ?_⟩
  intro b hb
  rcases List.mem_pair.mp hb with rfl | rfl
  · exact rfl
  · exact .inl rfl

theorem EarlyNext.ite {k : Worker} {c : Prop} [Decidable c] {m n : Next Instr}
    (hm : EarlyNext k m) (hn : EarlyNext k n) : EarlyNext k (if c then m else n) := by
  split
  · exact hm
  · exact hn

theorem EarlyNext.goOn_ite {k : Worker} {c : Prop} [Decidable c] {p q : List Instr}
    (hp : ∀ b ∈ p, Early k b) (hq : ∀ b ∈ q, Early k b) :
    EarlyNext k (.goOn (if c then p else q)) := by
  split
  · exact .inl ⟨p, rfl, hp⟩
  · exact .inl ⟨q, rfl, hq⟩

theorem afterCall_early (s : Slot) (op : ChanOp) (r : Reply) :
    EarlyNext s.owner (afterCall (.worker s.owner) s r op) := by
  have hfail := EarlyNext.fail s.owner r.err
  have hnil := EarlyNext.nil s.owner
  cases op with
  | init | enable | write => exact hnil.ite hfail
  | read =>
      have hread : EarlyNext s.owner (.goOn (afterRead r.samples s)) :=
        .inl ⟨_, rfl, afterRead_early r.samples s⟩
      exact hnil.ite (hread.ite hfail)
  | disable | delete => exact hnil

theorem runInstr_early {k : Worker} {i fresh : Nat} {a : Instr} {sh : Shared} {r : Reply}
    (h : Early k a) : EarlyNext k (runInstr (.worker k) i fresh a sh r).next := by
  have hnil := EarlyNext.nil k
  cases a with
  | setState | setError | setStop | setMeter | publish | clearChan => exact hnil
  | requestStop k' =>
      obtain ⟨rfl, hk⟩ := h
      exact .goOn_ite (by simp [Early, hk]) (by simp [Early])
  | stopUnlessError k' =>
      obtain ⟨rfl, -⟩ := h
      exact .goOn_ite (by simp) (by simp [Early])
  | gpio => exact hnil.ite (.fail k r.err)
  | newChannel s => exact hnil.ite (.fail k r.err)
  | use s op =>
      refine .inl ⟨_, rfl, ?_⟩
      intro b hb
      obtain rfl := List.mem_singleton.mp hb
      exact h
  | call s op c =>
      obtain rfl : s.owner = k := h
      exact afterCall_early s op r
  | loop k' =>
      obtain rfl : k' = k := h
      exact .goOn_ite (by simp) (loopBody_early k')
  | pollStop n =>
      obtain rfl : k = .loopback := h
      exact .goOn_ite (by simp) (by simp [Early])
  | poll cs n =>
      obtain rfl : k = .loopback := h
      cases cs with
      | nil => exact hnil
      | cons c cs =>
          show EarlyNext .loopback (.goOn (if _ then _ else if _ then _ else _))
          split
          · exact .inl ⟨_, rfl, by simp [Early]⟩
          · exact .goOn_ite (by simp [Early]) (by simp)
  | ifStopped =>
      obtain rfl : k = .loopback := h
      exact EarlyNext.ite (.inr ⟨[], rfl, by simp⟩) hnil
  | recheck cs =>
      obtain rfl : k = .loopback := h
      cases cs with
      | nil => exact hnil
      | cons c cs => exact EarlyNext.ite (.inl ⟨_, rfl, by simp [Early]⟩) (.fail _ _)
  | ifOpen s =>
      obtain rfl : s.owner = k := h
      exact .goOn_ite (by simp) (by simp [Early])
  | clearHandle | rejectIf | create | settleUnlessError | leaveAudio | setMenu
  | toggleMute => exact h.elim

/-- The code after the test of the state only writes. -/
theorem settled_next {k : Worker} {ρ : Role} {i fresh : Nat} {a : Instr} {sh : Shared}
    {r : Reply} (h : a ∈ settled k) : (runInstr ρ i fresh a sh r).next = .goOn [] := by
  have hwrite : ∀ b ∈ settled k, (runInstr ρ i fresh b sh r).next = .goOn [] := by
    cases k <;> simp [settled, leave, runInstr]
  exact hwrite a h

/-- An early instruction leaves early code before the test of the state. -/
theorem early_step {k : Worker} {a : Instr} {pre : List Instr}
    (h : ∀ b ∈ a :: pre, Early k b) (i fresh : Nat) (sh : Shared) (r : Reply) :
    ∃ pre', (runInstr (.worker k) i fresh a sh r).next.after (pre ++ settleTail k) =
      pre' ++ settleTail k ∧ ∀ b ∈ pre', Early k b := by
  have hn : EarlyNext k (runInstr (.worker k) i fresh a sh r).next :=
    runInstr_early (h a List.mem_cons_self)
  rcases hn with ⟨q, hq, hearly⟩ | ⟨q, hq, hearly⟩
  · rw [hq, Next.after_goOn, ← List.append_assoc]
    refine ⟨q ++ pre, rfl, fun b hb => ?_⟩
    rcases List.mem_append.mp hb with h1 | h1
    · exact hearly b h1
    · exact h b (List.mem_cons_of_mem a h1)
  · rw [hq, Next.after_jump, cleanup_eq, ← List.append_assoc]
    refine ⟨q ++ closes k, rfl, fun b hb => ?_⟩
    rcases List.mem_append.mp hb with h1 | h1
    · exact hearly b h1
    · exact closes_early k b h1

/-- The test of the state itself. -/
theorem settle_step {k : Worker} {ρ : Role} {i fresh : Nat} {sh : Shared} {r : Reply} :
    (runInstr ρ i fresh (.settleUnlessError k) sh r).next.after (leave k) =
      if sh.testState k = .error then leave k else settled k := by
  show (if _ then _ else _) ++ leave k = _
  split <;> rfl

/-- **A worker's step keeps it in its code.** -/
theorem Position.step {k : Worker} {i fresh : Nat} {a : Instr} {rest : List Instr}
    {sh : Shared} {r : Reply} (h : Position k (a :: rest)) :
    Position k ((runInstr (.worker k) i fresh a sh r).next.after rest) := by
  generalize htodo : a :: rest = todo at h
  cases h with
  | @early pre hpre =>
      cases pre with
      | nil =>
          -- the test of the state
          obtain ⟨rfl, rfl⟩ := List.cons.inj htodo
          refine .late ?_
          rw [settle_step]
          split
          · exact List.suffix_append _ _
          · exact List.suffix_refl _
      | cons b pre =>
          obtain ⟨rfl, rfl⟩ := List.cons.inj htodo
          obtain ⟨pre', hafter, hearly⟩ := early_step hpre i fresh sh r
          show Position k ((runInstr (.worker k) i fresh a sh r).next.after (pre ++ settleTail k))
          rw [hafter]
          exact .early hearly
  | late hlate =>
      subst htodo
      rw [settled_next (hlate.subset List.mem_cons_self), Next.after_goOn]
      exact .late ((List.suffix_cons a rest).trans hlate)

/-- Who runs the instruction at the head of a worker's code. -/
theorem Position.head {k : Worker} {a : Instr} {rest : List Instr}
    (h : Position k (a :: rest)) :
    Early k a ∨ (a = .settleUnlessError k ∧ rest = leave k) ∨ a :: rest <:+ settled k := by
  generalize htodo : a :: rest = todo at h
  cases h with
  | @early pre hpre =>
      cases pre with
      | nil =>
          obtain ⟨rfl, rfl⟩ := List.cons.inj htodo
          exact .inr (.inl ⟨rfl, rfl⟩)
      | cons b pre =>
          obtain ⟨rfl, rfl⟩ := List.cons.inj htodo
          exact .inl (hpre a List.mem_cons_self)
  | late hlate => exact .inr (.inr (htodo ▸ hlate))

/-- An instruction that is no part of settling the state is an early one. -/
theorem Position.early_of_not_mem {k : Worker} {a : Instr} {rest : List Instr}
    (h : Position k (a :: rest)) (hsettle : a ≠ .settleUnlessError k) (hnot : a ∉ settled k) :
    Early k a := by
  rcases h.head with h1 | ⟨h1, -⟩ | h1
  · exact h1
  · exact absurd h1 hsettle
  · exact absurd (h1.subset List.mem_cons_self) hnot

/-- A worker clears its own handle, and nothing follows. -/
theorem Position.clearHandle {k k' : Worker} {rest : List Instr}
    (h : Position k (.clearHandle k' :: rest)) : k' = k ∧ rest = [] := by
  rcases h.head with h1 | ⟨h1, -⟩ | h1
  · exact h1.elim
  · exact nomatch h1
  · cases k <;> simpa [settled, leave, List.suffix_cons_iff] using h1

/-- A worker creates no task. -/
theorem Position.create_not_mem {k k' : Worker} {todo : List Instr} (h : Position k todo) :
    .create k' ∉ todo := by
  intro hmem
  cases h with
  | early hpre =>
      rcases List.mem_append.mp hmem with h1 | h1
      · exact hpre _ h1
      · cases k <;> simp [settleTail, leave] at h1
  | late hlate =>
      have h1 := hlate.subset hmem
      cases k <;> simp [settled, leave] at h1

/-- The channel variable that an instruction is about. -/
def slotOf : Instr → Option Slot
  | .newChannel s | .use s _ | .call s _ _ | .ifOpen s | .clearChan s => some s
  | _ => none

/-- A worker touches its own channel variables alone. -/
theorem Position.owner {k : Worker} {a : Instr} {s : Slot} {rest : List Instr}
    (h : Position k (a :: rest)) (hs : slotOf a = some s) : s.owner = k := by
  rcases h.head with h1 | ⟨rfl, -⟩ | h1
  · cases a with
    | newChannel | use | call | ifOpen | clearChan =>
        obtain rfl := Option.some.inj hs
        exact h1
    | _ => exact nomatch hs
  · exact nomatch hs
  · have hnone : ∀ b ∈ settled k, slotOf b = none := by
      cases k <;> simp [settled, leave, slotOf]
    exact nomatch (hnone a (h1.subset List.mem_cons_self)).symm.trans hs

/-! ## The assertions -/

/-- The instructions that the UI task runs. -/
def UiCode : Instr → Prop
  | .newChannel _ | .use _ _ | .call _ _ _ | .ifOpen _ | .clearChan _
  | .settleUnlessError _ | .loop _ | .pollStop _ | .poll _ _ | .ifStopped | .recheck _
  | .gpio | .publish _ => False
  | _ => True

/-- The loopback is before or in its tests after the wait, and a handle it has
    tested already is NULL; or if it is still to open a channel, both handles
    of the other workers are. -/
inductive HandOff (sh : Shared) : List Instr → Prop where
  | testing {pre : List Instr} {cs : List Cond} (hpre : ∀ s, .newChannel s ∉ pre)
      (htested : ∀ k, k ≠ .loopback → .handle k ∈ cs ∨ sh.handle k = none) :
      HandOff sh (pre ++ .recheck cs :: loopbackSetup)
  | tested {todo : List Instr} (h : ∀ s, .newChannel s ∈ todo →
      ∀ k, k ≠ .loopback → sh.handle k = none) : HandOff sh todo

structure WorkerOk (k : Worker) (i : Nat) (todo : List Instr) (sh : Shared) : Prop where
  position : Position k todo
  live : todo ≠ [] → sh.handle k = some i
  /-- an open channel is going to be closed -/
  closing : ∀ s, s.owner = k → todo ≠ [] → sh.chan s ≠ none →
    closeTail s <:+ todo ∨ .clearChan s ∈ todo
  opening : ∀ s, .newChannel s ∈ todo → cleanup k <:+ todo
  /-- a channel that was read for a driver call is the task's own -/
  captured : ∀ s op c, .call s op (some c) ∈ todo → sh.channels[c]? = some i
  handOff : k = .loopback → HandOff sh todo

structure UiOk (todo : List Instr) (sh : Shared) : Prop where
  code : ∀ a ∈ todo, UiCode a
  creating : ∀ k, .create k ∈ todo → todo <:+ startCode k
  /-- a handle whose guard has been passed is NULL -/
  guarded : ∀ k k', .create k ∈ todo → Guard.handle k' ∈ startGuards k →
    .rejectIf (.handle k') ∈ todo ∨ sh.handle k' = none
  clearing : ∀ k, .clearHandle k ∈ todo → sh.handle k = none

/-- The assertion of a task; the UI task is number 0. -/
def TaskOk (i : Nat) (t : Task Role Instr) (sh : Shared) (_ : List AudioEv) : Prop :=
  match t.role with
  | .ui => i = 0 ∧ UiOk t.todo sh
  | .worker k => WorkerOk k i t.todo sh

structure SharedOk (sh : Shared) (tr : List AudioEv) : Prop where
  /-- an open channel was opened by the task that its owner's handle names -/
  owner : ∀ s c, sh.chan s = some c →
    ∃ i, sh.handle s.owner = some i ∧ sh.channels[c]? = some i
  /-- no other worker beside an open channel of the loopback -/
  exclusive : ∀ s k, s.owner = .loopback → sh.chan s ≠ none → k ≠ .loopback →
    sh.handle k = none
  opened : ∀ c i, .opened c i ∈ tr ↔ sh.channels[c]? = some i
  used : ∀ op c i, .i2s op (some c) i ∈ tr → sh.channels[c]? = some i

/-! ## Code that is brought in -/

section Brought

variable {ρ : Role} {i fresh : Nat} {a : Instr} {sh : Shared} {r : Reply}

/-- What an instruction `a` can bring in.  Openings, creations and guards stand
    in a function of the source only; a driver call comes from the read of its
    channel variable. -/
def Brought (sh : Shared) (a : Instr) : Instr → Prop
  | .newChannel _ | .create _ | .rejectIf _ => False
  | .call s op c => a = .use s op ∧ c = sh.chan s
  | _ => True

theorem failWith_brought (e : EspErr) : ∀ b ∈ (failWith e ρ).code, Brought sh a b := by
  cases ρ with
  | ui => simp [failWith, Next.code]
  | worker k => cases k <;> simp [failWith, Next.code, cleanup, closes, leave, Brought]

theorem afterRead_brought (samples : Nat) (s : Slot) :
    ∀ b ∈ afterRead samples s, Brought sh a b := by
  cases s with
  | loopbackRx =>
      rw [afterRead]
      split <;> simp [Brought]
  | micRx | dacTx | loopbackTx => simp [afterRead, Brought]

theorem runInstr_brought :
    ∀ b ∈ (runInstr ρ i fresh a sh r).next.code, Brought sh a b := by
  have hfail : ∀ e, ∀ b ∈ (failWith e ρ).code, Brought sh a b := failWith_brought
  cases a with
  | gpio | newChannel =>
      simp only [runInstr]
      split
      · simp [Next.code]
      · exact hfail _
  | call s op c =>
      simp only [runInstr]
      cases op <;> simp only [afterCall]
      case read =>
          split
          · simp [Next.code]
          · split
            · exact afterRead_brought r.samples s
            · exact hfail _
      case disable | delete => simp [Next.code]
      all_goals
        split
        · simp [Next.code]
        · exact hfail _
  | recheck cs =>
      cases cs with
      | nil => simp [runInstr, afterRecheck, Next.code]
      | cons c cs =>
          simp only [runInstr, afterRecheck]
          split
          · simp [Next.code, Brought]
          · exact hfail _
  | poll cs n =>
      cases cs with
      | nil => simp [runInstr, afterPoll, Next.code]
      | cons c cs =>
          simp only [runInstr, afterPoll]
          split
          · simp [Next.code, Brought]
          · split <;> simp [Next.code, Brought]
  | loop k =>
      simp only [runInstr]
      split
      · simp [Next.code]
      · cases k <;> simp [Next.code, loopBody, Brought]
  | ifStopped | rejectIf =>
      simp only [runInstr]
      split <;> simp [Next.code, cleanup, closes, leave, Brought]
  | requestStop | stopUnlessError | create | pollStop | ifOpen | settleUnlessError
  | leaveAudio =>
      simp only [runInstr]
      split <;> simp [Next.code, Brought]
  | setState | setError | setStop | setMeter | publish | clearHandle | clearChan | setMenu
  | use | toggleMute => simp [runInstr, Next.code, Brought]

/-- Openings, creations and guards that remain after a step were there before,
    and the step did not jump. -/
theorem rooted_after {b : Instr} {rest : List Instr} (hb : ¬ Brought sh a b)
    (h : b ∈ (runInstr ρ i fresh a sh r).next.after rest) :
    b ∈ rest ∧ ∃ q, (runInstr ρ i fresh a sh r).next = .goOn q ∧ ∀ x ∈ q, Brought sh a x := by
  have hcode : ∀ x ∈ (runInstr ρ i fresh a sh r).next.code, Brought sh a x :=
    runInstr_brought
  cases hn : (runInstr ρ i fresh a sh r).next with
  | goOn q =>
      rw [hn] at h hcode
      rcases List.mem_append.mp h with h1 | h1
      · exact absurd (hcode b h1) hb
      · exact ⟨h1, q, rfl, hcode⟩
  | jump code =>
      rw [hn] at h hcode
      exact absurd (hcode b h) hb

/-- A recorded creator stays recorded. -/
theorem channels_grow {c j : Nat} (hc : sh.channels[c]? = some j) :
    (runInstr ρ i fresh a sh r).shared.channels[c]? = some j := by
  obtain ⟨hlt, -⟩ := List.getElem?_eq_some_iff.mp hc
  obtain ⟨later, hlater⟩ : sh.channels <+: (runInstr ρ i fresh a sh r).shared.channels :=
    runInstr_channels
  rw [← hlater, List.getElem?_append_left hlt]
  exact hc

end Brought

/-! ## A worker's own step -/

section OwnStep

variable {k : Worker} {i fresh : Nat} {a : Instr} {rest : List Instr} {sh : Shared}
  {r : Reply} {s : Slot} {tr : List AudioEv}

/-- A worker goes on, or jumps to its cleanup. -/
theorem Position.next (h : Position k (a :: rest)) (i fresh : Nat) (sh : Shared)
    (r : Reply) :
    (∃ q, (runInstr (.worker k) i fresh a sh r).next = .goOn q) ∨
      ∃ q, (runInstr (.worker k) i fresh a sh r).next = .jump (q ++ cleanup k) := by
  rcases h.head with h1 | ⟨rfl, -⟩ | h1
  · have hn : EarlyNext k (runInstr (.worker k) i fresh a sh r).next := runInstr_early h1
    rcases hn with ⟨q, hq, -⟩ | ⟨q, hq, -⟩
    · exact .inl ⟨q, hq⟩
    · exact .inr ⟨q, hq⟩
  · exact .inl ⟨_, rfl⟩
  · exact .inl ⟨[], settled_next (h1.subset List.mem_cons_self)⟩

theorem closeTail_suffix (s : Slot) : closeTail s <:+ cleanup s.owner := by
  cases s with
  | loopbackTx => exact List.suffix_cons _ _
  | micRx | dacTx | loopbackRx => exact List.suffix_refl _

theorem closeTail_cons (s : Slot) : ∃ tail, closeTail s = .ifOpen s :: tail := by
  cases s <;> exact ⟨_, rfl⟩

theorem newChannel_not_mem_cleanup : .newChannel s ∉ cleanup k := by
  cases k <;> simp [cleanup, closes, leave]

/-- Before it clears its handle a worker has closed its channels. -/
theorem WorkerOk.closed (h : WorkerOk k i [.clearHandle k] sh) (hs : s.owner = k) :
    sh.chan s = none := by
  by_contra hne
  rcases h.closing s hs (List.cons_ne_nil _ _) hne with h1 | h1
  · obtain ⟨tail, htail⟩ := closeTail_cons s
    rw [htail] at h1
    have hmem := h1.subset List.mem_cons_self
    simp at hmem
  · simp at h1

theorem closing_step (h : WorkerOk k i (a :: rest) sh) (hs : s.owner = k)
    (hopen : (runInstr (.worker k) i fresh a sh r).shared.chan s ≠ none) :
    closeTail s <:+ (runInstr (.worker k) i fresh a sh r).next.after rest ∨
      .clearChan s ∈ (runInstr (.worker k) i fresh a sh r).next.after rest := by
  rcases h.position.next i fresh sh r with ⟨q, hq⟩ | ⟨q, hq⟩
  · rw [hq, Next.after_goOn]
    have later : ∀ x, x <:+ rest → x <:+ q ++ rest :=
      fun x hx => hx.trans (List.suffix_append q rest)
    have hchan : (runInstr (.worker k) i fresh a sh r).shared.chan s = sh.chan s ∨ _ :=
      runInstr_chan s
    rcases hchan with h1 | ⟨-, h1⟩ | ⟨rfl, -⟩
    · rcases h.closing s hs (List.cons_ne_nil _ _) (h1 ▸ hopen) with h2 | h2
      · rcases List.suffix_cons_iff.mp h2 with h3 | h3
        · -- the close of this channel begins
          obtain ⟨tail, htail⟩ := closeTail_cons s
          obtain ⟨rfl, -⟩ := List.cons.inj (htail.symm.trans h3)
          have hne : sh.chan s ≠ none := h1 ▸ hopen
          simp only [runInstr, if_neg hne] at hq
          obtain rfl := Next.goOn.inj hq
          exact .inr (by simp)
        · exact .inl (later _ h3)
      · rcases List.mem_cons.mp h2 with rfl | h3
        · exact absurd (by simp [runInstr]) hopen
        · exact .inr (List.mem_append_right q h3)
    · exact absurd h1 hopen
    · -- opened: the whole cleanup is still to come
      have hclean := h.opening s List.mem_cons_self
      rcases List.suffix_cons_iff.mp hclean with h2 | h2
      · have hmem : .newChannel s ∈ cleanup k := h2 ▸ List.mem_cons_self
        exact absurd hmem newChannel_not_mem_cleanup
      · exact .inl (later _ ((hs ▸ closeTail_suffix s).trans h2))
  · rw [hq, Next.after_jump]
    exact .inl ((hs ▸ closeTail_suffix s).trans (List.suffix_append q _))

theorem opening_step (h : WorkerOk k i (a :: rest) sh)
    (hmem : .newChannel s ∈ (runInstr (.worker k) i fresh a sh r).next.after rest) :
    cleanup k <:+ (runInstr (.worker k) i fresh a sh r).next.after rest := by
  obtain ⟨hrest, q, hq, -⟩ := rooted_after (by exact id) hmem
  rw [hq, Next.after_goOn]
  rcases List.suffix_cons_iff.mp (h.opening s (List.mem_cons_of_mem a hrest)) with h1 | h1
  · have hclean : .newChannel s ∈ cleanup k := h1 ▸ List.mem_cons_of_mem a hrest
    exact absurd hclean newChannel_not_mem_cleanup
  · exact h1.trans (List.suffix_append q rest)

/-- What a worker reads from a channel variable for a driver call is a channel
    of its own. -/
theorem captured_step (h : WorkerOk k i (a :: rest) sh) (hsh : SharedOk sh tr)
    {op : ChanOp} {c : Nat}
    (hmem : .call s op (some c) ∈ (runInstr (.worker k) i fresh a sh r).next.after rest) :
    (runInstr (.worker k) i fresh a sh r).shared.channels[c]? = some i := by
  rcases Next.mem_after hmem with h1 | h1
  · obtain ⟨rfl, hc⟩ := runInstr_brought _ h1
    obtain ⟨j, hj, hown⟩ := hsh.owner s c hc.symm
    rw [h.position.owner rfl, h.live (List.cons_ne_nil _ _)] at hj
    obtain rfl := Option.some.inj hj
    exact channels_grow hown
  · exact channels_grow (h.captured s op c (List.mem_cons_of_mem a h1))

end OwnStep

/-! ## What a task's step does to the handles and the channels -/

section Moves

variable {k : Worker} {ρ : Role} {i fresh : Nat} {a : Instr} {rest : List Instr}
  {sh : Shared} {r : Reply} {tr : List AudioEv}

/-- A start function creates its worker last. -/
theorem create_last {k' : Worker} (h : .create k' :: rest <:+ startCode k) :
    k' = k ∧ rest = [] := by
  cases k <;>
    simpa [startCode, startGuards, loopbackGuards, startWrites, List.suffix_cons_iff]
      using h

/-- Code that does not begin in the first part of a list is in the second. -/
theorem suffix_of_head_not_mem {α : Type} {x : α} {xs front back : List α}
    (h : x :: xs <:+ front ++ back) (hx : x ∉ front) : x :: xs <:+ back := by
  induction front with
  | nil => exact h
  | cons y front ih =>
      rcases List.suffix_cons_iff.mp h with h1 | h1
      · obtain ⟨rfl, -⟩ := List.cons.inj h1
        exact absurd List.mem_cons_self hx
      · exact ih h1 fun hmem => hx (List.mem_cons_of_mem y hmem)

/-- After its first write a start function has no guard left. -/
theorem start_past_guards (h : a :: rest <:+ startCode k) (ha : ∀ g, a ≠ .rejectIf g) :
    a :: rest <:+ startWrites k ++ [.create k] ∧ ∀ g, .rejectIf g ∉ rest := by
  have hwrites : ∀ g, .rejectIf g ∉ startWrites k ++ [.create k] := by
    cases k <;> simp [startWrites]
  rw [startCode, List.append_assoc] at h
  have hsuf := suffix_of_head_not_mem h fun hmem => by
    obtain ⟨g, -, hg⟩ := List.mem_map.mp hmem
    exact ha g hg.symm
  exact ⟨hsuf, fun g hg => hwrites g (hsuf.subset (List.mem_cons_of_mem a hg))⟩

/-- Once a start function writes, the handles that its guards are about are
    NULL. -/
theorem UiOk.past_guards (h : UiOk (a :: rest) sh) (hmem : .create k ∈ a :: rest)
    (ha : ∀ g, a ≠ .rejectIf g) {k' : Worker} (hk' : .handle k' ∈ startGuards k) :
    sh.handle k' = none := by
  refine (h.guarded k k' hmem hk').resolve_left fun hguard => ?_
  rcases List.mem_cons.mp hguard with h1 | h1
  · exact ha _ h1.symm
  · exact (start_past_guards (h.creating k hmem) ha).2 _ h1

/-- The UI task creates a worker last, with those handles NULL. -/
theorem UiOk.at_create (h : UiOk (.create k :: rest) sh) :
    rest = [] ∧ ∀ k', .handle k' ∈ startGuards k → sh.handle k' = none := by
  refine ⟨(create_last (h.creating k List.mem_cons_self)).2, fun k' hk' => ?_⟩
  exact h.past_guards List.mem_cons_self (fun _ hg => nomatch hg) hk'

theorem own_handle_mem_startGuards (k : Worker) : .handle k ∈ startGuards k := by
  cases k <;> simp [startGuards, loopbackGuards]

theorem loopback_handle_mem_startGuards (k : Worker) :
    .handle .loopback ∈ startGuards k := by
  cases k <;> simp [startGuards, loopbackGuards]

/-- A step of a task leaves a handle, clears one that is NULL already or its
    own, or creates a worker where that handle and the loopback's are NULL. -/
theorem task_handle (h : TaskOk i ⟨ρ, a :: rest⟩ sh tr) (fresh : Nat) (r : Reply)
    (k : Worker) :
    (runInstr ρ i fresh a sh r).shared.handle k = sh.handle k ∨
      (ρ = .worker k ∧ a = .clearHandle k ∧ rest = [] ∧
        (runInstr ρ i fresh a sh r).shared.handle k = none) ∨
      (ρ = .ui ∧ a = .create k ∧ sh.handle k = none ∧ sh.handle .loopback = none ∧
        (runInstr ρ i fresh a sh r).shared.handle k = some fresh) := by
  have hset : (runInstr ρ i fresh a sh r).shared.handle k = sh.handle k ∨ _ :=
    runInstr_handle k
  rcases hset with h1 | ⟨rfl, h1⟩ | ⟨rfl, -, h1⟩
  · exact .inl h1
  · cases ρ with
    | ui => exact .inl (h1.trans (h.2.clearing k List.mem_cons_self).symm)
    | worker k' =>
        obtain ⟨rfl, rfl⟩ := h.position.clearHandle
        exact .inr (.inl ⟨rfl, rfl, rfl, h1⟩)
  · cases ρ with
    | ui =>
        obtain ⟨-, hguard⟩ := h.2.at_create
        exact .inr (.inr ⟨rfl, rfl, hguard k (own_handle_mem_startGuards k),
          hguard .loopback (loopback_handle_mem_startGuards k), h1⟩)
    | worker k' => exact absurd List.mem_cons_self h.position.create_not_mem

/-- A handle that is NULL stays so, unless the UI task is at the end of a start
    with no loopback there. -/
theorem null_stays (h : TaskOk i ⟨ρ, a :: rest⟩ sh tr) (fresh : Nat) (r : Reply) {k : Worker}
    (hsafe : ρ = .ui → rest ≠ [] ∨ sh.handle .loopback ≠ none) (hnull : sh.handle k = none) :
    (runInstr ρ i fresh a sh r).shared.handle k = none := by
  rcases task_handle h fresh r k with h1 | ⟨-, -, -, h1⟩ | ⟨rfl, rfl, -, hloop, -⟩
  · exact h1.trans hnull
  · exact h1
  · rcases hsafe rfl with h1 | h1
    · exact absurd h.2.at_create.1 h1
    · exact absurd hloop h1

/-- A step of a task leaves a channel variable, makes it NULL, or opens it as
    the worker whose handle it is. -/
theorem task_chan (h : TaskOk i ⟨ρ, a :: rest⟩ sh tr) (fresh : Nat) (r : Reply)
    (s : Slot) :
    (runInstr ρ i fresh a sh r).shared.chan s = sh.chan s ∨
      (runInstr ρ i fresh a sh r).shared.chan s = none ∨
      (ρ = .worker s.owner ∧ a = .newChannel s ∧ sh.handle s.owner = some i ∧
        (runInstr ρ i fresh a sh r).shared.chan s = some sh.channels.length ∧
        (runInstr ρ i fresh a sh r).shared.channels = sh.channels ++ [i]) := by
  have hset : (runInstr ρ i fresh a sh r).shared.chan s = sh.chan s ∨ _ := runInstr_chan s
  rcases hset with h1 | ⟨-, h1⟩ | ⟨rfl, -, h1, h2⟩
  · exact .inl h1
  · exact .inr (.inl h1)
  · cases ρ with
    | ui => exact (h.2.code _ List.mem_cons_self).elim
    | worker k =>
        obtain rfl : s.owner = k := h.position.owner rfl
        exact .inr (.inr ⟨rfl, rfl, h.live (List.cons_ne_nil _ _), h1, h2⟩)

/-- A channel and the event of its opening appear together. -/
theorem opened_event {c j : Nat}
    (h : .opened c j ∈ (runInstr ρ i fresh a sh r).events) :
    (runInstr ρ i fresh a sh r).shared.channels[c]? = some j := by
  cases a with
  | newChannel s =>
      by_cases he : r.err = espOk
      · simp only [runInstr, if_pos he, List.mem_singleton, AudioEv.opened.injEq] at h ⊢
        obtain ⟨rfl, rfl⟩ := h
        exact List.getElem?_concat_length
      · simp [runInstr, he] at h
  | setState | setStop | rejectIf =>
      simp only [runInstr] at h
      split at h <;> simp at h
  | create | call => simp [runInstr] at h
  | _ => exact absurd h List.not_mem_nil

theorem channel_event {c j : Nat} (hge : sh.channels.length ≤ c)
    (h : (runInstr ρ i fresh a sh r).shared.channels[c]? = some j) :
    .opened c j ∈ (runInstr ρ i fresh a sh r).events := by
  have hnone : sh.channels[c]? = none := List.getElem?_eq_none hge
  cases a with
  | newChannel s =>
      by_cases he : r.err = espOk
      · simp only [runInstr, if_pos he, Shared.setChan] at h ⊢
        rw [List.getElem?_append_right hge, List.getElem?_singleton] at h
        obtain ⟨hc, rfl⟩ : c - sh.channels.length = 0 ∧ i = j := by simpa using h
        obtain rfl : c = sh.channels.length := by omega
        exact List.mem_singleton.mpr rfl
      · simp only [runInstr, if_neg he] at h
        cases hnone.symm.trans h
  | create k =>
      have hsame : (runInstr ρ i fresh (.create k) sh r).shared.channels = sh.channels := by
        by_cases hc : r.created = true <;> simp [runInstr, hc, Shared.setHandle]
      rw [hsame, hnone] at h
      cases h
  | _ => cases hnone.symm.trans h

theorem i2s_event {op : ChanOp} {c : Option Nat} {j : Nat}
    (h : .i2s op c j ∈ (runInstr ρ i fresh a sh r).events) :
    j = i ∧ ∃ s, a = .call s op c := by
  cases a with
  | call s op' c' =>
      obtain ⟨rfl, rfl, rfl⟩ : op = op' ∧ c = c' ∧ j = i := by simpa [runInstr] using h
      exact ⟨rfl, s, rfl⟩
  | setState | setStop | rejectIf | newChannel =>
      simp only [runInstr] at h
      split at h <;> simp at h
  | create => simp [runInstr] at h
  | _ => exact absurd h List.not_mem_nil

end Moves

/-! ## The moving task's own assertion -/

section Own

variable {k : Worker} {i fresh : Nat} {a : Instr} {rest : List Instr} {sh : Shared}
  {r : Reply} {tr : List AudioEv}

/-- Nobody but a worker itself clears its handle, and no worker creates one. -/
theorem WorkerOk.others_handle (h : WorkerOk k i (a :: rest) sh) {k' : Worker}
    (hne : k' ≠ k) :
    (runInstr (.worker k) i fresh a sh r).shared.handle k' = sh.handle k' := by
  have ht : TaskOk i ⟨.worker k, a :: rest⟩ sh [] := h
  rcases task_handle ht fresh r k' with h1 | ⟨h1, -⟩ | ⟨h1, -⟩
  · exact h1
  · exact absurd (Role.worker.inj h1).symm hne
  · exact nomatch h1

/-- **The hand-off.**  Each test that goes on has seen its handle NULL. -/
theorem handOff_step (h : WorkerOk .loopback i (a :: rest) sh) :
    HandOff (runInstr (.worker .loopback) i fresh a sh r).shared
      ((runInstr (.worker .loopback) i fresh a sh r).next.after rest) := by
  have frame : ∀ k, k ≠ .loopback → sh.handle k = none →
      (runInstr (.worker .loopback) i fresh a sh r).shared.handle k = none :=
    fun k hne hk => (h.others_handle hne).trans hk
  have hand := h.handOff rfl
  generalize htodo : a :: rest = todo at hand
  cases hand with
  | @testing pre cs hpre htested =>
      cases pre with
      | nil =>
          -- one of the tests after the wait
          obtain ⟨rfl, rfl⟩ := List.cons.inj htodo
          cases cs with
          | nil =>
              -- all of them have found NULL
              refine .tested fun _ _ k hne => frame k hne ?_
              exact (htested k hne).resolve_left List.not_mem_nil
          | cons c cs =>
              show HandOff sh ((if _ then _ else _ : Next Instr).after loopbackSetup)
              split
              · rename_i hnull
                show HandOff sh ([] ++ .recheck cs :: loopbackSetup)
                refine .testing (fun _ => List.not_mem_nil) fun k hne => ?_
                rcases htested k hne with h1 | h1
                · rcases List.mem_cons.mp h1 with rfl | h2
                  · exact .inr (Option.isNone_iff_eq_none.mp hnull)
                  · exact .inl h2
                · exact .inr h1
              · -- TIMEOUT: nothing is opened on the way out
                refine .tested fun s hs => ?_
                simp [failWith, cleanup, closes, leave] at hs
      | cons x pre =>
          obtain ⟨rfl, rfl⟩ := List.cons.inj htodo
          rcases h.position.next i fresh sh r with ⟨q, hq⟩ | ⟨q, hq⟩
          · have hcode : ∀ b ∈ q, Brought sh a b := by
              intro b hb
              have hmem : b ∈ (runInstr (.worker .loopback) i fresh a sh r).next.code := by
                rw [hq]
                exact hb
              exact runInstr_brought b hmem
            rw [hq]
            show HandOff _ (q ++ (pre ++ .recheck cs :: loopbackSetup))
            rw [← List.append_assoc]
            refine .testing (fun s hs => ?_) fun k hne => (htested k hne).imp_right (frame k hne)
            rcases List.mem_append.mp hs with h1 | h1
            · exact hcode _ h1
            · exact hpre s (List.mem_cons_of_mem a h1)
          · refine .tested fun s hs => ?_
            obtain ⟨-, q', hq', -⟩ := rooted_after id hs
            exact nomatch hq.symm.trans hq'
  | tested hall =>
      subst htodo
      refine .tested fun s hs k hne => frame k hne ?_
      exact hall s (List.mem_cons_of_mem a (rooted_after id hs).1) k hne

/-- A worker's step keeps its own assertion. -/
theorem WorkerOk.step (h : WorkerOk k i (a :: rest) sh) (hsh : SharedOk sh tr) :
    WorkerOk k i ((runInstr (.worker k) i fresh a sh r).next.after rest)
      (runInstr (.worker k) i fresh a sh r).shared where
  position := h.position.step
  live := by
    intro hne
    have ht : TaskOk i ⟨.worker k, a :: rest⟩ sh [] := h
    rcases task_handle ht fresh r k with h1 | ⟨-, rfl, rfl, -⟩ | ⟨h1, -⟩
    · exact h1.trans (h.live (List.cons_ne_nil _ _))
    · exact absurd rfl hne
    · exact nomatch h1
  closing := fun _ hs _ hopen => closing_step h hs hopen
  opening := fun _ hmem => opening_step h hmem
  captured := fun _ _ _ hmem => captured_step h hsh hmem
  handOff := by
    rintro rfl
    exact handOff_step h

/-- The code that an instruction of the UI task brings in; only a guard jumps. -/
theorem ui_next (h : UiCode a) :
    (∃ q, (runInstr .ui i fresh a sh r).next = .goOn q ∧ ∀ b ∈ q, UiCode b) ∨
      (∃ g, a = .rejectIf g) ∧ (runInstr .ui i fresh a sh r).next = .jump [] := by
  cases a with
  | rejectIf g =>
      simp only [runInstr]
      split
      · exact .inr ⟨⟨g, rfl⟩, rfl⟩
      · exact .inl ⟨[], rfl, by simp⟩
  | requestStop | stopUnlessError | create | leaveAudio =>
      refine .inl ⟨_, rfl, ?_⟩
      split <;> simp [UiCode]
  | toggleMute => exact .inl ⟨_, rfl, by simp [UiCode]⟩
  | setState | setError | setStop | setMeter | clearHandle | setMenu =>
      exact .inl ⟨[], rfl, by simp⟩
  | _ => exact h.elim

/-- A start function goes on, or returns from a guard whose condition holds. -/
theorem start_next (h : a :: rest <:+ startCode k) (hrest : rest ≠ []) :
    (runInstr ρ i fresh a sh r).next = .goOn [] ∨
      (runInstr ρ i fresh a sh r).next = .jump [] := by
  have hmem : a ∈ startCode k := h.subset List.mem_cons_self
  have hwrites : ∀ b ∈ startWrites k, (runInstr ρ i fresh b sh r).next = .goOn [] := by
    cases k <;> simp [startWrites, runInstr]
  rw [startCode, List.mem_append, List.mem_append] at hmem
  rcases hmem with (h1 | h1) | h1
  · obtain ⟨g, -, rfl⟩ := List.mem_map.mp h1
    simp only [runInstr]
    split
    · exact .inr rfl
    · exact .inl rfl
  · exact .inl (hwrites a h1)
  · obtain rfl := List.mem_singleton.mp h1
    exact absurd (create_last h).2 hrest

/-- The UI task clears a handle after a failed creation only. -/
theorem ui_clears (h : UiCode a)
    (hmem : .clearHandle k ∈ (runInstr .ui i fresh a sh r).next.code) :
    a = .create k ∧ r.created = false := by
  cases a with
  | create k' =>
      by_cases hc : r.created = true
      · simp [runInstr, hc, Next.code] at hmem
      · obtain rfl : k = k' := by simpa [runInstr, hc, Next.code] using hmem
        exact ⟨rfl, Bool.eq_false_iff.mpr hc⟩
  | requestStop | stopUnlessError | leaveAudio | rejectIf =>
      simp only [runInstr] at hmem
      split at hmem <;> simp [Next.code] at hmem
  | toggleMute | setState | setError | setStop | setMeter | clearHandle | setMenu =>
      simp [runInstr, Next.code] at hmem
  | _ => exact h.elim

/-- A step of the UI task keeps its own assertion. -/
theorem UiOk.step (h : UiOk (a :: rest) sh) :
    UiOk ((runInstr .ui 0 fresh a sh r).next.after rest)
      (runInstr .ui 0 fresh a sh r).shared where
  code := by
    intro b hb
    rcases Next.mem_after hb with h1 | h1
    · have hn : (∃ q, (runInstr .ui 0 fresh a sh r).next = .goOn q ∧ ∀ b ∈ q, UiCode b) ∨ _ :=
        ui_next (h.code a List.mem_cons_self)
      rcases hn with ⟨q, hq, hcode⟩ | ⟨-, hq⟩
      · rw [hq] at h1
        exact hcode b h1
      · rw [hq] at h1
        exact absurd h1 List.not_mem_nil
    · exact h.code b (List.mem_cons_of_mem a h1)
  creating := by
    intro k hmem
    obtain ⟨hrest, q, hq, -⟩ := rooted_after id hmem
    have hsuf := h.creating k (List.mem_cons_of_mem a hrest)
    rcases start_next hsuf (List.ne_nil_of_mem hrest) with h1 | h1
    · rw [h1]
      exact (List.suffix_cons a rest).trans hsuf
    · cases hq.symm.trans h1
  guarded := by
    intro k k' hmem hk'
    obtain ⟨hrest, q, hq, -⟩ := rooted_after id hmem
    rcases h.guarded k k' (List.mem_cons_of_mem a hrest) hk' with h1 | h1
    · rcases List.mem_cons.mp h1 with rfl | h2
      · -- the guard itself: it has not returned
        right
        by_contra hsome
        have hholds : Guard.holds sh (.handle k') = true :=
          Option.isSome_iff_ne_none.mpr hsome
        simp only [runInstr, if_pos hholds] at hq
        cases hq
      · left
        rw [hq]
        exact List.mem_append_right q h2
    · have ht : TaskOk 0 ⟨.ui, a :: rest⟩ sh [] := ⟨rfl, h⟩
      exact .inr (null_stays ht fresh r (fun _ => .inl (List.ne_nil_of_mem hrest)) h1)
  clearing := by
    intro k hmem
    rcases Next.mem_after hmem with h1 | h1
    · obtain ⟨rfl, hc⟩ := ui_clears (h.code a List.mem_cons_self) h1
      have hnull := h.at_create.2 k (own_handle_mem_startGuards k)
      simpa [runInstr, hc] using hnull
    · have ht : TaskOk 0 ⟨.ui, a :: rest⟩ sh [] := ⟨rfl, h⟩
      exact null_stays ht fresh r (fun _ => .inl (List.ne_nil_of_mem h1))
        (h.clearing k (List.mem_cons_of_mem a h1))

end Own

/-! ## The shared assertion and the other tasks -/

section Step

variable {k : Worker} {ρ : Role} {i j fresh : Nat} {a : Instr} {rest todo : List Instr}
  {sh : Shared} {r : Reply} {tr : List AudioEv}

/-- **A step of any task keeps the shared assertion.** -/
theorem sharedOk_step (ht : TaskOk i ⟨ρ, a :: rest⟩ sh tr) (hsh : SharedOk sh tr) :
    SharedOk (runInstr ρ i fresh a sh r).shared
      (tr ++ (runInstr ρ i fresh a sh r).events) where
  owner := by
    intro s c hc
    rcases task_chan ht fresh r s with h1 | h1 | ⟨-, rfl, hlive, h1, h2⟩
    · rw [h1] at hc
      obtain ⟨j, hj, hown⟩ := hsh.owner s c hc
      refine ⟨j, ?_, channels_grow hown⟩
      rcases task_handle ht fresh r s.owner with h2 | ⟨rfl, rfl, rfl, -⟩ | ⟨-, -, h2, -⟩
      · exact h2.trans hj
      · -- the last access of the owner: the channel is closed
        exact nomatch (WorkerOk.closed ht rfl).symm.trans hc
      · exact nomatch h2.symm.trans hj
    · exact nomatch h1.symm.trans hc
    · obtain rfl := Option.some.inj (h1.symm.trans hc)
      refine ⟨i, ?_, ?_⟩
      · rcases task_handle ht fresh r s.owner with h3 | ⟨-, h3, -⟩ | ⟨-, h3, -⟩
        · exact h3.trans hlive
        · exact nomatch h3
        · exact nomatch h3
      · rw [h2]
        exact List.getElem?_concat_length
  exclusive := by
    intro s k hs hopen hk
    have hnull : sh.handle k = none ∧ sh.handle .loopback ≠ none := by
      rcases task_chan ht fresh r s with h1 | h1 | ⟨rfl, rfl, hlive, -⟩
      · rw [h1] at hopen
        obtain ⟨c, hc⟩ := Option.ne_none_iff_exists'.mp hopen
        obtain ⟨j, hj, -⟩ := hsh.owner s c hc
        rw [hs] at hj
        exact ⟨hsh.exclusive s k hs hopen hk, by simp [hj]⟩
      · exact absurd h1 hopen
      · -- the loopback opens a channel: its hand-off is over
        rw [hs] at hlive
        refine ⟨?_, by simp [hlive]⟩
        have hand : HandOff sh (.newChannel s :: rest) := (ht : WorkerOk _ _ _ _).handOff hs
        generalize htodo : Instr.newChannel s :: rest = todo at hand
        cases hand with
        | @testing pre cs hpre htested =>
            cases pre with
            | nil => exact nomatch htodo
            | cons x pre =>
                obtain ⟨rfl, -⟩ := List.cons.inj htodo
                exact absurd List.mem_cons_self (hpre s)
        | tested hall => exact hall s (htodo ▸ List.mem_cons_self) k hk
    rcases task_handle ht fresh r k with h1 | ⟨-, -, -, h1⟩ | ⟨-, -, -, h1, -⟩
    · exact h1.trans hnull.1
    · exact h1
    · -- nothing is created beside a loopback
      exact absurd h1 hnull.2
  opened := by
    intro c j
    rw [List.mem_append]
    constructor
    · rintro (h1 | h1)
      · exact channels_grow ((hsh.opened c j).mp h1)
      · exact opened_event h1
    · intro hc
      rcases Nat.lt_or_ge c sh.channels.length with hlt | hge
      · obtain ⟨later, hlater⟩ : sh.channels <+: (runInstr ρ i fresh a sh r).shared.channels :=
          runInstr_channels
        rw [← hlater, List.getElem?_append_left hlt] at hc
        exact .inl ((hsh.opened c j).mpr hc)
      · exact .inr (channel_event hge hc)
  used := by
    intro op c j hmem
    rcases List.mem_append.mp hmem with h1 | h1
    · exact channels_grow (hsh.used op c j h1)
    · obtain ⟨rfl, s, rfl⟩ := i2s_event h1
      cases ρ with
      | ui => exact (ht.2.code _ List.mem_cons_self).elim
      | worker k => exact channels_grow (WorkerOk.captured ht s op c List.mem_cons_self)

/-- Two tasks of one worker that have code left are one task. -/
theorem WorkerOk.unique {todo' : List Instr} (h : WorkerOk k i todo sh)
    (h' : WorkerOk k j todo' sh) (hne : todo ≠ []) (hne' : todo' ≠ []) : i = j :=
  Option.some.inj ((h.live hne).symm.trans (h'.live hne'))

/-- A step of another task keeps a worker's assertion. -/
theorem WorkerOk.frame (ht : TaskOk i ⟨ρ, a :: rest⟩ sh tr) (h : WorkerOk k j todo sh)
    (hne : j ≠ i) : WorkerOk k j todo (runInstr ρ i fresh a sh r).shared where
  position := h.position
  live := by
    intro htodo
    have hj := h.live htodo
    rcases task_handle ht fresh r k with h1 | ⟨rfl, -⟩ | ⟨-, -, h1, -⟩
    · exact h1.trans hj
    · exact absurd (h.unique ht htodo (List.cons_ne_nil _ _)) hne
    · exact nomatch h1.symm.trans hj
  closing := by
    intro s hs htodo hopen
    rcases task_chan ht fresh r s with h1 | h1 | ⟨rfl, -⟩
    · exact h.closing s hs htodo (h1 ▸ hopen)
    · exact absurd h1 hopen
    · subst hs
      exact absurd (h.unique ht htodo (List.cons_ne_nil _ _)) hne
  opening := h.opening
  captured := fun s op c hmem => channels_grow (h.captured s op c hmem)
  handOff := by
    intro hk
    have hstays : todo ≠ [] → ∀ k', k' ≠ .loopback → sh.handle k' = none →
        (runInstr ρ i fresh a sh r).shared.handle k' = none := by
      intro htodo k' _ hnull
      have hlive : sh.handle .loopback ≠ none := by simp [← hk, h.live htodo]
      exact null_stays ht fresh r (fun _ => .inr hlive) hnull
    cases h.handOff hk with
    | testing hpre htested =>
        refine .testing hpre fun k' hk' => (htested k' hk').imp_right (hstays ?_ k' hk')
        exact List.append_ne_nil_of_right_ne_nil _ (List.cons_ne_nil _ _)
    | tested hall =>
        refine .tested fun s hs k' hk' => hstays ?_ k' hk' (hall s hs k' hk')
        exact List.ne_nil_of_mem hs

/-- A worker's step keeps the assertion of the UI task. -/
theorem UiOk.frame (ht : TaskOk i ⟨ρ, a :: rest⟩ sh tr) (h : UiOk todo sh) (hne : i ≠ 0) :
    UiOk todo (runInstr ρ i fresh a sh r).shared := by
  have hstays : ∀ k, sh.handle k = none →
      (runInstr ρ i fresh a sh r).shared.handle k = none := by
    intro k hnull
    refine null_stays ht fresh r ?_ hnull
    rintro rfl
    exact absurd ht.1 hne
  exact {
    code := h.code
    creating := h.creating
    guarded := fun k k' hmem hk' => (h.guarded k k' hmem hk').imp_right (hstays k')
    clearing := fun k hmem => hstays k (h.clearing k hmem) }

/-- The code of a worker: early code before its cleanup. -/
theorem workerCode_eq (k : Worker) :
    ∃ front, workerCode k = front ++ cleanup k ∧ ∀ b ∈ front, Early k b := by
  cases k with
  | mic => exact ⟨_, rfl, by simp [Early, Slot.owner]⟩
  | dac => exact ⟨_, rfl, by simp [Early, Slot.owner]⟩
  | loopback =>
      refine ⟨loopbackHandOff ++ .recheck busy :: loopbackSetup.take 12, rfl, ?_⟩
      simp [loopbackHandOff, loopbackSetup, Early, Slot.owner]

theorem workerCode_position (k : Worker) : Position k (workerCode k) := by
  obtain ⟨front, hcode, hearly⟩ := workerCode_eq k
  rw [hcode, cleanup_eq, ← List.append_assoc]
  refine .early fun b hb => ?_
  rcases List.mem_append.mp hb with h1 | h1
  · exact hearly b h1
  · exact closes_early k b h1

/-- A worker begins with its assertion. -/
theorem WorkerOk.spawned (ht : TaskOk i ⟨ρ, a :: rest⟩ sh tr) (hsh : SharedOk sh tr)
    (hspawn : (runInstr ρ i fresh a sh r).spawn = some (.worker k)) :
    WorkerOk k fresh (workerCode k) (runInstr ρ i fresh a sh r).shared := by
  obtain ⟨k', rfl, hc, hk⟩ := runInstr_spawn hspawn
  obtain rfl := Role.worker.inj hk
  cases ρ with
  | worker k' => exact absurd List.mem_cons_self (ht : WorkerOk _ _ _ _).position.create_not_mem
  | ui =>
      have hnull := ht.2.at_create.2 k (own_handle_mem_startGuards k)
      exact {
        position := workerCode_position k
        live := fun _ => by simp [runInstr, hc]
        closing := by
          intro s hs _ hopen
          rcases task_chan ht fresh r s with h1 | h1 | ⟨h1, -⟩
          · obtain ⟨c, hopened⟩ := Option.ne_none_iff_exists'.mp (h1 ▸ hopen)
            obtain ⟨j, hj, -⟩ := hsh.owner s c hopened
            rw [hs, hnull] at hj
            cases hj
          · exact absurd h1 hopen
          · cases h1
        opening := by
          intro s _
          obtain ⟨front, hcode, -⟩ := workerCode_eq k
          exact ⟨front, hcode.symm⟩
        captured := by
          intro s op c hmem
          cases k <;> simp [workerCode, micCaptureTask, dacToneTask, audioLoopbackTask,
            loopbackHandOff, loopbackSetup, cleanup, closes, leave] at hmem
        handOff := by
          rintro rfl
          have hfront : ∀ s, .newChannel s ∉ loopbackHandOff := by simp [loopbackHandOff]
          refine .testing hfront fun k hk => .inl ?_
          cases k with
          | mic | dac => simp [busy]
          | loopback => exact absurd rfl hk }

/-- A creation is the end of a start function. -/
theorem create_mem_code {c : Callback} (h : .create k ∈ c.code) : c = .start k := by
  cases c with
  | start k' =>
      have hk : k = k' := by
        cases k' <;> simpa [Callback.code, startCode, startWrites] using h
      rw [hk]
  | _ => simp [Callback.code, showMenu, sdCardMount] at h

theorem clearHandle_not_mem_code {c : Callback} : .clearHandle k ∉ c.code := by
  cases c with
  | start k' => cases k' <;> simp [Callback.code, startCode, startWrites]
  | _ => simp [Callback.code, showMenu, sdCardMount]

theorem code_ui (c : Callback) : ∀ b ∈ c.code, UiCode b := by
  cases c with
  | start k =>
      cases k <;> simp [Callback.code, startCode, startGuards, loopbackGuards, startWrites, UiCode]
  | stop | loopbackGainChanged | loopbackToggleMute => simp [Callback.code, UiCode]
  | audioMicBack menu | navigate menu =>
      rw [Callback.code, showMenu]
      split <;> simp [sdCardMount, sdCardMountGuards, UiCode]
  | sdMount => simp [Callback.code, sdCardMount, sdCardMountGuards, UiCode]

/-- A callback begins with the assertion of the UI task. -/
theorem UiOk.called (c : Callback) (sh : Shared) : UiOk c.code sh where
  code := code_ui c
  creating := by
    intro k hmem
    obtain rfl := create_mem_code hmem
    exact List.suffix_refl _
  guarded := by
    intro k k' hmem hk'
    obtain rfl := create_mem_code hmem
    left
    rw [Callback.code, startCode, List.mem_append, List.mem_append]
    exact .inl (.inl (List.mem_map_of_mem hk'))
  clearing := fun k hmem => absurd hmem clearHandle_not_mem_code

end Step

/-! ## Every run -/

/-- The assertion of the pool. -/
abbrev Owned : AudioPool → List AudioEv → Prop := Holds SharedOk TaskOk

theorem sharedOk_boot : SharedOk bootShared [] where
  owner := fun _ _ h => nomatch h
  exclusive := fun _ _ _ h _ => absurd rfl h
  opened := fun _ _ => ⟨fun h => absurd h List.not_mem_nil, fun h => nomatch h⟩
  used := fun _ _ _ h => absurd h List.not_mem_nil

theorem owned_boot : Owned bootAudio [] := by
  refine ⟨sharedOk_boot, fun i t hi => ?_⟩
  obtain ⟨rfl, rfl⟩ := boot_task hi
  exact ⟨rfl, {
    code := fun _ h => absurd h List.not_mem_nil
    creating := fun _ h => absurd h List.not_mem_nil
    guarded := fun _ _ h => absurd h List.not_mem_nil
    clearing := fun _ h => absurd h List.not_mem_nil }⟩

/-- **One step of any task keeps the assertion of the pool.** -/
theorem owned_step {p p' : AudioPool} {l : Lab Reply Callback} {tr es : List AudioEv}
    (h : Owned p tr) (hs : audio.step p l = some (p', es)) : Owned p' (tr ++ es) := by
  refine holds_step h ?_ ?_ ?_ ?_ hs
  · -- the moving task
    intro i r ρ a rest _ _ ht
    refine ⟨sharedOk_step ht h.1, ?_⟩
    cases ρ with
    | ui =>
        obtain ⟨rfl, hui⟩ := ht
        exact ⟨rfl, hui.step⟩
    | worker k => exact WorkerOk.step ht h.1
  · -- the other tasks
    rintro i r ρ a rest j ⟨ρ', todo⟩ _ _ ht hne _ hu
    cases ρ' with
    | ui =>
        obtain ⟨rfl, hui⟩ := hu
        exact ⟨rfl, hui.frame ht (Ne.symm hne)⟩
    | worker k => exact WorkerOk.frame ht hu hne
  · intro i r ρ a rest ρ' _ _ ht o hspawn
    obtain ⟨k, rfl, -, rfl⟩ := runInstr_spawn hspawn
    exact WorkerOk.spawned ht h.1 hspawn
  · intro i c ρ code _ _ ht hcall
    obtain ⟨rfl, rfl⟩ := audio_call_inv hcall
    exact ⟨ht.1, UiOk.called c p.shared⟩

theorem owned_of_run {ls : List (Lab Reply Callback)} {p : AudioPool} {tr : List AudioEv}
    (h : Run audio bootAudio ls p tr) : Owned p tr :=
  h.invariant owned_boot fun _ _ _ _ _ hP hs => owned_step hP hs

/-- The UI task never goes. -/
theorem ui_of_run {ls : List (Lab Reply Callback)} {p : AudioPool} {tr : List AudioEv}
    (h : Run audio bootAudio ls p tr) : ∃ todo, p.tasks[0]? = some ⟨.ui, todo⟩ := by
  refine h.invariant (P := fun p _ => ∃ todo, p.tasks[0]? = some ⟨.ui, todo⟩) ⟨[], rfl⟩ ?_
  rintro p tr l p' es ⟨todo, h0⟩ hs
  obtain ⟨⟨ρ, todo'⟩, h0', hrole⟩ := role_step hs h0
  obtain rfl : ρ = .ui := hrole
  exact ⟨todo', h0'⟩

/-- A task of the worker between its creation and the clearing of its handle. -/
def Lives (k : Worker) (t : Task Role Instr) : Prop :=
  t.role = .worker k ∧ .clearHandle k ∈ t.todo

structure ControllersOwned (p : AudioPool) (tr : List AudioEv) : Prop where
  single : ∀ (k : Worker) (i j : Nat) (t u : Task Role Instr),
    p.tasks[i]? = some t → p.tasks[j]? = some u → Lives k t → Lives k u → i = j
  i2s0 : p.shared.chan .micRx = none ∨ p.shared.chan .loopbackRx = none
  i2s1 : p.shared.chan .dacTx = none ∨ p.shared.chan .loopbackTx = none
  /-- whoever calls the driver on a channel opened it, and nobody else did -/
  creator : ∀ op c i, .i2s op (some c) i ∈ tr →
    .opened c i ∈ tr ∧ ∀ j, .opened c j ∈ tr → j = i

/-- An open channel of the loopback shuts the other worker's channel. -/
theorem SharedOk.one_owner {sh : Shared} {tr : List AudioEv} (h : SharedOk sh tr)
    {s s' : Slot} (hs : s.owner ≠ .loopback) (hs' : s'.owner = .loopback) :
    sh.chan s = none ∨ sh.chan s' = none := by
  by_contra hboth
  obtain ⟨hopen, hopen'⟩ := not_or.mp hboth
  obtain ⟨c, hc⟩ := Option.ne_none_iff_exists'.mp hopen
  obtain ⟨i, hi, -⟩ := h.owner s c hc
  exact nomatch (h.exclusive s' s.owner hs' hopen' hs).symm.trans hi

/-- **One owner for each controller.**  After every run, of any interleaving
    and with any driver results, each worker has one task at most, no
    controller is open in two variables, and every driver call on a channel was
    made by the task that opened it. -/
theorem controllers_owned {ls : List (Lab Reply Callback)} {p : AudioPool}
    {tr : List AudioEv} (h : Run audio bootAudio ls p tr) : ControllersOwned p tr := by
  obtain ⟨hsh, htasks⟩ := owned_of_run h
  refine ⟨?_, hsh.one_owner (by decide) rfl, hsh.one_owner (by decide) rfl, ?_⟩
  · rintro k i j ⟨_, todo⟩ ⟨_, todo'⟩ hi hj ⟨rfl, hmem⟩ ⟨rfl, hmem'⟩
    have hok : WorkerOk k i todo p.shared := htasks i _ hi
    exact hok.unique (htasks j _ hj) (List.ne_nil_of_mem hmem) (List.ne_nil_of_mem hmem')
  · intro op c i hmem
    have hcreator := hsh.used op c i hmem
    refine ⟨(hsh.opened c i).mpr hcreator, fun j hj => ?_⟩
    exact Option.some.inj (((hsh.opened c j).mp hj).symm.trans hcreator)

/-- From start-up to the audio page. -/
def openAudioPage : List (Lab Reply Callback) :=
  .call 0 (.navigate .hwAudioMic) :: List.replicate 2 (.run 0 {})

/-- The microphone worker is started, opens its channel and reads from it. -/
def meterOn : List (Lab Reply Callback) :=
  openAudioPage ++ .call 0 (.start .mic) :: List.replicate 18 (.run 0 {}) ++
    List.replicate 10 (.run 1 {})

theorem controllers_owned_at :
    ∃ p tr, Run audio bootAudio meterOn p tr ∧ .i2s .read (some 0) 1 ∈ tr ∧
      p.shared.chan .micRx = some 0 ∧ ControllersOwned p tr := by
  have hrun : ∃ p tr, exec audio bootAudio meterOn = some (p, tr) ∧
      .i2s .read (some 0) 1 ∈ tr ∧ p.shared.chan .micRx = some 0 :=
    ⟨_, _, rfl, by decide, rfl⟩
  obtain ⟨p, tr, hexec, hread, hchan⟩ := hrun
  exact ⟨p, tr, run_of_exec hexec, hread, hchan, controllers_owned (run_of_exec hexec)⟩

end AudioOwnership
