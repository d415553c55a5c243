import KnobFirmware.StepMachineProofs
import Mathlib.Data.BitVec
import Mathlib.Algebra.BigOperators.Group.List.Basic

/-! # The rotary encoder path — from debounced detents to consumed steps

    A detent travels through three tasks.  The knob timer calls `_knob_left_cb`
    or `_knob_right_cb`, which set bit 0 or bit 1 of the event group
    `knob_even_`; `user_encoder_loop_task` waits for the bits, clears them and
    does `encoder_steps--` or `encoder_steps++`; the UI task reads
    `encoder_steps` in `encoder_scroll_timer_cb`, resets it and consumes the
    value, while `show_menu` resets it without looking.

    Nothing is locked, so `++` and `--` are a read and a later write, and the
    timer's read and reset are two steps as well.  The machine below interleaves
    these accesses freely.  Its events record every callback, every increment or
    decrement, and every value the UI consumed or discarded. -/

namespace KnobEncoder

open StepMachine

/-! ## The event group -/

/-- `EventBits_t`. -/
abbrev EventBits := BitVec 32

/-- `BIT_EVEN_ALL`. -/
def bitEvenAll : EventBits := 0x00ffffff#32

/-- `SET_BIT(reg, bit)`. -/
def setBit (reg : EventBits) (bit : Nat) : EventBits := reg ||| (1#32 <<< bit)

/-- `READ_BIT(reg, bit)`. -/
def readBit (reg : EventBits) (bit : Nat) : Bool := reg.getLsbD bit

/-- `xEventGroupSetBits`: the bits are ORed into the group. -/
def xEventGroupSetBits (group bits : EventBits) : EventBits := group ||| bits

/-- `xEventGroupWaitBits` with clear-on-exit and any-bit: blocked while no bit
    of `mask` is set, otherwise the group's bits and the group without `mask`. -/
def xEventGroupWaitBits (group mask : EventBits) : Option (EventBits × EventBits) :=
  if group &&& mask = 0#32 then none else some (group, group &&& ~~~mask)

/-- `_knob_left_cb` on the event group. -/
def knobLeftCb (group : EventBits) : EventBits :=
  xEventGroupSetBits group (setBit 0#32 0)

/-- `_knob_right_cb` on the event group. -/
def knobRightCb (group : EventBits) : EventBits :=
  xEventGroupSetBits group (setBit 0#32 1)

@[simp] theorem readBit_zero (bit : Nat) : readBit 0#32 bit = false := by
  simp [readBit]

@[simp] theorem readBit_knobLeftCb_left (g : EventBits) :
    readBit (knobLeftCb g) 0 = true := by
  simp [readBit, knobLeftCb, xEventGroupSetBits, setBit]

@[simp] theorem readBit_knobLeftCb_right (g : EventBits) :
    readBit (knobLeftCb g) 1 = readBit g 1 := by
  simp [readBit, knobLeftCb, xEventGroupSetBits, setBit]

@[simp] theorem readBit_knobRightCb_left (g : EventBits) :
    readBit (knobRightCb g) 0 = readBit g 0 := by
  simp [readBit, knobRightCb, xEventGroupSetBits, setBit]

@[simp] theorem readBit_knobRightCb_right (g : EventBits) :
    readBit (knobRightCb g) 1 = true := by
  simp [readBit, knobRightCb, xEventGroupSetBits, setBit]

/-- A satisfied wait hands over the group and leaves no direction bit in it. -/
theorem wait_bits_spec {g event g' : EventBits}
    (h : xEventGroupWaitBits g bitEvenAll = some (event, g')) :
    event = g ∧ readBit g' 0 = false ∧ readBit g' 1 = false := by
  rw [xEventGroupWaitBits] at h
  by_cases h0 : g &&& bitEvenAll = 0#32
  · rw [if_pos h0] at h
    exact nomatch h
  · rw [if_neg h0] at h
    obtain ⟨rfl, rfl⟩ := Prod.mk.inj (Option.some.inj h)
    refine ⟨rfl, ?_, ?_⟩ <;> simp [readBit, bitEvenAll]

/-! ## The tasks -/

/-- The value of an `int32_t` that a computation leaves, wrapped to 32 bits. -/
def wrap32 (x : Int) : Int := x.bmod (2 ^ 32)

/-- `x` is a value of `int32_t`. -/
def InInt32 (x : Int) : Prop := -(2 ^ 31) ≤ x ∧ x < 2 ^ 31

instance (x : Int) : Decidable (InInt32 x) :=
  inferInstanceAs (Decidable (_ ∧ _))

/-- Where `user_encoder_loop_task` stands. -/
inductive LoopPc where
  /-- before `xEventGroupWaitBits`, or blocked in it; a set hands its bits to a
  blocked waiter at once, which is then the next step of this task -/
  | waitBits
  /-- before `if (READ_BIT(event, 0))` -/
  | testLeft (event : EventBits)
  /-- `encoder_steps--` has read `seen` and not yet written -/
  | storeLeft (event : EventBits) (seen : Int)
  /-- before `if (READ_BIT(event, 1))` -/
  | testRight (event : EventBits)
  /-- `encoder_steps++` has read `seen` and not yet written -/
  | storeRight (seen : Int)
  deriving DecidableEq, Repr

/-- Where the UI task stands: between callbacks, or in `encoder_scroll_timer_cb`
    between `steps = encoder_steps` and `encoder_steps = 0`. -/
inductive UiPc where
  | idle
  | resetSteps (steps : Int)
  deriving DecidableEq, Repr

/-- The shared variables and the two tasks. -/
structure EncoderSys where
  knobEven     : EventBits
  encoderSteps : Int
  task         : LoopPc
  ui           : UiPc
  deriving DecidableEq, Repr

/-- What happens next: a callback of the knob timer, a step of
    `user_encoder_loop_task`, a step of `encoder_scroll_timer_cb`, or the reset
    in `show_menu`. -/
inductive EncoderLab where
  | knobLeft
  | knobRight
  | task
  | timer
  | showMenu
  deriving DecidableEq, Repr

/-- What a run leaves behind. -/
inductive EncoderEv where
  /-- a left callback; `pending` says that bit 0 was still set -/
  | left (pending : Bool)
  /-- a right callback; `pending` says that bit 1 was still set -/
  | right (pending : Bool)
  /-- `encoder_steps` is changed by `delta`: the read of `++` or `--` -/
  | bump (delta : Int)
  /-- `encoder_scroll_timer_cb` takes `steps` -/
  | consumed (steps : Int)
  /-- `show_menu` overwrites `steps` with 0 -/
  | discarded (steps : Int)
  deriving DecidableEq, Repr

/-- One step of `user_encoder_loop_task`: the wait, or one access to
    `encoder_steps`. -/
def userEncoderLoopTask (s : EncoderSys) : Option (EncoderSys × List EncoderEv) :=
  match s.task with
  | .waitBits =>
      match xEventGroupWaitBits s.knobEven bitEvenAll with
      | none => none
      | some (event, rest) =>
          some ({ s with knobEven := rest, task := .testLeft event }, [])
  | .testLeft event =>
      if readBit event 0 then
        some ({ s with task := .storeLeft event s.encoderSteps }, [.bump (-1)])
      else some ({ s with task := .testRight event }, [])
  | .storeLeft event seen =>
      some ({ s with encoderSteps := wrap32 (seen - 1), task := .testRight event }, [])
  | .testRight event =>
      if readBit event 1 then
        some ({ s with task := .storeRight s.encoderSteps }, [.bump 1])
      else some ({ s with task := .waitBits }, [])
  | .storeRight seen =>
      some ({ s with encoderSteps := wrap32 (seen + 1), task := .waitBits }, [])

/-- One step of `encoder_scroll_timer_cb`: the read of `encoder_steps`, which
    ends the callback when it gives 0, or the reset.  A call that returns at
    its test of `menu_cont` touches none of the variables. -/
def encoderScrollTimerCb (s : EncoderSys) : EncoderSys × List EncoderEv :=
  match s.ui with
  | .idle =>
      if s.encoderSteps = 0 then (s, [])
      else ({ s with ui := .resetSteps s.encoderSteps }, [])
  | .resetSteps steps =>
      ({ s with encoderSteps := 0, ui := .idle }, [.consumed steps])

/-- The reset in `show_menu`.  The UI task runs it between timer callbacks. -/
def showMenuReset (s : EncoderSys) : Option (EncoderSys × List EncoderEv) :=
  match s.ui with
  | .idle => some ({ s with encoderSteps := 0 }, [.discarded s.encoderSteps])
  | .resetSteps _ => none

/-- The step of the whole path. -/
def encoderStep (s : EncoderSys) : EncoderLab → Option (EncoderSys × List EncoderEv)
  | .knobLeft =>
      some ({ s with knobEven := knobLeftCb s.knobEven }, [.left (readBit s.knobEven 0)])
  | .knobRight =>
      some ({ s with knobEven := knobRightCb s.knobEven }, [.right (readBit s.knobEven 1)])
  | .task => userEncoderLoopTask s
  | .timer => some (encoderScrollTimerCb s)
  | .showMenu => showMenuReset s

/-- The variables as initialised, the encoder task before its first
    `xEventGroupWaitBits`. -/
def encoderBoot : EncoderSys :=
  { knobEven := 0#32, encoderSteps := 0, task := .waitBits, ui := .idle }

/-- The encoder path as a machine. -/
def encoder : Machine EncoderSys EncoderLab EncoderEv where
  start := fun s => s = encoderBoot
  step := encoderStep

/-! ## What one step of the encoder task does -/

/-- The steps of `user_encoder_loop_task`, by name. -/
inductive LoopStep (s : EncoderSys) : EncoderSys → List EncoderEv → Prop where
  | wake {event rest : EventBits} : s.task = .waitBits →
      xEventGroupWaitBits s.knobEven bitEvenAll = some (event, rest) →
      LoopStep s { s with knobEven := rest, task := .testLeft event } []
  | readLeft {event : EventBits} : s.task = .testLeft event →
      readBit event 0 = true →
      LoopStep s { s with task := .storeLeft event s.encoderSteps } [.bump (-1)]
  | skipLeft {event : EventBits} : s.task = .testLeft event →
      readBit event 0 = false → LoopStep s { s with task := .testRight event } []
  | writeLeft {event : EventBits} {seen : Int} : s.task = .storeLeft event seen →
      LoopStep s
        { s with encoderSteps := wrap32 (seen - 1), task := .testRight event } []
  | readRight {event : EventBits} : s.task = .testRight event →
      readBit event 1 = true →
      LoopStep s { s with task := .storeRight s.encoderSteps } [.bump 1]
  | skipRight {event : EventBits} : s.task = .testRight event →
      readBit event 1 = false → LoopStep s { s with task := .waitBits } []
  | writeRight {seen : Int} : s.task = .storeRight seen →
      LoopStep s { s with encoderSteps := wrap32 (seen + 1), task := .waitBits } []

theorem loopStep_of_step {s s' : EncoderSys} {es : List EncoderEv}
    (h : userEncoderLoopTask s = some (s', es)) : LoopStep s s' es := by
  rw [userEncoderLoopTask] at h
  cases htask : s.task with
  | waitBits =>
      cases hw : xEventGroupWaitBits s.knobEven bitEvenAll with
      | none => simp [htask, hw] at h
      | some p =>
          simp only [htask, hw, Option.some.injEq, Prod.mk.injEq] at h
          obtain ⟨rfl, rfl⟩ := h
          exact .wake htask hw
  | testLeft event =>
      by_cases hb : readBit event 0 = true
      · simp only [htask, hb, if_true, Option.some.injEq, Prod.mk.injEq] at h
        obtain ⟨rfl, rfl⟩ := h
        exact .readLeft htask hb
      · rw [Bool.not_eq_true] at hb
        simp only [htask, hb, Bool.false_eq_true, if_false, Option.some.injEq,
          Prod.mk.injEq] at h
        obtain ⟨rfl, rfl⟩ := h
        exact .skipLeft htask hb
  | storeLeft event seen =>
      simp only [htask, Option.some.injEq, Prod.mk.injEq] at h
      obtain ⟨rfl, rfl⟩ := h
      exact .writeLeft htask
  | testRight event =>
      by_cases hb : readBit event 1 = true
      · simp only [htask, hb, if_true, Option.some.injEq, Prod.mk.injEq] at h
        obtain ⟨rfl, rfl⟩ := h
        exact .readRight htask hb
      · rw [Bool.not_eq_true] at hb
        simp only [htask, hb, Bool.false_eq_true, if_false, Option.some.injEq,
          Prod.mk.injEq] at h
        obtain ⟨rfl, rfl⟩ := h
        exact .skipRight htask hb
  | storeRight seen =>
      simp only [htask, Option.some.injEq, Prod.mk.injEq] at h
      obtain ⟨rfl, rfl⟩ := h
      exact .writeRight htask

/-- The two steps of `encoder_scroll_timer_cb`, by name. -/
inductive TimerStep (s : EncoderSys) : EncoderSys → List EncoderEv → Prop where
  | nothing : s.ui = .idle → s.encoderSteps = 0 → TimerStep s s []
  | read : s.ui = .idle → s.encoderSteps ≠ 0 →
      TimerStep s { s with ui := .resetSteps s.encoderSteps } []
  | reset {steps : Int} : s.ui = .resetSteps steps →
      TimerStep s { s with encoderSteps := 0, ui := .idle } [.consumed steps]

theorem timerStep_of_step {s s' : EncoderSys} {es : List EncoderEv}
    (h : encoderScrollTimerCb s = (s', es)) : TimerStep s s' es := by
  rw [encoderScrollTimerCb] at h
  cases hui : s.ui with
  | idle =>
      by_cases h0 : s.encoderSteps = 0
      · simp only [hui, h0, if_true, Prod.mk.injEq] at h
        obtain ⟨rfl, rfl⟩ := h
        exact .nothing hui h0
      · simp only [hui, h0, if_false, Prod.mk.injEq] at h
        obtain ⟨rfl, rfl⟩ := h
        exact .read hui h0
  | resetSteps steps =>
      simp only [hui, Prod.mk.injEq] at h
      obtain ⟨rfl, rfl⟩ := h
      exact .reset hui

theorem showMenuReset_inv {s s' : EncoderSys} {es : List EncoderEv}
    (h : showMenuReset s = some (s', es)) :
    s.ui = .idle ∧ s' = { s with encoderSteps := 0 } ∧
      es = [.discarded s.encoderSteps] := by
  rw [showMenuReset] at h
  cases hui : s.ui with
  | idle =>
      simp only [hui, Option.some.injEq, Prod.mk.injEq] at h
      exact ⟨rfl, h.1.symm, h.2.symm⟩
  | resetSteps steps => simp [hui] at h

/-! ## Conservation of steps -/

/-- The sum of `f` over a trace. -/
def total (f : EncoderEv → Int) (tr : List EncoderEv) : Int := (tr.map f).sum

@[simp] theorem total_nil (f : EncoderEv → Int) : total f [] = 0 := rfl

@[simp] theorem total_single (f : EncoderEv → Int) (e : EncoderEv) :
    total f [e] = f e := by simp [total]

@[simp] theorem total_append (f : EncoderEv → Int) (tr es : List EncoderEv) :
    total f (tr ++ es) = total f tr + total f es := by simp [total]

/-- The signed number of increments and decrements performed. -/
def netBumps : List EncoderEv → Int :=
  total fun | .bump delta => delta | _ => 0

/-- What `encoder_scroll_timer_cb` consumed. -/
def consumedSteps : List EncoderEv → Int :=
  total fun | .consumed steps => steps | _ => 0

/-- What the resets in `show_menu` discarded. -/
def discardedSteps : List EncoderEv → Int :=
  total fun | .discarded steps => steps | _ => 0

/-- The increment or decrement that has been read and not yet written. -/
def pendingBump : LoopPc → Int
  | .storeLeft _ _ => -1
  | .storeRight _ => 1
  | _ => 0

/-- **CONSERVATION**: consumed, discarded and current steps, with the pending
    change, make up the changes performed. -/
def Conserved (s : EncoderSys) (tr : List EncoderEv) : Prop :=
  consumedSteps tr + discardedSteps tr + (s.encoderSteps + pendingBump s.task)
    = netBumps tr

/-- A step that writes `encoder_steps` back finds there the value its task had
    read, and the new value is an `int32_t`. -/
def FreshWriteBack (s : EncoderSys) : EncoderLab → Prop
  | .task =>
      match s.task with
      | .storeLeft _ seen => s.encoderSteps = seen ∧ InInt32 (seen - 1)
      | .storeRight seen => s.encoderSteps = seen ∧ InInt32 (seen + 1)
      | _ => True
  | .timer =>
      match s.ui with
      | .resetSteps steps => s.encoderSteps = steps
      | .idle => True
  | _ => True

instance (p : EncoderSys) (l : EncoderLab) : Decidable (FreshWriteBack p l) :=
  match l, p with
  | .task, ⟨_, _, .storeLeft _ _, _⟩ => inferInstanceAs (Decidable (_ ∧ _))
  | .task, ⟨_, _, .storeRight _, _⟩ => inferInstanceAs (Decidable (_ ∧ _))
  | .task, ⟨_, _, .waitBits, _⟩ => isTrue trivial
  | .task, ⟨_, _, .testLeft _, _⟩ => isTrue trivial
  | .task, ⟨_, _, .testRight _, _⟩ => isTrue trivial
  | .timer, ⟨_, _, _, .resetSteps _⟩ => inferInstanceAs (Decidable (_ = _))
  | .timer, ⟨_, _, _, .idle⟩ => isTrue trivial
  | .knobLeft, _ => isTrue trivial
  | .knobRight, _ => isTrue trivial
  | .showMenu, _ => isTrue trivial

/-- Every copy of `encoder_steps` is a value of its type. -/
def StepsInRange (s : EncoderSys) : Prop :=
  InInt32 s.encoderSteps ∧
    (∀ event seen, s.task = .storeLeft event seen → InInt32 seen) ∧
    (∀ seen, s.task = .storeRight seen → InInt32 seen)

theorem wrap32_inInt32 (x : Int) : InInt32 (wrap32 x) := by
  have h1 := Int.le_bmod (x := x) (m := 2 ^ 32) (by decide)
  have h2 := Int.bmod_lt (x := x) (m := 2 ^ 32) (by decide)
  constructor <;> rw [wrap32] <;> omega

/-- A wrapped value is the unwrapped neighbour of a value in range only when
    nothing wrapped. -/
theorem wrap32_eq_iff {cur seen delta : Int} (hc : InInt32 cur) (hs : InInt32 seen)
    (hd : delta = 1 ∨ delta = -1) :
    wrap32 (seen + delta) = cur + delta ↔ cur = seen ∧ InInt32 (seen + delta) := by
  obtain ⟨hc1, hc2⟩ := hc
  obtain ⟨hs1, hs2⟩ := hs
  rw [wrap32, InInt32, Int.bmod_def]
  constructor
  · intro h
    -- a value that wrapped is off by 2 ^ 32, which no value in range makes up for
    split at h <;> constructor <;> rcases hd with rfl | rfl <;> omega
  · rintro ⟨rfl, h1, h2⟩
    split <;> omega

theorem stepsInRange_step {s s' : EncoderSys} {l : EncoderLab} {es : List EncoderEv}
    (h : StepsInRange s) (hs : encoderStep s l = some (s', es)) : StepsInRange s' := by
  obtain ⟨hcur, hleft, hright⟩ := h
  have hzero : InInt32 0 := by decide
  cases l with
  | knobLeft | knobRight =>
      obtain ⟨rfl, -⟩ := Prod.mk.inj (Option.some.inj hs)
      exact ⟨hcur, hleft, hright⟩
  | task =>
      cases loopStep_of_step hs with
      | wake | skipLeft | skipRight => exact ⟨hcur, nofun, nofun⟩
      | readLeft =>
          refine ⟨hcur, fun event seen he => ?_, nofun⟩
          obtain ⟨-, rfl⟩ := LoopPc.storeLeft.inj he
          exact hcur
      | readRight =>
          refine ⟨hcur, nofun, fun seen he => ?_⟩
          obtain rfl := LoopPc.storeRight.inj he
          exact hcur
      | writeLeft | writeRight => exact ⟨wrap32_inInt32 _, nofun, nofun⟩
  | timer =>
      cases timerStep_of_step (Option.some.inj hs) with
      | nothing | read => exact ⟨hcur, hleft, hright⟩
      | reset => exact ⟨hzero, hleft, hright⟩
  | showMenu =>
      obtain ⟨-, rfl, -⟩ := showMenuReset_inv hs
      exact ⟨hzero, hleft, hright⟩

/-- From a conserved state, a step conserves exactly when it writes back
    fresh. -/
theorem conserved_step_iff {s s' : EncoderSys} {tr es : List EncoderEv}
    {l : EncoderLab} (hr : StepsInRange s) (h : Conserved s tr)
    (hs : encoderStep s l = some (s', es)) :
    Conserved s' (tr ++ es) ↔ FreshWriteBack s l := by
  obtain ⟨hcur, hleft, hright⟩ := hr
  simp only [Conserved, consumedSteps, discardedSteps, netBumps, total_append] at h ⊢
  cases l with
  | knobLeft | knobRight =>
      obtain ⟨rfl, rfl⟩ := Prod.mk.inj (Option.some.inj hs)
      simp only [total_single, FreshWriteBack, iff_true]
      omega
  | task =>
      cases loopStep_of_step hs with
      | wake ht | skipLeft ht | skipRight ht =>
          simp only [ht, pendingBump, total_nil, FreshWriteBack, iff_true] at h ⊢
          omega
      | readLeft ht | readRight ht =>
          simp only [ht, pendingBump, total_single, FreshWriteBack, iff_true] at h ⊢
          omega
      | @writeLeft event seen ht =>
          -- the write drops whatever happened to `encoder_steps` since the read
          have hw := wrap32_eq_iff hcur (hleft event seen ht) (.inr rfl)
          simp only [← Int.sub_eq_add_neg] at hw
          simp only [ht, pendingBump, total_nil, FreshWriteBack, ← hw] at h ⊢
          constructor <;> intro <;> omega
      | @writeRight seen ht =>
          have hw := wrap32_eq_iff hcur (hright seen ht) (.inl rfl)
          simp only [ht, pendingBump, total_nil, FreshWriteBack, ← hw] at h ⊢
          constructor <;> intro <;> omega
  | timer =>
      cases timerStep_of_step (Option.some.inj hs) with
      | nothing hui | read hui =>
          simp only [hui, total_nil, FreshWriteBack, iff_true] at h ⊢
          omega
      | reset hui =>
          simp only [hui, total_single, FreshWriteBack] at h ⊢
          constructor <;> intro <;> omega
  | showMenu =>
      obtain ⟨-, rfl, rfl⟩ := showMenuReset_inv hs
      simp only [total_single, FreshWriteBack, iff_true] at h ⊢
      omega

/-- **No bezel step is lost or counted twice exactly when every write-back is
    fresh.**  Along any run, the steps consumed, discarded and current make up
    the increments and decrements performed in every state reached, if and only
    if each write of `encoder_steps` by `++`, `--` or the timer's reset finds
    there the value its task had read, and no `++` or `--` leaves `int32_t`. -/
theorem encoder_steps_conserved_iff {ls : List EncoderLab} {s : EncoderSys}
    {tr : List EncoderEv} (h : Run encoder encoderBoot ls s tr) :
    Always encoder encoderBoot Conserved ls ↔
      Meets encoder encoderBoot FreshWriteBack ls := by
  refine always_iff_meets (I := fun s _ => StepsInRange s) ?_ ?_ ?_ ?_ h
  · exact ⟨by decide, nofun, nofun⟩
  · intro s tr l s' es hr hs
    exact stepsInRange_step hr hs
  · rfl
  · intro s tr l s' es hr hc hs
    exact conserved_step_iff hr hc hs

instance (s : EncoderSys) (tr : List EncoderEv) : Decidable (Conserved s tr) :=
  inferInstanceAs (Decidable (_ = _))

/-- One detent, applied and then taken by the timer while a second detent's
    `++` stands between its read and its write. -/
def overlappingBump : List EncoderLab :=
  [.knobRight, .task, .task, .task, .task, .knobRight, .task, .task, .task,
    .timer, .timer, .task]

/-- The overlap brings the consumed step back: 2 increments were performed, 1
    step was consumed and `encoder_steps` is 2. -/
theorem encoder_steps_not_conserved :
    ¬ ∀ (ls : List EncoderLab) (s : EncoderSys) (tr : List EncoderEv),
      Run encoder encoderBoot ls s tr → Conserved s tr := by
  intro h
  have hrun : exec encoder encoderBoot overlappingBump
      = some ({ encoderBoot with encoderSteps := 2 },
          [.right false, .bump 1, .right false, .bump 1, .consumed 1]) := by decide
  exact absurd (h _ _ _ (run_of_exec hrun)) (by decide)

/-- One right detent, counted and consumed. -/
def oneDetent : List EncoderLab :=
  [.knobRight, .task, .task, .task, .task, .timer, .timer]

/-- In the run of one detent every write-back is fresh, and nothing is lost. -/
theorem encoder_steps_conserved_iff_at :
    Meets encoder encoderBoot FreshWriteBack oneDetent ∧
      Always encoder encoderBoot Conserved oneDetent := by
  have hrun : exec encoder encoderBoot oneDetent
      = some (encoderBoot, [.right false, .bump 1, .consumed 1]) := by decide
  have hfresh : Meets encoder encoderBoot FreshWriteBack oneDetent := meets_of_checks rfl
  exact ⟨hfresh, (encoder_steps_conserved_iff (run_of_exec hrun)).mpr hfresh⟩

/-! ## The hand-off through the event group -/

/-- The number of `KNOB_RIGHT` callbacks. -/
def rightCallbacks : List EncoderEv → Int :=
  total fun | .right _ => 1 | _ => 0

/-- The number of `KNOB_LEFT` callbacks. -/
def leftCallbacks : List EncoderEv → Int :=
  total fun | .left _ => 1 | _ => 0

/-- The number of `KNOB_RIGHT` callbacks that found bit 1 still set. -/
def coalescedRights : List EncoderEv → Int :=
  total fun | .right true => 1 | _ => 0

/-- The number of `KNOB_LEFT` callbacks that found bit 0 still set. -/
def coalescedLefts : List EncoderEv → Int :=
  total fun | .left true => 1 | _ => 0

/-- The net detents that a set of event bits stands for. -/
def netBits (left right : Bool) : Int := right.toInt - left.toInt

/-- The net detents on the way: in the group, and in the event that the task
    holds but has not counted yet. -/
def netInFlight (s : EncoderSys) : Int :=
  netBits (readBit s.knobEven 0) (readBit s.knobEven 1) +
    match s.task with
    | .testLeft event => netBits (readBit event 0) (readBit event 1)
    | .storeLeft event _ => netBits false (readBit event 1)
    | .testRight event => netBits false (readBit event 1)
    | _ => 0

/-- Every callback is counted, on the way, or was lost to a bit still set. -/
def HandOff (s : EncoderSys) (tr : List EncoderEv) : Prop :=
  rightCallbacks tr - leftCallbacks tr
    = netBumps tr + netInFlight s + (coalescedRights tr - coalescedLefts tr)

theorem handOff_step {s s' : EncoderSys} {tr es : List EncoderEv} {l : EncoderLab}
    (h : HandOff s tr) (hs : encoderStep s l = some (s', es)) :
    HandOff s' (tr ++ es) := by
  simp only [HandOff, rightCallbacks, leftCallbacks, coalescedRights, coalescedLefts,
    netBumps, netInFlight, netBits, total_append] at h ⊢
  cases l with
  | knobLeft =>
      obtain ⟨rfl, rfl⟩ := Prod.mk.inj (Option.some.inj hs)
      -- a bit that is still set absorbs the callback
      cases hb : readBit s.knobEven 0 <;>
        simp only [hb, readBit_knobLeftCb_left, readBit_knobLeftCb_right, total_single,
          Bool.toInt_true, Bool.toInt_false] at h ⊢ <;> omega
  | knobRight =>
      obtain ⟨rfl, rfl⟩ := Prod.mk.inj (Option.some.inj hs)
      cases hb : readBit s.knobEven 1 <;>
        simp only [hb, readBit_knobRightCb_left, readBit_knobRightCb_right, total_single,
          Bool.toInt_true, Bool.toInt_false] at h ⊢ <;> omega
  | task =>
      cases loopStep_of_step hs with
      | wake ht hw =>
          -- the bits go from the group into the event
          obtain ⟨rfl, h0, h1⟩ := wait_bits_spec hw
          simp only [ht, h0, h1, total_nil, Bool.toInt_false] at h ⊢
          omega
      | readLeft ht hb | skipLeft ht hb | readRight ht hb | skipRight ht hb =>
          simp only [ht, hb, total_nil, total_single, Bool.toInt_true,
            Bool.toInt_false] at h ⊢
          omega
      | writeLeft ht | writeRight ht =>
          simp only [ht, total_nil] at h ⊢
          omega
  | timer =>
      cases timerStep_of_step (Option.some.inj hs) with
      | nothing | read | reset =>
          simp only [total_nil, total_single] at h ⊢
          omega
  | showMenu =>
      obtain ⟨-, rfl, rfl⟩ := showMenuReset_inv hs
      simp only [total_single] at h ⊢
      omega

/-- The encoder task is at its wait, and the wait blocks. -/
def Drained (s : EncoderSys) : Prop :=
  s.task = .waitBits ∧ xEventGroupWaitBits s.knobEven bitEvenAll = none

/-- A blocked wait leaves no waited bit set. -/
theorem readBit_of_wait_none {g : EventBits} {b : Nat}
    (h : xEventGroupWaitBits g bitEvenAll = none) (hbit : readBit bitEvenAll b = true) :
    readBit g b = false := by
  have h0 : g &&& bitEvenAll = 0#32 := by
    by_contra hne
    rw [xEventGroupWaitBits, if_neg hne] at h
    exact nomatch h
  have hb : readBit (g &&& bitEvenAll) b = readBit 0#32 b := by rw [h0]
  rw [readBit] at hbit
  simpa [readBit, hbit] using hb

theorem netInFlight_drained {s : EncoderSys} (h : Drained s) : netInFlight s = 0 := by
  obtain ⟨ht, hw⟩ := h
  rw [netInFlight, ht, readBit_of_wait_none hw (b := 0) rfl,
    readBit_of_wait_none hw (b := 1) rfl]
  rfl

/-- **The event group hands over every detent exactly when the losses cancel.**
    Once the encoder task has drained the group, the net number of steps it has
    applied is the number of right callbacks minus the number of left callbacks
    if and only if as many right as left callbacks found their bit still set;
    in particular when every callback finds its bit clear.  Where as many were
    lost on both sides the net is right although detents have been dropped. -/
theorem net_steps_eq_iff {ls : List EncoderLab} {s : EncoderSys} {tr : List EncoderEv}
    (h : Run encoder encoderBoot ls s tr) (hd : Drained s) :
    netBumps tr = rightCallbacks tr - leftCallbacks tr ↔
      coalescedRights tr = coalescedLefts tr := by
  have hhand : HandOff s tr := by
    refine h.invariant (P := HandOff) (by rfl) ?_
    intro s tr l s' es hP hs
    exact handOff_step hP hs
  rw [HandOff, netInFlight_drained hd] at hhand
  omega

/-- Three right detents: the first one wakes the encoder task, and the two others
    come before it waits again. -/
theorem net_steps_not_eq :
    ¬ ∀ (ls : List EncoderLab) (s : EncoderSys) (tr : List EncoderEv),
      Run encoder encoderBoot ls s tr → Drained s →
      netBumps tr = rightCallbacks tr - leftCallbacks tr := by
  intro h
  have hrun : exec encoder encoderBoot
      [.knobRight, .task, .knobRight, .knobRight, .task, .task, .task, .task, .task, .task, .task]
      = some ({ encoderBoot with encoderSteps := 2 },
          [.right false, .right false, .right true, .bump 1, .bump 1]) := by decide
  exact absurd (h _ _ _ (run_of_exec hrun) ⟨rfl, rfl⟩) (by decide)

/-- In the run of one detent no callback is coalesced, and the net holds. -/
theorem net_steps_eq_iff_at :
    coalescedRights [.right false, .bump 1, .consumed 1]
        = coalescedLefts [.right false, .bump 1, .consumed 1] ∧
      netBumps [.right false, .bump 1, .consumed 1]
        = rightCallbacks [.right false, .bump 1, .consumed 1]
          - leftCallbacks [.right false, .bump 1, .consumed 1] := by
  have hrun : exec encoder encoderBoot oneDetent
      = some (encoderBoot, [.right false, .bump 1, .consumed 1]) := by decide
  exact ⟨rfl, (net_steps_eq_iff (run_of_exec hrun) ⟨rfl, rfl⟩).mpr rfl⟩

end KnobEncoder
