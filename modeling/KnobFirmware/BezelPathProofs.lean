import KnobFirmware.KnobDebounceProofs
import KnobFirmware.MediaCommandProofs
import KnobFirmware.AudioTaskProofs

/-! # The bezel, end to end — from sampled levels to volume keys and scrolling

    The machine puts the knob's debouncing in front of the encoder path and
    `encoder_scroll_timer_cb` with its three pages behind it.  The knob timer
    samples the two phases and makes the callbacks that are due one by one; the
    encoder task and the UI task go on in between.  What the timer callback takes
    becomes volume commands on the Media Controller page, a count on the encoder
    test page, and scrolling on every other.

    * `bezel_delivers` — while every step is in step, what the pages are given
      and what `show_menu` throws away add up to the detents that the samples
      show;
    * `bezel_within_bounds` — what needs no such condition: each command that is
      taken is felt once, the steps never exceed the callbacks, and so many
      callbacks at least are needed before a 32-bit operation of the consumer can
      overflow. -/

namespace Bezel

open StepMachine KnobEncoder KnobDebounce EspErr
open MediaCommand (MediaControlKey)
open AudioTask (MenuId)

/-! ## The code -/

/-- The knob, the encoder path, and the variables of the UI task that
    `encoder_scroll_timer_cb` reads; `due` holds the callbacks that the knob
    timer has yet to make for its last sample. -/
structure BezelSys where
  knob                 : Knob
  due                  : List KnobEvent
  path                 : EncoderSys
  menuCont             : Bool
  currentMenu          : MenuId
  encoderTestCount     : Int
  encoderScrollPerStep : Int

/-- What happens next.  `timer` carries what `media_controller_send` and
    `drv2605_play_effect` return for the `i`-th command of a call. -/
inductive BezelLab where
  | sample (levels : Level × Level)
  | callback
  | task
  | timer (replies : Nat → EspErr × EspErr)
  | showMenu (menu : MenuId)
  | openHwEncoder
  | sensitivity (value : Int)

inductive BezelEv where
  | path (e : EncoderEv)
  | sampled (levels : Level × Level)
  /-- `media_controller_send(command)` and its result -/
  | sent (command : MediaControlKey) (err : EspErr)
  /-- `drv2605_play_effect(effect)` and its result -/
  | played (effect : UInt8) (err : EspErr)
  /-- `encoder_test_count += steps` -/
  | counted (steps : Int)
  /-- `lv_obj_scroll_by_bounded(menu_cont, 0, dy)` for `steps` -/
  | scrolled (steps dy : Int)

/-- One round of the loop on the Media Controller page. -/
def sendCommand (command : MediaControlKey) (reply : EspErr × EspErr) : List BezelEv :=
  .sent command reply.1 :: if reply.1 = espOk then [.played 1 reply.2] else []

/-- `for (i = 0; i < count; i++)` on the Media Controller page. -/
def sendCommands (command : MediaControlKey) (replies : Nat → EspErr × EspErr) :
    Nat → List BezelEv
  | 0 => []
  | i + 1 => sendCommands command replies i ++ sendCommand command (replies i)

/-- `encoder_scroll_timer_cb` from its test of `current_menu` on. -/
def consumeSteps (s : BezelSys) (steps : Int) (replies : Nat → EspErr × EspErr) :
    BezelSys × List BezelEv :=
  if s.currentMenu = .hwEncoder then
    ({ s with encoderTestCount := wrap32 (s.encoderTestCount + steps) }, [.counted steps])
  else if s.currentMenu = .mediaController then
    (s, sendCommands (if 0 < steps then .volumeUp else .volumeDown) replies
      (if 0 < steps then steps else wrap32 (-steps)).toNat)
  else (s, [.scrolled steps (wrap32 (wrap32 (-steps) * s.encoderScrollPerStep))])

/-- A step of the encoder path. -/
def BezelSys.onPath (s : BezelSys) (l : EncoderLab) : Option (BezelSys × List BezelEv) :=
  (encoderStep s.path l).map fun r => ({ s with path := r.1 }, r.2.map .path)

/-- The label of the encoder path for a callback. -/
def callbackLab : KnobEvent → Option EncoderLab
  | .left => some .knobLeft
  | .right => some .knobRight
  | .none => none

/-- The range of the slider on the Input page. -/
def sliderMin : Int := 5
def sliderMax : Int := 80

/-- The step of the whole bezel.  The UI task runs the page changes and the
    slider's callback between calls of `encoder_scroll_timer_cb`. -/
def bezelStep (s : BezelSys) : BezelLab → Option (BezelSys × List BezelEv)
  | .sample levels =>
      match s.due with
      | [] =>
          let r := knobHandler levels s.knob
          some ({ s with knob := r.1, due := r.2 }, [.sampled levels])
      | _ :: _ => none
  | .callback =>
      match s.due with
      | [] => none
      | event :: rest =>
          match callbackLab event with
          | none => none
          | some l => BezelSys.onPath { s with due := rest } l
  | .task => s.onPath .task
  | .timer replies =>
      if s.menuCont then
        match s.path.ui with
        | .idle => s.onPath .timer
        | .resetSteps steps =>
            (s.onPath .timer).map fun r =>
              let c := consumeSteps r.1 steps replies
              (c.1, r.2 ++ c.2)
      else some (s, [])
  | .showMenu menu => BezelSys.onPath { s with menuCont := true, currentMenu := menu } .showMenu
  | .openHwEncoder =>
      match s.path.ui with
      | .idle => some ({ s with encoderTestCount := 0 }, [])
      | .resetSteps _ => none
  | .sensitivity value =>
      match s.path.ui with
      | .idle =>
          if sliderMin ≤ value ∧ value ≤ sliderMax then
            some ({ s with encoderScrollPerStep := value }, [])
          else none
      | .resetSteps _ => none

/-- The variables as initialised, the knob created at the levels `first`. -/
def bezelBoot (first : Level × Level) : BezelSys where
  knob := userEncoderInit first
  due := []
  path := encoderBoot
  menuCont := false
  currentMenu := .main
  encoderTestCount := 0
  encoderScrollPerStep := 20

/-- The bezel as a machine. -/
def bezel : Machine BezelSys BezelLab BezelEv where
  start := fun s => ∃ first, s = bezelBoot first
  step := bezelStep

/-! ## What a trace shows -/

/-- The events of the encoder path. -/
def pathTrace (tr : List BezelEv) : List EncoderEv :=
  tr.filterMap fun | .path e => some e | _ => none

/-- The samples taken. -/
def sampled (tr : List BezelEv) : List (Level × Level) :=
  tr.filterMap fun | .sampled levels => some levels | _ => none

/-- The sum of `f` over a trace. -/
def sumOf (f : BezelEv → Int) (tr : List BezelEv) : Int := (tr.map f).sum

/-- The volume-up commands less the volume-down commands. -/
def netVolume : List BezelEv → Int :=
  sumOf fun | .sent .volumeUp _ => 1 | .sent .volumeDown _ => -1 | _ => 0

/-- What the encoder test page counted. -/
def countedSteps : List BezelEv → Int := sumOf fun | .counted steps => steps | _ => 0

/-- The steps that were scrolled. -/
def scrolledSteps : List BezelEv → Int := sumOf fun | .scrolled steps _ => steps | _ => 0

/-- What the pages were given. -/
def delivered (tr : List BezelEv) : Int := netVolume tr + countedSteps tr + scrolledSteps tr

/-- The commands that `media_controller_send` took. -/
def commandsTaken : List BezelEv → Int :=
  sumOf fun | .sent _ err => if err = espOk then 1 else 0 | _ => 0

/-- The effects played. -/
def effectsPlayed : List BezelEv → Int := sumOf fun | .played _ _ => 1 | _ => 0

/-- The callbacks of the knob timer. -/
def callbacksMade (tr : List EncoderEv) : Int := rightCallbacks tr + leftCallbacks tr

section Traces

variable {f : BezelEv → Int} {tr es : List BezelEv} {ps : List EncoderEv}

@[simp] theorem sumOf_nil : sumOf f [] = 0 := rfl

@[simp] theorem sumOf_cons {e : BezelEv} : sumOf f (e :: tr) = f e + sumOf f tr := by
  simp [sumOf]

@[simp] theorem sumOf_append : sumOf f (tr ++ es) = sumOf f tr + sumOf f es := by
  simp [sumOf]

/-- The sums look at no event of the path. -/
theorem sumOf_path (h : ∀ e, f (.path e) = 0) : sumOf f (ps.map .path) = 0 := by
  induction ps with
  | nil => rfl
  | cons e ps ih => rw [List.map_cons, sumOf_cons, h, ih, Int.add_zero]

@[simp] theorem pathTrace_append : pathTrace (tr ++ es) = pathTrace tr ++ pathTrace es := by
  simp [pathTrace]

@[simp] theorem pathTrace_path : pathTrace (ps.map .path) = ps := by
  induction ps with
  | nil => rfl
  | cons e ps ih =>
      rw [List.map_cons]
      exact congrArg (e :: ·) ih

@[simp] theorem sampled_append : sampled (tr ++ es) = sampled tr ++ sampled es := by
  simp [sampled]

@[simp] theorem sampled_path : sampled (ps.map .path) = [] := by
  induction ps with
  | nil => rfl
  | cons e ps ih => exact ih

end Traces

/-! ## One call of the consumer -/

/-- A wrapped value is not larger than the value. -/
theorem natAbs_wrap32 (x : Int) : (wrap32 x).natAbs ≤ x.natAbs := by
  rw [wrap32, Int.bmod_def]
  split <;> omega

section Consume

variable {s : BezelSys} {steps : Int} {command : MediaControlKey} {n : Nat}
  {replies : Nat → EspErr × EspErr}

/-- What the loop sends, for any sum that looks at commands and effects only. -/
theorem sumOf_sendCommands {f : BezelEv → Int} {d : Int}
    (h : ∀ reply, sumOf f (sendCommand command reply) = d) :
    sumOf f (sendCommands command replies n) = n * d := by
  induction n with
  | zero => simp [sendCommands]
  | succ i ih =>
      rw [sendCommands, sumOf_append, ih, h]
      push_cast
      ring

theorem pathTrace_sendCommands : pathTrace (sendCommands command replies n) = [] := by
  induction n with
  | zero => rfl
  | succ i ih =>
      rw [sendCommands, pathTrace_append, ih, sendCommand]
      split <;> rfl

theorem sampled_sendCommands : sampled (sendCommands command replies n) = [] := by
  induction n with
  | zero => rfl
  | succ i ih =>
      rw [sendCommands, sampled_append, ih, sendCommand]
      split <;> rfl

theorem effects_sendCommand (reply : EspErr × EspErr) :
    effectsPlayed (sendCommand command reply) = commandsTaken (sendCommand command reply) := by
  by_cases hok : reply.1 = espOk <;> simp [sendCommand, effectsPlayed, commandsTaken, hok]

theorem effects_sendCommands :
    effectsPlayed (sendCommands command replies n) =
      commandsTaken (sendCommands command replies n) := by
  induction n with
  | zero => rfl
  | succ i ih =>
      rw [sendCommands, effectsPlayed, commandsTaken, sumOf_append, sumOf_append]
      exact congrArg₂ (· + ·) ih (effects_sendCommand _)

/-- A command counts for one key, and for nothing on the other pages. -/
theorem delivered_sendCommands {d : Int}
    (h : ∀ err, netVolume [.sent command err] = d) :
    delivered (sendCommands command replies n) = n * d := by
  have hvolume : netVolume (sendCommands command replies n) = n * d := by
    refine sumOf_sendCommands fun reply => ?_
    rw [← h reply.1]
    by_cases hok : reply.1 = espOk <;> simp [sendCommand, netVolume, hok]
  have hcounted : countedSteps (sendCommands command replies n) = n * 0 := by
    refine sumOf_sendCommands fun reply => ?_
    by_cases hok : reply.1 = espOk <;> simp [sendCommand, hok]
  have hscrolled : scrolledSteps (sendCommands command replies n) = n * 0 := by
    refine sumOf_sendCommands fun reply => ?_
    by_cases hok : reply.1 = espOk <;> simp [sendCommand, hok]
  rw [delivered, hvolume, hcounted, hscrolled, Int.mul_zero, Int.add_zero, Int.add_zero]

/-- The consumer leaves the knob and the path alone. -/
theorem consumeSteps_frame :
    (consumeSteps s steps replies).1.knob = s.knob ∧
      (consumeSteps s steps replies).1.due = s.due ∧
      (consumeSteps s steps replies).1.path = s.path ∧
      (consumeSteps s steps replies).1.encoderScrollPerStep = s.encoderScrollPerStep := by
  rw [consumeSteps]
  split
  · exact ⟨rfl, rfl, rfl, rfl⟩
  · split <;> exact ⟨rfl, rfl, rfl, rfl⟩

/-- The count grows by no more than the steps. -/
theorem count_consumeSteps : (consumeSteps s steps replies).1.encoderTestCount.natAbs ≤
    s.encoderTestCount.natAbs + steps.natAbs := by
  rw [consumeSteps]
  split
  · have hwrap := natAbs_wrap32 (s.encoderTestCount + steps)
    simp only
    omega
  · split <;> exact Nat.le_add_right _ _

theorem pathTrace_consumeSteps : pathTrace (consumeSteps s steps replies).2 = [] := by
  rw [consumeSteps]
  split
  · rfl
  · split
    · exact pathTrace_sendCommands
    · rfl

theorem sampled_consumeSteps : sampled (consumeSteps s steps replies).2 = [] := by
  rw [consumeSteps]
  split
  · rfl
  · split
    · exact sampled_sendCommands
    · rfl

/-- Of a call that takes steps the path sees that they were taken. -/
theorem pathTrace_consumed (s : BezelSys) (steps : Int) (replies : Nat → EspErr × EspErr) :
    pathTrace (.path (.consumed steps) :: (consumeSteps s steps replies).2) =
      [.consumed steps] := by
  rw [← List.singleton_append, pathTrace_append, pathTrace_consumeSteps]
  rfl

theorem effects_consumeSteps :
    effectsPlayed (consumeSteps s steps replies).2 =
      commandsTaken (consumeSteps s steps replies).2 := by
  rw [consumeSteps]
  split
  · rfl
  · split
    · exact effects_sendCommands
    · rfl

/-- **One call delivers what it took**, on every page. -/
theorem delivered_consumeSteps (h : InInt32 (-steps)) :
    delivered (consumeSteps s steps replies).2 = steps := by
  have hneg : wrap32 (-steps) = -steps := Int.bmod_eq_of_le h.1 h.2
  rw [consumeSteps]
  split
  · simp [delivered, netVolume, countedSteps, scrolledSteps]
  · split
    · by_cases hpos : 0 < steps
      · rw [if_pos hpos, if_pos hpos, delivered_sendCommands (d := 1) fun _ => rfl]
        omega
      · rw [if_neg hpos, if_neg hpos, hneg, delivered_sendCommands (d := -1) fun _ => rfl]
        omega
    · simp [delivered, netVolume, countedSteps, scrolledSteps]

/-- A call that scrolls scrolls by `steps` times the sensitivity, unless an
    operation overflows. -/
theorem scrolled_consumeSteps {taken dy : Int} (h : InInt32 (-steps))
    (hdy : InInt32 (-steps * s.encoderScrollPerStep))
    (hmem : BezelEv.scrolled taken dy ∈ (consumeSteps s steps replies).2) :
    dy = -taken * s.encoderScrollPerStep := by
  have hsends : ∀ command n, BezelEv.scrolled taken dy ∉ sendCommands command replies n := by
    intro command n
    induction n with
    | zero => exact List.not_mem_nil
    | succ i ih =>
        intro hmem
        rw [sendCommands, List.mem_append] at hmem
        rcases hmem with hmem | hmem
        · exact ih hmem
        · by_cases hok : (replies i).1 = espOk <;> simp [sendCommand, hok] at hmem
  rw [consumeSteps] at hmem
  split at hmem
  · simp at hmem
  · split at hmem
    · exact absurd hmem (hsends _ _)
    · obtain ⟨rfl, rfl⟩ := BezelEv.scrolled.inj (List.mem_singleton.mp hmem)
      have hneg : wrap32 (-taken) = -taken := Int.bmod_eq_of_le h.1 h.2
      rw [hneg]
      exact Int.bmod_eq_of_le hdy.1 hdy.2

end Consume

/-! ## What one step does -/

/-- The label of the encoder path that a step of the bezel takes, if it takes
    any. -/
def pathLab (s : BezelSys) : BezelLab → Option EncoderLab
  | .callback => s.due.head?.bind callbackLab
  | .task => some .task
  | .timer _ => if s.menuCont then some .timer else none
  | .showMenu _ => some .showMenu
  | .sample _ | .openHwEncoder | .sensitivity _ => none

/-- Events that are neither a callback nor a value the consumer took. -/
def Inner (es : List EncoderEv) : Prop :=
  rightCallbacks es = 0 ∧ leftCallbacks es = 0 ∧ consumedSteps es = 0

/-- The steps of the bezel, by what they touch. -/
inductive BezelMove (s : BezelSys) (l : BezelLab) : BezelSys → List BezelEv → Prop where
  | sample {levels : Level × Level} : pathLab s l = none → s.due = [] →
      BezelMove s l
        { s with knob := (knobHandler levels s.knob).1, due := (knobHandler levels s.knob).2 }
        [.sampled levels]
  | ui {count perStep : Int} : pathLab s l = none →
      count = s.encoderTestCount ∨ count = 0 →
      perStep = s.encoderScrollPerStep ∨ sliderMin ≤ perStep ∧ perStep ≤ sliderMax →
      BezelMove s l { s with encoderTestCount := count, encoderScrollPerStep := perStep } []
  | callback {event : KnobEvent} {rest : List KnobEvent} {l' : EncoderLab} {p : EncoderSys}
      {es : List EncoderEv} : pathLab s l = some l' → s.due = event :: rest →
      callbackLab event = some l' → encoderStep s.path l' = some (p, es) →
      BezelMove s l { s with due := rest, path := p } (es.map .path)
  | inner {menuCont : Bool} {menu : MenuId} {l' : EncoderLab} {p : EncoderSys}
      {es : List EncoderEv} : pathLab s l = some l' → encoderStep s.path l' = some (p, es) →
      Inner es →
      BezelMove s l { s with menuCont := menuCont, currentMenu := menu, path := p }
        (es.map .path)
  | consumed {steps : Int} {replies : Nat → EspErr × EspErr} {p : EncoderSys} :
      pathLab s l = some .timer → s.path.ui = .resetSteps steps →
      encoderStep s.path .timer = some (p, [.consumed steps]) →
      BezelMove s l (consumeSteps { s with path := p } steps replies).1
        (.path (.consumed steps) :: (consumeSteps { s with path := p } steps replies).2)

section Steps

variable {s s' : BezelSys} {l : BezelLab} {es : List BezelEv} {p p' : EncoderSys}
  {ps : List EncoderEv}

theorem onPath_inv {l' : EncoderLab} (h : s.onPath l' = some (s', es)) :
    ∃ p ps, encoderStep s.path l' = some (p, ps) ∧ s' = { s with path := p } ∧
      es = ps.map .path := by
  obtain ⟨⟨p, ps⟩, hstep, heq⟩ := Option.map_eq_some_iff.mp h
  obtain ⟨rfl, rfl⟩ := Prod.mk.inj heq
  exact ⟨p, ps, hstep, rfl, rfl⟩

/-- A step of the encoder task makes no callback and consumes nothing. -/
theorem inner_task (h : encoderStep p .task = some (p', ps)) : Inner ps := by
  cases loopStep_of_step h <;> exact ⟨rfl, rfl, rfl⟩

theorem inner_timer (hui : p.ui = .idle) (h : encoderStep p .timer = some (p', ps)) :
    Inner ps := by
  cases timerStep_of_step (Option.some.inj h) with
  | nothing | read => exact ⟨rfl, rfl, rfl⟩
  | reset hreset =>
      rw [hui] at hreset
      cases hreset

theorem inner_showMenu (h : encoderStep p .showMenu = some (p', ps)) : Inner ps := by
  obtain ⟨-, -, rfl⟩ := showMenuReset_inv h
  exact ⟨rfl, rfl, rfl⟩

/-- Every step is one of these. -/
theorem bezelMove_of_step (h : bezelStep s l = some (s', es)) : BezelMove s l s' es := by
  cases l with
  | sample levels =>
      cases hdue : s.due with
      | nil =>
          simp only [bezelStep, hdue, Option.some.injEq, Prod.mk.injEq] at h
          obtain ⟨rfl, rfl⟩ := h
          exact .sample rfl hdue
      | cons event rest => simp [bezelStep, hdue] at h
  | callback =>
      cases hdue : s.due with
      | nil => simp [bezelStep, hdue] at h
      | cons event rest =>
          cases hlab : callbackLab event with
          | none => simp [bezelStep, hdue, hlab] at h
          | some l' =>
              simp only [bezelStep, hdue, hlab] at h
              obtain ⟨p, ps, hstep, rfl, rfl⟩ := onPath_inv h
              refine .callback ?_ hdue hlab hstep
              rw [pathLab, hdue]
              exact hlab
  | task =>
      obtain ⟨p, ps, hstep, rfl, rfl⟩ := onPath_inv h
      exact .inner rfl hstep (inner_task hstep)
  | timer replies =>
      by_cases hcont : s.menuCont = true
      · have hlab : pathLab s (.timer replies) = some .timer := if_pos hcont
        cases hui : s.path.ui with
        | idle =>
            simp only [bezelStep, hcont, hui, if_true] at h
            obtain ⟨p, ps, hstep, rfl, rfl⟩ := onPath_inv h
            exact .inner hlab hstep (inner_timer hui hstep)
        | resetSteps steps =>
            simp only [bezelStep, hcont, hui, if_true] at h
            obtain ⟨⟨t, ts⟩, hon, heq⟩ := Option.map_eq_some_iff.mp h
            obtain ⟨rfl, rfl⟩ := Prod.mk.inj heq
            obtain ⟨p, ps, hstep, rfl, rfl⟩ := onPath_inv hon
            obtain rfl : ps = [.consumed steps] := by
              simp only [encoderStep, encoderScrollTimerCb, hui, Option.some.injEq,
                Prod.mk.injEq] at hstep
              exact hstep.2.symm
            exact .consumed hlab hui hstep
      · simp only [bezelStep, hcont, Bool.false_eq_true, if_false, Option.some.injEq,
          Prod.mk.injEq] at h
        obtain ⟨rfl, rfl⟩ := h
        exact .ui (if_neg hcont) (.inl rfl) (.inl rfl)
  | showMenu menu =>
      obtain ⟨p, ps, hstep, rfl, rfl⟩ := onPath_inv h
      exact .inner rfl hstep (inner_showMenu hstep)
  | openHwEncoder =>
      cases hui : s.path.ui with
      | idle =>
          simp only [bezelStep, hui, Option.some.injEq, Prod.mk.injEq] at h
          obtain ⟨rfl, rfl⟩ := h
          exact .ui rfl (.inr rfl) (.inl rfl)
      | resetSteps steps => simp [bezelStep, hui] at h
  | sensitivity value =>
      cases hui : s.path.ui with
      | idle =>
          simp only [bezelStep, hui] at h
          split at h
          · rename_i hrange
            obtain ⟨rfl, rfl⟩ := Prod.mk.inj (Option.some.inj h)
            exact .ui rfl (.inl rfl) (.inr hrange)
          · cases h
      | resetSteps steps => simp [bezelStep, hui] at h

/-- A step of the bezel is a step of the encoder path, or leaves it alone. -/
theorem path_of_move (h : BezelMove s l s' es) :
    (pathLab s l = none ∧ s'.path = s.path ∧ pathTrace es = []) ∨
      ∃ l', pathLab s l = some l' ∧ encoderStep s.path l' = some (s'.path, pathTrace es) := by
  cases h with
  | sample hlab => exact .inl ⟨hlab, rfl, rfl⟩
  | ui hlab => exact .inl ⟨hlab, rfl, rfl⟩
  | callback hlab _ _ hstep =>
      refine .inr ⟨_, hlab, ?_⟩
      rw [pathTrace_path]
      exact hstep
  | inner hlab hstep =>
      refine .inr ⟨_, hlab, ?_⟩
      rw [pathTrace_path]
      exact hstep
  | @consumed steps replies p hlab _ hstep =>
      refine .inr ⟨_, hlab, ?_⟩
      rw [pathTrace_consumed, consumeSteps_frame.2.2.1]
      exact hstep

end Steps

/-! ## Runs -/

/-- A condition on the steps of the encoder path, for those of the bezel. -/
def OnPath (C : EncoderSys → EncoderLab → Prop) (s : BezelSys) (l : BezelLab) : Prop :=
  ∀ l', pathLab s l = some l' → C s.path l'

section Runs

variable {first : Level × Level} {ls : List BezelLab} {s : BezelSys} {tr : List BezelEv}

/-- **The invariant rule of the path**: what the encoder path keeps, the bezel
    keeps. -/
theorem path_invariant {P : EncoderSys → List EncoderEv → Prop}
    {C : EncoderSys → EncoderLab → Prop} (h0 : P encoderBoot [])
    (hstep : ∀ p tr l p' es, P p tr → C p l → encoderStep p l = some (p', es) →
      P p' (tr ++ es))
    (h : Run bezel (bezelBoot first) ls s tr)
    (hok : Meets bezel (bezelBoot first) (OnPath C) ls) : P s.path (pathTrace tr) := by
  refine h.invariant_of_meets (P := fun s tr => P s.path (pathTrace tr)) h0 ?_ hok
  intro s tr l s' es hP hC hs
  rw [pathTrace_append]
  rcases path_of_move (bezelMove_of_step hs) with ⟨-, hsame, hnone⟩ | ⟨l', hlab, hpath⟩
  · rw [hsame, hnone, List.append_nil]
    exact hP
  · exact hstep _ _ l' _ _ hP (hC l' hlab) hpath

/-- What an unconditional invariant of the path gives. -/
theorem path_invariant_all {P : EncoderSys → List EncoderEv → Prop} (h0 : P encoderBoot [])
    (hstep : ∀ p tr l p' es, P p tr → encoderStep p l = some (p', es) → P p' (tr ++ es))
    (h : Run bezel (bezelBoot first) ls s tr) : P s.path (pathTrace tr) := by
  refine path_invariant (C := fun _ _ => True) h0 ?_ h fun _ _ _ _ _ _ _ _ _ => trivial
  intro p tr l p' es hP _ hs
  exact hstep p tr l p' es hP hs

/-- The knob has handled the samples, and the callbacks made are those of the
    samples but the ones that are due. -/
structure KnobFollows (first : Level × Level) (s : BezelSys) (tr : List BezelEv) : Prop where
  knob  : s.knob = knobAfter knobStart (first :: sampled tr)
  right : rightCallbacks (pathTrace tr) + s.due.count .right =
    ((callbacks knobStart (first :: sampled tr)).count .right : Nat)
  left  : leftCallbacks (pathTrace tr) + s.due.count .left =
    ((callbacks knobStart (first :: sampled tr)).count .left : Nat)

/-- What one callback does to the counts. -/
theorem callback_counts {event : KnobEvent} {l' : EncoderLab} {p p' : EncoderSys}
    {es : List EncoderEv} (hlab : callbackLab event = some l')
    (hs : encoderStep p l' = some (p', es)) :
    rightCallbacks es = ([event].count .right : Nat) ∧
      leftCallbacks es = ([event].count .left : Nat) ∧ consumedSteps es = 0 := by
  cases event with
  | none => cases hlab
  | left | right =>
      obtain rfl := Option.some.inj hlab
      obtain ⟨-, rfl⟩ := Prod.mk.inj (Option.some.inj hs)
      exact ⟨rfl, rfl, rfl⟩

/-- A step without a sample hands over callbacks that were due. -/
theorem KnobFollows.keep {s' : BezelSys} {es : List BezelEv} (h : KnobFollows first s tr)
    (hknob : s'.knob = s.knob) (hnone : sampled es = [])
    (hright : rightCallbacks (pathTrace es) + s'.due.count .right = s.due.count .right)
    (hleft : leftCallbacks (pathTrace es) + s'.due.count .left = s.due.count .left) :
    KnobFollows first s' (tr ++ es) := by
  have hall : sampled (tr ++ es) = sampled tr := by
    rw [sampled_append, hnone, List.append_nil]
  have htrace : pathTrace (tr ++ es) = pathTrace tr ++ pathTrace es := pathTrace_append
  refine ⟨?_, ?_, ?_⟩
  · rw [hall, hknob]
    exact h.knob
  · rw [hall, ← h.right, htrace, rightCallbacks, total_append, Int.add_assoc]
    exact congrArg (_ + ·) hright
  · rw [hall, ← h.left, htrace, leftCallbacks, total_append, Int.add_assoc]
    exact congrArg (_ + ·) hleft

theorem knob_follows (h : Run bezel (bezelBoot first) ls s tr) : KnobFollows first s tr := by
  refine h.invariant (P := fun s tr => KnobFollows first s tr) ?_ ?_
  · obtain ⟨a, b⟩ := first
    cases a <;> cases b <;> exact ⟨rfl, rfl, rfl⟩
  · intro s tr l s' es hP hs
    have hmove := bezelMove_of_step hs
    cases hmove with
    | @sample levels hlab hdue =>
        obtain ⟨hknob, hright, hleft⟩ := hP
        rw [hdue, List.count_nil] at hright hleft
        have hall : first :: sampled (tr ++ [.sampled levels]) =
            (first :: sampled tr) ++ [levels] := by
          rw [sampled_append]
          rfl
        have hcall : callbacksAt knobStart (first :: sampled tr) levels =
            (knobHandler levels s.knob).2 := by
          rw [callbacksAt, hknob]
        have htrace : pathTrace (tr ++ [.sampled levels]) = pathTrace tr := by
          rw [pathTrace_append]
          exact List.append_nil _
        refine ⟨?_, ?_, ?_⟩
        · rw [hall, knobAfter_append, ← hknob]
        · rw [hall, callbacks_append, List.count_append, hcall, htrace]
          push_cast
          omega
        · rw [hall, callbacks_append, List.count_append, hcall, htrace]
          push_cast
          omega
    | ui => exact hP.keep rfl rfl (Int.zero_add _) (Int.zero_add _)
    | @callback event rest l' p es hlab hdue hcb hpath =>
        -- the callback leaves the list of those that are due
        obtain ⟨hr, hl, -⟩ := callback_counts hcb hpath
        refine hP.keep rfl sampled_path ?_ ?_
        · rw [pathTrace_path, hr, hdue, List.count_cons, List.count_cons, List.count_nil]
          push_cast
          omega
        · rw [pathTrace_path, hl, hdue, List.count_cons, List.count_cons, List.count_nil]
          push_cast
          omega
    | inner _ _ hinner =>
        obtain ⟨hr, hl, -⟩ := hinner
        refine hP.keep rfl sampled_path ?_ ?_
        · rw [pathTrace_path, hr]
          exact Int.zero_add _
        · rw [pathTrace_path, hl]
          exact Int.zero_add _
    | @consumed steps replies p =>
        obtain ⟨hk, hd, -, -⟩ := @consumeSteps_frame { s with path := p } steps replies
        have htrace := pathTrace_consumed { s with path := p } steps replies
        refine hP.keep hk sampled_consumeSteps ?_ ?_
        · rw [htrace, hd]
          exact Int.zero_add _
        · rw [htrace, hd]
          exact Int.zero_add _

/-! ### The counts of the path -/

/-- The increments and decrements made. -/
def bumpsMade : List EncoderEv → Int := total fun | .bump _ => 1 | _ => 0

/-- The bits that stand for callbacks that are not counted yet. -/
def bitsInFlight (p : EncoderSys) : Int :=
  (readBit p.knobEven 0).toInt + (readBit p.knobEven 1).toInt +
    match p.task with
    | .testLeft event => (readBit event 0).toInt + (readBit event 1).toInt
    | .storeLeft event _ | .testRight event => (readBit event 1).toInt
    | .waitBits | .storeRight _ => 0

/-- Every increment or decrement takes a bit that a callback has set. -/
def BumpsPaid (p : EncoderSys) (tr : List EncoderEv) : Prop :=
  bumpsMade tr + bitsInFlight p ≤ callbacksMade tr

/-- No copy of `encoder_steps` exceeds `n`, and a task that is about to write
    has room for its change. -/
structure StepsBounded (p : EncoderSys) (n : Int) : Prop where
  steps : (p.encoderSteps.natAbs : Int) ≤ n
  left  : ∀ event seen, p.task = .storeLeft event seen → (seen.natAbs : Int) < n
  right : ∀ seen, p.task = .storeRight seen → (seen.natAbs : Int) < n
  taken : ∀ steps, p.ui = .resetSteps steps → (steps.natAbs : Int) ≤ n

theorem toInt_nonneg (b : Bool) : 0 ≤ b.toInt := by
  cases b <;> decide

theorem bitsInFlight_nonneg (p : EncoderSys) : 0 ≤ bitsInFlight p := by
  have h0 := toInt_nonneg (readBit p.knobEven 0)
  have h1 := toInt_nonneg (readBit p.knobEven 1)
  have hevent : 0 ≤ bitsInFlight p - (readBit p.knobEven 0).toInt -
      (readBit p.knobEven 1).toInt := by
    rw [bitsInFlight]
    cases p.task with
    | testLeft event =>
        have he0 := toInt_nonneg (readBit event 0)
        have he1 := toInt_nonneg (readBit event 1)
        simp only
        omega
    | storeLeft event _ | testRight event =>
        have he1 := toInt_nonneg (readBit event 1)
        simp only
        omega
    | waitBits | storeRight =>
        simp only
        omega
  omega

theorem bumpsPaid_step {p p' : EncoderSys} {tr es : List EncoderEv} {l : EncoderLab}
    (h : BumpsPaid p tr) (hs : encoderStep p l = some (p', es)) : BumpsPaid p' (tr ++ es) := by
  simp only [BumpsPaid, bumpsMade, bitsInFlight, callbacksMade, rightCallbacks, leftCallbacks,
    total_append] at h ⊢
  cases l with
  | knobLeft =>
      obtain ⟨rfl, rfl⟩ := Prod.mk.inj (Option.some.inj hs)
      cases hb : readBit p.knobEven 0 <;>
        simp only [hb, readBit_knobLeftCb_left, readBit_knobLeftCb_right, total_single,
          Bool.toInt_true, Bool.toInt_false] at h ⊢ <;> omega
  | knobRight =>
      obtain ⟨rfl, rfl⟩ := Prod.mk.inj (Option.some.inj hs)
      cases hb : readBit p.knobEven 1 <;>
        simp only [hb, readBit_knobRightCb_left, readBit_knobRightCb_right, total_single,
          Bool.toInt_true, Bool.toInt_false] at h ⊢ <;> omega
  | task =>
      cases loopStep_of_step hs with
      | wake ht hw =>
          obtain ⟨rfl, h0, h1⟩ := wait_bits_spec hw
          simp only [ht, h0, h1, total_nil, Bool.toInt_false] at h ⊢
          omega
      | readLeft ht hb | skipLeft ht hb | readRight ht hb | skipRight ht hb =>
          simp only [ht, hb, total_nil, total_single, Bool.toInt_true,
            Bool.toInt_false] at h ⊢
          omega
      | writeLeft ht | writeRight ht =>
          simp only [ht, total_nil] at h ⊢
          omega
  | timer =>
      cases timerStep_of_step (Option.some.inj hs) with
      | nothing | read | reset =>
          simp only [total_nil, total_single] at h ⊢
          omega
  | showMenu =>
      obtain ⟨-, rfl, rfl⟩ := showMenuReset_inv hs
      simp only [total_single] at h ⊢
      omega

/-- The bound grows with the increments and decrements made. -/
theorem stepsBounded_step {p p' : EncoderSys} {n : Int} {es : List EncoderEv} {l : EncoderLab}
    (h : StepsBounded p n) (hs : encoderStep p l = some (p', es)) :
    StepsBounded p' (n + bumpsMade es) := by
  obtain ⟨hsteps, hleft, hright, htaken⟩ := h
  have hnonneg : 0 ≤ n := Int.le_trans (Int.natCast_nonneg _) hsteps
  have hzero : n + 0 = n := Int.add_zero n
  cases l with
  | knobLeft | knobRight =>
      obtain ⟨rfl, rfl⟩ := Prod.mk.inj (Option.some.inj hs)
      show StepsBounded _ (n + 0)
      rw [hzero]
      exact ⟨hsteps, hleft, hright, htaken⟩
  | task =>
      cases loopStep_of_step hs with
      | wake | skipLeft | skipRight =>
          rw [bumpsMade, total_nil, hzero]
          exact ⟨hsteps, nofun, nofun, htaken⟩
      | readLeft =>
          show StepsBounded _ (n + 1)
          refine ⟨Int.le_add_one hsteps, ?_, nofun, fun steps hui => ?_⟩
          · intro event seen he
            obtain ⟨-, rfl⟩ := LoopPc.storeLeft.inj he
            exact Int.lt_add_one_of_le hsteps
          · exact Int.le_add_one (htaken steps hui)
      | readRight =>
          show StepsBounded _ (n + 1)
          refine ⟨Int.le_add_one hsteps, nofun, ?_, fun steps hui => ?_⟩
          · intro seen he
            obtain rfl := LoopPc.storeRight.inj he
            exact Int.lt_add_one_of_le hsteps
          · exact Int.le_add_one (htaken steps hui)
      | @writeLeft event seen ht =>
          rw [bumpsMade, total_nil, hzero]
          have hseen := hleft event seen ht
          have hwrap := natAbs_wrap32 (seen - 1)
          exact ⟨by simp only; omega, nofun, nofun, htaken⟩
      | @writeRight seen ht =>
          rw [bumpsMade, total_nil, hzero]
          have hseen := hright seen ht
          have hwrap := natAbs_wrap32 (seen + 1)
          exact ⟨by simp only; omega, nofun, nofun, htaken⟩
  | timer =>
      cases timerStep_of_step (Option.some.inj hs) with
      | nothing =>
          rw [bumpsMade, total_nil, hzero]
          exact ⟨hsteps, hleft, hright, htaken⟩
      | read =>
          rw [bumpsMade, total_nil, hzero]
          refine ⟨hsteps, hleft, hright, ?_⟩
          intro steps he
          obtain rfl := UiPc.resetSteps.inj he
          exact hsteps
      | reset =>
          show StepsBounded _ (n + 0)
          rw [hzero]
          exact ⟨hnonneg, hleft, hright, nofun⟩
  | showMenu =>
      obtain ⟨-, rfl, rfl⟩ := showMenuReset_inv hs
      show StepsBounded _ (n + 0)
      rw [hzero]
      exact ⟨hnonneg, hleft, hright, htaken⟩

/-- The calls that took steps. -/
def takesMade : List EncoderEv → Int := total fun | .consumed _ => 1 | _ => 0

/-- Whether the task is about to write what it has counted. -/
def storing : LoopPc → Int
  | .storeLeft _ _ | .storeRight _ => 1
  | .waitBits | .testLeft _ | .testRight _ => 0

theorem storing_nonneg (pc : LoopPc) : 0 ≤ storing pc := by
  cases pc <;> simp [storing]

/-- Whether there are steps to be taken. -/
def waiting (p : EncoderSys) : Int :=
  match p.ui with
  | .idle => if p.encoderSteps = 0 then 0 else 1
  | .resetSteps _ => 1

/-- Every call that took steps found an increment or decrement written since the
    one before it. -/
def TakesPaid (p : EncoderSys) (tr : List EncoderEv) : Prop :=
  takesMade tr + waiting p + storing p.task ≤ bumpsMade tr

theorem waiting_le_one (p : EncoderSys) : 0 ≤ waiting p ∧ waiting p ≤ 1 := by
  rw [waiting]
  split
  · split <;> decide
  · decide

theorem takesPaid_step {p p' : EncoderSys} {tr es : List EncoderEv} {l : EncoderLab}
    (h : TakesPaid p tr) (hs : encoderStep p l = some (p', es)) : TakesPaid p' (tr ++ es) := by
  have hwait := waiting_le_one p
  have hwait' := waiting_le_one p'
  simp only [TakesPaid, takesMade, bumpsMade, total_append] at h ⊢
  cases l with
  | knobLeft | knobRight =>
      obtain ⟨rfl, rfl⟩ := Prod.mk.inj (Option.some.inj hs)
      simp only [waiting, total_single] at h ⊢
      omega
  | task =>
      cases loopStep_of_step hs with
      | wake ht | skipLeft ht | skipRight ht =>
          simp only [ht, waiting, storing, total_nil] at h ⊢
          omega
      | readLeft ht | readRight ht =>
          simp only [ht, waiting, storing, total_single] at h ⊢
          omega
      | writeLeft ht | writeRight ht =>
          simp only [ht, storing, total_nil] at h ⊢
          omega
  | timer =>
      cases timerStep_of_step (Option.some.inj hs) with
      | nothing => simpa only [total_nil, Int.add_zero] using h
      | read hui h0 =>
          simp only [waiting, hui, h0, if_false, total_nil] at h ⊢
          omega
      | reset hui =>
          simp only [waiting, hui, if_true, total_single] at h ⊢
          omega
  | showMenu =>
      obtain ⟨hui, rfl, rfl⟩ := showMenuReset_inv hs
      simp only [waiting, hui, if_true, total_single] at h ⊢
      omega

/-- Along every run the steps are bounded by the callbacks. -/
theorem path_bounds (h : Run bezel (bezelBoot first) ls s tr) :
    StepsBounded s.path (bumpsMade (pathTrace tr)) ∧
      bumpsMade (pathTrace tr) ≤ callbacksMade (pathTrace tr) := by
  have hbounded : StepsBounded s.path (bumpsMade (pathTrace tr)) := by
    refine path_invariant_all (P := fun p tr => StepsBounded p (bumpsMade tr)) ?_ ?_ h
    · exact ⟨Int.le_refl 0, nofun, nofun, nofun⟩
    · intro p tr l p' es hP hs
      rw [bumpsMade, total_append]
      exact stepsBounded_step hP hs
  have hpaid : BumpsPaid s.path (pathTrace tr) := by
    refine path_invariant_all (P := BumpsPaid) (Int.le_refl 0) ?_ h
    intro p tr l p' es hP hs
    exact bumpsPaid_step hP hs
  have hflight := bitsInFlight_nonneg s.path
  rw [BumpsPaid] at hpaid
  exact ⟨hbounded, by omega⟩

/-- Along every run each take has been paid for. -/
theorem takes_of_run (h : Run bezel (bezelBoot first) ls s tr) :
    TakesPaid s.path (pathTrace tr) := by
  refine path_invariant_all (P := TakesPaid) (Int.le_refl 0) ?_ h
  intro p tr l p' es hP hs
  exact takesPaid_step hP hs

/-! ### What the pages are given -/

/-- A step delivers what it took from the path. -/
theorem delivered_of_move {s s' : BezelSys} {l : BezelLab} {es : List BezelEv}
    (h : BezelMove s l s' es)
    (hneg : pathLab s l = some .timer →
      ∀ steps, s.path.ui = .resetSteps steps → InInt32 (-steps)) :
    delivered es = consumedSteps (pathTrace es) := by
  have hpath : ∀ ps : List EncoderEv, delivered (ps.map .path) = 0 := by
    intro ps
    have hvolume : netVolume (ps.map .path) = 0 := sumOf_path fun _ => rfl
    have hcounted : countedSteps (ps.map .path) = 0 := sumOf_path fun _ => rfl
    have hscrolled : scrolledSteps (ps.map .path) = 0 := sumOf_path fun _ => rfl
    rw [delivered, hvolume, hcounted, hscrolled]
    rfl
  cases h with
  | sample | ui => rfl
  | callback _ _ hcb hstep =>
      rw [hpath, pathTrace_path]
      exact (callback_counts hcb hstep).2.2.symm
  | inner _ _ hinner =>
      rw [hpath, pathTrace_path]
      exact hinner.2.2.symm
  | @consumed steps replies p hlab hui =>
      have hcall :=
        @delivered_consumeSteps { s with path := p } steps replies (hneg hlab steps hui)
      rw [pathTrace_consumed]
      simp only [delivered, netVolume, countedSteps, scrolledSteps, sumOf_cons,
        Int.zero_add] at hcall ⊢
      rw [hcall]
      simp [consumedSteps]

theorem delivered_append {tr es : List BezelEv} :
    delivered (tr ++ es) = delivered tr + delivered es := by
  simp only [delivered, netVolume, countedSteps, scrolledSteps, sumOf_append]
  omega

theorem bumpsMade_append {tr es : List EncoderEv} :
    bumpsMade (tr ++ es) = bumpsMade tr + bumpsMade es := total_append _ _ _

theorem takesMade_append {tr es : List EncoderEv} :
    takesMade (tr ++ es) = takesMade tr + takesMade es := total_append _ _ _

theorem total_nonneg {f : EncoderEv → Int} (hf : ∀ e, 0 ≤ f e) (tr : List EncoderEv) :
    0 ≤ total f tr := by
  induction tr with
  | nil => exact Int.le_refl 0
  | cons e tr ih =>
      rw [← List.singleton_append, total_append, total_single]
      have hone := hf e
      omega

theorem bumpsMade_nonneg (tr : List EncoderEv) : 0 ≤ bumpsMade tr := by
  refine total_nonneg (fun e => ?_) tr
  cases e <;> simp

theorem takesMade_nonneg (tr : List EncoderEv) : 0 ≤ takesMade tr := by
  refine total_nonneg (fun e => ?_) tr
  cases e <;> simp

/-- The count of the encoder page grows with every take, by no more than the steps
    can be. -/
theorem count_of_run (h : Run bezel (bezelBoot first) ls s tr) :
    (s.encoderTestCount.natAbs : Int) ≤ takesMade (pathTrace tr) * bumpsMade (pathTrace tr) := by
  induction h with
  | nil => exact Int.le_refl 0
  | @snoc ls s tr l s' es hrun hs ih =>
      have hbumps := bumpsMade_nonneg (pathTrace es)
      have htakes := takesMade_nonneg (pathTrace tr)
      have hmore := takesMade_nonneg (pathTrace es)
      have htotal := bumpsMade_nonneg (pathTrace tr)
      -- the product does not fall
      have hgrow : takesMade (pathTrace tr) * bumpsMade (pathTrace tr) ≤
          takesMade (pathTrace (tr ++ es)) * bumpsMade (pathTrace (tr ++ es)) := by
        rw [pathTrace_append, takesMade_append, bumpsMade_append]
        exact Int.mul_le_mul (by omega) (by omega) htotal (by omega)
      cases bezelMove_of_step hs with
      | sample | callback | inner => exact Int.le_trans ih hgrow
      | ui _ hcount =>
          rcases hcount with rfl | rfl
          · exact Int.le_trans ih hgrow
          · exact Int.le_trans (Int.le_trans (Int.natCast_nonneg _) ih) hgrow
      | @consumed steps replies p hlab hui =>
          have htaken := (path_bounds hrun).1.taken steps hui
          have hcall := @count_consumeSteps { s with path := p } steps replies
          have hprod : takesMade (pathTrace (tr ++ .path (.consumed steps) ::
                (consumeSteps { s with path := p } steps replies).2)) *
              bumpsMade (pathTrace (tr ++ .path (.consumed steps) ::
                (consumeSteps { s with path := p } steps replies).2)) =
              takesMade (pathTrace tr) * bumpsMade (pathTrace tr) + bumpsMade (pathTrace tr) := by
            have hone : takesMade [.consumed steps] = 1 := rfl
            have hzero : bumpsMade [.consumed steps] = 0 := rfl
            rw [pathTrace_append, pathTrace_consumed, takesMade_append, bumpsMade_append, hone,
              hzero]
            ring
          rw [hprod]
          simp only at hcall
          omega

/-- Each command that is taken is felt once. -/
theorem effects_of_run (h : Run bezel (bezelBoot first) ls s tr) :
    effectsPlayed tr = commandsTaken tr := by
  refine h.invariant (P := fun _ tr => effectsPlayed tr = commandsTaken tr) rfl ?_
  intro s tr l s' es hP hs
  rw [effectsPlayed, commandsTaken, sumOf_append, sumOf_append]
  refine congrArg₂ (· + ·) hP ?_
  cases bezelMove_of_step hs with
  | sample | ui => rfl
  | callback | inner => exact (sumOf_path fun _ => rfl).trans (sumOf_path fun _ => rfl).symm
  | consumed =>
      rw [sumOf_cons, sumOf_cons]
      exact congrArg (_ + ·) effects_consumeSteps

/-- The sensitivity stays in the range of its slider. -/
theorem sensitivity_of_run (h : Run bezel (bezelBoot first) ls s tr) :
    sliderMin ≤ s.encoderScrollPerStep ∧ s.encoderScrollPerStep ≤ sliderMax := by
  refine h.invariant (P := fun s _ =>
    sliderMin ≤ s.encoderScrollPerStep ∧ s.encoderScrollPerStep ≤ sliderMax) ?_ ?_
  · show sliderMin ≤ 20 ∧ 20 ≤ sliderMax
    decide
  · intro s tr l s' es hP hs
    cases bezelMove_of_step hs with
    | sample | callback | inner => exact hP
    | ui _ _ hper =>
        rcases hper with rfl | hper
        · exact hP
        · exact hper
    | consumed =>
        rw [consumeSteps_frame.2.2.2]
        exact hP

theorem callbacksMade_append {tr es : List EncoderEv} :
    callbacksMade (tr ++ es) = callbacksMade tr + callbacksMade es := by
  simp only [callbacksMade, rightCallbacks, leftCallbacks, total_append]
  omega

theorem callbacksMade_nonneg (tr : List EncoderEv) : 0 ≤ callbacksMade tr := by
  induction tr with
  | nil => exact Int.le_refl 0
  | cons e tr ih =>
      rw [← List.singleton_append, callbacksMade_append]
      have hone : 0 ≤ callbacksMade [e] := by
        cases e <;> simp [callbacksMade, rightCallbacks, leftCallbacks]
      omega

/-- Within the bound on the callbacks a scroll amount fits in 32 bits. -/
theorem scroll_inInt32 {n steps perStep : Int} (hn : n * sliderMax < 2 ^ 31)
    (hsteps : (steps.natAbs : Int) ≤ n) (hper : sliderMin ≤ perStep ∧ perStep ≤ sliderMax) :
    InInt32 (-steps * perStep) := by
  have hmin : sliderMin = 5 := rfl
  have hmax : sliderMax = 80 := rfl
  rw [hmax] at hn hper
  have habs : (perStep.natAbs : Int) ≤ 80 := by omega
  have hnonneg : 0 ≤ n := Int.le_trans (Int.natCast_nonneg _) hsteps
  have hmul : ((-steps * perStep).natAbs : Int) ≤ n * 80 := by
    rw [Int.natAbs_mul, Int.natAbs_neg, Int.natCast_mul]
    exact Int.mul_le_mul hsteps habs (Int.natCast_nonneg _) hnonneg
  constructor <;> omega

/-- What holds of every run.  Each command that `media_controller_send` takes is
    felt once, and `encoder_steps` never exceeds the callbacks made. -/
structure WithinBounds (s : BezelSys) (tr : List BezelEv) : Prop where
  felt      : effectsPlayed tr = commandsTaken tr
  steps     : (s.path.encoderSteps.natAbs : Int) ≤ callbacksMade (pathTrace tr)
  /-- the pages were given what was taken, on whichever page it was -/
  delivered : callbacksMade (pathTrace tr) * sliderMax < 2 ^ 31 →
    delivered tr = consumedSteps (pathTrace tr)
  /-- every scroll is by the steps times a sensitivity of the slider -/
  scrolled  : callbacksMade (pathTrace tr) * sliderMax < 2 ^ 31 →
    ∀ steps dy, BezelEv.scrolled steps dy ∈ tr →
      ∃ perStep, sliderMin ≤ perStep ∧ perStep ≤ sliderMax ∧ dy = -steps * perStep
  /-- a call that has taken steps can turn them round and scale them -/
  scales    : callbacksMade (pathTrace tr) * sliderMax < 2 ^ 31 →
    ∀ steps, s.path.ui = .resetSteps steps →
      InInt32 (-steps) ∧ InInt32 (-steps * s.encoderScrollPerStep)
  /-- and it can add them to the count, which torn updates make larger than the
      callbacks -/
  counts    : callbacksMade (pathTrace tr) * callbacksMade (pathTrace tr) < 2 ^ 31 →
    ∀ steps, s.path.ui = .resetSteps steps → InInt32 (s.encoderTestCount + steps)

/-- A call that has taken steps adds them to the count within 32 bits. -/
theorem count_inInt32 (h : Run bezel (bezelBoot first) ls s tr)
    (hn : callbacksMade (pathTrace tr) * callbacksMade (pathTrace tr) < 2 ^ 31) {steps : Int}
    (hui : s.path.ui = .resetSteps steps) : InInt32 (s.encoderTestCount + steps) := by
  obtain ⟨hsteps, hpaid⟩ := path_bounds h
  have hcount := count_of_run h
  have htaken := hsteps.taken steps hui
  have htakes := takes_of_run h
  have hwaiting : waiting s.path = 1 := by rw [waiting, hui]
  have hstoring := storing_nonneg s.path.task
  rw [TakesPaid, hwaiting] at htakes
  have hbumps := bumpsMade_nonneg (pathTrace tr)
  -- the takes so far and this one are no more than the increments and decrements
  have hsquare : (takesMade (pathTrace tr) + 1) * bumpsMade (pathTrace tr) ≤
      callbacksMade (pathTrace tr) * callbacksMade (pathTrace tr) :=
    Int.mul_le_mul (by omega) hpaid hbumps (by omega)
  have hsum : (s.encoderTestCount.natAbs : Int) + steps.natAbs ≤
      (takesMade (pathTrace tr) + 1) * bumpsMade (pathTrace tr) := by
    rw [Int.add_mul, Int.one_mul]
    exact Int.add_le_add hcount htaken
  constructor <;> omega

/-- **The bezel in every run**, whatever the interleaving loses.  Every command
    that is taken is felt once and the steps never exceed the callbacks.  With
    fewer than 2^31 / 80 callbacks no change of sign and no scaling by the consumer
    overflows: the pages are given exactly what it took, and every scroll is by the
    steps times a sensitivity of the slider.  With so few that their square is
    below 2^31 its addition on the encoder page does not overflow either. -/
theorem bezel_within_bounds (h : Run bezel (bezelBoot first) ls s tr) : WithinBounds s tr := by
  induction h with
  | nil =>
      refine ⟨rfl, Int.le_refl 0, fun _ => rfl, fun _ _ _ hmem => ?_, fun _ _ hui => ?_,
        fun _ _ hui => ?_⟩
      · cases hmem
      · cases hui
      · cases hui
  | @snoc ls s tr l s' es hrun hs ih =>
      have hmove := bezelMove_of_step hs
      obtain ⟨hsteps', hpaid'⟩ := path_bounds (hrun.snoc hs)
      obtain ⟨hsteps, hpaid⟩ := path_bounds hrun
      have hper := sensitivity_of_run hrun
      -- what is in bounds at the end was in bounds before
      have hbefore : callbacksMade (pathTrace (tr ++ es)) * sliderMax < 2 ^ 31 →
          callbacksMade (pathTrace tr) * sliderMax < 2 ^ 31 := by
        intro hbound
        have hnonneg := callbacksMade_nonneg (pathTrace es)
        have hmax : sliderMax = 80 := rfl
        rw [pathTrace_append, callbacksMade_append] at hbound
        rw [hmax] at hbound ⊢
        omega
      have htaken : ∀ steps, s.path.ui = .resetSteps steps →
          (steps.natAbs : Int) ≤ callbacksMade (pathTrace tr) :=
        fun steps hui => Int.le_trans (hsteps.taken steps hui) hpaid
      have hneg : callbacksMade (pathTrace tr) * sliderMax < 2 ^ 31 →
          ∀ steps, s.path.ui = .resetSteps steps → InInt32 (-steps) := by
        intro hbound steps hui
        have hle := htaken steps hui
        have hmax : sliderMax = 80 := rfl
        rw [hmax] at hbound
        constructor <;> omega
      have hper' := sensitivity_of_run (hrun.snoc hs)
      refine ⟨effects_of_run (hrun.snoc hs), Int.le_trans hsteps'.steps hpaid', ?_, ?_, ?_,
        fun hbound steps hui => count_inInt32 (hrun.snoc hs) hbound hui⟩
      · intro hbound
        have hb := hbefore hbound
        rw [delivered_append, ih.delivered hb, delivered_of_move hmove fun _ => hneg hb,
          pathTrace_append, consumedSteps, total_append]
      · intro hbound steps dy hmem
        have hb := hbefore hbound
        rcases List.mem_append.mp hmem with hmem | hmem
        · exact ih.scrolled hb steps dy hmem
        · cases hmove with
          | sample | ui => simp at hmem
          | callback | inner => simp at hmem
          | @consumed taken replies p _ hui =>
              refine ⟨s.encoderScrollPerStep, hper.1, hper.2, ?_⟩
              have hcall : BezelEv.scrolled steps dy ∈
                  (consumeSteps { s with path := p } taken replies).2 := by
                simpa using hmem
              exact @scrolled_consumeSteps { s with path := p } taken replies steps dy
                (hneg hb taken hui) (scroll_inInt32 hb (htaken taken hui) hper) hcall
      · intro hbound steps hui
        have hle := Int.le_trans (hsteps'.taken steps hui) hpaid'
        have hscroll := scroll_inInt32 hbound hle hper'
        have hmax : sliderMax = 80 := rfl
        rw [hmax] at hbound
        exact ⟨⟨by omega, by omega⟩, hscroll⟩

/-! ### In step -/

/-- A step of the path that loses nothing: a callback finds its bit clear, a
    write finds what its task had read, and what the consumer takes has a
    negative. -/
def PathInStep (p : EncoderSys) : EncoderLab → Prop
  | .knobLeft => readBit p.knobEven 0 = false
  | .knobRight => readBit p.knobEven 1 = false
  | .timer => FreshWriteBack p .timer ∧ ∀ steps, p.ui = .resetSteps steps → InInt32 (-steps)
  | .task => FreshWriteBack p .task
  | .showMenu => True

/-- The same of a step of the bezel. -/
def InStep : BezelSys → BezelLab → Prop := OnPath PathInStep

instance (ui : UiPc) : Decidable (∀ steps, ui = .resetSteps steps → InInt32 (-steps)) :=
  match ui with
  | .idle => isTrue (by simp)
  | .resetSteps n => decidable_of_iff (InInt32 (-n)) (by simp)

instance (p : EncoderSys) : DecidablePred (PathInStep p)
  | .knobLeft => inferInstanceAs (Decidable (_ = _))
  | .knobRight => inferInstanceAs (Decidable (_ = _))
  | .timer => inferInstanceAs (Decidable (_ ∧ _))
  | .task => inferInstanceAs (Decidable (FreshWriteBack p .task))
  | .showMenu => isTrue trivial

instance (s : BezelSys) (l : BezelLab) : Decidable (InStep s l) :=
  inferInstanceAs (Decidable (∀ l' ∈ pathLab s l, PathInStep s.path l'))

/-- Nothing is on the way: no callback is due, no bit is set, and no step waits
    for the consumer. -/
def Settled (s : BezelSys) : Prop :=
  s.due = [] ∧ Drained s.path ∧ s.path.encoderSteps = 0

theorem PathInStep.fresh {p : EncoderSys} {l : EncoderLab} (h : PathInStep p l) :
    FreshWriteBack p l := by
  cases l with
  | knobLeft | knobRight | showMenu => exact trivial
  | task => exact h
  | timer => exact h.1

/-- What holds of the encoder path in step. -/
structure PathSound (p : EncoderSys) (tr : List EncoderEv) : Prop where
  range     : StepsInRange p
  conserved : Conserved p tr
  handOff   : HandOff p tr
  clear     : coalescedRights tr = 0 ∧ coalescedLefts tr = 0

/-- In step no callback is lost to its bit. -/
theorem clear_of_inStep {p p' : EncoderSys} {l : EncoderLab} {es : List EncoderEv}
    (h : PathInStep p l) (hs : encoderStep p l = some (p', es)) :
    coalescedRights es = 0 ∧ coalescedLefts es = 0 := by
  cases l with
  | knobLeft | knobRight =>
      obtain ⟨-, rfl⟩ := Prod.mk.inj (Option.some.inj hs)
      have hclear : readBit p.knobEven _ = false := h
      rw [hclear]
      exact ⟨rfl, rfl⟩
  | task => cases loopStep_of_step hs <;> exact ⟨rfl, rfl⟩
  | timer => cases timerStep_of_step (Option.some.inj hs) <;> exact ⟨rfl, rfl⟩
  | showMenu =>
      obtain ⟨-, -, rfl⟩ := showMenuReset_inv hs
      exact ⟨rfl, rfl⟩

theorem pathSound_step {p p' : EncoderSys} {l : EncoderLab} {tr es : List EncoderEv}
    (h : PathSound p tr) (hin : PathInStep p l) (hs : encoderStep p l = some (p', es)) :
    PathSound p' (tr ++ es) := by
  obtain ⟨hrange, hconserved, hhand, hright, hleft⟩ := h
  obtain ⟨hright', hleft'⟩ := clear_of_inStep hin hs
  refine ⟨stepsInRange_step hrange hs, (conserved_step_iff hrange hconserved hs).mpr hin.fresh,
    handOff_step hhand hs, ?_, ?_⟩
  · rw [coalescedRights, total_append]
    exact congrArg₂ (· + ·) hright hright'
  · rw [coalescedLefts, total_append]
    exact congrArg₂ (· + ·) hleft hleft'

theorem pathSound_of_run (h : Run bezel (bezelBoot first) ls s tr)
    (hin : Meets bezel (bezelBoot first) InStep ls) : PathSound s.path (pathTrace tr) := by
  refine path_invariant (P := PathSound) ?_ ?_ h hin
  · exact ⟨⟨by decide, nofun, nofun⟩, rfl, rfl, rfl, rfl⟩
  · intro p tr l p' es hP hC hs
    exact pathSound_step hP hC hs

/-- In step the pages are given what the consumer took. -/
theorem delivered_of_run (h : Run bezel (bezelBoot first) ls s tr)
    (hin : Meets bezel (bezelBoot first) InStep ls) :
    delivered tr = consumedSteps (pathTrace tr) := by
  refine h.invariant_of_meets (P := fun _ tr => delivered tr = consumedSteps (pathTrace tr))
    rfl ?_ hin
  intro s tr l s' es hP hC hs
  rw [delivered_append, hP, pathTrace_append, consumedSteps, total_append]
  exact congrArg (_ + ·)
    (delivered_of_move (bezelMove_of_step hs) fun hlab => (hC .timer hlab).2)

/-- **End to end.**  In every run whose steps are all in step (no `++`, `--` or
    `-steps` leaves `int32_t` among them), over any interleaving of samples,
    callbacks, encoder task, timer callback and page changes, and once nothing is on
    the way: the volume keys sent, the steps
    counted and scrolled, and those that `show_menu` threw away add up to the
    right detents less the left detents that the samples show, provided no run of
    low samples has lost its length to the count. -/
theorem bezel_delivers (h : Run bezel (bezelBoot first) ls s tr)
    (hin : Meets bezel (bezelBoot first) InStep ls) (hsettled : Settled s)
    (hright : Unwrapped ((first :: sampled tr).map Prod.fst))
    (hleft : Unwrapped ((first :: sampled tr).map Prod.snd)) :
    netVolume tr + countedSteps tr + scrolledSteps tr + discardedSteps (pathTrace tr) =
      detents ((first :: sampled tr).map Prod.fst) -
        detents ((first :: sampled tr).map Prod.snd) := by
  obtain ⟨hdue, hdrained, hzero⟩ := hsettled
  obtain ⟨-, hconserved, hhand, hclearR, hclearL⟩ := pathSound_of_run h hin
  obtain ⟨-, hr, hl⟩ := knob_follows h
  obtain ⟨hcountR, hcountL⟩ := count_callbacks (first :: sampled tr)
  have hgiven := delivered_of_run h hin
  rw [hdue, List.count_nil, hcountR, firings_eq_detents hright] at hr
  rw [hdue, List.count_nil, hcountL, firings_eq_detents hleft] at hl
  rw [Conserved, hdrained.1, hzero] at hconserved
  rw [HandOff, netInFlight_drained hdrained, hclearR, hclearL] at hhand
  have hpending : pendingBump .waitBits = 0 := rfl
  rw [delivered] at hgiven
  omega

/-- A short list of samples loses no length. -/
theorem unwrapped_of_length {levels : List Level} (h : levels.length ≤ 256) :
    Unwrapped levels := by
  rintro done x rest rfl ⟨-, hlong, -⟩
  have hrun : lowRun done ≤ done.length := by
    have htake := (List.takeWhile_prefix (l := done.reverse) (· = Level.low)).length_le
    rw [List.length_reverse] at htake
    exact htake
  rw [List.length_append, List.length_cons] at h
  omega

/-- One right detent on the Media Controller page. -/
def oneClick : List BezelLab :=
  [.showMenu .mediaController, .sample (.low, .high), .sample (.low, .high),
    .sample (.high, .high), .callback, .task, .task, .task, .task,
    .timer fun _ => (espOk, espOk), .timer fun _ => (espOk, espOk)]

/-- Its trace: the key is sent and felt. -/
def oneClickTrace : List BezelEv :=
  [.path (.discarded 0), .sampled (.low, .high), .sampled (.low, .high),
    .sampled (.high, .high), .path (.right false), .path (.bump 1), .path (.consumed 1),
    .sent .volumeUp espOk, .played 1 espOk]

/-- End to end, at the run of one detent. -/
theorem bezel_delivers_at : ∃ s, Run bezel (bezelBoot (.high, .high)) oneClick s oneClickTrace ∧
    netVolume oneClickTrace + countedSteps oneClickTrace + scrolledSteps oneClickTrace +
        discardedSteps (pathTrace oneClickTrace) =
      detents [.high, .low, .low, .high] - detents [.high, .high, .high, .high] := by
  have hexec : ∃ s, exec bezel (bezelBoot (.high, .high)) oneClick = some (s, oneClickTrace) ∧
      Settled s := ⟨_, rfl, rfl, ⟨rfl, rfl⟩, rfl⟩
  obtain ⟨s, hs, hsettled⟩ := hexec
  have hrun := run_of_exec hs
  exact ⟨s, hrun, bezel_delivers hrun (meets_of_checks rfl) hsettled
    (unwrapped_of_length (by decide)) (unwrapped_of_length (by decide))⟩

/-- The bounds at the same run. -/
theorem bezel_within_bounds_at : ∃ s,
    Run bezel (bezelBoot (.high, .high)) oneClick s oneClickTrace ∧
      WithinBounds s oneClickTrace := by
  have hexec : ∃ s, exec bezel (bezelBoot (.high, .high)) oneClick = some (s, oneClickTrace) :=
    ⟨_, rfl⟩
  obtain ⟨s, hs⟩ := hexec
  have hrun := run_of_exec hs
  exact ⟨s, hrun, bezel_within_bounds hrun⟩

end Runs

end Bezel
