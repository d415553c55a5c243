import KnobFirmware.KnobEncoderProofs
import Mathlib.Logic.Function.Basic
import Mathlib.Tactic.Ring

/-! # The knob's debouncing — from sampled levels to callbacks

    The knob timer samples the two phases every three milliseconds.  A turn in
    one direction pulls one phase low, and the rising edge that ends the low
    level is a detent, unless the level was low for less than `DEBOUNCE_TICKS`
    samples.  `process_knob_channel` counts the low samples of a channel in a
    `uint8_t` and compares the count at the edge.

    The count wraps at 256.  A level that is held low for 256 or 257 samples, or
    512 or 513, and so on, comes to the edge with a count of 0 or 1, and its
    detent is lost: `debounced_iff` says that nothing else goes wrong. -/

namespace KnobDebounce

open KnobEncoder (wrap32 InInt32 wrap32_inInt32)

/-! ## The code -/

/-- `DEBOUNCE_TICKS`. -/
def debounceTicks : UInt8 := 2

/-- A level as `gpio_get_level` returns it. -/
inductive Level where
  | low
  | high
  deriving DecidableEq, Repr

def Level.value : Level → UInt8
  | .low => 0
  | .high => 1

/-- `knob_event_t`. -/
inductive KnobEvent where
  | left
  | right
  | none
  deriving DecidableEq, Repr

/-- The level and the debounce count of one phase. -/
structure Channel where
  encoderLevel : UInt8
  debounceCnt  : UInt8
  deriving DecidableEq, Repr

/-- `knob_dev_t`; `cb` tells the events that have a callback. -/
structure Knob where
  a          : Channel
  b          : Channel
  event      : KnobEvent
  countValue : Int
  cb         : KnobEvent → Bool

/-- `process_knob_channel`: the channel, the knob, and the callbacks that it
    made. -/
def processKnobChannel (currentLevel : UInt8) (c : Channel) (event : KnobEvent)
    (isIncrement : Bool) (knob : Knob) : Channel × Knob × List KnobEvent :=
  if currentLevel = 0 then
    if currentLevel ≠ c.encoderLevel then (⟨currentLevel, 0⟩, knob, [])
    else (⟨currentLevel, c.debounceCnt + 1⟩, knob, [])
  else if currentLevel ≠ c.encoderLevel ∧ c.debounceCnt + 1 ≥ debounceTicks then
    (⟨currentLevel, 0⟩,
      { knob with
        countValue := wrap32 (knob.countValue + if isIncrement then 1 else -1)
        event := event },
      if knob.cb event then [event] else [])
  else (⟨currentLevel, 0⟩, knob, [])

/-- `knob_handler` on the levels of the two phases. -/
def knobHandler (levels : Level × Level) (knob : Knob) : Knob × List KnobEvent :=
  let ra := processKnobChannel levels.1.value knob.a .right true knob
  let knob := { ra.2.1 with a := ra.1 }
  let rb := processKnobChannel levels.2.value knob.b .left false knob
  ({ rb.2.1 with b := rb.1 }, ra.2.2 ++ rb.2.2)

/-- The knob that `iot_knob_create` leaves, with the levels that it samples. -/
def iotKnobCreate (levels : Level × Level) : Knob where
  a := ⟨levels.1.value, 0⟩
  b := ⟨levels.2.value, 0⟩
  event := .none
  countValue := 0
  cb := fun _ => false

/-- `iot_knob_register_cb`. -/
def iotKnobRegisterCb (event : KnobEvent) (knob : Knob) : Knob :=
  { knob with cb := Function.update knob.cb event true }

/-- `user_encoder_init`. -/
def userEncoderInit (levels : Level × Level) : Knob :=
  iotKnobRegisterCb .right (iotKnobRegisterCb .left (iotKnobCreate levels))

/-- The knob after samples. -/
def knobAfter (knob : Knob) (ticks : List (Level × Level)) : Knob :=
  ticks.foldl (fun knob levels => (knobHandler levels knob).1) knob

/-- The callbacks that the last of some samples makes. -/
def callbacksAt (knob : Knob) (ticks : List (Level × Level)) (levels : Level × Level) :
    List KnobEvent :=
  (knobHandler levels (knobAfter knob ticks)).2

/-! ## What it is for -/

/-- How many samples at the end of a list are low. -/
def lowRun (levels : List Level) : Nat := (levels.reverse.takeWhile (· = .low)).length

/-- The sample `x` after `done` ends a run of at least `DEBOUNCE_TICKS` low
    samples. -/
def Detent (done : List Level) (x : Level) : Prop := x = .high ∧ debounceTicks.toNat ≤ lowRun done

instance (done : List Level) (x : Level) : Decidable (Detent done x) :=
  inferInstanceAs (Decidable (_ ∧ _))

/-- The sample `x` after `done` ends a run whose length the count has lost. -/
def Wrapped (done : List Level) (x : Level) : Prop :=
  x = .high ∧ 256 ≤ lowRun done ∧ lowRun done % 256 < debounceTicks.toNat

instance (done : List Level) (x : Level) : Decidable (Wrapped done x) :=
  inferInstanceAs (Decidable (_ ∧ _))

section LowRun

variable {done : List Level} {n : Nat}

@[simp] theorem lowRun_low : lowRun (done ++ [.low]) = lowRun done + 1 := by
  simp [lowRun]

@[simp] theorem lowRun_high : lowRun (done ++ [.high]) = 0 := by
  simp [lowRun]

theorem lowRun_replicate : lowRun (List.replicate n .low) = n := by
  simp [lowRun]

end LowRun

/-! ## One channel -/

/-- What the code compares at an edge: the length of the run as its count has
    it. -/
def Fires (done : List Level) (x : Level) : Prop :=
  x = .high ∧ debounceTicks.toNat ≤ lowRun done % 256

instance (done : List Level) (x : Level) : Decidable (Fires done x) :=
  inferInstanceAs (Decidable (_ ∧ _))

/-- The state of a channel after the samples `done`, from a high level on. -/
inductive ChannelAt (c : Channel) (done : List Level) : Prop where
  | high : lowRun done = 0 → c = ⟨1, 0⟩ → ChannelAt c done
  | low : 0 < lowRun done → c = ⟨0, UInt8.ofNat (lowRun done - 1)⟩ → ChannelAt c done

section Channel

variable {c : Channel} {done : List Level} {x : Level} {event : KnobEvent} {inc : Bool}
  {knob : Knob}

theorem wrap32_add {n d : Int} : wrap32 (wrap32 n + d) = wrap32 (n + d) := Int.bmod_add_bmod

/-- The count at the edge is the length of the run, in 8 bits. -/
theorem count_at_edge (h : 0 < lowRun done) :
    UInt8.ofNat (lowRun done - 1) + 1 ≥ debounceTicks ↔
      debounceTicks.toNat ≤ lowRun done % 256 := by
  have hcount : UInt8.ofNat (lowRun done - 1) + 1 = UInt8.ofNat (lowRun done) := by
    rw [← UInt8.ofNat_one, ← UInt8.ofNat_add, Nat.sub_add_cancel h]
  rw [hcount, ge_iff_le, UInt8.le_iff_toNat_le, UInt8.toNat_ofNat']

/-- **One sample of a channel.**  The state follows the run, and the sample fires
    exactly at an edge whose count reaches the limit. -/
theorem channel_step (h : ChannelAt c done) :
    ChannelAt (processKnobChannel x.value c event inc knob).1 (done ++ [x]) ∧
      (processKnobChannel x.value c event inc knob).2 =
        if Fires done x then
          ({ knob with
              countValue := wrap32 (knob.countValue + if inc then 1 else -1)
              event := event },
            if knob.cb event then [event] else [])
        else (knob, []) := by
  cases x with
  | low =>
      have hno : ¬ Fires done .low := fun hf => Level.noConfusion hf.1
      rw [if_neg hno]
      cases h with
      | high hrun hc =>
          subst hc
          refine ⟨.low (by simp) ?_, rfl⟩
          rw [lowRun_low, hrun]
          rfl
      | low hrun hc =>
          subst hc
          refine ⟨.low (by simp) ?_, rfl⟩
          rw [lowRun_low, Nat.add_sub_cancel]
          show Channel.mk 0 (UInt8.ofNat (lowRun done - 1) + 1) = _
          rw [← UInt8.ofNat_one, ← UInt8.ofNat_add, Nat.sub_add_cancel hrun]
  | high =>
      have hafter : ChannelAt ⟨1, 0⟩ (done ++ [.high]) := .high lowRun_high rfl
      cases h with
      | high hrun hc =>
          subst hc
          have hno : ¬ Fires done .high := by
            rintro ⟨-, hle⟩
            rw [hrun] at hle
            exact absurd hle (by decide)
          rw [if_neg hno]
          exact ⟨hafter, rfl⟩
      | low hrun hc =>
          subst hc
          by_cases hf : Fires done .high
          · have hedge := (count_at_edge hrun).mpr hf.2
            have hlevel : Level.high.value ≠ (0 : UInt8) := by decide
            rw [if_pos hf, processKnobChannel, if_neg hlevel, if_pos ⟨hlevel, hedge⟩]
            exact ⟨hafter, rfl⟩
          · have hedge : ¬ UInt8.ofNat (lowRun done - 1) + 1 ≥ debounceTicks := by
              intro hge
              exact hf ⟨rfl, (count_at_edge hrun).mp hge⟩
            rw [if_neg hf, processKnobChannel, if_neg (by decide),
              if_neg fun hboth => hedge hboth.2]
            exact ⟨hafter, rfl⟩

/-- A sample of a channel whose callback is registered: the channels of the knob
    and its callbacks are left alone, and an edge that fires is counted. -/
theorem channel_counts {n : Int} (h : ChannelAt c done) (hcb : knob.cb event = true)
    (hcount : knob.countValue = wrap32 n) :
    ∃ c' knob' es, processKnobChannel x.value c event inc knob = (c', knob', es) ∧
      ChannelAt c' (done ++ [x]) ∧
      (knob'.a = knob.a ∧ knob'.b = knob.b ∧ knob'.cb = knob.cb) ∧
      es = (if Fires done x then [event] else []) ∧
      knob'.countValue =
        wrap32 (n + if Fires done x then (if inc then 1 else -1) else 0) := by
  obtain ⟨hafter, heq⟩ := @channel_step c done x event inc knob h
  generalize processKnobChannel x.value c event inc knob = res at hafter heq
  obtain ⟨c', rest⟩ := res
  obtain rfl : rest = _ := heq
  by_cases hf : Fires done x
  · rw [if_pos hf, if_pos hf, if_pos hf, if_pos hcb]
    refine ⟨_, _, _, rfl, hafter, ⟨rfl, rfl, rfl⟩, rfl, ?_⟩
    show wrap32 (knob.countValue + if inc then 1 else -1) = _
    rw [hcount, wrap32_add]
  · rw [if_neg hf, if_neg hf, if_neg hf, Int.add_zero]
    exact ⟨_, _, _, rfl, hafter, ⟨rfl, rfl, rfl⟩, rfl, hcount⟩

/-- The code tells a detent from a bounce unless its count has wrapped. -/
theorem fires_iff_detent : (Fires done x ↔ Detent done x) ↔ ¬ Wrapped done x := by
  have hlimit : debounceTicks.toNat = 2 := rfl
  rw [Fires, Detent, Wrapped, hlimit]
  by_cases hx : x = .high
  · simp only [hx, true_and]
    omega
  · simp [hx]

end Channel

/-! ## Both channels -/

/-- The callbacks that samples make. -/
def callbacks (knob : Knob) : List (Level × Level) → List KnobEvent
  | [] => []
  | levels :: rest => (knobHandler levels knob).2 ++ callbacks (knobHandler levels knob).1 rest

/-- The samples among `levels` at which `P` holds, the samples `done` having come
    before. -/
def edgesFrom (P : List Level → Level → Prop) [∀ done x, Decidable (P done x)]
    (done : List Level) : List Level → Nat
  | [] => 0
  | x :: rest => (if P done x then 1 else 0) + edgesFrom P (done ++ [x]) rest

/-- The maximal runs of at least `DEBOUNCE_TICKS` low samples that a high one
    follows. -/
def detents (levels : List Level) : Nat := edgesFrom Detent [] levels

/-- The edges at which the code fires. -/
def firings (levels : List Level) : Nat := edgesFrom Fires [] levels

/-- The knob as `user_encoder_init` leaves it with both levels high. -/
def knobStart : Knob := userEncoderInit (.high, .high)

/-- The state of a knob after samples. -/
structure KnobAt (knob : Knob) (ticks : List (Level × Level)) : Prop where
  a  : ChannelAt knob.a (ticks.map Prod.fst)
  b  : ChannelAt knob.b (ticks.map Prod.snd)
  cb : knob.cb .right = true ∧ knob.cb .left = true

section Handler

variable {knob : Knob} {ticks done rest : List (Level × Level)} {levels : Level × Level}

/-- A knob that finds other levels at its creation is the knob that has sampled
    them. -/
theorem userEncoderInit_eq : (knobHandler levels knobStart).1 = userEncoderInit levels := by
  obtain ⟨a, b⟩ := levels
  cases a <;> cases b <;> rfl

theorem knobStart_at : KnobAt knobStart [] := ⟨.high rfl rfl, .high rfl rfl, rfl, rfl⟩

/-- **One sample of both channels.**  The right channel counts up where it fires
    and the left one down, and each fires by its own samples. -/
theorem handler_step {n : Int} (h : KnobAt knob done) (hcount : knob.countValue = wrap32 n) :
    KnobAt (knobHandler levels knob).1 (done ++ [levels]) ∧
      (knobHandler levels knob).2 =
        (if Fires (done.map Prod.fst) levels.1 then [.right] else []) ++
          (if Fires (done.map Prod.snd) levels.2 then [.left] else []) ∧
      (knobHandler levels knob).1.countValue =
        wrap32 (n + (if Fires (done.map Prod.fst) levels.1 then 1 else 0) -
          (if Fires (done.map Prod.snd) levels.2 then 1 else 0)) := by
  obtain ⟨ca, knobA, esA, haeq, ha, ⟨-, hkeepB, hkeepCb⟩, hesA, hcountA⟩ :=
    @channel_counts knob.a (done.map Prod.fst) levels.1 .right true knob n h.a h.cb.1 hcount
  -- the second channel starts from the knob that the first one leaves
  have hleft : ({ knobA with a := ca } : Knob).cb .left = true := by
    show knobA.cb .left = true
    rw [hkeepCb]
    exact h.cb.2
  have hb : ChannelAt knobA.b (done.map Prod.snd) := by
    rw [hkeepB]
    exact h.b
  obtain ⟨cb, knobB, esB, hbeq, hb', ⟨hkeepA, -, hkeepCb'⟩, hesB, hcountB⟩ :=
    @channel_counts knobA.b (done.map Prod.snd) levels.2 .left false { knobA with a := ca } _
      hb hleft hcountA
  have hstep : knobHandler levels knob = ({ knobB with b := cb }, esA ++ esB) := by
    rw [knobHandler, haeq]
    dsimp only
    rw [hbeq]
  rw [hstep]
  refine ⟨⟨?_, ?_, ?_⟩, ?_, ?_⟩
  · rw [List.map_append]
    show ChannelAt knobB.a _
    rw [hkeepA]
    exact ha
  · rw [List.map_append]
    exact hb'
  · show knobB.cb .right = true ∧ knobB.cb .left = true
    rw [hkeepCb']
    show knobA.cb .right = true ∧ knobA.cb .left = true
    rw [hkeepCb]
    exact h.cb
  · rw [hesA, hesB]
  · show knobB.countValue = _
    rw [hcountB, Int.sub_eq_add_neg]
    congr 2
    split <;> rfl

end Handler

/-! ## Runs -/

/-- The debounce law for the samples `ticks`: either callback is made once at the
    end of each run of low samples on its channel that is long enough, and at no
    other sample, and the count is the number of right callbacks less that of
    left ones after every sample. -/
structure Debounced (ticks : List (Level × Level)) : Prop where
  right : ∀ done levels rest, ticks = done ++ levels :: rest →
    (callbacksAt knobStart done levels).count .right =
      if Detent (done.map Prod.fst) levels.1 then 1 else 0
  left : ∀ done levels rest, ticks = done ++ levels :: rest →
    (callbacksAt knobStart done levels).count .left =
      if Detent (done.map Prod.snd) levels.2 then 1 else 0
  count : ∀ done rest, ticks = done ++ rest →
    (knobAfter knobStart done).countValue =
      ((callbacks knobStart done).count .right : Int) - (callbacks knobStart done).count .left

/-- No run that ends in the samples has lost its length to the wrap. -/
def Unwrapped (levels : List Level) : Prop :=
  ∀ done x rest, levels = done ++ x :: rest → ¬ Wrapped done x

/-- The detents counted so far fit in the count after every sample. -/
def CountFits (ticks : List (Level × Level)) : Prop :=
  ∀ done rest, ticks = done ++ rest →
    InInt32 (detents (done.map Prod.fst) - detents (done.map Prod.snd))

section Run

variable {P : List Level → Level → Prop} [∀ done x, Decidable (P done x)]
  {xs done : List Level} {x : Level} {knob : Knob} {ticks : List (Level × Level)}

theorem edgesFrom_append :
    edgesFrom P done (xs ++ [x]) = edgesFrom P done xs + if P (done ++ xs) x then 1 else 0 := by
  induction xs generalizing done with
  | nil => simp [edgesFrom]
  | cons y ys ih =>
      rw [List.cons_append, edgesFrom, edgesFrom, ih, Nat.add_assoc, List.append_assoc]
      rfl

theorem detents_append : detents (xs ++ [x]) = detents xs + if Detent xs x then 1 else 0 :=
  edgesFrom_append

theorem firings_append : firings (xs ++ [x]) = firings xs + if Fires xs x then 1 else 0 :=
  edgesFrom_append

theorem callbacks_append {levels : Level × Level} :
    callbacks knob (ticks ++ [levels]) =
      callbacks knob ticks ++ callbacksAt knob ticks levels := by
  induction ticks generalizing knob with
  | nil => simp [callbacks, callbacksAt, knobAfter]
  | cons l ls ih =>
      rw [List.cons_append, callbacks, callbacks, ih, List.append_assoc]
      rfl

theorem knobAfter_append {levels : Level × Level} :
    knobAfter knob (ticks ++ [levels]) = (knobHandler levels (knobAfter knob ticks)).1 := by
  rw [knobAfter, List.foldl_append]
  rfl

/-- **What the code does in a run**, by induction on the samples. -/
theorem run_spec (ticks : List (Level × Level)) :
    KnobAt (knobAfter knobStart ticks) ticks ∧
      (knobAfter knobStart ticks).countValue =
        wrap32 (firings (ticks.map Prod.fst) - firings (ticks.map Prod.snd)) := by
  induction ticks using List.reverseRecOn with
  | nil => exact ⟨knobStart_at, rfl⟩
  | append_singleton ticks levels ih =>
      obtain ⟨hat, hcount⟩ := ih
      obtain ⟨hat', -, hcount'⟩ := @handler_step _ _ levels _ hat hcount
      rw [knobAfter_append]
      refine ⟨hat', hcount'.trans ?_⟩
      rw [List.map_append, List.map_append]
      show _ = wrap32 (firings (ticks.map Prod.fst ++ [levels.1]) -
        firings (ticks.map Prod.snd ++ [levels.2]))
      rw [firings_append, firings_append]
      congr 1
      push_cast
      ring

/-- The callbacks of one sample. -/
theorem callbacksAt_eq {levels : Level × Level} :
    callbacksAt knobStart ticks levels =
      (if Fires (ticks.map Prod.fst) levels.1 then [.right] else []) ++
        (if Fires (ticks.map Prod.snd) levels.2 then [.left] else []) := by
  obtain ⟨hat, hcount⟩ := run_spec ticks
  exact (handler_step hat hcount).2.1

theorem count_right {levels : Level × Level} :
    (callbacksAt knobStart ticks levels).count .right =
      if Fires (ticks.map Prod.fst) levels.1 then 1 else 0 := by
  rw [callbacksAt_eq, List.count_append]
  split <;> split <;> rfl

theorem count_left {levels : Level × Level} :
    (callbacksAt knobStart ticks levels).count .left =
      if Fires (ticks.map Prod.snd) levels.2 then 1 else 0 := by
  rw [callbacksAt_eq, List.count_append]
  split <;> split <;> rfl

/-- Each channel makes as many callbacks as its own samples fire. -/
theorem count_callbacks (ticks : List (Level × Level)) :
    (callbacks knobStart ticks).count .right = firings (ticks.map Prod.fst) ∧
      (callbacks knobStart ticks).count .left = firings (ticks.map Prod.snd) := by
  induction ticks using List.reverseRecOn with
  | nil => exact ⟨rfl, rfl⟩
  | append_singleton ticks levels ih =>
      obtain ⟨hright, hleft⟩ := ih
      rw [callbacks_append, List.count_append, List.count_append, List.map_append,
        List.map_append, hright, hleft, count_right, count_left]
      exact ⟨firings_append.symm, firings_append.symm⟩

/-- A run of samples that loses no length fires at its detents. -/
theorem firings_eq_detents (h : Unwrapped xs) : firings xs = detents xs := by
  induction xs using List.reverseRecOn with
  | nil => rfl
  | append_singleton xs x ih =>
      have hxs : Unwrapped xs := by
        intro done y rest hsplit
        refine h done y (rest ++ [x]) ?_
        rw [hsplit, List.append_assoc]
        rfl
      have hlast : Fires xs x ↔ Detent xs x := fires_iff_detent.mpr (h xs x [] rfl)
      rw [firings_append, detents_append, ih hxs]
      by_cases hd : Detent xs x
      · rw [if_pos (hlast.mpr hd), if_pos hd]
      · rw [if_neg fun hf => hd (hlast.mp hf), if_neg hd]

theorem Unwrapped.of_append {rest : List Level} (h : Unwrapped (xs ++ rest)) : Unwrapped xs := by
  intro done x later hsplit
  refine h done x (later ++ rest) ?_
  rw [hsplit, List.append_assoc]
  rfl

/-- Where the tests of the code and of the law agree, so do their results. -/
theorem ite_eq_iff {p q : Prop} [Decidable p] [Decidable q] :
    ((if p then 1 else 0 : Nat) = if q then 1 else 0) ↔ (p ↔ q) := by
  by_cases hp : p <;> by_cases hq : q <;> simp [hp, hq]

/-- A part of the samples is a part of each channel's. -/
theorem channel_split {rest : List Level} {f : Level × Level → Level}
    (h : ticks.map f = done ++ x :: rest) :
    ∃ first levels later, ticks = first ++ levels :: later ∧ first.map f = done ∧
      f levels = x := by
  obtain ⟨first, others, hticks, hfirst, hothers⟩ := List.map_eq_append_iff.mp h
  obtain ⟨levels, later, rfl, hx, -⟩ := List.map_eq_cons_iff.mp hothers
  exact ⟨first, levels, later, hticks, hfirst, hx⟩

/-- **The debounce law holds exactly of the samples whose runs the count can
    tell.**  For all samples of both channels, of any length, the law holds if
    and only if no run of low samples that a high one ends has a length of 256 or
    more that leaves a rest of 0 or 1 by 256, and the difference of the detents
    of the channels stays in 32 bits. -/
theorem debounced_iff (ticks : List (Level × Level)) :
    Debounced ticks ↔
      Unwrapped (ticks.map Prod.fst) ∧ Unwrapped (ticks.map Prod.snd) ∧ CountFits ticks := by
  constructor
  · intro h
    have hfst : Unwrapped (ticks.map Prod.fst) := by
      intro done x rest hsplit
      obtain ⟨first, levels, later, hticks, rfl, rfl⟩ := channel_split hsplit
      have hright := h.right first levels later hticks
      rw [count_right, ite_eq_iff] at hright
      exact fires_iff_detent.mp hright
    have hsnd : Unwrapped (ticks.map Prod.snd) := by
      intro done x rest hsplit
      obtain ⟨first, levels, later, hticks, rfl, rfl⟩ := channel_split hsplit
      have hleft := h.left first levels later hticks
      rw [count_left, ite_eq_iff] at hleft
      exact fires_iff_detent.mp hleft
    refine ⟨hfst, hsnd, ?_⟩
    intro done rest hsplit
    have hcount := h.count done rest hsplit
    rw [hsplit, List.map_append] at hfst hsnd
    rw [(run_spec done).2, (count_callbacks done).1, (count_callbacks done).2,
      firings_eq_detents hfst.of_append, firings_eq_detents hsnd.of_append] at hcount
    rw [← hcount]
    exact wrap32_inInt32 _
  · rintro ⟨hfst, hsnd, hfits⟩
    refine ⟨?_, ?_, ?_⟩
    · rintro done levels rest rfl
      rw [List.map_append] at hfst
      rw [count_right, ite_eq_iff]
      exact fires_iff_detent.mpr (hfst _ _ _ rfl)
    · rintro done levels rest rfl
      rw [List.map_append] at hsnd
      rw [count_left, ite_eq_iff]
      exact fires_iff_detent.mpr (hsnd _ _ _ rfl)
    · intro done rest hsplit
      have hin := hfits done rest hsplit
      rw [hsplit, List.map_append] at hfst hsnd
      rw [(run_spec done).2, (count_callbacks done).1, (count_callbacks done).2,
        firings_eq_detents hfst.of_append, firings_eq_detents hsnd.of_append]
      exact Int.bmod_eq_of_le hin.1 hin.2

/-- A level that is held low for 256 samples and let go: no callback is made,
    although the run is a detent. -/
theorem held_low_not_debounced :
    ¬ Debounced (List.replicate 256 (.low, .high) ++ [(.high, .high)]) := by
  intro h
  have hright := h.right (List.replicate 256 (.low, .high)) (.high, .high) [] rfl
  rw [count_right, ite_eq_iff] at hright
  refine fires_iff_detent.mp hright ⟨rfl, ?_⟩
  rw [List.map_replicate, lowRun_replicate]
  decide

end Run

end KnobDebounce
