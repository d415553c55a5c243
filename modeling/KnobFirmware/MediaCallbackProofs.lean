import KnobFirmware.EspErrProofs
import KnobFirmware.StepMachineProofs

/-! # The Bluetooth callbacks of the media controller

    `media_gap_event_handler` runs in the Bluetooth task and
    `media_hidd_event_handler` in the `esp_hid` event task.  Both write the five
    module flags and end, where they try to advertise, in
    `media_try_start_advertising`: four flag reads, the driver call, and one
    more flag write.

    A handler is the list of its accesses to flags and driver, in source order.
    `runHandler` runs the list at once, as when the other task is quiet;
    `Callbacks` lets the two tasks take one access at a time. -/

namespace MediaCallback

open EspErr StepMachine

/-- The flags of the module, all `volatile bool`. -/
structure MediaFlags where
  sReady        : Bool := false
  sConnected    : Bool := false
  sHidStarted   : Bool := false
  sAdvDataReady : Bool := false
  sAdvertising  : Bool := false
  deriving DecidableEq, Repr

/-- One access of a handler: a flag write, a flag read that returns from
    `media_try_start_advertising` unless it holds, or the driver call. -/
inductive Access where
  | setReady (v : Bool)
  | setConnected (v : Bool)
  | setHidStarted (v : Bool)
  | setAdvDataReady (v : Bool)
  | setAdvertising (v : Bool)
  | ifHidStarted
  | ifAdvDataReady
  | unlessConnected
  | unlessAdvertising
  | startAdvertising
  deriving DecidableEq, Repr

/-- A call of `esp_ble_gap_start_advertising`: the flags at the call and its
    result. -/
structure StartCall where
  flags : MediaFlags
  err   : EspErr
  deriving DecidableEq, Repr

/-- `media_try_start_advertising`. -/
def mediaTryStartAdvertising : List Access :=
  [.ifHidStarted, .ifAdvDataReady, .unlessConnected, .unlessAdvertising,
    .startAdvertising, .setAdvertising true]

/-- `ESP_BT_STATUS_SUCCESS`. -/
def espBtStatusSuccess : Int := 0

/-- `esp_gap_ble_cb_event_t`; the events without a case of their own are
    `other`. -/
inductive GapEvent where
  | advDataSetComplete
  | advStartComplete (status : Int)
  | advStopComplete
  | secReq
  | authCmpl (success : Bool)
  | other
  deriving DecidableEq, Repr

/-- `esp_hidd_event_t`; the events without a case of their own are `other`. -/
inductive HiddEvent where
  | start
  | connect
  | disconnect
  | stop
  | other
  deriving DecidableEq, Repr

/-- `media_gap_event_handler`. -/
def mediaGapEventHandler : GapEvent → List Access
  | .advDataSetComplete => .setAdvDataReady true :: mediaTryStartAdvertising
  | .advStartComplete status => [.setAdvertising (status == espBtStatusSuccess)]
  | .advStopComplete => [.setAdvertising false]
  | .secReq => []
  | .authCmpl _ => []
  | .other => []

/-- `media_hidd_event_handler`. -/
def mediaHiddEventHandler : HiddEvent → List Access
  | .start => .setHidStarted true :: .setReady true :: mediaTryStartAdvertising
  | .connect => [.setConnected true, .setAdvertising false]
  | .disconnect =>
      .setConnected false :: .setAdvertising false :: mediaTryStartAdvertising
  | .stop =>
      [.setConnected false, .setReady false, .setHidStarted false,
        .setAdvertising false]
  | .other => []

/-- One access: the flags after it, whether the handler goes on, and the driver
    call if it was one.  `err` is what the driver answers. -/
def access (err : EspErr) (f : MediaFlags) :
    Access → MediaFlags × Bool × List StartCall
  | .setReady v => ({ f with sReady := v }, true, [])
  | .setConnected v => ({ f with sConnected := v }, true, [])
  | .setHidStarted v => ({ f with sHidStarted := v }, true, [])
  | .setAdvDataReady v => ({ f with sAdvDataReady := v }, true, [])
  | .setAdvertising v => ({ f with sAdvertising := v }, true, [])
  | .ifHidStarted => (f, f.sHidStarted, [])
  | .ifAdvDataReady => (f, f.sAdvDataReady, [])
  | .unlessConnected => (f, !f.sConnected, [])
  | .unlessAdvertising => (f, !f.sAdvertising, [])
  | .startAdvertising => (f, err == espOk, [⟨f, err⟩])

/-- A handler run to its end with no other task in between. -/
def runHandler (err : EspErr) : MediaFlags → List Access → MediaFlags × List StartCall
  | f, [] => (f, [])
  | f, a :: rest =>
      match access err f a with
      | (f', true, calls) =>
          ((runHandler err f' rest).1, calls ++ (runHandler err f' rest).2)
      | (f', false, calls) => (f', calls)

/-- `media_try_start_advertising` in one piece: the guard, the call, and
    `s_advertising` set when the call succeeds. -/
theorem runHandler_tryStart (err : EspErr) (f : MediaFlags) :
    runHandler err f mediaTryStartAdvertising =
      if f.sHidStarted && f.sAdvDataReady && !f.sConnected && !f.sAdvertising then
        ({ f with sAdvertising := f.sAdvertising || err == espOk }, [⟨f, err⟩])
      else (f, []) := by
  obtain ⟨r, c, hs, ad, av⟩ := f
  cases hs <;> cases ad <;> cases c <;> cases av <;> cases he : err == espOk <;>
    simp [mediaTryStartAdvertising, runHandler, access, he]

/-! ## Events one at a time -/

/-- An event of either callback. -/
inductive MediaEvent where
  | gap (e : GapEvent)
  | hidd (e : HiddEvent)
  deriving DecidableEq, Repr

/-- The handler that an event starts. -/
def handlerOf : MediaEvent → List Access
  | .gap e => mediaGapEventHandler e
  | .hidd e => mediaHiddEventHandler e

/-- What the run of one handler did. -/
structure HandlerRun where
  before : MediaFlags
  event  : MediaEvent
  calls  : List StartCall
  after  : MediaFlags
  deriving DecidableEq, Repr

/-- The handlers, each run atomically on any event with any answer of the
    driver, from the flags as initialised. -/
def atomicCallbacks : Machine MediaFlags (MediaEvent × EspErr) HandlerRun where
  start := fun f => f = {}
  step := fun f l =>
    some ((runHandler l.2 f (handlerOf l.1)).1,
      [⟨f, l.1, (runHandler l.2 f (handlerOf l.1)).2,
        (runHandler l.2 f (handlerOf l.1)).1⟩])

/-- Both prerequisites of advertising hold and no host is connected. -/
def Ready (f : MediaFlags) : Prop :=
  f.sHidStarted = true ∧ f.sAdvDataReady = true ∧ f.sConnected = false

instance (f : MediaFlags) : Decidable (Ready f) :=
  inferInstanceAs (Decidable (_ ∧ _ ∧ _))

/-- The event made `Ready` hold, or a start was attempted. -/
def HandlerRun.Anchor (r : HandlerRun) : Prop :=
  (¬ Ready r.before ∧ Ready r.after) ∨ r.calls ≠ []

/-- A start attempt returned an error, or the stack reported that advertising
    failed to start or has stopped. -/
def HandlerRun.Excuse (r : HandlerRun) : Prop :=
  (∃ c ∈ r.calls, c.err ≠ espOk) ∨
    (∃ status, r.event = .gap (.advStartComplete status) ∧
      status ≠ espBtStatusSuccess) ∨
    r.event = .gap .advStopComplete

/-- There was an excuse, and no anchor since. -/
def Excused (tr : List HandlerRun) : Prop :=
  ∃ pre r post, tr = pre ++ r :: post ∧ r.Excuse ∧ ∀ x ∈ post, ¬ x.Anchor

/-- The driver is asked to advertise only with the prerequisites in place, no
    host connected and no advertising running. -/
def HandlerRun.CallsGuarded (r : HandlerRun) : Prop :=
  ∀ c ∈ r.calls, Ready c.flags ∧ c.flags.sAdvertising = false

theorem excused_of_excuse {tr : List HandlerRun} {r : HandlerRun} (h : r.Excuse) :
    Excused (tr ++ [r]) :=
  ⟨tr, r, [], rfl, h, by simp⟩

theorem Excused.snoc {tr : List HandlerRun} {r : HandlerRun} (h : Excused tr)
    (hr : ¬ r.Anchor) : Excused (tr ++ [r]) := by
  obtain ⟨pre, x, post, rfl, hx, hpost⟩ := h
  refine ⟨pre, x, post ++ [r], by simp, hx, ?_⟩
  intro y hy
  rcases List.mem_append.mp hy with h1 | h1
  · exact hpost y h1
  · obtain rfl : y = r := by simpa using h1
    exact hr

/-- After `media_try_start_advertising` the device advertises, or the attempt
    it made failed, whenever the conditions hold. -/
theorem tryStart_settles (err : EspErr) (f : MediaFlags) (h : Ready f) :
    (runHandler err f mediaTryStartAdvertising).1.sAdvertising = true ∨
      ∃ c ∈ (runHandler err f mediaTryStartAdvertising).2, c.err ≠ espOk := by
  obtain ⟨h1, h2, h3⟩ := h
  rw [runHandler_tryStart]
  cases hav : f.sAdvertising with
  | true => simp [hav]
  | false =>
      by_cases he : err = espOk
      · left; simp [h1, h2, h3, he]
      · right; simp [h1, h2, h3, he]

/-- `media_try_start_advertising` leaves the conditions as they are. -/
theorem ready_tryStart (err : EspErr) (f : MediaFlags) :
    Ready (runHandler err f mediaTryStartAdvertising).1 ↔ Ready f := by
  rw [runHandler_tryStart]
  split <;> rfl

theorem calls_tryStart_guarded (err : EspErr) (f : MediaFlags) :
    ∀ c ∈ (runHandler err f mediaTryStartAdvertising).2,
      Ready c.flags ∧ c.flags.sAdvertising = false := by
  intro c hc
  rw [runHandler_tryStart] at hc
  split at hc
  · rename_i hg
    simp only [Bool.and_eq_true, Bool.not_eq_true'] at hg
    obtain ⟨⟨⟨h1, h2⟩, h3⟩, h4⟩ := hg
    obtain rfl := List.mem_singleton.mp hc
    exact ⟨⟨h1, h2, h3⟩, h4⟩
  · exact nomatch hc

/-- The record that one atomic handler leaves. -/
def handlerRun (f : MediaFlags) (e : MediaEvent) (err : EspErr) : HandlerRun :=
  ⟨f, e, (runHandler err f (handlerOf e)).2, (runHandler err f (handlerOf e)).1⟩

/-- **One event.**  Where the conditions hold after it, the device advertises,
    or the event is an excuse, or the event changed nothing that matters. -/
theorem handlerRun_settles (f : MediaFlags) (e : MediaEvent) (err : EspErr)
    (h : Ready (handlerRun f e err).after) :
    (handlerRun f e err).after.sAdvertising = true ∨ (handlerRun f e err).Excuse ∨
      (¬ (handlerRun f e err).Anchor ∧ Ready f ∧
        (handlerRun f e err).after.sAdvertising = f.sAdvertising) := by
  -- an event without a handler body
  have quiet : handlerOf e = [] → ¬ (handlerRun f e err).Anchor ∧ Ready f ∧
      (handlerRun f e err).after.sAdvertising = f.sAdvertising := by
    intro hnil
    simp only [handlerRun, hnil, runHandler] at h ⊢
    refine ⟨?_, h, trivial⟩
    rintro (⟨h1, h2⟩ | h1)
    · exact h1 h2
    · exact h1 rfl
  -- an event whose handler ends in `media_try_start_advertising`
  have tries : ∀ f', runHandler err f (handlerOf e)
        = runHandler err f' mediaTryStartAdvertising →
      (handlerRun f e err).after.sAdvertising = true ∨ (handlerRun f e err).Excuse := by
    intro f' hrun
    simp only [handlerRun, hrun] at h ⊢
    rcases tryStart_settles err f' ((ready_tryStart err f').mp h) with h1 | h1
    · exact .inl h1
    · exact .inr (.inl h1)
  cases e with
  | gap e =>
      cases e with
      | advDataSetComplete =>
          rcases tries { f with sAdvDataReady := true } (by simp [handlerOf,
            mediaGapEventHandler, runHandler, access]) with h1 | h1
          · exact .inl h1
          · exact .inr (.inl h1)
      | advStartComplete status =>
          by_cases hs : status = espBtStatusSuccess
          · left
            simp [handlerRun, handlerOf, mediaGapEventHandler, runHandler, access, hs]
          · exact .inr (.inl (.inr (.inl ⟨status, rfl, hs⟩)))
      | advStopComplete => exact .inr (.inl (.inr (.inr rfl)))
      | secReq | authCmpl | other => exact .inr (.inr (quiet rfl))
  | hidd e =>
      cases e with
      | start =>
          rcases tries { f with sHidStarted := true, sReady := true } (by simp [handlerOf,
            mediaHiddEventHandler, runHandler, access]) with h1 | h1
          · exact .inl h1
          · exact .inr (.inl h1)
      | connect => exact absurd h.2.2 (by simp [handlerRun, handlerOf,
          mediaHiddEventHandler, runHandler, access])
      | disconnect =>
          rcases tries { f with sConnected := false, sAdvertising := false } (by
            simp [handlerOf, mediaHiddEventHandler, runHandler, access]) with h1 | h1
          · exact .inl h1
          · exact .inr (.inl h1)
      | stop => exact absurd h.1 (by simp [handlerRun, handlerOf,
          mediaHiddEventHandler, runHandler, access])
      | other => exact .inr (.inr (quiet rfl))

/-- Every handler guards its driver call. -/
theorem handlerRun_callsGuarded (f : MediaFlags) (e : MediaEvent) (err : EspErr) :
    (handlerRun f e err).CallsGuarded := by
  intro c hc
  cases e with
  | gap e =>
      cases e with
      | advDataSetComplete =>
          exact calls_tryStart_guarded err { f with sAdvDataReady := true } c (by
            simpa [handlerRun, handlerOf, mediaGapEventHandler, runHandler, access] using hc)
      | advStartComplete | advStopComplete | secReq | authCmpl | other =>
          simp [handlerRun, handlerOf, mediaGapEventHandler, runHandler, access] at hc
  | hidd e =>
      cases e with
      | start =>
          exact calls_tryStart_guarded err { f with sHidStarted := true, sReady := true } c (by
            simpa [handlerRun, handlerOf, mediaHiddEventHandler, runHandler, access] using hc)
      | disconnect =>
          exact calls_tryStart_guarded err
            { f with sConnected := false, sAdvertising := false } c (by
            simpa [handlerRun, handlerOf, mediaHiddEventHandler, runHandler, access] using hc)
      | connect | stop | other =>
          simp [handlerRun, handlerOf, mediaHiddEventHandler, runHandler, access] at hc

theorem atomicCallbacks_step {f f' : MediaFlags} {l : MediaEvent × EspErr}
    {es : List HandlerRun} (h : atomicCallbacks.step f l = some (f', es)) :
    es = [handlerRun f l.1 l.2] ∧ f' = (handlerRun f l.1 l.2).after := by
  obtain ⟨rfl, rfl⟩ := Prod.mk.inj (Option.some.inj h)
  exact ⟨rfl, rfl⟩

/-- **The advertising invariant.**  After any events in any order, each handler
    run atomically: where the conditions hold, the device advertises or there
    is an excuse no older than the last anchor; and every start attempt so far
    was made with the prerequisites in place, no host connected and no
    advertising running. -/
theorem advertising_invariant {ls : List (MediaEvent × EspErr)} {f : MediaFlags}
    {tr : List HandlerRun} (h : Run atomicCallbacks {} ls f tr) :
    (Ready f → f.sAdvertising = true ∨ Excused tr) ∧ ∀ r ∈ tr, r.CallsGuarded := by
  constructor
  · refine h.invariant (P := fun f tr => Ready f → f.sAdvertising = true ∨ Excused tr)
      (fun hr => absurd hr (by decide)) ?_
    intro f tr l f' es ih hs hr
    obtain ⟨rfl, rfl⟩ := atomicCallbacks_step hs
    rcases handlerRun_settles f l.1 l.2 hr with h1 | h1 | ⟨hna, hrf, hav⟩
    · exact .inl h1
    · exact .inr (excused_of_excuse h1)
    · rcases ih hrf with h1 | h1
      · exact .inl (hav.trans h1)
      · exact .inr (h1.snoc hna)
  · refine h.forall_events ?_
    intro f l f' es hs r hmem
    obtain ⟨rfl, -⟩ := atomicCallbacks_step hs
    obtain rfl := List.mem_singleton.mp hmem
    exact handlerRun_callsGuarded f l.1 l.2

/-- The invariant after both prerequisites arrived and the driver refused. -/
theorem advertising_invariant_at :
    (Ready (handlerRun { sReady := true, sHidStarted := true }
          (.gap .advDataSetComplete) espFail).after →
      (handlerRun { sReady := true, sHidStarted := true }
          (.gap .advDataSetComplete) espFail).after.sAdvertising = true ∨
        Excused [handlerRun {} (.hidd .start) espOk,
          handlerRun { sReady := true, sHidStarted := true }
            (.gap .advDataSetComplete) espFail]) ∧
      ∀ r ∈ [handlerRun {} (.hidd .start) espOk,
          handlerRun { sReady := true, sHidStarted := true }
            (.gap .advDataSetComplete) espFail], r.CallsGuarded := by
  refine advertising_invariant (run_of_exec (M := atomicCallbacks) (?_ :
    exec _ _ [(.hidd .start, espOk), (.gap .advDataSetComplete, espFail)] = _))
  rfl

/-! ## Two callbacks at once

    The GAP callback for the advertising data and the HIDD callback for the
    profile start run in different tasks.  Each access is one step. -/

/-- The two tasks that run callbacks. -/
inductive BtTask where
  | gap
  | hidd
  deriving DecidableEq, Repr

/-- The flags, and what each task's handler still has to do. -/
structure Callbacks where
  flags : MediaFlags
  gap   : List Access
  hidd  : List Access
  deriving DecidableEq, Repr

/-- What the handler of a task still has to do. -/
def Callbacks.todo (c : Callbacks) : BtTask → List Access
  | .gap => c.gap
  | .hidd => c.hidd

/-- The next access of one task's handler. -/
def Callbacks.advance (c : Callbacks) (t : BtTask) (err : EspErr) :
    Option (Callbacks × List StartCall) :=
  match c.todo t with
  | [] => none
  | a :: rest =>
      let (f', goesOn, calls) := access err c.flags a
      let rest' := if goesOn then rest else []
      match t with
      | .gap => some ({ flags := f', gap := rest', hidd := c.hidd }, calls)
      | .hidd => some ({ flags := f', gap := c.gap, hidd := rest' }, calls)

/-- The handlers for the advertising data and for the profile start, both about
    to run, neither flag set yet. -/
def bothPending (ready : Bool) : Callbacks where
  flags := { sReady := ready }
  gap := mediaGapEventHandler .advDataSetComplete
  hidd := mediaHiddEventHandler .start

/-- The two handlers interleaved; the label says who moves, and the driver
    accepts every start. -/
def concurrentCallbacks : Machine Callbacks BtTask (BtTask × StartCall) where
  start := fun c => ∃ ready, c = bothPending ready
  step := fun c t =>
    (c.advance t espOk).map (fun r => (r.1, r.2.map (fun call => (t, call))))

/-- The task has read `s_advertising` as false and not yet set it. -/
def InWindow (c : Callbacks) (t : BtTask) : Prop :=
  c.todo t = [.startAdvertising, .setAdvertising true] ∨
    c.todo t = [.setAdvertising true]

instance (c : Callbacks) (t : BtTask) : Decidable (InWindow c t) :=
  inferInstanceAs (Decidable (_ ∨ _))

/-- The other task. -/
def BtTask.other : BtTask → BtTask
  | .gap => .hidd
  | .hidd => .gap

/-- A task reads `s_advertising` only while the other one is not between its
    own read of it and its write. -/
def ReadsOutsideWindow (c : Callbacks) (t : BtTask) : Prop :=
  (c.todo t).head? = some .unlessAdvertising → ¬ InWindow c t.other

@[simp] theorem BtTask.other_other (t : BtTask) : t.other.other = t := by cases t <;> rfl

/-- The flag that a task's handler sets before it tries to advertise. -/
def MediaFlags.ownFlag (f : MediaFlags) : BtTask → Bool
  | .gap => f.sAdvDataReady
  | .hidd => f.sHidStarted

/-- The handler of a task from its first access on. -/
def handlerFor : BtTask → List Access
  | .gap => mediaGapEventHandler .advDataSetComplete
  | .hidd => mediaHiddEventHandler .start

/-- A step takes the first access off the moving task's list, and leaves the
    other task's list alone. -/
theorem concurrentCallbacks_step {c c' : Callbacks} {t : BtTask}
    {es : List (BtTask × StartCall)}
    (h : concurrentCallbacks.step c t = some (c', es)) :
    ∃ a rest, c.todo t = a :: rest ∧ c'.flags = (access espOk c.flags a).1 ∧
      c'.todo t = (if (access espOk c.flags a).2.1 then rest else []) ∧
      c'.todo t.other = c.todo t.other ∧
      es = (access espOk c.flags a).2.2.map (fun call => (t, call)) := by
  obtain ⟨⟨c₁, calls⟩, hadv, heq⟩ := Option.map_eq_some_iff.mp h
  obtain ⟨rfl, rfl⟩ := Prod.mk.inj heq
  rw [Callbacks.advance] at hadv
  cases htodo : c.todo t with
  | nil => rw [htodo] at hadv; exact nomatch hadv
  | cons a rest =>
      rw [htodo] at hadv
      cases t <;>
        · obtain ⟨rfl, rfl⟩ := Prod.mk.inj (Option.some.inj hadv)
          exact ⟨a, rest, rfl, rfl, rfl, rfl, rfl⟩

/-- The task has called the driver. -/
def Called (tr : List (BtTask × StartCall)) (t : BtTask) : Prop :=
  ∃ call, (t, call) ∈ tr

/-- The task has read `s_advertising` as false. -/
def Passed (c : Callbacks) (tr : List (BtTask × StartCall)) (t : BtTask) : Prop :=
  InWindow c t ∨ Called tr t

/-- What holds at every point of the race. -/
structure RaceInv (c : Callbacks) (tr : List (BtTask × StartCall)) : Prop where
  /-- each task is somewhere in its handler -/
  somewhere : ∀ t, c.todo t <:+ handlerFor t
  unconnected : c.flags.sConnected = false
  /-- a task's flag is set once its handler has begun -/
  own : ∀ t, c.flags.ownFlag t = true ↔ c.todo t ≠ handlerFor t
  /-- `s_advertising` is set by a task that called and has finished -/
  published : c.flags.sAdvertising = true ↔ ∃ t, Called tr t ∧ c.todo t = []
  called : ∀ t, Called tr t → c.todo t = [.setAdvertising true] ∨ c.todo t = []
  calling : ∀ t, c.todo t = [.setAdvertising true] → Called tr t
  once : (tr.map Prod.fst).Nodup
  /-- a task that gave up leaves the start to the other one -/
  someone : ∀ t, c.todo t = [] → ¬ Called tr t →
    Called tr t.other ∨ c.todo t.other ≠ []

theorem raceInv_bothPending (ready : Bool) : RaceInv (bothPending ready) [] where
  somewhere := by intro t; cases t <;> exact List.suffix_refl _
  unconnected := rfl
  own := by intro t; cases t <;> simp [bothPending, Callbacks.todo, handlerFor,
    MediaFlags.ownFlag]
  published := by simp [bothPending, Called]
  called := by intro t ht; simp [Called] at ht
  calling := by
    intro t ht
    cases t <;> simp [bothPending, Callbacks.todo, mediaGapEventHandler,
      mediaHiddEventHandler, mediaTryStartAdvertising] at ht
  once := by simp
  someone := by
    intro t ht
    cases t <;> simp [bothPending, Callbacks.todo, mediaGapEventHandler,
      mediaHiddEventHandler, mediaTryStartAdvertising] at ht

/-- Where a task can be in its handler, and what is still to come there. -/
theorem todo_cases {t : BtTask} {a : Access} {rest : List Access}
    (h : a :: rest <:+ handlerFor t) :
    (rest ≠ [] ∧ rest ≠ [.setAdvertising true] ∧
      ((t = .gap ∧ a = .setAdvDataReady true) ∨ (t = .hidd ∧ a = .setHidStarted true) ∨
        a = .setReady true ∨ a = .ifHidStarted ∨ a = .ifAdvDataReady ∨
        a = .unlessConnected ∨ a = .unlessAdvertising)) ∨
      (a = .startAdvertising ∧ rest = [.setAdvertising true]) ∨
      (a = .setAdvertising true ∧ rest = []) := by
  cases t with
  | gap =>
      simp only [handlerFor, mediaGapEventHandler, mediaTryStartAdvertising,
        List.suffix_cons_iff, List.suffix_nil, List.cons.injEq, reduceCtorEq, or_false] at h
      rcases h with ⟨rfl, rfl⟩ | ⟨rfl, rfl⟩ | ⟨rfl, rfl⟩ | ⟨rfl, rfl⟩ | ⟨rfl, rfl⟩ |
        ⟨rfl, rfl⟩ | ⟨rfl, rfl⟩ <;> simp
  | hidd =>
      simp only [handlerFor, mediaHiddEventHandler, mediaTryStartAdvertising,
        List.suffix_cons_iff, List.suffix_nil, List.cons.injEq, reduceCtorEq, or_false] at h
      rcases h with ⟨rfl, rfl⟩ | ⟨rfl, rfl⟩ | ⟨rfl, rfl⟩ | ⟨rfl, rfl⟩ | ⟨rfl, rfl⟩ |
        ⟨rfl, rfl⟩ | ⟨rfl, rfl⟩ | ⟨rfl, rfl⟩ <;> simp

section RaceSteps

variable {c c' : Callbacks} {t : BtTask} {rest : List Access}
  {tr : List (BtTask × StartCall)}

theorem BtTask.eq_or_other (u t : BtTask) : u = t ∨ u = t.other := by
  cases u <;> cases t <;> simp [BtTask.other]

theorem BtTask.other_ne (t : BtTask) : t.other ≠ t := by cases t <;> simp [BtTask.other]

/-- What stays to be done is later in the handler than its first access. -/
theorem RaceInv.rest_somewhere {a : Access} (hi : RaceInv c tr)
    (htodo : c.todo t = a :: rest) : rest <:+ handlerFor t ∧ rest ≠ handlerFor t := by
  have hall : a :: rest <:+ handlerFor t := htodo ▸ hi.somewhere t
  refine ⟨(List.suffix_cons a rest).trans hall, ?_⟩
  rintro rfl
  exact absurd hall.length_le (by simp)

/-- A task that is not at its last write has not called the driver. -/
theorem RaceInv.not_called {a : Access} (hi : RaceInv c tr) (htodo : c.todo t = a :: rest)
    (hlast : a :: rest ≠ [.setAdvertising true]) : ¬ Called tr t := by
  intro hc
  rcases hi.called t hc with h | h
  · exact hlast (htodo.symm.trans h)
  · exact nomatch htodo.symm.trans h

/-- A step shows the invariant for its own task; for the other task the
    invariant speaks of what the step leaves alone. -/
theorem RaceInv.moved {tr' : List (BtTask × StartCall)} (hi : RaceInv c tr)
    (hother : c'.todo t.other = c.todo t.other)
    (hown' : c'.flags.ownFlag t.other = c.flags.ownFlag t.other)
    (hcalled' : Called tr' t.other ↔ Called tr t.other)
    (hconn : c'.flags.sConnected = c.flags.sConnected)
    (hpub : c'.flags.sAdvertising = true ↔ ∃ u, Called tr' u ∧ c'.todo u = [])
    (honce : (tr'.map Prod.fst).Nodup) (hsuf : c'.todo t <:+ handlerFor t)
    (hown : c'.flags.ownFlag t = true ↔ c'.todo t ≠ handlerFor t)
    (hcalled : Called tr' t → c'.todo t = [.setAdvertising true] ∨ c'.todo t = [])
    (hcalling : c'.todo t = [.setAdvertising true] → Called tr' t)
    (hself : c'.todo t = [] → ¬ Called tr' t → Called tr t.other ∨ c.todo t.other ≠ [])
    (hleft : c.todo t.other = [] → ¬ Called tr t.other → Called tr' t ∨ c'.todo t ≠ []) :
    RaceInv c' tr' := by
  constructor
  case somewhere =>
      intro u
      rcases u.eq_or_other t with rfl | rfl
      · exact hsuf
      · rw [hother]; exact hi.somewhere _
  case unconnected => exact hconn.trans hi.unconnected
  case own =>
      intro u
      rcases u.eq_or_other t with rfl | rfl
      · exact hown
      · rw [hother, hown']; exact hi.own _
  case published => exact hpub
  case called =>
      intro u hu
      rcases u.eq_or_other t with rfl | rfl
      · exact hcalled hu
      · rw [hother]; exact hi.called _ (hcalled'.mp hu)
  case calling =>
      intro u hu
      rcases u.eq_or_other t with rfl | rfl
      · exact hcalling hu
      · exact hcalled'.mpr (hi.calling _ (hother ▸ hu))
  case once => exact honce
  case someone =>
      intro u hu hcu
      rcases u.eq_or_other t with rfl | rfl
      · rw [hother, hcalled']
        exact hself hu hcu
      · rw [BtTask.other_other]
        exact hleft (hother ▸ hu) fun hc => hcu (hcalled'.mpr hc)

/-- `s_advertising` is left alone by a task that has not come to an end. -/
theorem RaceInv.published_kept {tr' : List (BtTask × StartCall)} (hi : RaceInv c tr)
    (hother : c'.todo t.other = c.todo t.other)
    (hcalled' : Called tr' t.other ↔ Called tr t.other)
    (hadv : c'.flags.sAdvertising = c.flags.sAdvertising) (hnc : ¬ Called tr t)
    (hopen : ¬ (Called tr' t ∧ c'.todo t = [])) :
    c'.flags.sAdvertising = true ↔ ∃ u, Called tr' u ∧ c'.todo u = [] := by
  rw [hadv, hi.published]
  refine exists_congr fun u => ?_
  rcases u.eq_or_other t with rfl | rfl
  · exact ⟨fun h => absurd h.1 hnc, fun h => absurd h hopen⟩
  · rw [hother, hcalled']

/-- Neither the flag read that passes nor the flag write before the attempt
    lets a task past its reads. -/
theorem RaceInv.advance {a : Access} (hi : RaceInv c tr) (htodo : c.todo t = a :: rest)
    (hne : rest ≠ []) (hset : rest ≠ [.setAdvertising true])
    (htodo' : c'.todo t = rest) (hother : c'.todo t.other = c.todo t.other)
    (hconn : c'.flags.sConnected = c.flags.sConnected)
    (hadv : c'.flags.sAdvertising = c.flags.sAdvertising)
    (hown : c'.flags.ownFlag t = true)
    (hown' : c'.flags.ownFlag t.other = c.flags.ownFlag t.other) : RaceInv c' tr := by
  obtain ⟨hsuf, hnf⟩ := hi.rest_somewhere htodo
  have hnc : ¬ Called tr t := hi.not_called htodo fun h => hne (List.cons.inj h).2
  have hpub := hi.published_kept hother Iff.rfl hadv hnc fun h => hnc h.1
  subst htodo'
  exact hi.moved hother hown' Iff.rfl hconn hpub hi.once hsuf ⟨fun _ => hnf, fun _ => hown⟩
    (fun h => absurd h hnc) (fun h => absurd h hset) (fun h => absurd h hne)
    (fun _ _ => .inr hne)

/-- A read that fails ends the handler; the start is then left to the other
    task. -/
theorem RaceInv.giveUp {a : Access} (hi : RaceInv c tr) (htodo : c.todo t = a :: rest)
    (hset : a ≠ .setAdvertising true) (htodo' : c'.todo t = [])
    (hother : c'.todo t.other = c.todo t.other) (hflags : c'.flags = c.flags)
    (hbegun : a :: rest ≠ handlerFor t)
    (hleft : Called tr t.other ∨ c.todo t.other ≠ []) : RaceInv c' tr := by
  have hnc : ¬ Called tr t := hi.not_called htodo fun h => hset (List.cons.inj h).1
  have hpub := hi.published_kept hother Iff.rfl (by rw [hflags]) hnc fun h => hnc h.1
  have hown : c'.flags.ownFlag t = true ↔ c'.todo t ≠ handlerFor t := by
    have hbegan : c.flags.ownFlag t = true := (hi.own t).mpr (htodo ▸ hbegun)
    have hnil : [] ≠ handlerFor t := by cases t <;> exact (List.cons_ne_nil _ _).symm
    rw [hflags, htodo']
    exact ⟨fun _ => hnil, fun _ => hbegan⟩
  refine hi.moved hother (by rw [hflags]) Iff.rfl (by rw [hflags]) hpub hi.once ?_ hown
    (fun h => absurd h hnc) ?_ (fun _ _ => hleft) ?_
  · rw [htodo']
    exact List.nil_suffix
  · intro hu
    exact nomatch htodo'.symm.trans hu
  · intro hdone hcu
    rcases hleft with h | h
    · exact absurd h hcu
    · exact absurd hdone h

theorem called_append {call : StartCall} {u : BtTask} :
    Called (tr ++ [(t, call)]) u ↔ Called tr u ∨ u = t := by
  constructor
  · rintro ⟨d, hd⟩
    rcases List.mem_append.mp hd with h | h
    · exact .inl ⟨d, h⟩
    · exact .inr (Prod.mk.inj (List.mem_singleton.mp h)).1
  · rintro (⟨d, hd⟩ | rfl)
    · exact ⟨d, List.mem_append_left _ hd⟩
    · exact ⟨call, by simp⟩

/-- The driver call. -/
theorem RaceInv.call {call : StartCall} (hi : RaceInv c tr)
    (htodo : c.todo t = [.startAdvertising, .setAdvertising true])
    (htodo' : c'.todo t = [.setAdvertising true])
    (hother : c'.todo t.other = c.todo t.other) (hflags : c'.flags = c.flags) :
    RaceInv c' (tr ++ [(t, call)]) := by
  have hnc : ¬ Called tr t := hi.not_called htodo fun h => nomatch h
  obtain ⟨hsuf, hnf⟩ := hi.rest_somewhere htodo
  have hself : Called (tr ++ [(t, call)]) t := called_append.mpr (.inr rfl)
  have hcalled' : Called (tr ++ [(t, call)]) t.other ↔ Called tr t.other := by
    rw [called_append, or_iff_left t.other_ne]
  have hpub := hi.published_kept hother hcalled' (by rw [hflags]) hnc fun h =>
    nomatch htodo'.symm.trans h.2
  have hown : c'.flags.ownFlag t = true ↔ c'.todo t ≠ handlerFor t := by
    have hbegun : c.todo t ≠ handlerFor t := by
      rw [htodo]
      cases t <;> simp [handlerFor, mediaGapEventHandler, mediaHiddEventHandler]
    rw [hflags, htodo', hi.own t]
    exact ⟨fun _ => hnf, fun _ => hbegun⟩
  have honce : ((tr ++ [(t, call)]).map Prod.fst).Nodup := by
    rw [List.map_append, List.nodup_append]
    refine ⟨hi.once, by simp, ?_⟩
    intro u hu v hv
    obtain rfl : v = t := by simpa using hv
    rintro rfl
    obtain ⟨⟨_, d⟩, hd, rfl⟩ := List.mem_map.mp hu
    exact hnc ⟨d, hd⟩
  refine hi.moved hother (by rw [hflags]) hcalled' (by rw [hflags]) hpub honce ?_ hown
    (fun _ => .inl htodo') (fun _ => hself) (fun _ h => absurd hself h) (fun _ _ => .inl hself)
  rw [htodo']
  exact hsuf

/-- The write of `s_advertising` that ends the handler. -/
theorem RaceInv.publish (hi : RaceInv c tr) (htodo : c.todo t = [.setAdvertising true])
    (htodo' : c'.todo t = []) (hother : c'.todo t.other = c.todo t.other)
    (hflags : c'.flags = { c.flags with sAdvertising := true }) : RaceInv c' tr := by
  have hc : Called tr t := hi.calling t htodo
  have hflag : ∀ u, c'.flags.ownFlag u = c.flags.ownFlag u := by
    intro u
    rw [hflags]
    cases u <;> rfl
  have hown : c'.flags.ownFlag t = true ↔ c'.todo t ≠ handlerFor t := by
    rw [hflag, htodo', hi.own t, htodo]
    cases t <;> simp [handlerFor, mediaGapEventHandler, mediaHiddEventHandler]
  refine hi.moved hother (hflag _) Iff.rfl (by rw [hflags]) ?_ hi.once ?_ hown
    (fun _ => .inr htodo') (fun _ => hc) (fun _ h => absurd hc h) (fun _ _ => .inl hc)
  · rw [hflags]
    exact ⟨fun _ => ⟨t, hc, htodo'⟩, fun _ => rfl⟩
  · rw [htodo']
    exact List.nil_suffix

theorem RaceInv.begun {a : Access} (hi : RaceInv c tr) (htodo : c.todo t = a :: rest)
    (hbegun : a :: rest ≠ handlerFor t) : c.flags.ownFlag t = true :=
  (hi.own t).mpr (htodo ▸ hbegun)

/-- A flag that is still false belongs to the other task, which has not begun. -/
theorem RaceInv.left_of_flag {a : Access} {u : BtTask} (hi : RaceInv c tr)
    (htodo : c.todo t = a :: rest) (hbegun : a :: rest ≠ handlerFor t)
    (hflag : c.flags.ownFlag u = false) : c.todo t.other ≠ [] := by
  have ht : c.flags.ownFlag t = true := hi.begun htodo hbegun
  rcases u.eq_or_other t with rfl | rfl
  · exact absurd ht (by simp [hflag])
  · have hnot : ¬ c.todo t.other ≠ handlerFor t.other := by
      rw [← hi.own, hflag]
      exact Bool.false_ne_true
    rw [not_not.mp hnot]
    cases t <;> exact List.cons_ne_nil _ _

/-- A set `s_advertising` is the other task's doing. -/
theorem RaceInv.other_called (hi : RaceInv c tr) (htodo : c.todo t ≠ [])
    (hadv : c.flags.sAdvertising = true) : Called tr t.other ∧ c.todo t.other = [] := by
  obtain ⟨u, hu, hdone⟩ := hi.published.mp hadv
  rcases u.eq_or_other t with rfl | rfl
  · exact absurd hdone htodo
  · exact ⟨hu, hdone⟩

end RaceSteps

theorem raceInv_step {c c' : Callbacks} {t : BtTask} {tr es : List (BtTask × StartCall)}
    (hi : RaceInv c tr) (h : concurrentCallbacks.step c t = some (c', es)) :
    RaceInv c' (tr ++ es) := by
  obtain ⟨a, rest, htodo, hflags, htodo', hother, rfl⟩ := concurrentCallbacks_step h
  have hsuf : a :: rest <:+ handlerFor t := htodo ▸ hi.somewhere t
  -- a read of a flag: it passes, or the other task will start
  have read : ∀ u, rest ≠ [] → rest ≠ [.setAdvertising true] → a :: rest ≠ handlerFor t →
      access espOk c.flags a = (c.flags, c.flags.ownFlag u, []) →
      RaceInv c' (tr ++ (access espOk c.flags a).2.2.map (fun call => (t, call))) := by
    intro u hne hset hbegun hacc
    rw [hacc] at hflags htodo' ⊢
    rw [List.map_nil, List.append_nil]
    cases hv : c.flags.ownFlag u with
    | true =>
        refine hi.advance htodo hne hset (by simpa [hv] using htodo') hother ?_ ?_ ?_ ?_ <;>
          rw [hflags]
        exact hi.begun htodo hbegun
    | false =>
        refine hi.giveUp htodo ?_ (by simpa [hv] using htodo') hother hflags hbegun
          (.inr (hi.left_of_flag htodo hbegun hv))
        rintro rfl
        simp [access, hv] at hacc
  rcases todo_cases hsuf with ⟨hne, hset, hcase⟩ | ⟨rfl, rfl⟩ | ⟨rfl, rfl⟩
  · rcases hcase with ⟨rfl, rfl⟩ | ⟨rfl, rfl⟩ | rfl | rfl | rfl | rfl | rfl
    · -- `s_adv_data_ready = true`
      rw [access, List.map_nil, List.append_nil]
      refine hi.advance htodo hne hset htodo' hother ?_ ?_ ?_ ?_ <;>
        simp [hflags, access, MediaFlags.ownFlag, BtTask.other]
    · -- `s_hid_started = true`
      rw [access, List.map_nil, List.append_nil]
      refine hi.advance htodo hne hset htodo' hother ?_ ?_ ?_ ?_ <;>
        simp [hflags, access, MediaFlags.ownFlag, BtTask.other]
    · -- `s_ready = true`
      have hbegun : .setReady true :: rest ≠ handlerFor t := by
        cases t <;> simp [handlerFor, mediaGapEventHandler, mediaHiddEventHandler]
      have hown : c.flags.ownFlag t = true := hi.begun htodo hbegun
      rw [access, List.map_nil, List.append_nil]
      refine hi.advance htodo hne hset htodo' hother ?_ ?_ ?_ ?_ <;> rw [hflags]
      · rfl
      · rfl
      · cases t <;> exact hown
      · cases t <;> rfl
    · refine read .hidd hne hset ?_ rfl
      cases t <;> simp [handlerFor, mediaGapEventHandler, mediaHiddEventHandler]
    · refine read .gap hne hset ?_ rfl
      cases t <;> simp [handlerFor, mediaGapEventHandler, mediaHiddEventHandler]
    · -- `s_connected` stays false throughout
      have hbegun : .unlessConnected :: rest ≠ handlerFor t := by
        cases t <;> simp [handlerFor, mediaGapEventHandler, mediaHiddEventHandler]
      rw [access, List.map_nil, List.append_nil]
      refine hi.advance htodo hne hset (by simpa [access, hi.unconnected] using htodo')
        hother ?_ ?_ ?_ ?_ <;> rw [hflags]
      · rfl
      · rfl
      · exact hi.begun htodo hbegun
      · rfl
    · have hbegun : .unlessAdvertising :: rest ≠ handlerFor t := by
        cases t <;> simp [handlerFor, mediaGapEventHandler, mediaHiddEventHandler]
      rw [access, List.map_nil, List.append_nil]
      cases hadv : c.flags.sAdvertising with
      | false =>
          refine hi.advance htodo hne hset (by simpa [access, hadv] using htodo')
            hother ?_ ?_ ?_ ?_ <;> rw [hflags]
          · rfl
          · rfl
          · exact hi.begun htodo hbegun
          · rfl
      | true =>
          refine hi.giveUp htodo (by simp) (by simpa [access, hadv] using htodo') hother
            hflags hbegun (.inl (hi.other_called ?_ hadv).1)
          rw [htodo]
          exact List.cons_ne_nil _ _
  · exact hi.call htodo htodo' hother hflags
  · rw [access, List.map_nil, List.append_nil]
    exact hi.publish htodo htodo' hother hflags

/-- Both tasks have read `s_advertising` as false. -/
def BothPassed (c : Callbacks) (tr : List (BtTask × StartCall)) : Prop :=
  Passed c tr .gap ∧ Passed c tr .hidd

theorem bothPassed_iff {c : Callbacks} {tr : List (BtTask × StartCall)} (t : BtTask) :
    BothPassed c tr ↔ Passed c tr t ∧ Passed c tr t.other := by
  cases t with
  | gap => rfl
  | hidd => exact and_comm

/-- A step of one task moves the other neither into nor out of the window. -/
theorem passed_other {c c' : Callbacks} {t : BtTask} {tr es : List (BtTask × StartCall)}
    (h : concurrentCallbacks.step c t = some (c', es)) :
    Passed c' (tr ++ es) t.other ↔ Passed c tr t.other := by
  obtain ⟨a, rest, -, -, -, hother, rfl⟩ := concurrentCallbacks_step h
  have hcalled : Called (tr ++ (access espOk c.flags a).2.2.map (fun call => (t, call)))
      t.other ↔ Called tr t.other := by
    constructor
    · rintro ⟨d, hd⟩
      rcases List.mem_append.mp hd with h1 | h1
      · exact ⟨d, h1⟩
      · obtain ⟨_, _, heq⟩ := List.mem_map.mp h1
        exact absurd (Prod.mk.inj heq).1.symm t.other_ne
    · rintro ⟨d, hd⟩
      exact ⟨d, List.mem_append_left _ hd⟩
  rw [Passed, Passed, hcalled, InWindow, InWindow, hother]

/-- A step brings its task past the read of `s_advertising` exactly when it is
    that read and the flag is false. -/
theorem passed_self {c c' : Callbacks} {t : BtTask} {tr es : List (BtTask × StartCall)}
    (hi : RaceInv c tr) (h : concurrentCallbacks.step c t = some (c', es)) :
    Passed c' (tr ++ es) t ↔ Passed c tr t ∨
      ((c.todo t).head? = some .unlessAdvertising ∧ c.flags.sAdvertising = false) := by
  obtain ⟨a, rest, htodo, -, htodo', -, rfl⟩ := concurrentCallbacks_step h
  have hsuf : a :: rest <:+ handlerFor t := htodo ▸ hi.somewhere t
  rcases todo_cases hsuf with ⟨hne, hset, hcase⟩ | ⟨rfl, rfl⟩ | ⟨rfl, rfl⟩
  · -- before the driver call the task is not in the window and has not called
    have hquiet : (access espOk c.flags a).2.2 = [] := by
      rcases hcase with ⟨-, rfl⟩ | ⟨-, rfl⟩ | rfl | rfl | rfl | rfl | rfl <;> rfl
    have hnc : ¬ Called tr t := by
      intro hc
      rcases hi.called t hc with h1 | h1 <;> rw [htodo] at h1
      · exact hne (List.cons.inj h1).2
      · exact nomatch h1
    have hnw : ¬ InWindow c t := by
      rintro (h1 | h1) <;> rw [htodo] at h1
      · exact hset (List.cons.inj h1).2
      · exact hne (List.cons.inj h1).2
    have hnp : ¬ Passed c tr t := fun hp => hp.elim hnw hnc
    rw [hquiet, List.map_nil, List.append_nil, Passed, or_iff_left hnc, InWindow, htodo',
      or_iff_right hnp, htodo, List.head?_cons]
    have hsuf' : rest <:+ handlerFor t := (hi.rest_somewhere htodo).1
    by_cases ha : a = .unlessAdvertising
    · subst ha
      have hrest : rest = [.startAdvertising, .setAdvertising true] := by
        cases t <;> simpa [handlerFor, mediaGapEventHandler, mediaHiddEventHandler,
          mediaTryStartAdvertising, List.suffix_cons_iff] using hsuf
      cases hadv : c.flags.sAdvertising <;> simp [access, hadv, hrest]
    · have hlate : rest ≠ [.startAdvertising, .setAdvertising true] := by
        rintro rfl
        cases t <;> simp [handlerFor, mediaGapEventHandler, mediaHiddEventHandler,
          mediaTryStartAdvertising, List.suffix_cons_iff, ha] at hsuf
      cases hgo : (access espOk c.flags a).2.1 <;> simp [ha, hlate, hset]
  · simp [Passed, InWindow, htodo, htodo', access]
  · have hc : Called tr t := hi.calling t htodo
    have hc' : Called (tr ++ []) t := by simpa using hc
    exact ⟨fun _ => .inl (.inr hc), fun _ => .inr hc'⟩

/-- **One step of the race.**  As long as not both tasks have passed the read
    of `s_advertising`, a step keeps it so exactly when it reads the flag
    outside the other task's window. -/
theorem bothPassed_step {c c' : Callbacks} {t : BtTask} {tr es : List (BtTask × StartCall)}
    (hi : RaceInv c tr) (hg : ¬ BothPassed c tr)
    (h : concurrentCallbacks.step c t = some (c', es)) :
    ¬ BothPassed c' (tr ++ es) ↔ ReadsOutsideWindow c t := by
  rw [bothPassed_iff t] at hg ⊢
  rw [passed_self hi h, passed_other h, ReadsOutsideWindow]
  by_cases hread : (c.todo t).head? = some .unlessAdvertising
  · have htodo : c.todo t ≠ [] := by
      intro hnil
      rw [hnil] at hread
      exact nomatch hread
    have hnp : ¬ Passed c tr t := by
      rintro ((h1 | h1) | h1)
      · rw [h1] at hread; exact nomatch hread
      · rw [h1] at hread; exact nomatch hread
      · rcases hi.called t h1 with h2 | h2 <;> rw [h2] at hread <;> exact nomatch hread
    cases hadv : c.flags.sAdvertising with
    | true =>
        -- the other task is done, so the read is late and fails
        have hdone : c.todo t.other = [] := (hi.other_called htodo hadv).2
        simp [hread, hnp, InWindow, hdone]
    | false =>
        have hother : Passed c tr t.other ↔ InWindow c t.other := by
          refine ⟨fun hp => hp.elim id fun hc => ?_, .inl⟩
          rcases hi.called _ hc with h1 | h1
          · exact .inr h1
          · have hset : c.flags.sAdvertising = true := hi.published.mpr ⟨_, hc, h1⟩
            exact absurd (hadv.symm.trans hset) Bool.false_ne_true
        simp [hread, hnp, hother]
  · simp [hread, hg]

/-- **Never zero.**  When both handlers have finished, one of them has called
    the driver. -/
theorem RaceInv.someone_called {c : Callbacks} {tr : List (BtTask × StartCall)}
    (hi : RaceInv c tr) (hdone : ∀ t, c.todo t = []) :
    Called tr .gap ∨ Called tr .hidd := by
  by_cases hgap : Called tr .gap
  · exact .inl hgap
  · rcases hi.someone .gap (hdone .gap) hgap with h | h
    · exact .inr h
    · exact absurd (hdone _) h

/-- When both handlers have finished, the number of calls is one exactly when
    not both tasks made one. -/
theorem RaceInv.calls_eq_one {c : Callbacks} {tr : List (BtTask × StartCall)}
    (hi : RaceInv c tr) (hdone : ∀ t, c.todo t = []) :
    tr.length = 1 ↔ ¬ BothPassed c tr := by
  have hpassed : ∀ t, Passed c tr t ↔ Called tr t := by
    intro t
    simp [Passed, InWindow, hdone t]
  rw [BothPassed, hpassed, hpassed]
  have honce := hi.once
  constructor
  · rintro hlen ⟨⟨d, hd⟩, ⟨e, he⟩⟩
    obtain ⟨x, rfl⟩ := List.length_eq_one_iff.mp hlen
    rw [← List.mem_singleton.mp he] at hd
    exact nomatch (Prod.mk.inj (List.mem_singleton.mp hd)).1
  · intro hnot
    match tr, honce, hi.someone_called hdone, hnot with
    | [], _, hs, _ => simp [Called] at hs
    | [_], _, _, _ => rfl
    | (t, d) :: (u, e) :: _, honce, _, hnot =>
        have htu : t ≠ u := by
          rintro rfl
          simp at honce
        refine absurd ?_ hnot
        rcases u.eq_or_other t with rfl | rfl
        · exact absurd rfl htu
        · cases t
          · exact ⟨⟨d, by simp⟩, ⟨e, by simp [BtTask.other]⟩⟩
          · exact ⟨⟨e, by simp [BtTask.other]⟩, ⟨d, by simp⟩⟩

theorem passed_mono {c c' : Callbacks} {t u : BtTask} {tr es : List (BtTask × StartCall)}
    (hi : RaceInv c tr) (h : concurrentCallbacks.step c t = some (c', es))
    (hp : Passed c tr u) : Passed c' (tr ++ es) u := by
  rcases u.eq_or_other t with rfl | rfl
  · exact (passed_self hi h).mpr (.inl hp)
  · exact (passed_other h).mpr hp

/-- **Started once.**  Once both handlers have finished, the driver was called
    exactly once if and only if neither task read `s_advertising` while the
    other was between its own read of it and its write. -/
theorem started_once_iff {ready : Bool} {ls : List BtTask} {c : Callbacks}
    {tr : List (BtTask × StartCall)}
    (h : Run concurrentCallbacks (bothPending ready) ls c tr)
    (hdone : c.gap = [] ∧ c.hidd = []) :
    tr.length = 1 ↔ Meets concurrentCallbacks (bothPending ready) ReadsOutsideWindow ls := by
  have hinv : ∀ s tr l s' es, RaceInv s tr → concurrentCallbacks.step s l = some (s', es) →
      RaceInv s' (tr ++ es) := fun _ _ _ _ _ hs hstep => raceInv_step hs hstep
  have hi : RaceInv c tr := h.invariant (raceInv_bothPending ready) hinv
  have hall : ∀ t, c.todo t = [] := by
    intro t
    cases t with
    | gap => exact hdone.1
    | hidd => exact hdone.2
  have hstart : ¬ BothPassed (bothPending ready) [] := by
    rintro ⟨hp | ⟨_, hp⟩, -⟩
    · exact absurd hp (by cases ready <;> decide)
    · exact absurd hp (by simp)
  have hmeets : Always concurrentCallbacks (bothPending ready)
      (fun c tr => ¬ BothPassed c tr) ls ↔ _ :=
    always_iff_meets (raceInv_bothPending ready) hinv hstart
      (fun _ _ _ _ _ hs hg hstep => bothPassed_step hs hg hstep) h
  rw [hi.calls_eq_one hall, ← hmeets]
  -- a task that has passed the read stays past it
  refine (always_iff_of_never_regained (G := fun c tr => ¬ BothPassed c tr)
    (raceInv_bothPending ready) hinv hstart ?_ h).symm
  rintro s tr l s' es hs hstep hg ⟨hp, hq⟩
  exact hg ⟨passed_mono hs hstep hp, passed_mono hs hstep hq⟩

/-- The handlers one after the other. -/
theorem started_once_iff_at : ∃ c tr,
    Run concurrentCallbacks (bothPending false) ([.gap, .gap] ++ List.replicate 8 .hidd) c tr ∧
      tr.length = 1 ∧
      Meets concurrentCallbacks (bothPending false) ReadsOutsideWindow
        ([.gap, .gap] ++ List.replicate 8 .hidd) := by
  have hrun : Run concurrentCallbacks (bothPending false)
      ([.gap, .gap] ++ List.replicate 8 .hidd) ⟨⟨true, false, true, true, true⟩, [], []⟩
      [(.hidd, .mk ⟨true, false, true, true, false⟩ espOk)] := run_of_exec rfl
  exact ⟨_, _, hrun, rfl, (started_once_iff hrun ⟨rfl, rfl⟩).mp rfl⟩

/-- Both tasks read `s_advertising` before either writes it: both start. -/
theorem not_started_once :
    ¬ ∀ ready ls c tr, Run concurrentCallbacks (bothPending ready) ls c tr →
      c.gap = [] ∧ c.hidd = [] → tr.length = 1 := by
  intro hall
  have hrun : ∃ c tr, exec concurrentCallbacks (bothPending false)
      (List.flatten [[.gap], List.replicate 6 .hidd, List.replicate 6 .gap, [.hidd, .hidd]]) =
        some (c, tr) ∧ (c.gap = [] ∧ c.hidd = []) ∧ tr.length = 2 :=
    ⟨_, _, rfl, ⟨rfl, rfl⟩, rfl⟩
  obtain ⟨c, tr, hexec, hdone, htwo⟩ := hrun
  have hone := hall false _ c tr (run_of_exec hexec) hdone
  rw [htwo] at hone
  exact absurd hone (by decide)

end MediaCallback
