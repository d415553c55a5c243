import KnobFirmware.LossyFifoProofs
import KnobFirmware.MediaCallbackProofs
import Mathlib.Algebra.Group.Nat.Defs

/-! # The media command queue — from `media_controller_send` to HID reports

    `media_controller_send` runs in the caller's task and puts a key on the
    command queue; `media_command_task` takes it off, checks the connection
    again, and submits a press report, a hold time later a release report.
    The callbacks of the Bluetooth stack move the connection flag in between.

    Each access to a shared variable, each queue operation and each driver call
    is one step.  Two numbers are bookkeeping of the model and not of the code:
    `connections` counts the CONNECT events, and every command carries the
    connection that was up when it was accepted.

    Main results:
    * `hid_stream_refines` — the queue and the task implement a lossy channel
      from accepted keys to pressed keys, with every press released;
    * `released_when_waiting_iff` — exactly when the host is left with no key
      held;
    * `pressed_on_own_connection` — when no command reaches a later host. -/

namespace MediaCommand

open EspErr LossyFifo MediaCallback StepMachine

/-! ## Keys and reports -/

/-- `media_control_key_t`; a value that is no enumerator is `other`. -/
inductive MediaControlKey where
  | nextTrack
  | previousTrack
  | stop
  | playPause
  | mute
  | volumeUp
  | volumeDown
  | other (value : Int)
  deriving DecidableEq, Repr

def mediaBitNextTrack : UInt8 := (1 : UInt8) <<< 0
def mediaBitPreviousTrack : UInt8 := (1 : UInt8) <<< 1
def mediaBitStop : UInt8 := (1 : UInt8) <<< 2
def mediaBitPlayPause : UInt8 := (1 : UInt8) <<< 3
def mediaBitMute : UInt8 := (1 : UInt8) <<< 4
def mediaBitVolumeUp : UInt8 := (1 : UInt8) <<< 5
def mediaBitVolumeDown : UInt8 := (1 : UInt8) <<< 6

/-- `media_key_to_report_bit`. -/
def mediaKeyToReportBit : MediaControlKey → UInt8
  | .nextTrack => mediaBitNextTrack
  | .previousTrack => mediaBitPreviousTrack
  | .stop => mediaBitStop
  | .playPause => mediaBitPlayPause
  | .mute => mediaBitMute
  | .volumeUp => mediaBitVolumeUp
  | .volumeDown => mediaBitVolumeDown
  | .other _ => 0

/-- A report bit is no bit or exactly one of the seven button bits. -/
theorem mediaKeyToReportBit_one_bit (key : MediaControlKey)
    (h : mediaKeyToReportBit key ≠ 0) :
    ∃ i < 7, (mediaKeyToReportBit key).toNat = 2 ^ i := by
  cases key with
  | nextTrack => exact ⟨0, by decide, rfl⟩
  | previousTrack => exact ⟨1, by decide, rfl⟩
  | stop => exact ⟨2, by decide, rfl⟩
  | playPause => exact ⟨3, by decide, rfl⟩
  | mute => exact ⟨4, by decide, rfl⟩
  | volumeUp => exact ⟨5, by decide, rfl⟩
  | volumeDown => exact ⟨6, by decide, rfl⟩
  | other => exact absurd rfl h

/-- `MEDIA_REPORT_MAP_INDEX`. -/
def mediaReportMapIndex : Nat := 0

/-- `MEDIA_REPORT_ID`. -/
def mediaReportId : Nat := 1

/-- `MEDIA_COMMAND_QUEUE_LENGTH`. -/
def mediaCommandQueueLength : Nat := 24

/-- A command on its way: the key, and the connection it was accepted on. -/
structure Command where
  key  : MediaControlKey
  conn : Option Nat
  deriving DecidableEq, Repr

/-- One call of `esp_hidd_dev_input_set` by the task: the command it works on,
    the arguments, the result, and the connection that was up. -/
structure Report where
  command  : Command
  mapIndex : Nat
  reportId : Nat
  data     : UInt8
  err      : EspErr
  conn     : Option Nat
  deriving DecidableEq, Repr

/-! ## The state -/

/-- What `media_controller_send` does next. -/
inductive SendStep where
  | testReady
  | testConnected
  | testDevice
  | testQueue
  | enqueue
  deriving DecidableEq, Repr

/-- A call of `media_controller_send` in progress. -/
structure Sender where
  key  : MediaControlKey
  next : SendStep
  deriving DecidableEq, Repr

/-- What `media_command_task` does next, with its local `key`. -/
inductive CommandTask where
  | receive
  | testConnected (c : Command)
  | testDevice (c : Command)
  | testDevConnected (c : Command)
  | press (c : Command)
  | hold (c : Command)
  | release (c : Command)
  deriving DecidableEq, Repr

/-- The module's shared state, the callbacks, the task, and the calls of
    `media_controller_send` in progress. -/
structure MediaSys where
  callbacks     : Callbacks
  sHidDevice    : Bool
  sCommandQueue : Option (BoundedFifo Command mediaCommandQueueLength)
  task          : CommandTask
  senders       : List Sender
  connections   : Nat
  deriving DecidableEq, Repr

/-- The flags of the module. -/
def MediaSys.flags (s : MediaSys) : MediaFlags := s.callbacks.flags

/-- The connection that is up. -/
def MediaSys.connUp (s : MediaSys) : Option Nat :=
  if s.flags.sConnected then some s.connections else none

inductive MediaEv where
  /-- `media_controller_send` returns. -/
  | returned (c : Command) (err : EspErr)
  | inputSet (r : Report)
  deriving DecidableEq, Repr

/-! ## The code -/

/-- One step of a `media_controller_send` call: the new state, the call if it
    goes on, and its return.  There is no step for a send to no queue, which
    the read before excludes. -/
def mediaControllerSend (s : MediaSys) (snd : Sender) :
    Option (MediaSys × Option Sender × List MediaEv) :=
  let goOn (next : SendStep) := some (s, some { snd with next }, [])
  let fail (err : EspErr) := some (s, none, [.returned ⟨snd.key, none⟩ err])
  match snd.next with
  | .testReady =>
      if s.flags.sReady then goOn .testConnected else fail espErrInvalidState
  | .testConnected =>
      if s.flags.sConnected then goOn .testDevice else fail espErrInvalidState
  | .testDevice => if s.sHidDevice then goOn .testQueue else fail espErrInvalidState
  | .testQueue =>
      match s.sCommandQueue with
      | none => fail espErrInvalidState
      | some _ =>
          if mediaKeyToReportBit snd.key = 0 then fail espErrInvalidArg else goOn .enqueue
  | .enqueue =>
      match s.sCommandQueue with
      | none => none
      | some q =>
          match q.send ⟨snd.key, s.connUp⟩ with
          | none => fail espErrTimeout
          | some q' =>
              some ({ s with sCommandQueue := some q' }, none,
                [.returned ⟨snd.key, s.connUp⟩ espOk])

/-- What the HID stack answers the task. -/
structure TaskReply where
  devConnected : Bool := true
  err          : EspErr := espOk
  deriving DecidableEq, Repr

/-- `esp_hidd_dev_input_set` as the task calls it. -/
def MediaSys.inputSet (s : MediaSys) (c : Command) (data : UInt8) (err : EspErr) :
    MediaEv :=
  .inputSet ⟨c, mediaReportMapIndex, mediaReportId, data, err, s.connUp⟩

/-- One step of `media_command_task`. -/
def mediaCommandTask (s : MediaSys) (r : TaskReply) : MediaSys × List MediaEv :=
  match s.task with
  | .receive =>
      match s.sCommandQueue with
      | none => (s, [])
      | some q =>
          match q.receive with
          -- the wait has no end
          | none => (s, [])
          | some (c, q') => ({ s with sCommandQueue := some q', task := .testConnected c }, [])
  | .testConnected c =>
      ({ s with task := if s.flags.sConnected then .testDevice c else .receive }, [])
  | .testDevice c =>
      ({ s with task := if s.sHidDevice then .testDevConnected c else .receive }, [])
  | .testDevConnected c =>
      -- the translation of the key reads nothing shared
      if r.devConnected ∧ mediaKeyToReportBit c.key ≠ 0 then
        ({ s with task := .press c }, [])
      else
        ({ s with task := .receive }, [])
  | .press c =>
      ({ s with task := if r.err = espOk then .hold c else .receive },
        [s.inputSet c (mediaKeyToReportBit c.key) r.err])
  | .hold c => ({ s with task := .release c }, [])
  | .release c => ({ s with task := .receive }, [s.inputSet c 0 r.err])

inductive MediaLab where
  /-- The stack calls back. -/
  | event (e : MediaEvent)
  /-- The running handler of a Bluetooth task makes its next access. -/
  | callback (t : BtTask) (err : EspErr)
  /-- Some task calls `media_controller_send`. -/
  | send (key : MediaControlKey)
  | sender (i : Nat)
  | task (r : TaskReply)
  deriving DecidableEq, Repr

/-- The task that an event's handler runs in. -/
def taskOf : MediaEvent → BtTask
  | .gap _ => .gap
  | .hidd _ => .hidd

/-- The handler of an event is about to run. -/
def beginHandler (c : Callbacks) : MediaEvent → Callbacks
  | .gap e => { c with gap := mediaGapEventHandler e }
  | .hidd e => { c with hidd := mediaHiddEventHandler e }

/-- One step of whoever the label names. -/
def mediaStep (s : MediaSys) : MediaLab → Option (MediaSys × List MediaEv)
  | .event e =>
      if s.callbacks.todo (taskOf e) = [] then
        some ({ s with callbacks := beginHandler s.callbacks e }, [])
      else
        none
  | .callback t err =>
      (s.callbacks.advance t err).map fun r =>
        ({ s with
            callbacks := r.1,
            connections := s.connections +
              if (s.callbacks.todo t).head? = some (.setConnected true) then 1 else 0 }, [])
  | .send key => some ({ s with senders := s.senders ++ [⟨key, .testReady⟩] }, [])
  | .sender i =>
      match s.senders[i]? with
      | none => none
      | some snd =>
          (mediaControllerSend s snd).map fun (s', snd', es) =>
            ({ s' with
                senders := match snd' with
                  | none => s.senders.eraseIdx i
                  | some snd' => s.senders.set i snd' }, es)
  | .task r => some (mediaCommandTask s r)

/-- The media controller after `media_controller_init`: nothing queued, nothing
    in progress, the flags as the events so far left them. -/
def media : Machine MediaSys MediaLab MediaEv where
  start := fun s =>
    (∀ q, s.sCommandQueue = some q → q.items = []) ∧ s.task = .receive ∧
      s.senders = [] ∧ s.callbacks.gap = [] ∧ s.callbacks.hidd = []
  step := mediaStep

/-! ## What a step can do -/

/-- The items on the queue. -/
def MediaSys.queued (s : MediaSys) : List Command :=
  match s.sCommandQueue with
  | none => []
  | some q => q.items

/-- The command that the task has taken and not yet submitted. -/
def CommandTask.taken : CommandTask → List Command
  | .testConnected c | .testDevice c | .testDevConnected c | .press c => [c]
  | .receive | .hold _ | .release _ => []

/-- The key that the host has been told is down. -/
def CommandTask.down : CommandTask → Option Command
  | .hold c | .release c => some c
  | .receive | .testConnected _ | .testDevice _ | .testDevConnected _ | .press _ => none

/-- The accepted commands that no report has been submitted for. -/
def MediaSys.pending (s : MediaSys) : List Command := s.task.taken ++ s.queued

/-- What the step writes to `s_connected`, if it does. -/
def writesConnected (s : MediaSys) : MediaLab → Option Bool
  | .callback t _ =>
      match (s.callbacks.todo t).head? with
      | some (.setConnected v) => some v
      | _ => none
  | _ => none

/-- What the HID stack answers in the step. -/
def MediaLab.reply : MediaLab → TaskReply
  | .task r => r
  | _ => {}

/-- The reason why the task drops a command. -/
def Dropped (s : MediaSys) (l : MediaLab) (c : Command) : Prop :=
  s.flags.sConnected = false ∨ s.sHidDevice = false ∨
    l.reply.devConnected = false ∨ mediaKeyToReportBit c.key = 0

/-- What a step does to the commands on their way and to the key that is down.
    Every invariant below is proved from this. -/
inductive Move (s : MediaSys) (l : MediaLab) (s' : MediaSys) : List MediaEv → Prop where
  /-- A callback, or a step that concerns no command. -/
  | link (hpend : s'.pending = s.pending) (hdown : s'.task.down = s.task.down)
      (hup : s'.connUp = s.connUp ∨ (s'.connUp = none ∧ writesConnected s l = some false) ∨
        (s'.flags.sConnected = true ∧ writesConnected s l = some true)) :
      Move s l s' []
  | refuse (c : Command) (err : EspErr) (herr : err ≠ espOk)
      (hpend : s'.pending = s.pending) (hdown : s'.task.down = s.task.down)
      (hup : s'.connUp = s.connUp) : Move s l s' [.returned c err]
  | accept (snd : Sender) (hsnd : snd ∈ s.senders) (hnext : snd.next = .enqueue)
      (hpend : s'.pending = s.pending ++ [⟨snd.key, s.connUp⟩])
      (hdown : s'.task.down = s.task.down) (hup : s'.connUp = s.connUp) :
      Move s l s' [.returned ⟨snd.key, s.connUp⟩ espOk]
  | drop (c : Command) (hwhy : Dropped s l c) (hpend : s.pending = c :: s'.pending)
      (hdown : s.task.down = none) (hdown' : s'.task.down = none)
      (hup : s'.connUp = s.connUp) : Move s l s' []
  | press (c : Command) (r : TaskReply) (hl : l = .task r)
      (hpend : s.pending = c :: s'.pending) (hdown : s.task.down = none)
      (hdown' : s'.task.down = if r.err = espOk then some c else none)
      (hup : s'.connUp = s.connUp) :
      Move s l s' [s.inputSet c (mediaKeyToReportBit c.key) r.err]
  | release (c : Command) (r : TaskReply) (hl : l = .task r) (htask : s.task = .release c)
      (hpend : s'.pending = s.pending) (htask' : s'.task = .receive)
      (hup : s'.connUp = s.connUp) : Move s l s' [s.inputSet c 0 r.err]

theorem queued_some {s : MediaSys} {q : BoundedFifo Command mediaCommandQueueLength}
    (h : s.sCommandQueue = some q) : s.queued = q.items := by
  rw [MediaSys.queued, h]

/-- A callback's access touches the flags alone. -/
theorem callback_move {s s' : MediaSys} {t : BtTask} {err : EspErr} {es : List MediaEv}
    (h : mediaStep s (.callback t err) = some (s', es)) :
    Move s (.callback t err) s' es := by
  obtain ⟨⟨c', calls⟩, hadv, heq⟩ := Option.map_eq_some_iff.mp h
  obtain ⟨rfl, rfl⟩ := Prod.mk.inj heq
  refine .link rfl rfl ?_
  rw [Callbacks.advance] at hadv
  cases htodo : s.callbacks.todo t with
  | nil => rw [htodo] at hadv; contradiction
  | cons a rest =>
      rw [htodo] at hadv
      have hflags : c'.flags = (access err s.callbacks.flags a).1 := by
        cases t <;>
          · obtain ⟨rfl, -⟩ := Prod.mk.inj (Option.some.inj hadv)
            rfl
      have hup : ∀ n, MediaSys.connUp { s with callbacks := c', connections := n } =
          if (access err s.callbacks.flags a).1.sConnected then some n else none := by
        intro n
        rw [MediaSys.connUp, MediaSys.flags, hflags]
      by_cases hconn : a = .setConnected true
      · subst hconn
        have hset : c'.flags.sConnected = true := by rw [hflags]; rfl
        exact .inr (.inr ⟨hset, by rw [writesConnected, htodo]; rfl⟩)
      · by_cases hdisc : a = .setConnected false
        · subst hdisc
          refine .inr (.inl ⟨?_, by rw [writesConnected, htodo]; rfl⟩)
          rw [hup]
          rfl
        · left
          have hhead : (a :: rest).head? ≠ some (.setConnected true) := by simpa using hconn
          have hsame : (access err s.callbacks.flags a).1.sConnected = s.flags.sConnected := by
            cases a with
            | setConnected v => cases v <;> contradiction
            | _ => rfl
          rw [if_neg hhead, hup, hsame]
          rfl

/-- A step of the task. -/
theorem task_move {s s' : MediaSys} {r : TaskReply} {es : List MediaEv}
    (h : mediaCommandTask s r = (s', es)) : Move s (.task r) s' es := by
  rw [mediaCommandTask] at h
  split at h
  case h_1 htask =>
      split at h
      · obtain ⟨rfl, rfl⟩ := Prod.mk.inj h
        exact .link rfl rfl (.inl rfl)
      · rename_i q hq
        split at h
        · obtain ⟨rfl, rfl⟩ := Prod.mk.inj h
          exact .link rfl rfl (.inl rfl)
        · rename_i c q' hrecv
          obtain ⟨rfl, rfl⟩ := Prod.mk.inj h
          refine .link ?_ (by rw [htask]; rfl) (.inl rfl)
          rw [MediaSys.pending, MediaSys.pending, queued_some hq, htask,
            BoundedFifo.receive_items hrecv]
          rfl
  case h_2 c htask =>
      cases hc : s.flags.sConnected with
      | true =>
          rw [hc, if_pos rfl] at h
          obtain ⟨rfl, rfl⟩ := Prod.mk.inj h
          refine .link ?_ (by rw [htask]; rfl) (.inl rfl)
          rw [MediaSys.pending, MediaSys.pending, htask]
          rfl
      | false =>
          rw [hc, if_neg Bool.false_ne_true] at h
          obtain ⟨rfl, rfl⟩ := Prod.mk.inj h
          refine .drop c (.inl hc) ?_ (by rw [htask]; rfl) rfl rfl
          rw [MediaSys.pending, htask]
          rfl
  case h_3 c htask =>
      cases hd : s.sHidDevice with
      | true =>
          rw [hd, if_pos rfl] at h
          obtain ⟨rfl, rfl⟩ := Prod.mk.inj h
          refine .link ?_ (by rw [htask]; rfl) (.inl rfl)
          rw [MediaSys.pending, MediaSys.pending, htask]
          rfl
      | false =>
          rw [hd, if_neg Bool.false_ne_true] at h
          obtain ⟨rfl, rfl⟩ := Prod.mk.inj h
          refine .drop c (.inr (.inl hd)) ?_ (by rw [htask]; rfl) rfl rfl
          rw [MediaSys.pending, htask]
          rfl
  case h_4 c htask =>
      split at h
      · obtain ⟨rfl, rfl⟩ := Prod.mk.inj h
        refine .link ?_ (by rw [htask]; rfl) (.inl rfl)
        rw [MediaSys.pending, MediaSys.pending, htask]
        rfl
      · rename_i hnot
        obtain ⟨rfl, rfl⟩ := Prod.mk.inj h
        refine .drop c (.inr (.inr ?_)) ?_ (by rw [htask]; rfl) rfl rfl
        · by_cases hp : r.devConnected = true
          · exact .inr (not_not.mp fun hb => hnot ⟨hp, hb⟩)
          · exact .inl ((Bool.not_eq_true _).mp hp)
        · rw [MediaSys.pending, htask]
          rfl
  case h_5 c htask =>
      obtain ⟨rfl, rfl⟩ := Prod.mk.inj h
      have htaken : (if r.err = espOk then CommandTask.hold c else .receive).taken = [] := by
        split <;> rfl
      refine .press c r rfl ?_ (by rw [htask]; rfl) ?_ rfl
      · rw [MediaSys.pending, MediaSys.pending, htaken, htask]
        rfl
      · split <;> rfl
  case h_6 c htask =>
      obtain ⟨rfl, rfl⟩ := Prod.mk.inj h
      refine .link ?_ (by rw [htask]; rfl) (.inl rfl)
      rw [MediaSys.pending, MediaSys.pending, htask]
      rfl
  case h_7 c htask =>
      obtain ⟨rfl, rfl⟩ := Prod.mk.inj h
      refine .release c r rfl htask ?_ rfl rfl
      rw [MediaSys.pending, MediaSys.pending, htask]
      rfl

/-- The test that a sender at `n` has just passed. -/
def SendStep.Guard (s : MediaSys) (key : MediaControlKey) : SendStep → Prop
  | .testReady => True
  | .testConnected => s.flags.sReady = true
  | .testDevice => s.flags.sConnected = true
  | .testQueue => s.sHidDevice = true
  | .enqueue => mediaKeyToReportBit key ≠ 0

/-- The step before. -/
def SendStep.prev : SendStep → SendStep
  | .testReady => .testReady
  | .testConnected => .testReady
  | .testDevice => .testConnected
  | .testQueue => .testDevice
  | .enqueue => .testQueue

/-- A step of a sender: it goes on by one test, it returns an error, or its
    key is accepted. -/
theorem mediaControllerSend_cases {s s' : MediaSys} {snd : Sender} {next : Option Sender}
    {es : List MediaEv} (h : mediaControllerSend s snd = some (s', next, es)) :
    (s' = s ∧ es = [] ∧ ∃ n, next = some { snd with next := n } ∧ n.Guard s snd.key ∧
      n.prev = snd.next) ∨
    (s' = s ∧ next = none ∧ ∃ err, err ≠ espOk ∧ es = [.returned ⟨snd.key, none⟩ err]) ∨
    (∃ q q', snd.next = .enqueue ∧ s.sCommandQueue = some q ∧
      q.send ⟨snd.key, s.connUp⟩ = some q' ∧ s' = { s with sCommandQueue := some q' } ∧
      next = none ∧ es = [.returned ⟨snd.key, s.connUp⟩ espOk]) := by
  -- a test of a flag: go on, or INVALID_STATE
  have test : ∀ (b : Bool) (n : SendStep), (b = true → n.Guard s snd.key) →
      n.prev = snd.next →
      (if b = true then some (s, some { snd with next := n }, [])
        else some (s, none, [.returned ⟨snd.key, none⟩ espErrInvalidState]))
          = some (s', next, es) →
      (s' = s ∧ es = [] ∧ ∃ n, next = some { snd with next := n } ∧ n.Guard s snd.key ∧
        n.prev = snd.next) ∨
      (s' = s ∧ next = none ∧ ∃ err, err ≠ espOk ∧ es = [.returned ⟨snd.key, none⟩ err]) := by
    intro b n hguard hprev h
    cases b with
    | true =>
        obtain ⟨rfl, rfl, rfl⟩ := by simpa using h
        exact .inl ⟨rfl, rfl, n, rfl, hguard rfl, hprev⟩
    | false =>
        obtain ⟨rfl, rfl, rfl⟩ := by simpa using h
        exact .inr ⟨rfl, rfl, _, by decide, rfl⟩
  rw [mediaControllerSend] at h
  split at h
  case h_1 hn => exact (test _ .testConnected id hn.symm h).imp_right .inl
  case h_2 hn => exact (test _ .testDevice id hn.symm h).imp_right .inl
  case h_3 hn => exact (test _ .testQueue id hn.symm h).imp_right .inl
  case h_4 hn =>
      split at h
      · obtain ⟨rfl, rfl, rfl⟩ := by simpa using h
        exact .inr (.inl ⟨rfl, rfl, _, by decide, rfl⟩)
      · split at h
        · obtain ⟨rfl, rfl, rfl⟩ := by simpa using h
          exact .inr (.inl ⟨rfl, rfl, _, by decide, rfl⟩)
        · rename_i hbit
          obtain ⟨rfl, rfl, rfl⟩ := by simpa using h
          exact .inl ⟨rfl, rfl, .enqueue, rfl, hbit, hn.symm⟩
  case h_5 hn =>
      split at h
      · exact nomatch h
      · rename_i q hq
        split at h
        · obtain ⟨rfl, rfl, rfl⟩ := by simpa using h
          exact .inr (.inl ⟨rfl, rfl, _, by decide, rfl⟩)
        · rename_i q' hsend
          obtain ⟨rfl, rfl, rfl⟩ := by simpa using h
          exact .inr (.inr ⟨q, q', hn, hq, hsend, rfl, rfl, rfl⟩)

/-- A callback begins in a task that runs none. -/
theorem event_inv {s s' : MediaSys} {e : MediaEvent} {es : List MediaEv}
    (h : mediaStep s (.event e) = some (s', es)) :
    s' = { s with callbacks := beginHandler s.callbacks e } ∧ es = [] := by
  rw [mediaStep] at h
  split at h
  · obtain ⟨rfl, rfl⟩ := Prod.mk.inj (Option.some.inj h)
    exact ⟨rfl, rfl⟩
  · exact nomatch h

/-- A sender that returns is taken off the list. -/
theorem sender_inv {s s' : MediaSys} {i : Nat} {es : List MediaEv}
    (h : mediaStep s (.sender i) = some (s', es)) :
    ∃ snd s₁ next, snd ∈ s.senders ∧ mediaControllerSend s snd = some (s₁, next, es) ∧
      s' = { s₁ with
        senders := match next with
          | none => s.senders.eraseIdx i
          | some snd' => s.senders.set i snd' } := by
  rw [mediaStep] at h
  split at h
  · exact nomatch h
  · rename_i snd hsnd
    obtain ⟨⟨s₁, next, es₁⟩, hsend, heq⟩ := Option.map_eq_some_iff.mp h
    obtain ⟨rfl, rfl⟩ := Prod.mk.inj heq
    exact ⟨snd, s₁, next, List.mem_of_getElem? hsnd, hsend, rfl⟩

theorem sender_move {s s' : MediaSys} {i : Nat} {es : List MediaEv}
    (h : mediaStep s (.sender i) = some (s', es)) : Move s (.sender i) s' es := by
  obtain ⟨snd, s₁, next, hsnd, hsend, rfl⟩ := sender_inv h
  rcases mediaControllerSend_cases hsend with
    ⟨rfl, rfl, -⟩ | ⟨rfl, -, err, herr, rfl⟩ | ⟨q, q', hn, hq, hq', rfl, -, rfl⟩
  · exact .link rfl rfl (.inl rfl)
  · exact .refuse _ err herr rfl rfl rfl
  · refine .accept snd hsnd hn ?_ rfl rfl
    show s.task.taken ++ q'.items = s.task.taken ++ s.queued ++ _
    rw [BoundedFifo.send_items hq', queued_some hq, List.append_assoc]

/-- **What a step can do.** -/
theorem media_move {s s' : MediaSys} {l : MediaLab} {es : List MediaEv}
    (h : media.step s l = some (s', es)) : Move s l s' es := by
  cases l with
  | event e =>
      obtain ⟨rfl, rfl⟩ := event_inv h
      refine .link rfl rfl (.inl ?_)
      cases e <;> rfl
  | callback t err => exact callback_move h
  | send key =>
      obtain ⟨rfl, rfl⟩ := Prod.mk.inj (Option.some.inj h)
      exact .link rfl rfl (.inl rfl)
  | sender i => exact sender_move h
  | task r => exact task_move (Option.some.inj h)

/-! ## What the trace records -/

/-- The reports the task submitted, in order. -/
def reports (tr : List MediaEv) : List Report :=
  tr.filterMap fun
    | .returned _ _ => none
    | .inputSet r => some r

/-- The commands that `media_controller_send` accepted, in order. -/
def accepted (tr : List MediaEv) : List Command :=
  tr.filterMap fun
    | .returned c err => if err = espOk then some c else none
    | .inputSet _ => none

/-- A press report the stack took. -/
def Report.Pressed (r : Report) : Prop := r.data ≠ 0 ∧ r.err = espOk

instance (r : Report) : Decidable r.Pressed := inferInstanceAs (Decidable (_ ∧ _))

/-- The commands whose press report the stack took, in order. -/
def pressed (tr : List MediaEv) : List Command :=
  ((reports tr).filter (fun r => r.Pressed)).map (·.command)

@[simp] theorem reports_append (tr es : List MediaEv) :
    reports (tr ++ es) = reports tr ++ reports es := List.filterMap_append

@[simp] theorem accepted_append (tr es : List MediaEv) :
    accepted (tr ++ es) = accepted tr ++ accepted es := List.filterMap_append

@[simp] theorem pressed_append (tr es : List MediaEv) :
    pressed (tr ++ es) = pressed tr ++ pressed es := by
  rw [pressed, reports_append, List.filter_append, List.map_append]
  rfl

/-- No report and no acceptance: a refused send, or no event. -/
def Silent (es : List MediaEv) : Prop := reports es = [] ∧ accepted es = []

theorem silent_refused {c : Command} {err : EspErr} (h : err ≠ espOk) :
    Silent [.returned c err] := by
  refine ⟨rfl, ?_⟩
  simp [accepted, h]

theorem Silent.pressed {es : List MediaEv} (h : Silent es) : pressed es = [] := by
  rw [MediaCommand.pressed, h.1]
  rfl

theorem accepted_ok (c : Command) : accepted [.returned c espOk] = [c] := rfl

theorem pressed_release (s : MediaSys) (c : Command) (err : EspErr) :
    pressed [s.inputSet c 0 err] = [] := rfl

theorem pressed_press (s : MediaSys) {c : Command} (err : EspErr)
    (hbit : mediaKeyToReportBit c.key ≠ 0) :
    pressed [s.inputSet c (mediaKeyToReportBit c.key) err] =
      if err = espOk then [c] else [] := by
  by_cases he : err = espOk <;>
    simp [pressed, reports, MediaSys.inputSet, Report.Pressed, hbit, he]

/-! ## Only valid keys travel -/

/-- Every key past the check of `media_controller_send` has a report bit. -/
structure KeysValid (s : MediaSys) : Prop where
  senders : ∀ snd ∈ s.senders, snd.next = .enqueue → mediaKeyToReportBit snd.key ≠ 0
  pending : ∀ c ∈ s.pending, mediaKeyToReportBit c.key ≠ 0

/-- The task moves the queue and itself, nothing else, and never makes a queue. -/
theorem mediaCommandTask_frame (s : MediaSys) (r : TaskReply) :
    ∃ q t, (mediaCommandTask s r).1 = { s with sCommandQueue := q, task := t } ∧
      (q = none ↔ s.sCommandQueue = none) := by
  rw [mediaCommandTask]
  split
  case h_1 =>
      split
      · exact ⟨_, _, rfl, Iff.rfl⟩
      · rename_i q hq
        split
        · exact ⟨_, _, rfl, Iff.rfl⟩
        · refine ⟨_, _, rfl, ?_⟩
          rw [hq]
          exact iff_of_false (Option.some_ne_none _) (Option.some_ne_none _)
  case h_4 => split <;> exact ⟨_, _, rfl, Iff.rfl⟩
  all_goals exact ⟨_, _, rfl, Iff.rfl⟩

/-- A sender after a step was there before, is new, or has passed one test. -/
theorem mem_senders_step {s s' : MediaSys} {l : MediaLab} {es : List MediaEv}
    (h : media.step s l = some (s', es)) {snd' : Sender} (hmem : snd' ∈ s'.senders) :
    snd' ∈ s.senders ∨ snd'.next = .testReady ∨
      ∃ snd ∈ s.senders, snd'.key = snd.key ∧ snd'.next.Guard s snd.key ∧
        snd'.next.prev = snd.next := by
  cases l with
  | event e =>
      obtain ⟨rfl, -⟩ := event_inv h
      exact .inl hmem
  | callback t err =>
      obtain ⟨_, _, heq⟩ := Option.map_eq_some_iff.mp h
      obtain ⟨rfl, rfl⟩ := Prod.mk.inj heq
      exact .inl hmem
  | send key =>
      obtain ⟨rfl, rfl⟩ := Prod.mk.inj (Option.some.inj h)
      rcases List.mem_append.mp hmem with h1 | h1
      · exact .inl h1
      · obtain rfl := List.mem_singleton.mp h1
        exact .inr (.inl rfl)
  | sender i =>
      obtain ⟨snd, s₁, next, hsnd, hsend, rfl⟩ := sender_inv h
      rcases mediaControllerSend_cases hsend with
        ⟨-, -, n, rfl, hguard, hprev⟩ | ⟨-, rfl, -⟩ | ⟨-, -, -, -, -, -, rfl, -⟩
      · rcases List.mem_or_eq_of_mem_set hmem with h1 | rfl
        · exact .inl h1
        · exact .inr (.inr ⟨snd, hsnd, rfl, hguard, hprev⟩)
      · exact .inl (List.mem_of_mem_eraseIdx hmem)
      · exact .inl (List.mem_of_mem_eraseIdx hmem)
  | task r =>
      obtain ⟨q, t, hframe, -⟩ := mediaCommandTask_frame s r
      rw [show mediaCommandTask s r = (s', es) from Option.some.inj h] at hframe
      obtain rfl : s' = _ := hframe
      exact .inl hmem

theorem keysValid_step {s s' : MediaSys} {l : MediaLab} {es : List MediaEv}
    (hi : KeysValid s) (h : media.step s l = some (s', es)) : KeysValid s' where
  senders := by
    intro snd' hmem hnext
    rcases mem_senders_step h hmem with h1 | h1 | ⟨snd, -, hkey, hguard, -⟩
    · exact hi.senders snd' h1 hnext
    · exact nomatch h1.symm.trans hnext
    · rw [hnext] at hguard
      rw [hkey]
      exact hguard
  pending := by
    intro c hc
    cases media_move h with
    | link hpend _ _ => exact hi.pending c (hpend ▸ hc)
    | refuse _ _ _ hpend _ _ => exact hi.pending c (hpend ▸ hc)
    | accept snd hsnd hnext hpend _ _ =>
        rw [hpend] at hc
        rcases List.mem_append.mp hc with h1 | h1
        · exact hi.pending c h1
        · obtain rfl := List.mem_singleton.mp h1
          exact hi.senders snd hsnd hnext
    | drop d _ hpend _ _ _ => exact hi.pending c (hpend ▸ List.mem_cons_of_mem d hc)
    | press d _ _ hpend _ _ _ => exact hi.pending c (hpend ▸ List.mem_cons_of_mem d hc)
    | release _ _ _ _ hpend _ _ => exact hi.pending c (hpend ▸ hc)

theorem start_pending {s : MediaSys} (h : media.start s) : s.pending = [] := by
  obtain ⟨hq, htask, -⟩ := h
  rw [MediaSys.pending, htask, MediaSys.queued]
  cases hc : s.sCommandQueue with
  | none => rfl
  | some q => exact hq q hc

theorem keysValid_start {s : MediaSys} (h : media.start s) : KeysValid s where
  senders := by
    intro snd hmem
    rw [h.2.2.1] at hmem
    exact nomatch hmem
  pending := by
    intro c hc
    rw [start_pending h] at hc
    exact nomatch hc

/-! ## The report stream -/

/-- A press report: the one bit of the command's key. -/
structure Report.IsPress (r : Report) : Prop where
  data     : r.data = mediaKeyToReportBit r.command.key
  oneBit   : ∃ i < 7, r.data.toNat = 2 ^ i
  mapIndex : r.mapIndex = mediaReportMapIndex
  reportId : r.reportId = mediaReportId

/-- A release report: no bit. -/
structure Report.IsRelease (r : Report) : Prop where
  data     : r.data = 0
  mapIndex : r.mapIndex = mediaReportMapIndex
  reportId : r.reportId = mediaReportId

/-- The streams that the task can submit, and the command whose key the stream
    leaves down. -/
inductive Stream : List Report → Option Command → Prop where
  | nil : Stream [] none
  | refused {rs : List Report} {r : Report} : Stream rs none → r.IsPress → r.err ≠ espOk →
      Stream (rs ++ [r]) none
  | pressed {rs : List Report} {r : Report} : Stream rs none → r.IsPress → r.err = espOk →
      Stream (rs ++ [r]) (some r.command)
  | released {rs : List Report} {r : Report} {c : Command} : Stream rs (some c) →
      r.IsRelease → r.command = c → Stream (rs ++ [r]) none

theorem Stream.press_or_release {rs : List Report} {d : Option Command}
    (h : Stream rs d) : ∀ r ∈ rs, r.IsPress ∨ r.IsRelease := by
  induction h with
  | nil => intro r hr; exact nomatch hr
  | refused _ hp _ ih | pressed _ hp _ ih =>
      intro r hr
      rcases List.mem_append.mp hr with h1 | h1
      · exact ih r h1
      · obtain rfl := List.mem_singleton.mp h1
        exact .inl hp
  | released _ hp _ ih =>
      intro r hr
      rcases List.mem_append.mp hr with h1 | h1
      · exact ih r h1
      · obtain rfl := List.mem_singleton.mp h1
        exact .inr hp

/-- A report of a longer stream is the last one, or was there before. -/
theorem split_snoc {rs pre post : List Report} {r x : Report}
    (h : rs ++ [r] = pre ++ x :: post) :
    (post = [] ∧ x = r) ∨ ∃ post', post = post' ++ [r] ∧ rs = pre ++ x :: post' := by
  rcases List.eq_nil_or_concat post with rfl | ⟨post', y, rfl⟩
  · obtain ⟨-, hr⟩ := List.append_inj' h rfl
    exact .inl ⟨rfl, (List.cons.inj hr).1.symm⟩
  · rw [List.concat_eq_append, ← List.cons_append, ← List.append_assoc] at h
    obtain ⟨hrs, hr⟩ := List.append_inj' h rfl
    obtain rfl := (List.cons.inj hr).1
    exact .inr ⟨post', List.concat_eq_append, hrs⟩

/-- In a stream, what follows a successful press is a release, unless the press
    is the last report and its key is still down. -/
theorem Stream.followed {rs : List Report} {d : Option Command} (h : Stream rs d)
    {pre post : List Report} {x : Report} (hrs : rs = pre ++ x :: post) (hx : x.Pressed) :
    (post = [] ∧ d = some x.command) ∨ ∃ y post', post = y :: post' ∧ y.IsRelease := by
  induction h generalizing post with
  | nil => exact absurd hrs.symm (List.append_ne_nil_of_right_ne_nil _ (by simp))
  | refused _ hp he ih =>
      rcases split_snoc hrs with ⟨rfl, rfl⟩ | ⟨post', rfl, hpre⟩
      · exact absurd hx.2 he
      · rcases ih hpre with ⟨-, hd⟩ | ⟨y, rest, rfl, hy⟩
        · exact nomatch hd
        · exact .inr ⟨y, _, rfl, hy⟩
  | pressed _ hp he ih =>
      rcases split_snoc hrs with ⟨rfl, rfl⟩ | ⟨post', rfl, hpre⟩
      · exact .inl ⟨rfl, rfl⟩
      · rcases ih hpre with ⟨-, hd⟩ | ⟨y, rest, rfl, hy⟩
        · exact nomatch hd
        · exact .inr ⟨y, _, rfl, hy⟩
  | released _ hp _ ih =>
      rcases split_snoc hrs with ⟨rfl, rfl⟩ | ⟨post', rfl, hpre⟩
      · exact absurd hp.data hx.1
      · rcases ih hpre with ⟨rfl, -⟩ | ⟨y, rest, rfl, hy⟩
        · exact .inr ⟨_, [], rfl, hp⟩
        · exact .inr ⟨y, _, rfl, hy⟩

theorem stream_step {s s' : MediaSys} {l : MediaLab} {tr es : List MediaEv}
    (hk : KeysValid s) (hi : Stream (reports tr) s.task.down) (h : Move s l s' es) :
    Stream (reports (tr ++ es)) s'.task.down := by
  rw [reports_append]
  cases h with
  | link _ hdown _ => rw [hdown]; simpa [reports] using hi
  | refuse _ _ _ _ hdown _ => rw [hdown]; simpa [reports] using hi
  | accept _ _ _ _ hdown _ => rw [hdown]; simpa [reports] using hi
  | drop _ _ _ hdown hdown' _ => rw [hdown']; rw [hdown] at hi; simpa [reports] using hi
  | press c r _ hpend hdown hdown' _ =>
      rw [hdown] at hi
      rw [hdown']
      have hbit : mediaKeyToReportBit c.key ≠ 0 :=
        hk.pending c (hpend ▸ List.mem_cons_self)
      have hp : Report.IsPress ⟨c, mediaReportMapIndex, mediaReportId,
          mediaKeyToReportBit c.key, r.err, s.connUp⟩ :=
        ⟨rfl, mediaKeyToReportBit_one_bit c.key hbit, rfl, rfl⟩
      by_cases he : r.err = espOk
      · rw [if_pos he]
        exact hi.pressed hp he
      · rw [if_neg he]
        exact hi.refused hp he
  | release c r _ htask _ htask' _ =>
      rw [htask] at hi
      rw [htask']
      exact hi.released ⟨rfl, rfl, rfl⟩ rfl

theorem stream {s₀ s : MediaSys} {ls : List MediaLab} {tr : List MediaEv}
    (h0 : media.start s₀) (h : Run media s₀ ls s tr) : Stream (reports tr) s.task.down := by
  have hstart : s₀.task.down = none := by rw [h0.2.1]; rfl
  refine (h.invariant (P := fun s tr => KeysValid s ∧ Stream (reports tr) s.task.down)
    ⟨keysValid_start h0, by rw [hstart]; exact .nil⟩ ?_).2
  intro s tr l s' es hi hs
  exact ⟨keysValid_step hi.1 hs, stream_step hi.1 hi.2 (media_move hs)⟩

/-! ## The channel from accepted to pressed keys -/

/-- The media controller as a channel: accepted, on the way, pressed. -/
def channelOf (s : MediaSys) (tr : List MediaEv) : Channel Command :=
  ⟨accepted tr, s.pending, pressed tr⟩

/-- A step that concerns no command on its way leaves the channel as it is. -/
theorem channelOf_silent {s s' : MediaSys} {tr es : List MediaEv} (hes : Silent es)
    (hpend : s'.pending = s.pending) : channelOf s' (tr ++ es) = channelOf s tr := by
  rw [channelOf, accepted_append, pressed_append, hes.2, hes.pressed, hpend,
    List.append_nil, List.append_nil]
  rfl

open Relation in
/-- **One step refines the channel**: an acceptance is a send, a successful
    press a delivery, a dropped or refused command a loss. -/
theorem channelOf_step {s s' : MediaSys} {l : MediaLab} {es : List MediaEv}
    (tr : List MediaEv) (hk : KeysValid s) (h : Move s l s' es) :
    ReflTransGen Channel.Step (channelOf s tr) (channelOf s' (tr ++ es)) := by
  cases h with
  | link hpend _ _ => rw [channelOf_silent ⟨rfl, rfl⟩ hpend]
  | refuse c err herr hpend _ _ => rw [channelOf_silent (silent_refused herr) hpend]
  | accept snd _ _ hpend _ _ =>
      refine .single ?_
      rw [channelOf, channelOf, accepted_append, pressed_append, hpend, accepted_ok,
        show pressed [MediaEv.returned ⟨snd.key, s.connUp⟩ espOk] = [] from rfl,
        List.append_nil]
      exact .send _ _ _ _
  | drop c _ hpend _ _ _ =>
      refine .single ?_
      rw [channelOf, channelOf, hpend, List.append_nil]
      exact .lose _ _ _ _
  | press c r _ hpend _ _ _ =>
      refine .single ?_
      have hbit : mediaKeyToReportBit c.key ≠ 0 :=
        hk.pending c (hpend ▸ List.mem_cons_self)
      rw [channelOf, channelOf, accepted_append, pressed_append, pressed_press s _ hbit,
        hpend, show accepted [s.inputSet c (mediaKeyToReportBit c.key) r.err] = [] from rfl,
        List.append_nil]
      by_cases he : r.err = espOk
      · rw [if_pos he]
        exact .deliver _ _ _ _
      · rw [if_neg he, List.append_nil]
        exact .lose _ _ _ _
  | release c r _ _ hpend _ _ =>
      rw [channelOf, channelOf, accepted_append, pressed_append, pressed_release, hpend,
        show accepted [s.inputSet c 0 r.err] = [] from rfl, List.append_nil, List.append_nil]

theorem pressed_sublist {s₀ s : MediaSys} {ls : List MediaLab} {tr : List MediaEv}
    (h0 : media.start s₀) (h : Run media s₀ ls s tr) :
    (pressed tr).Sublist (accepted tr) := by
  have hfresh : channelOf s₀ [] = Channel.fresh := by
    rw [channelOf, start_pending h0]
    rfl
  have hsim := h.simulates (I := fun s _ => KeysValid s) (keysValid_start h0)
    (fun _ _ _ _ _ hi hs => keysValid_step hi hs)
    (fun s tr l s' es hi hs => channelOf_step tr hi (media_move hs))
  rw [hfresh] at hsim
  exact Channel.delivered_sublist hsim

/-! ## A connection that stays up -/

/-- The step ends no connection, and the stack takes what the task submits. -/
def StaysUp (s : MediaSys) (l : MediaLab) : Prop :=
  writesConnected s l ≠ some false ∧ l.reply.devConnected = true ∧ l.reply.err = espOk

instance (s : MediaSys) (l : MediaLab) : Decidable (StaysUp s l) :=
  inferInstanceAs (Decidable (_ ∧ _ ∧ _))

/-- What a sender at a step has already found. -/
def SendStep.Sound (s : MediaSys) : SendStep → Prop
  | .testReady | .testConnected => True
  | .testDevice => s.flags.sConnected = true
  | .testQueue | .enqueue => s.flags.sConnected = true ∧ s.sHidDevice = true

/-- Whoever has tested the connection, and every command on its way, still
    finds it up. -/
structure LinkSound (s : MediaSys) : Prop where
  senders : ∀ snd ∈ s.senders, snd.next.Sound s
  pending : s.pending ≠ [] → s.flags.sConnected = true ∧ s.sHidDevice = true

theorem SendStep.Sound.of_guard {s : MediaSys} {key : MediaControlKey} {n : SendStep}
    (hprev : n.prev.Sound s) (hguard : n.Guard s key) : n.Sound s := by
  cases n with
  | testReady | testConnected => trivial
  | testDevice => exact hguard
  | testQueue => exact ⟨hprev, hguard⟩
  | enqueue => exact hprev

theorem SendStep.Sound.mono {s s' : MediaSys} {n : SendStep} (h : n.Sound s)
    (hconn : s.flags.sConnected = true → s'.flags.sConnected = true)
    (hdev : s'.sHidDevice = s.sHidDevice) : n.Sound s' := by
  cases n with
  | testReady | testConnected => trivial
  | testDevice => exact hconn h
  | testQueue | enqueue => exact ⟨hconn h.1, hdev.trans h.2⟩

theorem sHidDevice_step {s s' : MediaSys} {l : MediaLab} {es : List MediaEv}
    (h : media.step s l = some (s', es)) : s'.sHidDevice = s.sHidDevice := by
  cases l with
  | event e =>
      obtain ⟨rfl, -⟩ := event_inv h
      rfl
  | callback t err =>
      obtain ⟨_, _, heq⟩ := Option.map_eq_some_iff.mp h
      obtain ⟨rfl, -⟩ := Prod.mk.inj heq
      rfl
  | send key =>
      obtain ⟨rfl, -⟩ := Prod.mk.inj (Option.some.inj h)
      rfl
  | sender i =>
      obtain ⟨snd, s₁, next, -, hsend, rfl⟩ := sender_inv h
      rcases mediaControllerSend_cases hsend with
        ⟨rfl, -⟩ | ⟨rfl, -⟩ | ⟨-, -, -, -, -, rfl, -⟩ <;> rfl
  | task r =>
      obtain ⟨q, t, hframe, -⟩ := mediaCommandTask_frame s r
      rw [show mediaCommandTask s r = (s', es) from Option.some.inj h] at hframe
      obtain rfl : s' = _ := hframe
      rfl

theorem connUp_eq_some {s : MediaSys} {k : Nat} :
    s.connUp = some k ↔ s.flags.sConnected = true ∧ s.connections = k := by
  rw [MediaSys.connUp]
  cases s.flags.sConnected <;> simp

/-- A connection that is up stays up unless the step writes false. -/
theorem connected_step {s s' : MediaSys} {l : MediaLab} {es : List MediaEv}
    (h : Move s l s' es) (hup : writesConnected s l ≠ some false)
    (hc : s.flags.sConnected = true) :
    s'.flags.sConnected = true := by
  have hsome : s.connUp = some s.connections := connUp_eq_some.mpr ⟨hc, rfl⟩
  have key : s'.connUp = s.connUp → s'.flags.sConnected = true := by
    intro heq
    exact (connUp_eq_some.mp (heq.trans hsome)).1
  cases h with
  | link _ _ h =>
      rcases h with h1 | ⟨-, h1⟩ | ⟨h1, -⟩
      · exact key h1
      · exact absurd h1 hup
      · exact h1
  | refuse _ _ _ _ _ h => exact key h
  | accept _ _ _ _ _ h => exact key h
  | drop _ _ _ _ _ h => exact key h
  | press _ _ _ _ _ _ h => exact key h
  | release _ _ _ _ _ _ h => exact key h

theorem linkSound_step {s s' : MediaSys} {l : MediaLab} {es : List MediaEv}
    (hi : LinkSound s) (hup : StaysUp s l) (h : media.step s l = some (s', es)) :
    LinkSound s' := by
  have hmove := media_move h
  have hdev := sHidDevice_step h
  have hconn := connected_step hmove hup.1
  constructor
  case senders =>
      intro snd' hmem
      rcases mem_senders_step h hmem with h1 | h1 | ⟨snd, h1, -, hguard, hprev⟩
      · exact (hi.senders snd' h1).mono hconn hdev
      · rw [h1]; trivial
      · have hsound : snd'.next.prev.Sound s := hprev ▸ hi.senders snd h1
        exact (hsound.of_guard hguard).mono hconn hdev
  case pending =>
      intro hne
      have key : s.flags.sConnected = true ∧ s.sHidDevice = true →
          s'.flags.sConnected = true ∧ s'.sHidDevice = true :=
        fun hs => ⟨hconn hs.1, hdev.trans hs.2⟩
      cases hmove with
      | link hpend _ _ => exact key (hi.pending (hpend ▸ hne))
      | refuse _ _ _ hpend _ _ => exact key (hi.pending (hpend ▸ hne))
      | accept snd hsnd hnext _ _ _ =>
          have hsound := hi.senders snd hsnd
          rw [hnext] at hsound
          exact key hsound
      | drop c _ hpend _ _ _ => exact key (hi.pending (by rw [hpend]; simp))
      | press c _ _ hpend _ _ _ => exact key (hi.pending (by rw [hpend]; simp))
      | release _ _ _ _ hpend _ _ => exact key (hi.pending (hpend ▸ hne))

/-- Where the connection stays up, no step loses a command. -/
theorem lossless_step {s s' : MediaSys} {l : MediaLab} {tr es : List MediaEv}
    (hk : KeysValid s) (hi : LinkSound s) (hup : StaysUp s l)
    (hloss : (channelOf s tr).Lossless) (h : Move s l s' es) :
    (channelOf s' (tr ++ es)).Lossless := by
  cases h with
  | link hpend _ _ => rwa [channelOf_silent ⟨rfl, rfl⟩ hpend]
  | refuse c err herr hpend _ _ => rwa [channelOf_silent (silent_refused herr) hpend]
  | accept snd _ _ hpend _ _ =>
      rw [channelOf, accepted_append, pressed_append, hpend, accepted_ok,
        show pressed [MediaEv.returned ⟨snd.key, s.connUp⟩ espOk] = [] from rfl,
        List.append_nil]
      exact hloss.send _
  | drop c hwhy hpend hdown _ _ =>
      have hmem : c ∈ s.pending := hpend ▸ List.mem_cons_self
      have hlink := hi.pending (List.ne_nil_of_mem hmem)
      rcases hwhy with h1 | h1 | h1 | h1
      · exact absurd (h1.symm.trans hlink.1) Bool.false_ne_true
      · exact absurd (h1.symm.trans hlink.2) Bool.false_ne_true
      · exact absurd (h1.symm.trans hup.2.1) Bool.false_ne_true
      · exact absurd h1 (hk.pending c hmem)
  | press c r hl hpend _ _ _ =>
      have hbit : mediaKeyToReportBit c.key ≠ 0 :=
        hk.pending c (hpend ▸ List.mem_cons_self)
      have hok : r.err = espOk := by
        rw [hl] at hup
        exact hup.2.2
      rw [channelOf, accepted_append, pressed_append, pressed_press s _ hbit,
        show accepted [s.inputSet c (mediaKeyToReportBit c.key) r.err] = [] from rfl,
        List.append_nil, if_pos hok]
      rw [channelOf, hpend] at hloss
      exact hloss.deliver
  | release c r _ _ hpend _ _ =>
      rwa [channelOf, accepted_append, pressed_append, pressed_release, hpend,
        show accepted [s.inputSet c 0 r.err] = [] from rfl, List.append_nil, List.append_nil]

theorem lossless_of_staysUp {s₀ s : MediaSys} {ls : List MediaLab} {tr : List MediaEv}
    (h0 : media.start s₀) (h : Run media s₀ ls s tr) (hup : Meets media s₀ StaysUp ls) :
    (channelOf s tr).Lossless := by
  have hsenders : LinkSound s₀ := by
    refine ⟨fun snd hmem => ?_, fun hne => absurd (start_pending h0) hne⟩
    rw [h0.2.2.1] at hmem
    exact nomatch hmem
  have hfirst : (channelOf s₀ []).Lossless := by
    rw [channelOf, start_pending h0]
    rfl
  refine (h.invariant_of_meets (C := StaysUp)
    (P := fun s tr => KeysValid s ∧ LinkSound s ∧ (channelOf s tr).Lossless)
    ⟨keysValid_start h0, hsenders, hfirst⟩ ?_ hup).2.2
  intro s tr l s' es hi hC hs
  exact ⟨keysValid_step hi.1 hs, linkSound_step hi.2.1 hC hs,
    lossless_step hi.1 hi.2.1 hC hi.2.2 (media_move hs)⟩

/-- **The HID stream.**  In every run: each report is a press with the one bit
    of its key or a release with no bit; a successful press is followed by a
    release before anything else, unless it is the last report and the task is
    about to release its key; the pressed commands are a subsequence of the
    accepted ones; and where the connection stays up, they are all of them once
    none is left on the way. -/
theorem hid_stream_refines {s₀ s : MediaSys} {ls : List MediaLab} {tr : List MediaEv}
    (h0 : media.start s₀) (h : Run media s₀ ls s tr) :
    (∀ r ∈ reports tr, r.IsPress ∨ r.IsRelease) ∧
      (∀ pre r post, reports tr = pre ++ r :: post → r.Pressed →
        (post = [] ∧ s.task.down = some r.command) ∨
          ∃ y post', post = y :: post' ∧ y.IsRelease) ∧
      (pressed tr).Sublist (accepted tr) ∧
      (Meets media s₀ StaysUp ls → s.pending = [] → pressed tr = accepted tr) := by
  refine ⟨(stream h0 h).press_or_release, ?_, pressed_sublist h0 h, ?_⟩
  · intro pre r post hrs hr
    exact (stream h0 h).followed hrs hr
  · intro hup hdrained
    exact (lossless_of_staysUp h0 h hup).eq_of_drained hdrained

/-- A host connected, nothing queued. -/
def connectedSys : MediaSys where
  callbacks := ⟨⟨true, true, true, true, false⟩, [], []⟩
  sHidDevice := true
  sCommandQueue := some .empty
  task := .receive
  senders := []
  connections := 1

theorem connectedSys_start : media.start connectedSys := by
  refine ⟨fun q hq => ?_, rfl, rfl, rfl, rfl⟩
  obtain rfl := Option.some.inj hq
  rfl

/-- One key sent, pressed and released. -/
def oneKey : List MediaLab :=
  .send .volumeUp :: List.replicate 5 (.sender 0) ++ List.replicate 7 (.task {})

def oneKeyTrace : List MediaEv :=
  [.returned ⟨.volumeUp, some 1⟩ espOk,
    .inputSet ⟨⟨.volumeUp, some 1⟩, 0, 1, mediaBitVolumeUp, espOk, some 1⟩,
    .inputSet ⟨⟨.volumeUp, some 1⟩, 0, 1, 0, espOk, some 1⟩]

theorem hid_stream_refines_at :
    (∀ r ∈ reports oneKeyTrace, r.IsPress ∨ r.IsRelease) ∧
      (∀ pre r post, reports oneKeyTrace = pre ++ r :: post → r.Pressed →
        (post = [] ∧ connectedSys.task.down = some r.command) ∨
          ∃ y post', post = y :: post' ∧ y.IsRelease) ∧
      (pressed oneKeyTrace).Sublist (accepted oneKeyTrace) ∧
      pressed oneKeyTrace = accepted oneKeyTrace := by
  have hrun : Run media connectedSys oneKey connectedSys oneKeyTrace := run_of_exec rfl
  obtain ⟨h1, h2, h3, h4⟩ := hid_stream_refines connectedSys_start hrun
  exact ⟨h1, h2, h3, h4 (meets_of_checks rfl) rfl⟩

/-! ## What the host is left with -/

/-- The last report that the host of a connection received. -/
def lastDelivered (conn : Option Nat) (tr : List MediaEv) : Option UInt8 :=
  ((reports tr).filter (fun r => r.err = espOk ∧ r.conn = conn)).getLast?.map (·.data)

/-- The host holds no key: it last received a release, or nothing. -/
def NoKeyHeld (s : MediaSys) (tr : List MediaEv) : Prop :=
  lastDelivered s.connUp tr = none ∨ lastDelivered s.connUp tr = some 0

/-- The step leaves `s_connected` alone. -/
def KeepsConnection (s : MediaSys) (l : MediaLab) : Prop := writesConnected s l = none

instance (s : MediaSys) (l : MediaLab) : Decidable (KeepsConnection s l) :=
  inferInstanceAs (Decidable (_ = _))

/-- A step that submits a release report has it taken by the stack. -/
def ReleaseTaken (s : MediaSys) (l : MediaLab) : Prop :=
  ∀ c, s.task = .release c → l.reply.err = espOk

theorem connUp_kept {s s' : MediaSys} {l : MediaLab} {es : List MediaEv}
    (h : Move s l s' es) (hkeep : KeepsConnection s l) : s'.connUp = s.connUp := by
  cases h with
  | link _ _ h =>
      rcases h with h1 | ⟨-, h1⟩ | ⟨-, h1⟩
      · exact h1
      · exact nomatch hkeep.symm.trans h1
      · exact nomatch hkeep.symm.trans h1
  | refuse _ _ _ _ _ h => exact h
  | accept _ _ _ _ _ h => exact h
  | drop _ _ _ _ _ h => exact h
  | press _ _ _ _ _ _ h => exact h
  | release _ _ _ _ _ _ h => exact h

theorem lastDelivered_silent {conn : Option Nat} {tr es : List MediaEv}
    (h : reports es = []) : lastDelivered conn (tr ++ es) = lastDelivered conn tr := by
  rw [lastDelivered, reports_append, h, List.append_nil]
  rfl

/-- A report submitted on the connection that is up replaces the last one if
    the stack takes it. -/
theorem lastDelivered_inputSet (s : MediaSys) (c : Command) (data : UInt8) (err : EspErr)
    (tr : List MediaEv) :
    lastDelivered s.connUp (tr ++ [s.inputSet c data err]) =
      if err = espOk then some data else lastDelivered s.connUp tr := by
  by_cases he : err = espOk <;>
    simp [lastDelivered, reports, MediaSys.inputSet, he]

/-- While a key is down the host has its press; otherwise it holds no key. -/
def HostInStep (s : MediaSys) (tr : List MediaEv) : Prop :=
  match s.task.down with
  | some c => lastDelivered s.connUp tr = some (mediaKeyToReportBit c.key) ∧
      mediaKeyToReportBit c.key ≠ 0
  | none => NoKeyHeld s tr

theorem hostInStep_step {s s' : MediaSys} {l : MediaLab} {tr es : List MediaEv}
    (hk : KeysValid s) (hi : HostInStep s tr) (hkeep : KeepsConnection s l)
    (htaken : ReleaseTaken s l) (h : Move s l s' es) : HostInStep s' (tr ++ es) := by
  have hup := connUp_kept h hkeep
  have quiet : s'.task.down = s.task.down → reports es = [] → HostInStep s' (tr ++ es) := by
    intro hdown hes
    rw [HostInStep, NoKeyHeld, hdown, hup, lastDelivered_silent hes]
    exact hi
  cases h with
  | link _ hdown _ => exact quiet hdown rfl
  | refuse _ _ _ _ hdown _ => exact quiet hdown rfl
  | accept _ _ _ _ hdown _ => exact quiet hdown rfl
  | drop _ _ _ hdown hdown' _ => exact quiet (hdown'.trans hdown.symm) rfl
  | press c r _ hpend hdown hdown' _ =>
      rw [HostInStep, hdown] at hi
      have hbit : mediaKeyToReportBit c.key ≠ 0 :=
        hk.pending c (hpend ▸ List.mem_cons_self)
      rw [HostInStep, NoKeyHeld, hdown', hup, lastDelivered_inputSet]
      by_cases he : r.err = espOk
      · rw [if_pos he, if_pos he]
        exact ⟨rfl, hbit⟩
      · rw [if_neg he, if_neg he]
        exact hi
  | release c r hl htask _ htask' _ =>
      have hok : r.err = espOk := by
        have := htaken c htask
        rwa [hl] at this
      rw [HostInStep, htask', NoKeyHeld, hup, lastDelivered_inputSet, if_pos hok]
      exact .inr rfl

/-- **No stuck key.**  On one continuing connection: whenever the task is back
    waiting on the queue, the last report delivered to the host is a release or
    none, if and only if the stack took every release report. -/
theorem released_when_waiting_iff {s₀ s : MediaSys} {ls : List MediaLab}
    {tr : List MediaEv} (h0 : media.start s₀) (h : Run media s₀ ls s tr)
    (hkeep : Meets media s₀ KeepsConnection ls) :
    Always media s₀ (fun s tr => s.task = .receive → NoKeyHeld s tr) ls ↔
      Meets media s₀ ReleaseTaken ls := by
  refine always_iff_meets_within (P := fun s tr => KeysValid s ∧ HostInStep s tr)
    ⟨keysValid_start h0, ?_⟩ ?_ ?_ ?_ h hkeep
  · rw [HostInStep, h0.2.1]
    exact .inl rfl
  · intro s tr hP htask
    have hi := hP.2
    rw [HostInStep, htask] at hi
    exact hi
  · intro s tr l s' es hP hD hC hs
    exact ⟨keysValid_step hP.1 hs, hostInStep_step hP.1 hP.2 hD hC (media_move hs)⟩
  · intro s tr l s' es hP hD hs hwait c htask
    by_contra herr
    cases l with
    | task r =>
        -- the press stays the last report the host received
        have hstep : mediaCommandTask s r = (s', es) := Option.some.inj hs
        rw [mediaCommandTask, htask] at hstep
        obtain ⟨rfl, rfl⟩ := Prod.mk.inj hstep
        have hfail : r.err ≠ espOk := herr
        have hheld := hwait rfl
        rw [NoKeyHeld, connUp_kept (media_move hs) hD, lastDelivered_inputSet,
          if_neg hfail] at hheld
        have hdown := hP.2
        rw [HostInStep, htask] at hdown
        rw [hdown.1] at hheld
        rcases hheld with h1 | h1
        · exact nomatch h1
        · exact hdown.2 (Option.some.inj h1)
    | event | callback | send | sender => exact herr rfl

/-- In the run of one key the release report is taken, and no key is held. -/
theorem released_when_waiting_iff_at :
    Meets media connectedSys ReleaseTaken oneKey ∧
      Always media connectedSys (fun s tr => s.task = .receive → NoKeyHeld s tr) oneKey := by
  have hrun : Run media connectedSys oneKey connectedSys oneKeyTrace := run_of_exec rfl
  have hreplies : ∀ l ∈ oneKey, l.reply.err = espOk := by decide
  have htaken : Meets media connectedSys ReleaseTaken oneKey :=
    meets_of_forall fun l hl _ _ _ => hreplies l hl
  exact ⟨htaken,
    (released_when_waiting_iff connectedSys_start hrun (meets_of_checks rfl)).mpr htaken⟩

/-- The press is delivered, the release fails, and the task waits for the next
    command. -/
theorem not_released_when_waiting :
    ¬ ∀ s₀ ls s tr, media.start s₀ → Run media s₀ ls s tr →
      Meets media s₀ KeepsConnection ls → s.task = .receive → NoKeyHeld s tr := by
  intro hall
  have hrun : exec media connectedSys
      (List.flatten [.send .volumeUp :: List.replicate 5 (.sender 0),
        List.replicate 6 (.task {}), [.task { err := espFail }]]) = some (connectedSys,
      [.returned ⟨.volumeUp, some 1⟩ espOk,
        .inputSet ⟨⟨.volumeUp, some 1⟩, 0, 1, mediaBitVolumeUp, espOk, some 1⟩,
        .inputSet ⟨⟨.volumeUp, some 1⟩, 0, 1, 0, espFail, some 1⟩]) := rfl
  rcases hall _ _ _ _ connectedSys_start (run_of_exec hrun) (meets_of_checks rfl) rfl with
    h1 | h1
  · exact nomatch h1
  · exact absurd h1 (by decide)

/-! ## Commands and connections -/

/-- The step begins a connection only while no command is on its way. -/
def ConnectsIdle (s : MediaSys) (l : MediaLab) : Prop :=
  writesConnected s l = some true → s.pending = []

instance (s : MediaSys) (l : MediaLab) : Decidable (ConnectsIdle s l) :=
  inferInstanceAs (Decidable (_ → _))

/-- What is on its way was accepted on the connection that is up. -/
def PendingOwn (s : MediaSys) : Prop :=
  ∀ c ∈ s.pending, ∀ k, s.connUp = some k → c.conn = some k

theorem pendingOwn_step {s s' : MediaSys} {l : MediaLab} {es : List MediaEv}
    (hi : PendingOwn s) (hidle : ConnectsIdle s l) (h : Move s l s' es) : PendingOwn s' := by
  intro c hc k hk
  cases h with
  | link hpend _ hup =>
      rw [hpend] at hc
      rcases hup with h1 | ⟨h1, -⟩ | ⟨-, h1⟩
      · exact hi c hc k (h1.symm.trans hk)
      · exact nomatch h1.symm.trans hk
      · rw [hidle h1] at hc
        exact nomatch hc
  | refuse _ _ _ hpend _ hup => exact hi c (hpend ▸ hc) k (hup.symm.trans hk)
  | accept snd _ _ hpend _ hup =>
      rw [hpend] at hc
      rcases List.mem_append.mp hc with h1 | h1
      · exact hi c h1 k (hup.symm.trans hk)
      · obtain rfl := List.mem_singleton.mp h1
        exact hup.symm.trans hk
  | drop d _ hpend _ _ hup =>
      exact hi c (hpend ▸ List.mem_cons_of_mem d hc) k (hup.symm.trans hk)
  | press d _ _ hpend _ _ hup =>
      exact hi c (hpend ▸ List.mem_cons_of_mem d hc) k (hup.symm.trans hk)
  | release _ _ _ _ hpend _ hup => exact hi c (hpend ▸ hc) k (hup.symm.trans hk)

/-- Every press submitted on a connection comes from a command accepted on it. -/
def PressesOwn (tr : List MediaEv) : Prop :=
  ∀ r ∈ reports tr, r.data ≠ 0 → ∀ k, r.conn = some k → r.command.conn = some k

theorem pressesOwn_step {s s' : MediaSys} {l : MediaLab} {tr es : List MediaEv}
    (hi : PendingOwn s) (hp : PressesOwn tr) (h : Move s l s' es) :
    PressesOwn (tr ++ es) := by
  intro r hr hdata k hk
  rw [reports_append] at hr
  rcases List.mem_append.mp hr with h1 | h1
  · exact hp r h1 hdata k hk
  · cases h with
    | link | refuse | accept | drop => exact nomatch h1
    | press c x _ hpend _ _ _ =>
        obtain rfl := List.mem_singleton.mp h1
        exact hi c (hpend ▸ List.mem_cons_self) k hk
    | release c x _ _ _ _ _ =>
        obtain rfl := List.mem_singleton.mp h1
        exact absurd rfl hdata

/-- **No cross-connection leak.**  If every CONNECT finds the queue empty and
    the task without a command it has yet to submit, each press submitted while
    a connection is up comes from a command accepted on that connection. -/
theorem pressed_on_own_connection {s₀ s : MediaSys} {ls : List MediaLab}
    {tr : List MediaEv} (h0 : media.start s₀) (h : Run media s₀ ls s tr)
    (hidle : Meets media s₀ ConnectsIdle ls) : PressesOwn tr := by
  have hstart : PendingOwn s₀ := by
    intro c hc
    rw [start_pending h0] at hc
    exact nomatch hc
  refine (h.invariant_of_meets (C := ConnectsIdle)
    (P := fun s tr => PendingOwn s ∧ PressesOwn tr)
    ⟨hstart, fun r hr => nomatch hr⟩ ?_ hidle).2
  intro s tr l s' es hP hC hs
  exact ⟨pendingOwn_step hP.1 hC (media_move hs), pressesOwn_step hP.1 hP.2 (media_move hs)⟩

/-- One key on one connection, then the host comes back. -/
theorem pressed_on_own_connection_at : PressesOwn oneKeyTrace := by
  have hrun : ∃ s, Run media connectedSys
      (List.flatten [oneKey,
        .event (.hidd .disconnect) :: List.replicate 8 (.callback .hidd espOk),
        .event (.hidd .connect) :: List.replicate 2 (.callback .hidd espOk)]) s
      oneKeyTrace := ⟨_, run_of_exec rfl⟩
  obtain ⟨s, hrun⟩ := hrun
  exact pressed_on_own_connection connectedSys_start hrun (meets_of_checks rfl)

/-- Two keys queued; the host goes and another one comes while the first is
    held; the second is pressed there. -/
theorem not_pressed_on_own_connection :
    ¬ ∀ s₀ ls s tr, media.start s₀ → Run media s₀ ls s tr → PressesOwn tr := by
  intro hall
  have hrun : ∃ s tr, exec media connectedSys
      (List.flatten [.send .volumeUp :: List.replicate 5 (.sender 0),
        .send .mute :: List.replicate 5 (.sender 0), List.replicate 5 (.task {}),
        .event (.hidd .disconnect) :: List.replicate 8 (.callback .hidd espOk),
        .event (.hidd .connect) :: List.replicate 2 (.callback .hidd espOk),
        List.replicate 7 (.task {})]) = some (s, tr) ∧
      ⟨⟨.mute, some 1⟩, 0, 1, mediaBitMute, espOk, some 2⟩ ∈ reports tr :=
    ⟨_, _, rfl, by decide⟩
  obtain ⟨s, tr, hexec, hmem⟩ := hrun
  have hown := hall _ _ _ _ connectedSys_start (run_of_exec hexec) _ hmem (by decide) 2 rfl
  exact absurd hown (by decide)

end MediaCommand
