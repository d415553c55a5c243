import KnobFirmware.EspErrProofs
import KnobFirmware.TaskPoolProofs
import Mathlib.Logic.Function.Basic

/-! # The audio workers — code of the three tasks and of the page that drives them

    Three worker tasks own the two I2S controllers by turns: the microphone
    meter (I2S0), the test tone (I2S1) and the loopback (both).  The UI task
    starts them and asks them to stop from the callbacks of the audio page and
    from `show_menu`; the loopback worker asks the other two to stop before it
    takes the controllers.  Nothing is locked.

    Each function of the source is the list of its accesses in source order: a
    read or a write of a shared variable, or a driver call, is one instruction
    and one atomic step.  A test is replaced by the branch it takes; a `goto
    cleanup` or a `return` jumps.  Reads that only feed a log line or the sample
    arithmetic are left out, and what the arithmetic writes into the meters is
    arbitrary.

    The number of a task stands for its handle, and a channel is a number in
    the order of creation; `channels` remembers which task created it. -/

namespace AudioTask

open EspErr StepMachine TaskPool

/-! ## The shared variables -/

/-- The three workers. -/
inductive Worker where
  | mic
  | dac
  | loopback
  deriving DecidableEq, Repr

/-- `mic_test_state_t`, `dac_test_state_t` and `loopback_test_state_t`; `waiting`
    is the loopback's WAITING_FOR_OTHER_AUDIO. -/
inductive TestState where
  | stopped
  | waiting
  | starting
  | running
  | stopping
  | error
  deriving DecidableEq, Repr

/-- The channel variables: `mic_rx_chan`, `dac_tx_chan`, `loopback_rx_chan` and
    `loopback_tx_chan`. -/
inductive Slot where
  | micRx
  | dacTx
  | loopbackRx
  | loopbackTx
  deriving DecidableEq, Repr

/-- The worker whose code uses a channel variable. -/
def Slot.owner : Slot → Worker
  | .micRx => .mic
  | .dacTx => .dac
  | .loopbackRx | .loopbackTx => .loopback

/-- The meters and controls that the workers publish and the page shows. -/
inductive Meter where
  | micLevelPercent
  | micRmsRaw
  | micDcRaw
  | micActiveSlot
  | micBlocksRead
  | dacBlocksWritten
  | dacControlReadback
  | loopbackBlocks
  | loopbackRms
  | loopbackOutputRms
  | loopbackDc
  | loopbackLevelPercent
  | loopbackClippedSamples
  | loopbackControlReadback
  | loopbackGainPercent
  | loopbackMuted
  deriving DecidableEq, Repr

/-- `menu_id_t`. -/
inductive MenuId where
  | main
  | mediaController
  | settings
  | display
  | audio
  | input
  | about
  | hardwareTests
  | hwDisplay
  | hwTouch
  | hwEncoder
  | hwBacklight
  | hwMemory
  | hwSd
  | hwHaptics
  | hwAudioMic
  | hwBattery
  | hwUnavailable
  deriving DecidableEq, Repr

/-- The control variables of one worker. -/
structure Diag where
  taskHandle    : Option Nat := none
  testState     : TestState := .stopped
  stopRequested : Bool := false
  lastError     : EspErr := espOk
  deriving DecidableEq, Repr

structure Shared where
  diag        : Worker → Diag
  chan        : Slot → Option Nat
  meter       : Meter → Int
  currentMenu : MenuId
  channels    : List Nat

/-- The variables as initialised. -/
def bootShared : Shared where
  diag := fun _ => {}
  chan := fun _ => none
  meter := fun
    | .dacControlReadback | .loopbackControlReadback => -1
    | .loopbackGainPercent => 50
    | _ => 0
  currentMenu := .main
  channels := []

namespace Shared

def handle (sh : Shared) (k : Worker) : Option Nat := (sh.diag k).taskHandle
def testState (sh : Shared) (k : Worker) : TestState := (sh.diag k).testState
def stopRequested (sh : Shared) (k : Worker) : Bool := (sh.diag k).stopRequested
def lastError (sh : Shared) (k : Worker) : EspErr := (sh.diag k).lastError

def setHandle (sh : Shared) (k : Worker) (h : Option Nat) : Shared :=
  { sh with diag := Function.update sh.diag k { sh.diag k with taskHandle := h } }

def setTestState (sh : Shared) (k : Worker) (st : TestState) : Shared :=
  { sh with diag := Function.update sh.diag k { sh.diag k with testState := st } }

def setStopRequested (sh : Shared) (k : Worker) (b : Bool) : Shared :=
  { sh with diag := Function.update sh.diag k { sh.diag k with stopRequested := b } }

def setLastError (sh : Shared) (k : Worker) (e : EspErr) : Shared :=
  { sh with diag := Function.update sh.diag k { sh.diag k with lastError := e } }

def setChan (sh : Shared) (s : Slot) (c : Option Nat) : Shared :=
  { sh with chan := Function.update sh.chan s c }

def setMeter (sh : Shared) (v : Meter) (x : Int) : Shared :=
  { sh with meter := Function.update sh.meter v x }

end Shared

/-! ## The instructions -/

/-- The tests for NULL that the loopback hand-off makes. -/
inductive Cond where
  | handle (k : Worker)
  | chan (s : Slot)
  deriving DecidableEq, Repr

def Cond.isNull (sh : Shared) : Cond → Bool
  | .handle k => (sh.handle k).isNone
  | .chan s => (sh.chan s).isNone

/-- A condition under which a start function returns ESP_ERR_INVALID_STATE. -/
inductive Guard where
  | handle (k : Worker)
  | state (k : Worker) (st : TestState)
  deriving DecidableEq, Repr

def Guard.holds (sh : Shared) : Guard → Bool
  | .handle k => (sh.handle k).isSome
  | .state k st => sh.testState k == st

/-- The calls on an open channel. -/
inductive ChanOp where
  | init
  | enable
  | read
  | write
  | disable
  | delete
  deriving DecidableEq, Repr

inductive Instr where
  /-- `xxx_test_state = st` -/
  | setState (k : Worker) (st : TestState)
  /-- `xxx_last_error = e` -/
  | setError (k : Worker) (e : EspErr)
  /-- `xxx_stop_requested = b` -/
  | setStop (k : Worker) (b : Bool)
  | setMeter (v : Meter) (x : Int)
  /-- A meter write whose value the driver or the samples decide. -/
  | publish (v : Meter)
  /-- `xxx_task_handle = NULL` -/
  | clearHandle (k : Worker)
  /-- `xxx_chan = NULL` -/
  | clearChan (s : Slot)
  /-- The handle test at the head of a `xxx_request_stop` function. -/
  | requestStop (k : Worker)
  /-- Its test of the state where there is no task. -/
  | stopUnlessError (k : Worker)
  /-- `if (...) return ESP_ERR_INVALID_STATE`, one condition of it. -/
  | rejectIf (g : Guard)
  /-- `xTaskCreate` of the worker. -/
  | create (k : Worker)
  /-- `gpio_config` or `gpio_set_level`. -/
  | gpio
  /-- `i2s_new_channel` into the variable. -/
  | newChannel (s : Slot)
  /-- The read of the variable for a driver call. -/
  | use (s : Slot) (op : ChanOp)
  /-- The driver call on the channel that was read. -/
  | call (s : Slot) (op : ChanOp) (c : Option Nat)
  /-- `while (!xxx_stop_requested)` -/
  | loop (k : Worker)
  /-- The wait of the loopback: the stop flag, then the four tests. -/
  | pollStop (n : Nat)
  | poll (cs : List Cond) (n : Nat)
  /-- `if (loopback_stop_requested) goto cleanup` -/
  | ifStopped
  /-- The four tests after the wait, one at a time. -/
  | recheck (cs : List Cond)
  /-- `if (xxx_chan != NULL)` of the cleanup. -/
  | ifOpen (s : Slot)
  /-- `if (xxx_test_state != ERROR)` of the cleanup. -/
  | settleUnlessError (k : Worker)
  /-- The test at the head of `show_menu`. -/
  | leaveAudio (menu : MenuId)
  | setMenu (menu : MenuId)
  /-- `loopback_muted = !loopback_muted`, its read. -/
  | toggleMute
  deriving DecidableEq, Repr

/-! ## The functions of the source -/

def maxWaitIterations : Nat := 100

/-- The conditions of the loopback's wait. -/
def busy : List Cond := [.handle .mic, .chan .micRx, .handle .dac, .chan .dacTx]

/-- The end of the cleanup of a worker. -/
def leave : Worker → List Instr
  | .mic =>
      [.setMeter .micLevelPercent 0, .setMeter .micRmsRaw 0, .setMeter .micDcRaw 0,
        .setMeter .micActiveSlot 0, .setStop .mic false, .clearHandle .mic]
  | .dac => [.setStop .dac false, .clearHandle .dac]
  | .loopback => [.setStop .loopback false, .clearHandle .loopback]

/-- The channels that the cleanup of a worker closes, in order. -/
def closes : Worker → List Instr
  | .mic => [.ifOpen .micRx]
  | .dac => [.ifOpen .dacTx]
  | .loopback => [.ifOpen .loopbackRx, .ifOpen .loopbackTx]

/-- The code at the label `cleanup` of a worker. -/
def cleanup (k : Worker) : List Instr := closes k ++ .settleUnlessError k :: leave k

/-- The body of the processing loop up to its first driver result. -/
def loopBody : Worker → List Instr
  | .mic => [.use .micRx .read]
  | .dac => [.use .dacTx .write, .publish .dacBlocksWritten]
  | .loopback => [.use .loopbackRx .read]

/-- The rest of the loop body after a successful read of `samples` samples. -/
def afterRead (samples : Nat) : Slot → List Instr
  | .micRx =>
      [.publish .micLevelPercent, .publish .micRmsRaw, .publish .micDcRaw,
        .publish .micActiveSlot, .publish .micBlocksRead]
  | .loopbackRx =>
      if samples = 0 then []
      else
        [.publish .loopbackDc, .publish .loopbackRms, .publish .loopbackOutputRms,
          .publish .loopbackLevelPercent, .publish .loopbackClippedSamples,
          .use .loopbackTx .write, .publish .loopbackBlocks]
  | .dacTx | .loopbackTx => []

def micCaptureTask : List Instr :=
  [.newChannel .micRx, .use .micRx .init, .use .micRx .enable, .setError .mic espOk,
    .setState .mic .running, .loop .mic] ++ cleanup .mic

def dacToneTask : List Instr :=
  [.setState .dac .starting, .setError .dac espOk, .setMeter .dacBlocksWritten 0,
    .setMeter .dacControlReadback (-1), .gpio, .gpio, .publish .dacControlReadback,
    .newChannel .dacTx, .use .dacTx .init, .use .dacTx .enable, .setState .dac .running,
    .loop .dac] ++ cleanup .dac

/-- `audio_loopback_task` once the controllers are free. -/
def loopbackSetup : List Instr :=
  [.setState .loopback .starting, .gpio, .gpio, .publish .loopbackControlReadback,
    .newChannel .loopbackTx, .use .loopbackTx .init, .newChannel .loopbackRx,
    .use .loopbackRx .init, .use .loopbackTx .enable, .use .loopbackRx .enable,
    .setState .loopback .running, .loop .loopback] ++ cleanup .loopback

/-- `audio_loopback_task` up to the tests after the wait. -/
def loopbackHandOff : List Instr :=
  [.setError .loopback espOk, .setMeter .loopbackBlocks 0, .setMeter .loopbackRms 0,
    .setMeter .loopbackOutputRms 0, .setMeter .loopbackDc 0,
    .setMeter .loopbackLevelPercent 0, .setMeter .loopbackClippedSamples 0,
    .setMeter .loopbackControlReadback (-1), .setState .loopback .waiting,
    .requestStop .mic, .requestStop .dac, .pollStop 0, .ifStopped]

def audioLoopbackTask : List Instr := loopbackHandOff ++ .recheck busy :: loopbackSetup

/-- The states in which the loopback excludes the other two. -/
def loopbackGuards : List Guard :=
  [.handle .loopback, .state .loopback .waiting, .state .loopback .starting,
    .state .loopback .running, .state .loopback .stopping]

/-- The conditions under which a start function refuses. -/
def startGuards : Worker → List Guard
  | .mic =>
      loopbackGuards ++ [.handle .mic, .state .mic .starting, .state .mic .running,
        .state .mic .stopping]
  | .dac =>
      loopbackGuards ++ [.handle .dac, .state .dac .starting, .state .dac .running,
        .state .dac .stopping]
  | .loopback => loopbackGuards

/-- What a start function sets before it creates the worker. -/
def startWrites : Worker → List Instr
  | .mic =>
      [.setStop .mic false, .setMeter .micLevelPercent 0, .setMeter .micRmsRaw 0,
        .setMeter .micDcRaw 0, .setMeter .micActiveSlot 0, .setMeter .micBlocksRead 0,
        .setError .mic espOk, .setState .mic .starting]
  | .dac => [.setStop .dac false, .setError .dac espOk, .setState .dac .starting]
  | .loopback =>
      [.setStop .loopback false, .setError .loopback espOk, .setMeter .loopbackBlocks 0,
        .setMeter .loopbackRms 0, .setMeter .loopbackOutputRms 0, .setMeter .loopbackDc 0,
        .setMeter .loopbackLevelPercent 0, .setMeter .loopbackClippedSamples 0,
        .setMeter .loopbackMuted 0, .setState .loopback .waiting]

/-- `mic_test_start`, `dac_tone_start` and `audio_loopback_start`. -/
def startCode (k : Worker) : List Instr :=
  (startGuards k).map .rejectIf ++ startWrites k ++ [.create k]

/-- The guard of `sd_card_mount`; what follows it touches no audio variable. -/
def sdCardMountGuards : List Guard :=
  [.handle .mic, .state .mic .running, .state .mic .starting, .state .mic .stopping]

def sdCardMount : List Instr := sdCardMountGuards.map .rejectIf

/-- `show_menu`, with the mount that the SD page's constructor makes. -/
def showMenu (menu : MenuId) : List Instr :=
  [.leaveAudio menu, .setMenu menu] ++ if menu = .hwSd then sdCardMount else []

/-- The callbacks of the UI task.  The page that a navigation ends on is up to
    the menu stack, which is not modelled. -/
inductive Callback where
  | start (k : Worker)
  | stop (k : Worker)
  | loopbackGainChanged (value : Int)
  | loopbackToggleMute
  | audioMicBack (menu : MenuId)
  | navigate (menu : MenuId)
  | sdMount
  deriving DecidableEq, Repr

/-- The page whose buttons call it; navigation is on every page. -/
def Callback.page : Callback → Option MenuId
  | .navigate _ => none
  | .sdMount => some .hwSd
  | _ => some .hwAudioMic

def Callback.code : Callback → List Instr
  | .start k => startCode k
  | .stop k => [.requestStop k]
  | .loopbackGainChanged value => [.setMeter .loopbackGainPercent (max 0 (min value 200))]
  | .loopbackToggleMute => [.toggleMute]
  | .audioMicBack menu =>
      [.requestStop .mic, .requestStop .dac, .requestStop .loopback] ++ showMenu menu
  | .navigate menu => showMenu menu
  | .sdMount => sdCardMount

/-! ## The meaning of an instruction -/

inductive Role where
  | ui
  | worker (k : Worker)
  deriving DecidableEq, Repr

/-- What the environment answers: a driver's result, the result of
    `xTaskCreate`, the samples read, the value a meter gets. -/
structure Reply where
  err     : EspErr := espOk
  created : Bool := true
  samples : Nat := 1
  value   : Int := 0
  deriving DecidableEq, Repr

inductive AudioEv where
  /-- The task opened a channel. -/
  | opened (c : Nat) (task : Nat)
  /-- The task made a driver call on a channel. -/
  | i2s (op : ChanOp) (c : Option Nat) (task : Nat)
  /-- A start function passed its guards. -/
  | started (k : Worker)
  /-- A worker has set ERROR, with this `last_error`. -/
  | failed (k : Worker) (e : EspErr)
  /-- A start function, or the guard of `sd_card_mount`, has a result. -/
  | returned (err : EspErr)
  deriving DecidableEq, Repr

/-- `last_error = e; test_state = ERROR; goto cleanup` of the running worker. -/
def failWith (e : EspErr) : Role → Next Instr
  | .worker k => .jump ([.setError k e, .setState k .error] ++ cleanup k)
  | .ui => .jump []

/-- What follows a driver call. -/
def afterCall (ρ : Role) (s : Slot) (r : Reply) : ChanOp → Next Instr
  | .init | .enable | .write => if r.err = espOk then .goOn [] else failWith r.err ρ
  | .read =>
      -- `continue`
      if r.err = espErrTimeout then .goOn []
      else if r.err = espOk then .goOn (afterRead r.samples s)
      else failWith r.err ρ
  -- the cleanup only logs the errors of these two
  | .disable | .delete => .goOn []

/-- What follows one test of the wait: the next test where it finds NULL, else
    another turn if there is one left. -/
def afterPoll (sh : Shared) (n : Nat) : List Cond → List Instr
  | [] => []
  | c :: cs =>
      if c.isNull sh then [.poll cs n]
      else if n < maxWaitIterations then [.pollStop (n + 1)] else []

/-- What follows one test after the wait. -/
def afterRecheck (ρ : Role) (sh : Shared) : List Cond → Next Instr
  | [] => .goOn []
  | c :: cs => if c.isNull sh then .goOn [.recheck cs] else failWith espErrTimeout ρ

/-- One instruction of the task `i` with the role `ρ`. -/
def runInstr (ρ : Role) (i fresh : Nat) (a : Instr) (sh : Shared) (r : Reply) :
    Outcome Role Instr Shared AudioEv :=
  match a with
  | .setState k st =>
      { shared := sh.setTestState k st
        events := if ρ = .worker k ∧ st = .error then [.failed k (sh.lastError k)] else [] }
  | .setError k e => { shared := sh.setLastError k e }
  | .setStop k b =>
      { shared := sh.setStopRequested k b
        events := if ρ = .ui ∧ b = false then [.started k] else [] }
  | .setMeter v x => { shared := sh.setMeter v x }
  | .publish v => { shared := sh.setMeter v r.value }
  | .clearHandle k => { shared := sh.setHandle k none }
  | .clearChan s => { shared := sh.setChan s none }
  | .requestStop k =>
      -- the writes that follow do not look at the handle again
      { shared := sh
        next := .goOn (if sh.handle k = none then [.stopUnlessError k]
          else [.setState k .stopping, .setStop k true]) }
  | .stopUnlessError k =>
      { shared := sh
        next := .goOn (if sh.testState k = .error then [] else [.setState k .stopped]) }
  | .rejectIf g =>
      { shared := sh
        next := if g.holds sh then .jump [] else .goOn []
        events := if g.holds sh then [.returned espErrInvalidState] else [] }
  | .create k =>
      -- `xTaskCreate` stores the handle before the new task runs
      { shared := if r.created then sh.setHandle k (some fresh) else sh
        next := .goOn (if r.created then []
          else [.clearHandle k, .setError k espErrNoMem, .setState k .error])
        spawn := if r.created then some (.worker k) else none
        events := [.returned (if r.created then espOk else espErrNoMem)] }
  | .gpio => { shared := sh, next := if r.err = espOk then .goOn [] else failWith r.err ρ }
  | .newChannel s =>
      -- a call that fails leaves the variable as it was
      { shared := if r.err = espOk then
            { sh with channels := sh.channels ++ [i] }.setChan s (some sh.channels.length)
          else sh
        next := if r.err = espOk then .goOn [] else failWith r.err ρ
        events := if r.err = espOk then [.opened sh.channels.length i] else [] }
  -- the argument is read first, and another task may write the variable in between
  | .use s op => { shared := sh, next := .goOn [.call s op (sh.chan s)] }
  | .call s op c => { shared := sh, next := afterCall ρ s r op, events := [.i2s op c i] }
  | .loop k =>
      { shared := sh
        next := .goOn (if sh.stopRequested k then [] else loopBody k ++ [.loop k]) }
  | .pollStop n =>
      { shared := sh
        next := .goOn (if sh.stopRequested .loopback then [] else [.poll busy n]) }
  | .poll cs n => { shared := sh, next := .goOn (afterPoll sh n cs) }
  | .ifStopped =>
      { shared := sh
        next := if sh.stopRequested .loopback then .jump (cleanup .loopback) else .goOn [] }
  | .recheck cs => { shared := sh, next := afterRecheck ρ sh cs }
  | .ifOpen s =>
      -- each of the three statements reads the variable anew
      { shared := sh
        next := .goOn (if sh.chan s = none then []
          else [.use s .disable, .use s .delete, .clearChan s]) }
  | .settleUnlessError k =>
      { shared := sh
        next := .goOn (if sh.testState k = .error then []
          else [.setState k .stopped, .setError k espOk]) }
  | .leaveAudio menu =>
      { shared := sh
        next := .goOn (if sh.currentMenu = .hwAudioMic ∧ menu ≠ .hwAudioMic then
          [.requestStop .mic] else []) }
  | .setMenu menu => { shared := { sh with currentMenu := menu } }
  | .toggleMute =>
      { shared := sh
        next := .goOn [.setMeter .loopbackMuted (if sh.meter .loopbackMuted = 0 then 1 else 0)] }

/-- The code of a worker. -/
def workerCode : Worker → List Instr
  | .mic => micCaptureTask
  | .dac => dacToneTask
  | .loopback => audioLoopbackTask

/-- The UI task and the workers.  A callback of a page's button is there only
    while the page is. -/
def audioProgram : Program Role Instr Shared Reply Callback AudioEv where
  body := fun
    | .ui => []
    | .worker k => workerCode k
  call := fun ρ sh c =>
    if ρ = .ui ∧ (∀ m ∈ c.page, sh.currentMenu = m) then some c.code else none
  exec := runInstr

abbrev AudioPool := Pool Role Instr Shared

/-- After start-up: the UI task alone, on the main page. -/
def bootAudio : AudioPool := ⟨bootShared, [⟨.ui, []⟩]⟩

def audio : Machine AudioPool (Lab Reply Callback) AudioEv :=
  audioProgram.machine (fun p => p = bootAudio)

theorem audio_call_inv {ρ : Role} {sh : Shared} {c : Callback} {code : List Instr}
    (h : audioProgram.call ρ sh c = some code) : ρ = .ui ∧ code = c.code := by
  simp only [audioProgram] at h
  split at h
  · rename_i hpage
    exact ⟨hpage.1, (Option.some.inj h).symm⟩
  · exact nomatch h

/-- A button's callback runs while its page is shown. -/
theorem audio_call_page {ρ : Role} {sh : Shared} {c : Callback} {code : List Instr}
    (h : audioProgram.call ρ sh c = some code) {m : MenuId} (hm : c.page = some m) :
    sh.currentMenu = m := by
  simp only [audioProgram] at h
  split at h
  · rename_i hpage
    exact hpage.2 m hm
  · exact nomatch h

theorem boot_task {i : Nat} {t : Task Role Instr} (h : bootAudio.tasks[i]? = some t) :
    i = 0 ∧ t = ⟨.ui, []⟩ := by
  cases i with
  | zero => exact ⟨rfl, (Option.some.inj h).symm⟩
  | succ n => exact nomatch h

/-! ## Reading the variables back -/

namespace Shared

variable (sh : Shared) (k k' : Worker) (s s' : Slot)

/-- A write to a worker's variables leaves every field that it does not change. -/
theorem field_update {β : Type} (field : Diag → β) {d : Diag}
    (h : field d = field (sh.diag k)) :
    field (Function.update sh.diag k d k') = field (sh.diag k') := by
  by_cases hk : k' = k
  · subst hk
    rw [Function.update_self, h]
  · rw [Function.update_of_ne hk]

/-- The field that it does change. -/
theorem field_update_ite {β : Type} (field : Diag → β) (d : Diag) :
    field (Function.update sh.diag k d k') =
      if k' = k then field d else field (sh.diag k') := by
  by_cases hk : k' = k
  · subst hk
    rw [Function.update_self, if_pos rfl]
  · rw [Function.update_of_ne hk, if_neg hk]

@[simp] theorem handle_setHandle (h : Option Nat) :
    (sh.setHandle k h).handle k' = if k' = k then h else sh.handle k' :=
  field_update_ite sh k k' Diag.taskHandle _

@[simp] theorem testState_setTestState (st : TestState) :
    (sh.setTestState k st).testState k' = if k' = k then st else sh.testState k' :=
  field_update_ite sh k k' Diag.testState _

@[simp] theorem lastError_setLastError (e : EspErr) :
    (sh.setLastError k e).lastError k' = if k' = k then e else sh.lastError k' :=
  field_update_ite sh k k' Diag.lastError _

@[simp] theorem testState_setHandle (h : Option Nat) :
    (sh.setHandle k h).testState k' = sh.testState k' :=
  field_update sh k k' Diag.testState rfl

@[simp] theorem lastError_setHandle (h : Option Nat) :
    (sh.setHandle k h).lastError k' = sh.lastError k' :=
  field_update sh k k' Diag.lastError rfl

@[simp] theorem handle_setTestState (st : TestState) :
    (sh.setTestState k st).handle k' = sh.handle k' :=
  field_update sh k k' Diag.taskHandle rfl

@[simp] theorem lastError_setTestState (st : TestState) :
    (sh.setTestState k st).lastError k' = sh.lastError k' :=
  field_update sh k k' Diag.lastError rfl

@[simp] theorem handle_setStopRequested (b : Bool) :
    (sh.setStopRequested k b).handle k' = sh.handle k' :=
  field_update sh k k' Diag.taskHandle rfl

@[simp] theorem testState_setStopRequested (b : Bool) :
    (sh.setStopRequested k b).testState k' = sh.testState k' :=
  field_update sh k k' Diag.testState rfl

@[simp] theorem lastError_setStopRequested (b : Bool) :
    (sh.setStopRequested k b).lastError k' = sh.lastError k' :=
  field_update sh k k' Diag.lastError rfl

@[simp] theorem handle_setLastError (e : EspErr) :
    (sh.setLastError k e).handle k' = sh.handle k' :=
  field_update sh k k' Diag.taskHandle rfl

@[simp] theorem testState_setLastError (e : EspErr) :
    (sh.setLastError k e).testState k' = sh.testState k' :=
  field_update sh k k' Diag.testState rfl

@[simp] theorem stopRequested_setStopRequested (b : Bool) :
    (sh.setStopRequested k b).stopRequested k' = if k' = k then b else sh.stopRequested k' :=
  field_update_ite sh k k' Diag.stopRequested _

@[simp] theorem stopRequested_setHandle (h : Option Nat) :
    (sh.setHandle k h).stopRequested k' = sh.stopRequested k' :=
  field_update sh k k' Diag.stopRequested rfl

@[simp] theorem stopRequested_setTestState (st : TestState) :
    (sh.setTestState k st).stopRequested k' = sh.stopRequested k' :=
  field_update sh k k' Diag.stopRequested rfl

@[simp] theorem stopRequested_setLastError (e : EspErr) :
    (sh.setLastError k e).stopRequested k' = sh.stopRequested k' :=
  field_update sh k k' Diag.stopRequested rfl

@[simp] theorem chan_setChan (c : Option Nat) :
    (sh.setChan s c).chan s' = if s' = s then c else sh.chan s' := by
  simp only [setChan, Function.update_apply]

end Shared

/-! ## What an instruction changes -/

section Effects

variable {ρ : Role} {i fresh : Nat} {a : Instr} {sh : Shared} {r : Reply}

attribute [local simp] runInstr

/-- A task handle is cleared by its own instruction and set by `xTaskCreate`. -/
theorem runInstr_handle (k : Worker) :
    (runInstr ρ i fresh a sh r).shared.handle k = sh.handle k ∨
      (a = .clearHandle k ∧ (runInstr ρ i fresh a sh r).shared.handle k = none) ∨
      (a = .create k ∧ r.created = true ∧
        (runInstr ρ i fresh a sh r).shared.handle k = some fresh) := by
  cases a with
  | clearHandle k' =>
      by_cases hk : k = k'
      · subst hk
        exact .inr (.inl ⟨rfl, by simp⟩)
      · exact .inl (by simp [hk])
  | create k' =>
      by_cases hc : r.created = true
      · by_cases hk : k = k'
        · subst hk
          exact .inr (.inr ⟨rfl, hc, by simp [hc]⟩)
        · exact .inl (by simp [hc, hk])
      · exact .inl (by simp [hc])
  | newChannel s =>
      left
      by_cases he : r.err = espOk
      · simp only [runInstr, if_pos he]
        rfl
      · simp only [runInstr, if_neg he]
  | setState | setError | setStop => exact .inl (by simp)
  | _ => exact .inl rfl

/-- A channel variable is cleared by its own instruction and set by a
    successful `i2s_new_channel`, to a new channel of the running task. -/
theorem runInstr_chan (s : Slot) :
    (runInstr ρ i fresh a sh r).shared.chan s = sh.chan s ∨
      (a = .clearChan s ∧ (runInstr ρ i fresh a sh r).shared.chan s = none) ∨
      (a = .newChannel s ∧ r.err = espOk ∧
        (runInstr ρ i fresh a sh r).shared.chan s = some sh.channels.length ∧
        (runInstr ρ i fresh a sh r).shared.channels = sh.channels ++ [i]) := by
  cases a with
  | clearChan s' =>
      by_cases hs : s = s'
      · subst hs
        exact .inr (.inl ⟨rfl, by simp⟩)
      · exact .inl (by simp [hs])
  | newChannel s' =>
      by_cases he : r.err = espOk
      · by_cases hs : s = s'
        · subst hs
          exact .inr (.inr ⟨rfl, he, by simp [he], by simp [he, Shared.setChan]⟩)
        · exact .inl (by simp [he, hs])
      · exact .inl (by simp [he])
  | create k =>
      left
      by_cases hc : r.created = true
      · simp only [runInstr, if_pos hc]
        rfl
      · simp only [runInstr, if_neg hc]
  | _ => exact .inl rfl

/-- Channels are only ever added. -/
theorem runInstr_channels : sh.channels <+: (runInstr ρ i fresh a sh r).shared.channels := by
  cases a with
  | newChannel s =>
      by_cases he : r.err = espOk <;> simp [he, Shared.setChan]
  | create k => by_cases hc : r.created = true <;> simp [hc, Shared.setHandle]
  | _ => exact List.prefix_refl _

/-- A state is changed by a write of it alone. -/
theorem runInstr_testState (k : Worker) :
    (runInstr ρ i fresh a sh r).shared.testState k = sh.testState k ∨
      ∃ st, a = .setState k st ∧ (runInstr ρ i fresh a sh r).shared.testState k = st := by
  cases a with
  | setState k' st =>
      by_cases hk : k = k'
      · subst hk
        exact .inr ⟨st, rfl, by simp⟩
      · exact .inl (by simp [hk])
  | create k' => left; by_cases hc : r.created = true <;> simp [hc]
  | newChannel s =>
      left
      by_cases he : r.err = espOk
      · simp only [runInstr, if_pos he]
        rfl
      · simp only [runInstr, if_neg he]
  | clearHandle | setError | setStop => exact .inl (by simp)
  | _ => exact .inl rfl

/-- An error is changed by a write of it alone. -/
theorem runInstr_lastError (k : Worker) :
    (runInstr ρ i fresh a sh r).shared.lastError k = sh.lastError k ∨
      ∃ e, a = .setError k e ∧ (runInstr ρ i fresh a sh r).shared.lastError k = e := by
  cases a with
  | setError k' e =>
      by_cases hk : k = k'
      · subst hk
        exact .inr ⟨e, rfl, by simp⟩
      · exact .inl (by simp [hk])
  | create k' => left; by_cases hc : r.created = true <;> simp [hc]
  | newChannel s =>
      left
      by_cases he : r.err = espOk
      · simp only [runInstr, if_pos he]
        rfl
      · simp only [runInstr, if_neg he]
  | clearHandle | setState | setStop => exact .inl (by simp)
  | _ => exact .inl rfl

/-- A stop flag is changed by a write of it alone. -/
theorem runInstr_stopRequested (k : Worker) :
    (runInstr ρ i fresh a sh r).shared.stopRequested k = sh.stopRequested k ∨
      ∃ b, a = .setStop k b ∧ (runInstr ρ i fresh a sh r).shared.stopRequested k = b := by
  cases a with
  | setStop k' b =>
      by_cases hk : k = k'
      · subst hk
        exact .inr ⟨b, rfl, by simp⟩
      · exact .inl (by simp [hk])
  | create k' => left; by_cases hc : r.created = true <;> simp [hc]
  | newChannel s =>
      left
      by_cases he : r.err = espOk
      · simp only [runInstr, if_pos he]
        rfl
      · simp only [runInstr, if_neg he]
  | clearHandle | setState | setError => exact .inl (by simp)
  | _ => exact .inl rfl

/-- A worker is created by `xTaskCreate` alone. -/
theorem runInstr_spawn {ρ' : Role} (h : (runInstr ρ i fresh a sh r).spawn = some ρ') :
    ∃ k, a = .create k ∧ r.created = true ∧ ρ' = .worker k := by
  cases a with
  | create k =>
      by_cases hc : r.created = true
      · exact ⟨k, rfl, hc, by simpa [hc] using h.symm⟩
      · simp [hc] at h
  | _ => exact nomatch h

end Effects

end AudioTask
