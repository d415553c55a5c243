import KnobFirmware.AudioTaskProofs

/-! # The battery page and its sampling task

    `battery_adc_worker_task` samples the ADC while the battery page is shown
    and publishes each sample in four variables, under the state READY.  It
    leaves its loop when it finds another page, and then clears its handle.  The
    constructor of the page starts a worker if it finds that handle NULL, and
    `battery_adc_ui_timer_cb` copies the published variables and shows them.

    The code is given as for the audio workers: a task is the list of accesses
    it has still to make, one access a step.  The ADC driver is called by the
    worker alone, so that `battery_adc_read` is one step, with the results of
    the driver calls as the environment's answer.

    `always_sampled_iff` is about the window between the worker's test of
    `current_menu` and the clearing of its handle: a constructor that tests the
    handle there starts nothing, and the page is left without a worker. -/

namespace BatteryAdc

open AudioTask (MenuId)
open EspErr StepMachine TaskPool

/-! ## `battery_adc_read` -/

/-- `battery_sample_state_t`. -/
inductive SampleState where
  | idle
  | starting
  | ready
  | error
  deriving DecidableEq, Repr

/-- What a successful `battery_adc_read` stores. -/
structure Sample where
  raw        : Int := 0
  pinMv      : Int := 0
  railMv     : Int := 0
  calibrated : Bool := false
  deriving DecidableEq, Repr

/-- The driver variables: `battery_adc_handle` and `battery_adc_cali_handle`
    stand for being non-NULL. -/
structure Adc where
  handle      : Bool := false
  caliHandle  : Bool := false
  initialized : Bool := false
  calibrated  : Bool := false
  deriving DecidableEq, Repr

/-- The results of the driver calls: `adc_oneshot_new_unit`,
    `adc_oneshot_config_channel`, `adc_cali_create_scheme_curve_fitting`, the
    reads of `adc_oneshot_read` in turn, `adc_cali_raw_to_voltage`. -/
structure AdcReply where
  newUnit       : EspErr := espOk
  configChannel : EspErr := espOk
  createScheme  : EspErr := espOk
  read          : Nat → EspErr × Int := fun _ => (espOk, 0)
  rawToVoltage  : EspErr × Int := (espOk, 0)

def batteryAdcMultisamples : Nat := 8
def batteryDividerNumerator : Int := 2
def batteryDividerDenominator : Int := 1

/-- `battery_adc_init`. -/
def batteryAdcInit (adc : Adc) (r : AdcReply) : EspErr × Adc :=
  if adc.initialized then (espOk, adc)
  else if r.newUnit ≠ espOk then (r.newUnit, adc)
  else if r.configChannel ≠ espOk then (r.configChannel, { adc with handle := false })
  else
    (espOk, { handle := true, caliHandle := r.createScheme = espOk, initialized := true,
              calibrated := r.createScheme = espOk })

/-- The loop over the multisamples, from reading `i` on with `n` to go. -/
def rawSum (read : Nat → EspErr × Int) (i n : Nat) (sum : Int) : Except EspErr Int :=
  match n with
  | 0 => .ok sum
  | n + 1 =>
      if (read i).1 ≠ espOk then .error (read i).1
      else rawSum read (i + 1) n (sum + (read i).2)

/-- The voltage at the pin: calibrated, or else the approximation. -/
def pinVoltage (adc : Adc) (raw : Int) (r : AdcReply) : Int × Bool :=
  if adc.calibrated ∧ adc.caliHandle ∧ r.rawToVoltage.1 = espOk then (r.rawToVoltage.2, true)
  else ((raw * 3300).tdiv 4095, false)

/-- `battery_adc_read`. -/
def batteryAdcRead (adc : Adc) (r : AdcReply) : Except EspErr Sample × Adc :=
  match batteryAdcInit adc r with
  | (err, adc) =>
      if err ≠ espOk then (.error err, adc)
      else
        match rawSum r.read 0 batteryAdcMultisamples 0 with
        | .error err => (.error err, adc)
        | .ok sum =>
            let raw := sum.tdiv batteryAdcMultisamples
            let pin := pinVoltage adc raw r
            (.ok { raw := raw, pinMv := pin.1, calibrated := pin.2,
                   railMv := (pin.1 * batteryDividerNumerator).tdiv batteryDividerDenominator },
              adc)

/-! ## The shared variables and the instructions -/

/-- The published variables: `battery_latest_raw`, `battery_latest_pin_mv`,
    `battery_latest_rail_mv` and `battery_latest_calibrated`. -/
inductive Var where
  | raw
  | pinMv
  | railMv
  | calibrated
  deriving DecidableEq, Repr

/-- A write of one published variable, from the sample `s`. -/
def Sample.put (latest : Sample) (v : Var) (s : Sample) : Sample :=
  match v with
  | .raw => { latest with raw := s.raw }
  | .pinMv => { latest with pinMv := s.pinMv }
  | .railMv => { latest with railMv := s.railMv }
  | .calibrated => { latest with calibrated := s.calibrated }

structure Shared where
  currentMenu : MenuId := .main
  /-- the three label and bar pointers of the page, set and cleared together -/
  labels      : Bool := false
  taskHandle  : Option Nat := none
  sampleState : SampleState := .idle
  latest      : Sample := {}
  latestError : EspErr := espOk
  adc         : Adc := {}
  deriving DecidableEq, Repr

inductive Instr where
  /-- `battery_sample_state = st` -/
  | setState (st : SampleState)
  /-- `battery_latest_error = e` -/
  | setError (e : EspErr)
  /-- `battery_adc_task_handle = NULL` -/
  | clearHandle
  /-- `while (current_menu == MENU_HW_BATTERY)` -/
  | loop
  /-- `battery_adc_read` -/
  | read
  /-- `battery_latest_v = ...` -/
  | publish (v : Var) (s : Sample)
  | setLabels (b : Bool)
  /-- `current_menu = menu` -/
  | setMenu (menu : MenuId)
  /-- `if (battery_adc_task_handle != NULL) return` -/
  | testHandle
  /-- `xTaskCreate` of the worker -/
  | create
  /-- The tests at the head of the timer callback. -/
  | timerGuard
  /-- `state = battery_sample_state`, and the branch on it. -/
  | readState
  | copyError
  /-- The copies of the published variables, with the values copied so far. -/
  | copyRaw
  | copyPinMv (raw : Int)
  | copyRailMv (raw pinMv : Int)
  | copyCalibrated (raw pinMv railMv : Int)
  | render (s : Sample)
  deriving DecidableEq, Repr

/-! ## The functions of the source -/

/-- The writes that publish a sample. -/
def publication (s : Sample) : List Instr :=
  [.publish .raw s, .publish .pinMv s, .publish .railMv s, .publish .calibrated s,
    .setError espOk, .setState .ready]

/-- `battery_adc_worker_task` after its loop. -/
def leave : List Instr := [.clearHandle, .setState .idle]

def batteryAdcWorkerTask : List Instr :=
  [.setState .starting, .setError espOk, .loop] ++ leave

/-- `battery_adc_worker_start` after its test of the handle. -/
def startWorker : List Instr := [.setState .starting, .setError espOk, .create]

/-- `show_menu`, with what the constructor of the battery page does here. -/
def showMenu (menu : MenuId) : List Instr :=
  [.setLabels false, .setMenu menu] ++
    if menu = .hwBattery then [.setLabels true, .testHandle] else []

def batteryAdcUiTimerCb : List Instr := [.timerGuard]

/-- The callbacks of the UI task. -/
inductive Callback where
  | navigate (menu : MenuId)
  | timer
  deriving DecidableEq, Repr

def Callback.code : Callback → List Instr
  | .navigate menu => showMenu menu
  | .timer => batteryAdcUiTimerCb

/-! ## The meaning of an instruction -/

inductive Role where
  | ui
  | worker
  deriving DecidableEq, Repr

/-- What the environment answers: whether `xTaskCreate` succeeds, and the
    results of the ADC driver. -/
structure Reply where
  created : Bool := true
  adc     : AdcReply := {}

inductive BatteryEv where
  /-- A `battery_adc_read` succeeded. -/
  | sampled (s : Sample)
  /-- A published variable was written, from the sample `s`, or copied. -/
  | wrote (v : Var) (s : Sample)
  | copied (v : Var)
  /-- The timer callback shows that there is no sample yet, an error, or the
      values it has copied. -/
  | shownStarting
  | shownError (e : EspErr)
  | shown (s : Sample)
  deriving DecidableEq, Repr

/-- One instruction; the code of the two roles does not overlap. -/
def runInstr (fresh : Nat) (a : Instr) (sh : Shared) (r : Reply) :
    Outcome Role Instr Shared BatteryEv :=
  match a with
  | .setState st => { shared := { sh with sampleState := st } }
  | .setError e => { shared := { sh with latestError := e } }
  | .clearHandle => { shared := { sh with taskHandle := none } }
  | .loop =>
      { shared := sh
        next := .goOn (if sh.currentMenu = .hwBattery then [.read, .loop] else []) }
  | .read =>
      match batteryAdcRead sh.adc r.adc with
      | (.ok s, adc) =>
          { shared := { sh with adc := adc }, next := .goOn (publication s),
            events := [.sampled s] }
      | (.error e, adc) =>
          { shared := { sh with adc := adc }, next := .goOn [.setError e, .setState .error] }
  | .publish v s =>
      { shared := { sh with latest := sh.latest.put v s }, events := [.wrote v s] }
  | .setLabels b => { shared := { sh with labels := b } }
  | .setMenu menu => { shared := { sh with currentMenu := menu } }
  | .testHandle =>
      { shared := sh, next := .goOn (if sh.taskHandle = none then startWorker else []) }
  | .create =>
      -- `xTaskCreate` stores the handle before the new task runs
      { shared := if r.created then { sh with taskHandle := some fresh } else sh
        next := .goOn (if r.created then []
          else [.clearHandle, .setError espErrNoMem, .setState .error])
        spawn := if r.created then some .worker else none }
  | .timerGuard =>
      { shared := sh
        next := .goOn (if sh.currentMenu = .hwBattery ∧ sh.labels then [.readState] else []) }
  | .readState =>
      { shared := sh
        next := .goOn (match sh.sampleState with
          | .idle | .starting => []
          | .error => [.copyError]
          | .ready => [.copyRaw])
        events := match sh.sampleState with
          | .idle | .starting => [.shownStarting]
          | .error | .ready => [] }
  | .copyError => { shared := sh, events := [.shownError sh.latestError] }
  | .copyRaw =>
      { shared := sh, next := .goOn [.copyPinMv sh.latest.raw], events := [.copied .raw] }
  | .copyPinMv raw =>
      { shared := sh, next := .goOn [.copyRailMv raw sh.latest.pinMv],
        events := [.copied .pinMv] }
  | .copyRailMv raw pinMv =>
      { shared := sh, next := .goOn [.copyCalibrated raw pinMv sh.latest.railMv],
        events := [.copied .railMv] }
  | .copyCalibrated raw pinMv railMv =>
      { shared := sh, next := .goOn [.render ⟨raw, pinMv, railMv, sh.latest.calibrated⟩],
        events := [.copied .calibrated] }
  | .render s => { shared := sh, events := [.shown s] }

/-- The UI task and the workers. -/
def batteryProgram : Program Role Instr Shared Reply Callback BatteryEv where
  body := fun
    | .ui => []
    | .worker => batteryAdcWorkerTask
  call := fun ρ _ c => if ρ = .ui then some c.code else none
  exec := fun _ _ fresh a sh r => runInstr fresh a sh r

abbrev BatteryPool := Pool Role Instr Shared

/-- After start-up: the UI task alone, on the main page. -/
def bootBattery : BatteryPool := ⟨{}, [⟨.ui, []⟩]⟩

def battery : Machine BatteryPool (Lab Reply Callback) BatteryEv :=
  batteryProgram.machine (fun p => p = bootBattery)

theorem battery_call_inv {ρ : Role} {sh : Shared} {c : Callback} {code : List Instr}
    (h : batteryProgram.call ρ sh c = some code) : ρ = .ui ∧ code = c.code := by
  simp only [batteryProgram] at h
  split at h
  · rename_i hui
    exact ⟨hui, (Option.some.inj h).symm⟩
  · exact nomatch h

theorem boot_task {i : Nat} {t : Task Role Instr} (h : bootBattery.tasks[i]? = some t) :
    i = 0 ∧ t = ⟨.ui, []⟩ := by
  cases i with
  | zero => exact ⟨rfl, (Option.some.inj h).symm⟩
  | succ n => exact nomatch h

/-! ## What an instruction changes -/

section Effects

variable {fresh : Nat} {a : Instr} {sh : Shared} {r : Reply}

attribute [local simp] runInstr

/-- Every instruction goes on to the rest of the code. -/
theorem runInstr_goOn (fresh : Nat) (a : Instr) (sh : Shared) (r : Reply) :
    ∃ q, (runInstr fresh a sh r).next = .goOn q := by
  cases a with
  | read =>
      simp only [runInstr]
      split <;> exact ⟨_, rfl⟩
  | _ => exact ⟨_, rfl⟩

/-- The handle is cleared by its own instruction and set by `xTaskCreate`. -/
theorem runInstr_handle :
    (runInstr fresh a sh r).shared.taskHandle = sh.taskHandle ∨
      (a = .clearHandle ∧ (runInstr fresh a sh r).shared.taskHandle = none) ∨
      (a = .create ∧ r.created = true ∧
        (runInstr fresh a sh r).shared.taskHandle = some fresh) := by
  cases a with
  | clearHandle => exact .inr (.inl ⟨rfl, rfl⟩)
  | create =>
      by_cases hc : r.created = true
      · exact .inr (.inr ⟨rfl, hc, by simp [hc]⟩)
      · exact .inl (by simp [hc])
  | read =>
      left
      simp only [runInstr]
      split <;> rfl
  | _ => exact .inl rfl

/-- The page is changed by `show_menu` alone. -/
theorem runInstr_menu :
    (runInstr fresh a sh r).shared.currentMenu = sh.currentMenu ∨
      ∃ menu, a = .setMenu menu ∧ (runInstr fresh a sh r).shared.currentMenu = menu := by
  cases a with
  | setMenu menu => exact .inr ⟨menu, rfl, rfl⟩
  | create => left; by_cases hc : r.created = true <;> simp [hc]
  | read =>
      left
      simp only [runInstr]
      split <;> rfl
  | _ => exact .inl rfl

/-- A worker is created by `xTaskCreate` alone. -/
theorem runInstr_spawn {ρ' : Role} (h : (runInstr fresh a sh r).spawn = some ρ') :
    a = .create ∧ r.created = true ∧ ρ' = .worker := by
  cases a with
  | create =>
      by_cases hc : r.created = true
      · exact ⟨rfl, hc, by simpa [hc] using h.symm⟩
      · simp [hc] at h
  | read =>
      simp only [runInstr] at h
      split at h <;> cases h
  | _ => exact nomatch h

end Effects

/-! ## Where the tasks are -/

/-- The instructions of a worker before it leaves. -/
def Sampling : Instr → Prop
  | .setState st => st ≠ .idle
  | .setError _ | .loop | .read | .publish _ _ => True
  | _ => False

/-- A worker is before the end of its loop, or after it. -/
inductive WorkerAt : List Instr → Prop where
  | working {pre : List Instr} (h : ∀ a ∈ pre, Sampling a) : WorkerAt (pre ++ leave)
  | leaving {todo : List Instr} (h : todo <:+ leave) : WorkerAt todo

/-- The UI instructions that neither open the battery page nor start a worker. -/
def Aside : Instr → Prop
  | .setLabels _ | .timerGuard | .readState | .copyError | .copyRaw | .copyPinMv _
  | .copyRailMv _ _ | .copyCalibrated _ _ _ | .render _ => True
  | .setMenu menu => menu ≠ .hwBattery
  | _ => False

/-- What the UI task does after a creation that failed. -/
def failedStart : List Instr := [.clearHandle, .setError espErrNoMem, .setState .error]

/-- Where the UI task is. -/
inductive UiAt (sh : Shared) : List Instr → Prop where
  | opening {todo : List Instr} (hsuf : todo <:+ showMenu .hwBattery) (hne : todo ≠ [])
      (hmenu : .setMenu .hwBattery ∈ todo ∨ sh.currentMenu = .hwBattery) : UiAt sh todo
  | starting {todo : List Instr} (hsuf : todo <:+ startWorker) (hne : todo ≠ [])
      (hnull : sh.taskHandle = none) (hmenu : sh.currentMenu = .hwBattery) : UiAt sh todo
  | failed {todo : List Instr} (hsuf : todo <:+ failedStart)
      (hnull : sh.taskHandle = none) : UiAt sh todo
  | aside {todo : List Instr} (h : ∀ a ∈ todo, Aside a) : UiAt sh todo

structure WorkerOk (i : Nat) (todo : List Instr) (sh : Shared) : Prop where
  position : WorkerAt todo
  live : .clearHandle ∈ todo → sh.taskHandle = some i

/-- The assertion of a task; the UI task is number 0. -/
def TaskOk (i : Nat) (t : Task Role Instr) (sh : Shared) (_ : List BatteryEv) : Prop :=
  match t.role with
  | .ui => i = 0 ∧ UiAt sh t.todo
  | .worker => WorkerOk i t.todo sh

section Step

variable {ρ : Role} {i j fresh : Nat} {a : Instr} {rest todo : List Instr} {sh : Shared}
  {r : Reply} {tr : List BatteryEv}

/-- What a sampling instruction brings in. -/
theorem sampling_next (h : Sampling a) :
    ∃ q, (runInstr fresh a sh r).next = .goOn q ∧ ∀ b ∈ q, Sampling b := by
  cases a with
  | loop =>
      refine ⟨_, rfl, ?_⟩
      split <;> simp [Sampling]
  | read =>
      simp only [runInstr]
      split <;> exact ⟨_, rfl, by simp [publication, Sampling]⟩
  | setState | setError | publish => exact ⟨[], rfl, by simp⟩
  | _ => exact h.elim

theorem leave_next (h : a ∈ leave) : (runInstr fresh a sh r).next = .goOn [] := by
  have hall : ∀ b ∈ leave, (runInstr fresh b sh r).next = .goOn [] := by
    simp [leave, runInstr]
  exact hall a h

/-- The instruction at the head of a worker's code. -/
theorem WorkerAt.head (h : WorkerAt (a :: rest)) :
    (Sampling a ∧ ∃ pre, rest = pre ++ leave ∧ ∀ b ∈ pre, Sampling b) ∨ a :: rest <:+ leave := by
  generalize htodo : a :: rest = todo at h
  cases h with
  | @working pre hpre =>
      cases pre with
      | nil => exact .inr (List.suffix_refl _)
      | cons b pre =>
          obtain ⟨rfl, rfl⟩ := List.cons.inj htodo
          exact .inl ⟨hpre a List.mem_cons_self, pre, rfl,
            fun c hc => hpre c (List.mem_cons_of_mem a hc)⟩
  | leaving hsuf => exact .inr hsuf

/-- **A worker's step keeps it in its code.** -/
theorem WorkerAt.step (h : WorkerAt (a :: rest)) (fresh : Nat) (sh : Shared) (r : Reply) :
    WorkerAt ((runInstr fresh a sh r).next.after rest) := by
  rcases h.head with ⟨ha, pre, rfl, hpre⟩ | hsuf
  · obtain ⟨q, hq, hq'⟩ : ∃ q, (runInstr fresh a sh r).next = .goOn q ∧ _ :=
      sampling_next ha
    rw [hq, Next.after_goOn, ← List.append_assoc]
    refine .working fun b hb => ?_
    rcases List.mem_append.mp hb with h1 | h1
    · exact hq' b h1
    · exact hpre b h1
  · rw [leave_next (hsuf.subset List.mem_cons_self), Next.after_goOn]
    exact .leaving ((List.suffix_cons a rest).trans hsuf)

theorem WorkerAt.not_mem (h : WorkerAt todo) :
    .create ∉ todo ∧ .testHandle ∉ todo ∧ ∀ menu, .setMenu menu ∉ todo := by
  have hno : ∀ b ∈ todo, b ≠ .create ∧ b ≠ .testHandle ∧ ∀ menu, b ≠ .setMenu menu := by
    have hleave : ∀ b ∈ leave, b ≠ .create ∧ b ≠ .testHandle ∧ ∀ menu, b ≠ .setMenu menu := by
      simp [leave]
    intro b hb
    cases h with
    | working hpre =>
        rcases List.mem_append.mp hb with h1 | h1
        · have hs := hpre b h1
          refine ⟨?_, ?_, ?_⟩
          · rintro rfl
            exact hs
          · rintro rfl
            exact hs
          · rintro menu rfl
            exact hs
        · exact hleave b h1
    | leaving hsuf => exact hleave b (hsuf.subset hb)
  exact ⟨fun h1 => (hno _ h1).1 rfl, fun h1 => (hno _ h1).2.1 rfl,
    fun menu h1 => (hno _ h1).2.2 menu rfl⟩

/-- A worker that is to clear the handle has that ahead of it all the time. -/
theorem WorkerAt.clear_after (h : WorkerAt (a :: rest))
    (hmem : .clearHandle ∈ (runInstr fresh a sh r).next.after rest) :
    a ≠ .clearHandle ∧ .clearHandle ∈ a :: rest := by
  rcases h.head with ⟨ha, pre, rfl, -⟩ | hsuf
  · refine ⟨?_, List.mem_cons_of_mem a (List.mem_append_right pre List.mem_cons_self)⟩
    rintro rfl
    exact ha
  · rw [leave_next (hsuf.subset List.mem_cons_self), Next.after_goOn, List.nil_append] at hmem
    refine ⟨?_, List.mem_cons_of_mem a hmem⟩
    rintro rfl
    obtain rfl : rest = [.setState .idle] := by simpa [leave, List.suffix_cons_iff] using hsuf
    simp at hmem

theorem WorkerOk.menu (h : WorkerOk i (a :: rest) sh) :
    (runInstr fresh a sh r).shared.currentMenu = sh.currentMenu := by
  have hset : (runInstr fresh a sh r).shared.currentMenu = sh.currentMenu ∨ _ :=
    runInstr_menu
  rcases hset with h1 | ⟨menu, rfl, -⟩
  · exact h1
  · exact absurd List.mem_cons_self (h.position.not_mem.2.2 menu)

/-- A worker only clears the handle. -/
theorem WorkerOk.handle (h : WorkerOk i (a :: rest) sh) :
    (runInstr fresh a sh r).shared.taskHandle = sh.taskHandle ∨
      (a = .clearHandle ∧ (runInstr fresh a sh r).shared.taskHandle = none) := by
  have hset : (runInstr fresh a sh r).shared.taskHandle = sh.taskHandle ∨ _ :=
    runInstr_handle
  rcases hset with h1 | h1 | ⟨rfl, -⟩
  · exact .inl h1
  · exact .inr h1
  · exact absurd List.mem_cons_self h.position.not_mem.1

theorem UiAt.done (sh : Shared) : UiAt sh [] := .aside (by simp)

/-- What an instruction aside brings in. -/
theorem aside_next (h : Aside a) :
    ∃ q, (runInstr fresh a sh r).next = .goOn q ∧ ∀ b ∈ q, Aside b := by
  cases a with
  | timerGuard =>
      refine ⟨_, rfl, ?_⟩
      split <;> simp [Aside]
  | readState =>
      refine ⟨_, rfl, ?_⟩
      split <;> simp [Aside]
  | copyRaw | copyPinMv | copyRailMv | copyCalibrated => exact ⟨_, rfl, by simp [Aside]⟩
  | setLabels | copyError | render | setMenu => exact ⟨[], rfl, by simp⟩
  | _ => exact h.elim

/-- **A step of the UI task** goes on with the page, or starts a worker where
    it has found the handle NULL. -/
theorem UiAt.step (h : UiAt sh (a :: rest)) :
    UiAt (runInstr fresh a sh r).shared
      ((runInstr fresh a sh r).next.after rest) := by
  generalize htodo : a :: rest = todo at h
  cases h with
  | opening hsuf _ hmenu =>
      subst htodo
      rcases List.suffix_cons_iff.mp hsuf with h1 | hsuf
      · obtain ⟨rfl, rfl⟩ := List.cons.inj h1
        exact .opening (List.suffix_cons _ _) (List.cons_ne_nil _ _) (.inl List.mem_cons_self)
      rcases List.suffix_cons_iff.mp hsuf with h1 | hsuf
      · obtain ⟨rfl, rfl⟩ := List.cons.inj h1
        exact .opening ⟨[_, _], rfl⟩ (List.cons_ne_nil _ _) (.inr rfl)
      rcases List.suffix_cons_iff.mp hsuf with h1 | hsuf
      · obtain ⟨rfl, rfl⟩ := List.cons.inj h1
        exact .opening ⟨[_, _, _], rfl⟩ (List.cons_ne_nil _ _) (hmenu.imp_left (by simp))
      rcases List.suffix_cons_iff.mp hsuf with h1 | hsuf
      · -- the test of the handle
        obtain ⟨rfl, rfl⟩ := List.cons.inj h1
        have hpage : sh.currentMenu = .hwBattery := hmenu.resolve_left (by simp)
        show UiAt sh ((if _ then _ else _) ++ [])
        split
        · rename_i hnull
          exact .starting (List.suffix_refl _) (List.cons_ne_nil _ _) hnull hpage
        · exact .done sh
      · exact absurd (List.suffix_nil.mp hsuf) (List.cons_ne_nil _ _)
  | starting hsuf _ hnull hmenu =>
      subst htodo
      rcases List.suffix_cons_iff.mp hsuf with h1 | hsuf
      · obtain ⟨rfl, rfl⟩ := List.cons.inj h1
        exact .starting (List.suffix_cons _ _) (List.cons_ne_nil _ _) hnull hmenu
      rcases List.suffix_cons_iff.mp hsuf with h1 | hsuf
      · obtain ⟨rfl, rfl⟩ := List.cons.inj h1
        exact .starting ⟨[_, _], rfl⟩ (List.cons_ne_nil _ _) hnull hmenu
      rcases List.suffix_cons_iff.mp hsuf with h1 | hsuf
      · obtain ⟨rfl, rfl⟩ := List.cons.inj h1
        by_cases hc : r.created = true
        · simpa [runInstr, hc] using .done _
        · simp only [runInstr, hc]
          exact .failed (List.suffix_refl _) hnull
      · exact absurd (List.suffix_nil.mp hsuf) (List.cons_ne_nil _ _)
  | failed hsuf hnull =>
      subst htodo
      rcases List.suffix_cons_iff.mp hsuf with h1 | hsuf
      · obtain ⟨rfl, rfl⟩ := List.cons.inj h1
        exact .failed (List.suffix_cons _ _) rfl
      rcases List.suffix_cons_iff.mp hsuf with h1 | hsuf
      · obtain ⟨rfl, rfl⟩ := List.cons.inj h1
        exact .failed ⟨[_, _], rfl⟩ hnull
      rcases List.suffix_cons_iff.mp hsuf with h1 | hsuf
      · obtain ⟨rfl, rfl⟩ := List.cons.inj h1
        exact .done _
      · exact absurd (List.suffix_nil.mp hsuf) (List.cons_ne_nil _ _)
  | aside hall =>
      subst htodo
      obtain ⟨q, hq, hq'⟩ : ∃ q, (runInstr fresh a sh r).next = .goOn q ∧ _ :=
        aside_next (hall a List.mem_cons_self)
      rw [hq, Next.after_goOn]
      refine .aside fun b hb => ?_
      rcases List.mem_append.mp hb with h1 | h1
      · exact hq' b h1
      · exact hall b (List.mem_cons_of_mem a h1)

/-- What the UI task does to the handle: a creation, where it is NULL. -/
theorem UiAt.handle (h : UiAt sh (a :: rest)) :
    (runInstr fresh a sh r).shared.taskHandle = sh.taskHandle ∨
      (a = .create ∧ rest = [] ∧ r.created = true ∧ sh.taskHandle = none ∧
        sh.currentMenu = .hwBattery ∧
        (runInstr fresh a sh r).shared.taskHandle = some fresh) := by
  have hset : (runInstr fresh a sh r).shared.taskHandle = sh.taskHandle ∨ _ :=
    runInstr_handle
  rcases hset with h1 | ⟨rfl, h1⟩ | ⟨rfl, hc, h1⟩
  · exact .inl h1
  · -- the handle is NULL already
    left
    cases h with
    | failed hsuf hnull => exact h1.trans hnull.symm
    | opening hsuf => simp [showMenu, List.suffix_cons_iff] at hsuf
    | starting hsuf => simp [startWorker, List.suffix_cons_iff] at hsuf
    | aside hall => exact (hall _ List.mem_cons_self).elim
  · right
    cases h with
    | starting hsuf _ hnull hmenu =>
        obtain rfl : rest = [] := by simpa [startWorker, List.suffix_cons_iff] using hsuf
        exact ⟨rfl, rfl, hc, hnull, hmenu, h1⟩
    | opening hsuf => simp [showMenu, List.suffix_cons_iff] at hsuf
    | failed hsuf => simp [failedStart, List.suffix_cons_iff] at hsuf
    | aside hall => exact (hall _ List.mem_cons_self).elim

/-- A step of a worker keeps the place of the UI task. -/
theorem UiAt.frame (hw : WorkerOk i (a :: rest) sh) (h : UiAt sh todo) :
    UiAt (runInstr fresh a sh r).shared todo := by
  have hmenu : (runInstr fresh a sh r).shared.currentMenu = sh.currentMenu := hw.menu
  have hnull : sh.taskHandle = none → (runInstr fresh a sh r).shared.taskHandle = none := by
    intro h0
    have hset : (runInstr fresh a sh r).shared.taskHandle = sh.taskHandle ∨ _ := hw.handle
    rcases hset with h1 | ⟨-, h1⟩
    · exact h1.trans h0
    · exact h1
  cases h with
  | opening hsuf hne hset => exact .opening hsuf hne (hset.imp_right hmenu.trans)
  | starting hsuf hne h0 hpage => exact .starting hsuf hne (hnull h0) (hmenu.trans hpage)
  | failed hsuf h0 => exact .failed hsuf (hnull h0)
  | aside hall => exact .aside hall

/-- Two tasks that are to clear the handle are one task. -/
theorem WorkerOk.unique (h : WorkerOk i todo sh) {todo' : List Instr} (h' : WorkerOk j todo' sh)
    (hmem : .clearHandle ∈ todo) (hmem' : .clearHandle ∈ todo') : i = j :=
  Option.some.inj ((h.live hmem).symm.trans (h'.live hmem'))

/-- A worker's step keeps its own assertion. -/
theorem WorkerOk.step (h : WorkerOk i (a :: rest) sh) :
    WorkerOk i ((runInstr fresh a sh r).next.after rest)
      (runInstr fresh a sh r).shared where
  position := h.position.step _ _ _
  live := by
    intro hmem
    obtain ⟨hne, hwas⟩ := h.position.clear_after hmem
    have hset : (runInstr fresh a sh r).shared.taskHandle = sh.taskHandle ∨ _ := h.handle
    rcases hset with h1 | ⟨h1, -⟩
    · exact h1.trans (h.live hwas)
    · exact absurd h1 hne

/-- A step of another task keeps a worker's assertion. -/
theorem WorkerOk.frame (ht : TaskOk i ⟨ρ, a :: rest⟩ sh tr) (h : WorkerOk j todo sh)
    (hne : j ≠ i) : WorkerOk j todo (runInstr fresh a sh r).shared where
  position := h.position
  live := by
    intro hmem
    have hj := h.live hmem
    cases ρ with
    | ui =>
        have hset : (runInstr fresh a sh r).shared.taskHandle = sh.taskHandle ∨ _ :=
          ht.2.handle
        rcases hset with h1 | ⟨-, -, -, h1, -⟩
        · exact h1.trans hj
        · exact nomatch h1.symm.trans hj
    | worker =>
        have hset : (runInstr fresh a sh r).shared.taskHandle = sh.taskHandle ∨ _ :=
          WorkerOk.handle ht
        rcases hset with h1 | ⟨rfl, -⟩
        · exact h1.trans hj
        · exact absurd (h.unique ht hmem List.mem_cons_self) hne

end Step

/-! ## Every run -/

/-- The assertion of the pool. -/
abbrev Owned : BatteryPool → List BatteryEv → Prop := Holds (fun _ _ => True) TaskOk

theorem owned_boot : Owned bootBattery [] := by
  refine ⟨trivial, fun i t hi => ?_⟩
  obtain ⟨rfl, rfl⟩ := boot_task hi
  exact ⟨rfl, .done _⟩

/-- A callback begins in its place. -/
theorem UiAt.called (c : Callback) (sh : Shared) : UiAt sh c.code := by
  cases c with
  | timer => exact .aside (by simp [Callback.code, batteryAdcUiTimerCb, Aside])
  | navigate menu =>
      by_cases hm : menu = .hwBattery
      · subst hm
        exact .opening (List.suffix_refl _) (List.cons_ne_nil _ _)
          (.inl (by simp [Callback.code, showMenu]))
      · exact .aside (by simp [Callback.code, showMenu, hm, Aside])

/-- **One step of any task keeps the assertion of the pool.** -/
theorem owned_step {p p' : BatteryPool} {l : Lab Reply Callback} {tr es : List BatteryEv}
    (h : Owned p tr) (hs : battery.step p l = some (p', es)) : Owned p' (tr ++ es) := by
  refine holds_step h ?_ ?_ ?_ ?_ hs
  · intro i r ρ a rest _ _ ht
    refine ⟨trivial, ?_⟩
    cases ρ with
    | ui => exact ⟨ht.1, ht.2.step⟩
    | worker => exact WorkerOk.step ht
  · rintro i r ρ a rest j ⟨ρ', todo⟩ _ _ ht hne _ hu
    cases ρ' with
    | ui =>
        cases ρ with
        | ui => exact absurd (hu.1.trans ht.1.symm) hne
        | worker => exact ⟨hu.1, UiAt.frame ht hu.2⟩
    | worker => exact WorkerOk.frame ht hu hne
  · intro i r ρ a rest ρ' _ _ ht o hspawn
    obtain ⟨rfl, hc, rfl⟩ := runInstr_spawn hspawn
    have hfront : ∀ b ∈ [Instr.setState .starting, .setError espOk, .loop], Sampling b := by
      simp [Sampling]
    exact ⟨.working hfront, fun _ => by simp [o, batteryProgram, runInstr, hc]⟩
  · intro i c ρ code _ _ ht hcall
    obtain ⟨rfl, rfl⟩ := battery_call_inv hcall
    exact ⟨ht.1, UiAt.called c p.shared⟩

theorem owned_of_run {ls : List (Lab Reply Callback)} {p : BatteryPool} {tr : List BatteryEv}
    (h : Run battery bootBattery ls p tr) : Owned p tr :=
  h.invariant owned_boot fun _ _ _ _ _ hP hs => owned_step hP hs

/-! ## A page that is shown is sampled -/

/-- The UI task is not in the constructor of the battery page. -/
def Constructed (todo : List Instr) : Prop := .testHandle ∉ todo ∧ .create ∉ todo

instance (todo : List Instr) : Decidable (Constructed todo) :=
  inferInstanceAs (Decidable (_ ∧ _))

/-- While the battery page is shown and its constructor has finished, some
    worker has not left its loop. -/
def PageSampled (p : BatteryPool) (_ : List BatteryEv) : Prop :=
  p.shared.currentMenu = .hwBattery →
    (∀ t ∈ p.tasks, t.role = .ui → Constructed t.todo) →
    ∃ t ∈ p.tasks, t.role = .worker ∧ .loop ∈ t.todo

/-- Creating a task succeeds. -/
def Creates : Lab Reply Callback → Prop
  | .run _ r => r.created = true
  | .call _ _ => True

instance : (l : Lab Reply Callback) → Decidable (Creates l)
  | .run _ r => inferInstanceAs (Decidable (r.created = true))
  | .call _ _ => isTrue trivial

/-- The task `j` is a worker that has not left its loop. -/
def sampling (p : BatteryPool) (j : Nat) : Bool :=
  match p.tasks[j]? with
  | some ⟨.worker, todo⟩ => decide (.loop ∈ todo)
  | _ => false

/-- `battery_adc_worker_start` is about to test the handle. -/
def testsHandle (p : BatteryPool) : Lab Reply Callback → Bool
  | .run i _ =>
      match p.tasks[i]? with
      | some ⟨_, .testHandle :: _⟩ => true
      | _ => false
  | .call _ _ => false

/-- A test of the handle finds it NULL, or naming a worker in its loop. -/
def FindsSampler (p : BatteryPool) (l : Lab Reply Callback) : Prop :=
  testsHandle p l = true → ∀ j ∈ p.shared.taskHandle, sampling p j = true

instance (p : BatteryPool) (l : Lab Reply Callback) : Decidable (FindsSampler p l) :=
  inferInstanceAs (Decidable (_ → ∀ j ∈ _, _))

theorem sampling_iff {p : BatteryPool} {j : Nat} :
    sampling p j = true ↔ ∃ todo, p.tasks[j]? = some ⟨.worker, todo⟩ ∧ .loop ∈ todo := by
  rw [sampling]
  constructor
  · intro h
    split at h
    · rename_i todo hj
      exact ⟨todo, hj, of_decide_eq_true h⟩
    · cases h
  · rintro ⟨todo, hj, hloop⟩
    rw [hj]
    exact decide_eq_true hloop

theorem testsHandle_inv {p : BatteryPool} {l : Lab Reply Callback} (h : testsHandle p l = true) :
    ∃ i r ρ rest, l = .run i r ∧ p.tasks[i]? = some ⟨ρ, .testHandle :: rest⟩ := by
  cases l with
  | call i c => cases h
  | run i r =>
      rw [testsHandle] at h
      split at h
      · rename_i ρ rest hi
        exact ⟨i, r, ρ, rest, rfl, hi⟩
      · cases h

section Sampled

variable {p p' : BatteryPool} {l : Lab Reply Callback} {tr es : List BatteryEv} {i j fresh : Nat}
  {a : Instr} {rest todo : List Instr} {sh : Shared} {r : Reply}

/-- The UI task does not test the handle unless the page is shown. -/
theorem UiAt.at_test (h : UiAt sh (.testHandle :: rest)) :
    rest = [] ∧ sh.currentMenu = .hwBattery := by
  cases h with
  | opening hsuf _ hmenu =>
      obtain rfl : rest = [] := by simpa [showMenu, List.suffix_cons_iff] using hsuf
      exact ⟨rfl, hmenu.resolve_left (by simp)⟩
  | starting hsuf => simp [startWorker, List.suffix_cons_iff] at hsuf
  | failed hsuf => simp [failedStart, List.suffix_cons_iff] at hsuf
  | aside hall => exact (hall _ List.mem_cons_self).elim

/-- A worker is created where the handle is NULL. -/
theorem UiAt.at_create (h : UiAt sh (.create :: rest)) : sh.taskHandle = none := by
  cases h with
  | starting _ _ hnull => exact hnull
  | failed _ hnull => exact hnull
  | opening hsuf => simp [showMenu, List.suffix_cons_iff] at hsuf
  | aside hall => exact (hall _ List.mem_cons_self).elim

/-- The page is entered with its constructor to come. -/
theorem UiAt.at_enter (h : UiAt sh (.setMenu .hwBattery :: rest)) : .testHandle ∈ rest := by
  cases h with
  | opening hsuf _ hmenu =>
      obtain rfl : rest = [.setLabels true, .testHandle] := by
        simpa [showMenu, List.suffix_cons_iff] using hsuf
      simp
  | starting hsuf => simp [startWorker, List.suffix_cons_iff] at hsuf
  | failed hsuf => simp [failedStart, List.suffix_cons_iff] at hsuf
  | aside hall => exact absurd rfl (hall _ List.mem_cons_self)

theorem WorkerAt.clear_of_loop (h : WorkerAt todo) (hloop : .loop ∈ todo) :
    .clearHandle ∈ todo := by
  cases h with
  | @working pre _ => exact List.mem_append_right pre List.mem_cons_self
  | leaving hsuf => simpa [leave] using hsuf.subset hloop

/-- A worker in its loop stays there while the page is shown. -/
theorem loop_stays (hmenu : sh.currentMenu = .hwBattery) (h : .loop ∈ a :: rest) :
    .loop ∈ (runInstr fresh a sh r).next.after rest := by
  rcases List.mem_cons.mp h with rfl | h1
  · show _ ∈ (if _ then _ else _) ++ rest
    rw [if_pos hmenu]
    simp
  · obtain ⟨q, hq⟩ := runInstr_goOn fresh a sh r
    rw [hq]
    exact List.mem_append_right q h1

/-- A task that a run step does not move is still there. -/
theorem mem_run {ρ : Role} {t : Task Role Instr} {todo' : List Instr} {new : List (Task Role Instr)}
    (hi : p.tasks[i]? = some ⟨ρ, todo⟩) (ht : t ∈ p.tasks) (hrole : t.role ≠ ρ) :
    t ∈ p.tasks.set i ⟨ρ, todo'⟩ ++ new := by
  obtain ⟨j, hj⟩ := List.mem_iff_getElem?.mp ht
  have hne : i ≠ j := by
    rintro rfl
    exact hrole (congrArg Task.role (Option.some.inj (hj.symm.trans hi)))
  refine List.mem_append_left new (List.mem_of_getElem? (i := j) ?_)
  rw [List.getElem?_set_ne hne, hj]

/-- The UI task is one: what holds of its code holds of the code of every UI
    task. -/
theorem constructed_of_ui (hok : Owned p tr) (hi : p.tasks[i]? = some ⟨.ui, todo⟩)
    (h : Constructed todo) : ∀ t ∈ p.tasks, t.role = .ui → Constructed t.todo := by
  rintro ⟨ρ, todo'⟩ ht hrole
  obtain ⟨j, hj⟩ := List.mem_iff_getElem?.mp ht
  obtain rfl : ρ = .ui := hrole
  obtain rfl : j = i := (hok.2 j _ hj).1.trans (hok.2 i _ hi).1.symm
  obtain rfl := (Task.mk.inj (Option.some.inj (hj.symm.trans hi))).2
  exact h

/-- The sampler that stands is no UI task, and a step of the UI task leaves it. -/
theorem PageSampled.ui_moves {todo' : List Instr} {new : List (Task Role Instr)}
    (h : PageSampled p tr) (hmenu : p.shared.currentMenu = .hwBattery)
    (hi : p.tasks[i]? = some ⟨.ui, todo⟩)
    (hbuilt : ∀ t ∈ p.tasks, t.role = .ui → Constructed t.todo) :
    ∃ t ∈ p.tasks.set i ⟨.ui, todo'⟩ ++ new, t.role = .worker ∧ .loop ∈ t.todo := by
  obtain ⟨t, ht, hrole, hloop⟩ := h hmenu hbuilt
  exact ⟨t, mem_run hi ht (by simp [hrole]), hrole, hloop⟩

/-- A worker's step: the sampler moves inside its loop, or stands. -/
theorem PageSampled.worker_moves {new : List (Task Role Instr)} (h : PageSampled p tr)
    (hmenu : p.shared.currentMenu = .hwBattery) (hi : p.tasks[i]? = some ⟨.worker, a :: rest⟩)
    (hbuilt : ∀ t ∈ p.tasks, t.role = .ui → Constructed t.todo) :
    ∃ t ∈ p.tasks.set i ⟨.worker, (runInstr fresh a p.shared r).next.after rest⟩ ++ new,
      t.role = .worker ∧ .loop ∈ t.todo := by
  obtain ⟨hlt, -⟩ := List.getElem?_eq_some_iff.mp hi
  obtain ⟨t, ht, hrole, hloop⟩ := h hmenu hbuilt
  obtain ⟨j, hj⟩ := List.mem_iff_getElem?.mp ht
  by_cases hji : j = i
  · -- the sampler itself moves
    subst hji
    obtain rfl := Option.some.inj (hj.symm.trans hi)
    refine ⟨_, List.mem_append_left _ (List.mem_of_getElem? (List.getElem?_set_self hlt)), rfl, ?_⟩
    exact loop_stays hmenu hloop
  · refine ⟨t, List.mem_append_left _ (List.mem_of_getElem? (i := j) ?_), hrole, hloop⟩
    rw [List.getElem?_set_ne (Ne.symm hji), hj]

/-- What is left of a task's code after an instruction of this program. -/
theorem later_kept {b : Instr} (hb : b ∈ rest) :
    b ∈ (runInstr fresh a sh r).next.after rest := by
  obtain ⟨q, hq⟩ := runInstr_goOn fresh a sh r
  rw [hq]
  exact List.mem_append_right q hb

/-- A step of the UI task that ends outside the constructor, and neither tests
    the handle nor creates the worker, began outside it on the same page. -/
theorem outside_constructor (hui : UiAt sh (a :: rest)) (htest : a ≠ .testHandle)
    (hcreate : a ≠ .create) (hmenu : (runInstr fresh a sh r).shared.currentMenu = .hwBattery)
    (hnow : Constructed ((runInstr fresh a sh r).next.after rest)) :
    sh.currentMenu = .hwBattery ∧ Constructed (a :: rest) := by
  constructor
  · have hset : (runInstr fresh a sh r).shared.currentMenu = sh.currentMenu ∨ _ := runInstr_menu
    rcases hset with h1 | ⟨menu, rfl, h1⟩
    · exact h1.symm.trans hmenu
    · -- the page has just been entered
      obtain rfl : menu = .hwBattery := h1.symm.trans hmenu
      exact absurd (later_kept hui.at_enter) hnow.1
  · refine ⟨fun hmem => ?_, fun hmem => ?_⟩
    · rcases List.mem_cons.mp hmem with h1 | h1
      · exact htest h1.symm
      · exact hnow.1 (later_kept h1)
    · rcases List.mem_cons.mp hmem with h1 | h1
      · exact hcreate h1.symm
      · exact hnow.2 (later_kept h1)

/-- **A step that finds its sampler keeps the page sampled.** -/
theorem pageSampled_step (hok : Owned p tr) (h : PageSampled p tr) (hD : Creates l)
    (hC : FindsSampler p l) (hs : battery.step p l = some (p', es)) :
    PageSampled p' (tr ++ es) := by
  intro hmenu hbuilt
  cases l with
  | call i c =>
      obtain ⟨ρ, code, hi, hcall, rfl, -⟩ := step_call_inv hs
      obtain ⟨rfl, rfl⟩ := battery_call_inv hcall
      have hwas := constructed_of_ui hok hi ⟨List.not_mem_nil, List.not_mem_nil⟩
      have hmoved : ∃ t ∈ p.tasks.set i ⟨.ui, c.code⟩ ++ [], t.role = .worker ∧ .loop ∈ t.todo :=
        h.ui_moves hmenu hi hwas
      simpa using hmoved
  | run i r =>
      obtain ⟨ρ, a, rest, hi, rfl, -⟩ := step_run_inv hs
      have htask := hok.2 i _ hi
      obtain ⟨hlt, -⟩ := List.getElem?_eq_some_iff.mp hi
      cases ρ with
      | worker =>
          have hw : WorkerOk i (a :: rest) p.shared := htask
          have hpage : p.shared.currentMenu = .hwBattery := hw.menu.symm.trans hmenu
          have hwas : ∀ t ∈ p.tasks, t.role = .ui → Constructed t.todo := fun t ht hrole =>
            hbuilt t (mem_run hi ht (by simp [hrole])) hrole
          exact h.worker_moves hpage hi hwas
      | ui =>
          obtain ⟨rfl, hui⟩ := htask
          have hnow : Constructed ((runInstr p.tasks.length a p.shared r).next.after rest) :=
            hbuilt _
              (List.mem_append_left _ (List.mem_of_getElem? (List.getElem?_set_self hlt))) rfl
          by_cases htest : a = .testHandle
          · subst htest
            obtain ⟨rfl, -⟩ := hui.at_test
            cases hh : p.shared.taskHandle with
            | none =>
                -- a creation follows
                have hcreate :
                    .create ∈ (runInstr p.tasks.length .testHandle p.shared r).next.after [] := by
                  simp [runInstr, hh, startWorker]
                exact absurd hcreate hnow.2
            | some j =>
                have hstep : testsHandle p (.run 0 r) = true := by
                  rw [testsHandle, hi]
                obtain ⟨todo, hj, hloop⟩ := sampling_iff.mp (hC hstep j hh)
                exact ⟨_, mem_run hi (List.mem_of_getElem? hj) (by simp), rfl, hloop⟩
          · by_cases hcreate : a = .create
            · subst hcreate
              have hc : r.created = true := hD
              refine ⟨⟨.worker, batteryAdcWorkerTask⟩, List.mem_append_right _ ?_, rfl, ?_⟩
              · simp [batteryProgram, runInstr, hc, Program.spawned]
              · simp [batteryAdcWorkerTask]
            · obtain ⟨hpage, hcode⟩ := outside_constructor hui htest hcreate hmenu hnow
              exact h.ui_moves hpage hi (constructed_of_ui hok hi hcode)

/-- Where the handle is not NULL, the test is the end of the constructor. -/
theorem test_returns (hi : p.tasks[0]? = some ⟨.ui, [.testHandle]⟩)
    (hj : p.shared.taskHandle = some j) (hs : battery.step p (.run 0 r) = some (p', es)) :
    p' = { p with tasks := p.tasks.set 0 ⟨.ui, []⟩ } := by
  obtain ⟨rfl, -⟩ := step_run_eq hi hs
  simp [batteryProgram, runInstr, hj, Program.spawned]

/-- A test of the handle that does not find its sampler leaves the page without
    one. -/
theorem findsSampler_of_sampled (hok : Owned p tr) (hs : battery.step p l = some (p', es))
    (h : PageSampled p' (tr ++ es)) : FindsSampler p l := by
  intro htests j hj
  obtain ⟨i, r, ρ, rest, rfl, hi⟩ := testsHandle_inv htests
  have htask := hok.2 i _ hi
  cases ρ with
  | worker =>
      have hw : WorkerOk i (.testHandle :: rest) p.shared := htask
      exact absurd List.mem_cons_self hw.position.not_mem.2.1
  | ui =>
      obtain ⟨rfl, hui⟩ := htask
      obtain ⟨rfl, hpage⟩ := hui.at_test
      obtain rfl := test_returns hi hj hs
      have hlt := (List.getElem?_eq_some_iff.mp hi).1
      have htasks : ∀ t ∈ p.tasks.set 0 ⟨.ui, []⟩,
          t = ⟨.ui, []⟩ ∨ ∃ m, m ≠ 0 ∧ p.tasks[m]? = some t := by
        intro t ht
        obtain ⟨m, hm⟩ := List.mem_iff_getElem?.mp ht
        by_cases hm0 : m = 0
        · subst hm0
          rw [List.getElem?_set_self hlt] at hm
          exact .inl (Option.some.inj hm).symm
        · rw [List.getElem?_set_ne (Ne.symm hm0)] at hm
          exact .inr ⟨m, hm0, hm⟩
      have hbuilt : ∀ t ∈ p.tasks.set 0 ⟨.ui, []⟩, t.role = .ui → Constructed t.todo := by
        rintro ⟨ρ, todo⟩ ht hrole
        obtain rfl : ρ = .ui := hrole
        rcases htasks _ ht with h1 | ⟨m, hm0, hm⟩
        · rw [(Task.mk.inj h1).2]
          exact ⟨List.not_mem_nil, List.not_mem_nil⟩
        · exact absurd (hok.2 m _ hm).1 hm0
      obtain ⟨⟨ρ, todo⟩, ht, hrole, hloop⟩ := h hpage hbuilt
      obtain rfl : ρ = .worker := hrole
      rcases htasks _ ht with h1 | ⟨m, -, hm⟩
      · cases (Task.mk.inj h1).1
      · -- the handle names whoever has not left
        have hw : WorkerOk m todo p.shared := hok.2 m _ hm
        have hlive := hw.live (hw.position.clear_of_loop hloop)
        obtain rfl : j = m := Option.some.inj (hj.symm.trans hlive)
        exact sampling_iff.mpr ⟨todo, hm, hloop⟩

end Sampled

theorem pageSampled_boot : PageSampled bootBattery [] := fun h => nomatch h

/-- **When the battery page has a sampler.**  In a run in which the creation of
    tasks succeeds, the page is sampled all along exactly when each test of the
    handle in `battery_adc_worker_start` finds NULL or a worker that has not
    left its loop. -/
theorem always_sampled_iff {ls : List (Lab Reply Callback)} {p : BatteryPool}
    {tr : List BatteryEv} (h : Run battery bootBattery ls p tr)
    (hc : Meets battery bootBattery (fun _ l => Creates l) ls) :
    Always battery bootBattery PageSampled ls ↔ Meets battery bootBattery FindsSampler ls := by
  refine always_iff_meets_within (P := fun p tr => Owned p tr ∧ PageSampled p tr)
    ⟨owned_boot, pageSampled_boot⟩ (fun _ _ hP => hP.2) ?_ ?_ h hc
  · intro s tr l s' es hP hD hC hs
    exact ⟨owned_step hP.1 hs, pageSampled_step hP.1 hP.2 hD hC hs⟩
  · intro s tr l s' es hP _ hs hG
    exact findsSampler_of_sampled hP.1 hs hG

/-- The page is opened and its worker makes its first test. -/
def openBatteryPage : List (Lab Reply Callback) :=
  .call 0 (.navigate .hwBattery) :: List.replicate 7 (.run 0 {}) ++
    List.replicate 3 (.run 1 {})

theorem always_sampled_iff_at :
    ∃ p tr, Run battery bootBattery openBatteryPage p tr ∧
      p.shared.currentMenu = .hwBattery ∧
      Always battery bootBattery PageSampled openBatteryPage := by
  have hrun : ∃ p tr, exec battery bootBattery openBatteryPage = some (p, tr) ∧
      p.shared.currentMenu = .hwBattery := ⟨_, _, rfl, rfl⟩
  obtain ⟨p, tr, hexec, hmenu⟩ := hrun
  have hiff := always_sampled_iff (run_of_exec hexec) (meets_of_checks rfl)
  exact ⟨p, tr, run_of_exec hexec, hmenu, hiff.mpr (meets_of_checks rfl)⟩

/-- The page is left, its worker finds that out, and the page is entered again
    before the worker clears its handle. -/
def reopenedTooEarly : List (Lab Reply Callback) :=
  .call 0 (.navigate .hwBattery) :: List.replicate 7 (.run 0 {}) ++
    List.replicate 2 (.run 1 {}) ++
    .call 0 (.navigate .hardwareTests) :: List.replicate 2 (.run 0 {}) ++ [.run 1 {}] ++
    .call 0 (.navigate .hwBattery) :: List.replicate 4 (.run 0 {})

/-- The page is shown, its constructor has finished, and no worker is in its
    loop. -/
theorem reopened_not_sampled :
    ¬ ∀ ls p tr, Run battery bootBattery ls p tr →
      Meets battery bootBattery (fun _ l => Creates l) ls → PageSampled p tr := by
  intro hall
  have hrun : ∃ p tr, exec battery bootBattery reopenedTooEarly = some (p, tr) ∧
      p.shared.currentMenu = .hwBattery ∧
      (p.tasks.all fun t => decide (t.role = .ui → Constructed t.todo)) = true ∧
      (p.tasks.all fun t => decide (.loop ∉ t.todo)) = true := ⟨_, _, rfl, rfl, rfl, rfl⟩
  obtain ⟨p, tr, hexec, hmenu, hbuilt, hleft⟩ := hrun
  obtain ⟨t, ht, -, hloop⟩ := hall _ p tr (run_of_exec hexec) (meets_of_checks rfl) hmenu
    fun t ht hrole => of_decide_eq_true (List.all_eq_true.mp hbuilt t ht) hrole
  exact of_decide_eq_true (List.all_eq_true.mp hleft t ht) hloop

end BatteryAdc
