import KnobFirmware.AudioOwnershipProofs
import KnobFirmware.BatteryAdcProofs

/-! # Sessions do not disturb each other

    A session of a diagnostic is what one start of its worker leads to.  A
    worker that clears its handle lets the next session begin, so it must have
    nothing left to write by then.

    The three audio workers clear their handles last (`audio_isolated`).
    `battery_adc_worker_task` writes IDLE after it has cleared its handle, and
    is isolated only as long as none of its instances gets there
    (`sessions_isolated_iff`).  The battery variables and the audio variables
    are disjoint, so each machine stands for the whole firmware as far as its
    own variables go. -/

namespace SessionIsolation

open EspErr StepMachine TaskPool

/-! ## The audio workers -/

section Audio

open AudioTask AudioOwnership

/-- The diagnostic that shows a meter.  Gain and mute are controls of the page. -/
def telemetryOf : Meter → Option Worker
  | .micLevelPercent | .micRmsRaw | .micDcRaw | .micActiveSlot | .micBlocksRead => some .mic
  | .dacBlocksWritten | .dacControlReadback => some .dac
  | .loopbackBlocks | .loopbackRms | .loopbackOutputRms | .loopbackDc | .loopbackLevelPercent
  | .loopbackClippedSamples | .loopbackControlReadback => some .loopback
  | .loopbackGainPercent | .loopbackMuted => none

/-- State, error and telemetry of the diagnostic are the same. -/
structure Untouched (k : Worker) (sh sh' : Shared) : Prop where
  testState : sh'.testState k = sh.testState k
  lastError : sh'.lastError k = sh.lastError k
  meter : ∀ v, telemetryOf v = some k → sh'.meter v = sh.meter v

/-- The instructions that write state, error or telemetry of the diagnostic. -/
def Writes (k : Worker) : Instr → Prop
  | .setState k' _ | .setError k' _ => k' = k
  | .setMeter v _ | .publish v => telemetryOf v = some k
  | _ => False

/-- What a `xxx_request_stop` function writes. -/
def StopWrite (k : Worker) (a : Instr) : Prop :=
  a = .setState k .stopping ∨ a = .setState k .stopped

/-- The end of a start function whose `xTaskCreate` failed. -/
def failedStart (k : Worker) : List Instr :=
  [.clearHandle k, .setError k espErrNoMem, .setState k .error]

/-- The UI task is in a start function of the diagnostic, or in a stop. -/
def StartOrStop (k : Worker) (todo : List Instr) : Prop :=
  todo <:+ startCode k ∨ todo <:+ failedStart k ∨ ∃ a rest, todo = a :: rest ∧ StopWrite k a

/-- Who may write state, error and telemetry of the diagnostic: the task that
    its handle names, the start and stop code of the UI task, and the stop that
    the loopback's hand-off asks for. -/
def MayWrite (k : Worker) (p : AudioPool) : Lab AudioTask.Reply AudioTask.Callback → Prop
  | .run i _ =>
      ∃ ρ a rest, p.tasks[i]? = some ⟨ρ, a :: rest⟩ ∧
        (ρ = .worker k ∧ p.shared.handle k = some i ∨
          ρ = .ui ∧ StartOrStop k (a :: rest) ∨
          ρ = .worker .loopback ∧ StopWrite k a)
  | .call _ _ => False

structure AudioIsolated (k : Worker) (p : AudioPool) : Prop where
  /-- a worker that clears the handle is done for good -/
  cleared : ∀ i rest r p' es, p.tasks[i]? = some ⟨.worker k, .clearHandle k :: rest⟩ →
    audio.step p (.run i r) = some (p', es) →
    ∀ ls q tr, Run audio p' ls q tr → q.tasks[i]? = some ⟨.worker k, []⟩
  /-- no other instance than the one that the handle names is left -/
  gone : ∀ i todo, p.tasks[i]? = some ⟨.worker k, todo⟩ → todo ≠ [] →
    p.shared.handle k = some i
  writers : ∀ l p' es, audio.step p l = some (p', es) →
    Untouched k p.shared p'.shared ∨ MayWrite k p l

variable {ρ : AudioTask.Role} {k : Worker} {i fresh : Nat} {a : Instr} {rest todo : List Instr}
  {sh : Shared} {r : AudioTask.Reply} {tr : List AudioEv} {p : AudioPool}

/-- A meter is changed by a write of it alone. -/
theorem runInstr_meter (v : Meter) :
    (runInstr ρ i fresh a sh r).shared.meter v = sh.meter v ∨
      (∃ x, a = .setMeter v x) ∨ a = .publish v := by
  cases a with
  | setMeter v' x =>
      by_cases hv : v = v'
      · subst hv
        exact .inr (.inl ⟨x, rfl⟩)
      · exact .inl (Function.update_of_ne hv _ _)
  | publish v' =>
      by_cases hv : v = v'
      · subst hv
        exact .inr (.inr rfl)
      · exact .inl (Function.update_of_ne hv _ _)
  | create k' => left; by_cases hc : r.created = true <;> simp [runInstr, hc, Shared.setHandle]
  | newChannel s => left; by_cases he : r.err = espOk <;> simp [runInstr, he, Shared.setChan]
  | _ => exact .inl rfl

/-- **The frame rule of the instructions.** -/
theorem untouched_of_not_writes (h : ¬ Writes k a) :
    Untouched k sh (runInstr ρ i fresh a sh r).shared where
  testState := by
    have hset : (runInstr ρ i fresh a sh r).shared.testState k = sh.testState k ∨ _ :=
      runInstr_testState k
    rcases hset with h1 | ⟨st, rfl, -⟩
    · exact h1
    · exact absurd rfl h
  lastError := by
    have hset : (runInstr ρ i fresh a sh r).shared.lastError k = sh.lastError k ∨ _ :=
      runInstr_lastError k
    rcases hset with h1 | ⟨e, rfl, -⟩
    · exact h1
    · exact absurd rfl h
  meter := by
    intro v hv
    have hset : (runInstr ρ i fresh a sh r).shared.meter v = sh.meter v ∨ _ := runInstr_meter v
    rcases hset with h1 | ⟨x, rfl⟩ | rfl
    · exact h1
    · exact absurd hv h
    · exact absurd hv h

/-- The meter that an instruction writes. -/
def meterOf : Instr → Option Meter
  | .setMeter v _ | .publish v => some v
  | _ => none

/-- A worker's code writes meters of its own diagnostic, and what the UI task
    has to write belongs to a start that is under way or to a stop. -/
def WritesOwn (_ : Nat) (t : Task AudioTask.Role Instr) (_ : Shared) (_ : List AudioEv) : Prop :=
  match t.role with
  | .worker k => ∀ b ∈ t.todo, ∀ v, meterOf b = some v → telemetryOf v = some k
  | .ui => ∀ k, ∀ b ∈ t.todo, Writes k b →
      StopWrite k b ∨ .create k ∈ t.todo ∨ t.todo <:+ failedStart k

theorem cleanup_meters (k : Worker) :
    ∀ b ∈ cleanup k, ∀ v, meterOf b = some v → telemetryOf v = some k := by
  cases k <;> simp [cleanup, closes, leave, meterOf, telemetryOf]

theorem failWith_meters (k : Worker) (e : EspErr) :
    ∀ b ∈ (failWith e (.worker k)).code, ∀ v, meterOf b = some v → telemetryOf v = some k := by
  intro b hb
  rcases List.mem_append.mp hb with h1 | h1
  · rcases List.mem_pair.mp h1 with rfl | rfl <;> simp [meterOf]
  · exact cleanup_meters k b h1

theorem afterRead_meters (samples : Nat) (s : Slot) :
    ∀ b ∈ afterRead samples s, ∀ v, meterOf b = some v → telemetryOf v = some s.owner := by
  cases s with
  | micRx => simp [afterRead, meterOf, telemetryOf, Slot.owner]
  | loopbackRx =>
      rw [afterRead]
      split <;> simp [meterOf, telemetryOf, Slot.owner]
  | dacTx | loopbackTx => simp [afterRead]

/-- The meters that an instruction of a worker brings in. -/
theorem worker_brings_meters (h : Position k (a :: rest)) :
    ∀ b ∈ (runInstr (.worker k) i fresh a sh r).next.code, ∀ v, meterOf b = some v →
      telemetryOf v = some k := by
  have hfail := failWith_meters k
  have howner : ∀ s, slotOf a = some s → s.owner = k := fun s hs => h.owner hs
  cases a with
  | call s op c =>
      obtain rfl := howner s rfl
      simp only [runInstr]
      cases op <;> simp only [afterCall]
      case read =>
          split
          · simp [Next.code]
          · split
            · exact afterRead_meters r.samples s
            · exact hfail _
      case disable | delete => simp [Next.code]
      all_goals
        split
        · simp [Next.code]
        · exact hfail _
  | gpio | newChannel =>
      simp only [runInstr]
      split
      · simp [Next.code]
      · exact hfail _
  | loop k' =>
      have hnot : .loop k' ∉ settled k := by cases k <;> simp [settled, leave]
      have hk : k' = k := h.early_of_not_mem (by simp) hnot
      subst hk
      simp only [runInstr]
      split
      · simp [Next.code]
      · cases k' <;> simp [Next.code, loopBody, meterOf, telemetryOf]
  | ifStopped =>
      have hnot : .ifStopped ∉ settled k := by cases k <;> simp [settled, leave]
      have hk : k = .loopback := h.early_of_not_mem (by simp) hnot
      subst hk
      simp only [runInstr]
      split
      · exact cleanup_meters .loopback
      · simp [Next.code]
  | recheck cs =>
      cases cs with
      | nil => simp [runInstr, afterRecheck, Next.code]
      | cons c cs =>
          simp only [runInstr, afterRecheck]
          split
          · simp [Next.code, meterOf]
          · exact hfail _
  | poll cs n =>
      cases cs with
      | nil => simp [runInstr, afterPoll, Next.code]
      | cons c cs =>
          simp only [runInstr, afterPoll]
          split
          · simp [Next.code, meterOf]
          · split <;> simp [Next.code, meterOf]
  | toggleMute =>
      have hnot : .toggleMute ∉ settled k := by cases k <;> simp [settled, leave]
      exact (h.early_of_not_mem (by simp) hnot).elim
  | requestStop | stopUnlessError | pollStop | ifOpen | settleUnlessError | leaveAudio
  | rejectIf | create =>
      simp only [runInstr]
      split <;> simp [Next.code, meterOf]
  | setState | setError | setStop | setMeter | publish | clearHandle | clearChan | setMenu
  | use => simp [runInstr, Next.code, meterOf]

/-- The UI task brings in writes of a stop, but for a creation that fails. -/
theorem ui_brings_stop (hcode : UiCode a) (hc : ∀ k', a ≠ .create k') :
    ∀ b ∈ (runInstr .ui i fresh a sh r).next.code, Writes k b → StopWrite k b := by
  cases a with
  | requestStop k' =>
      simp only [runInstr]
      split <;> simp [Next.code, Writes, StopWrite]
  | stopUnlessError k' =>
      simp only [runInstr]
      split <;> simp [Next.code, Writes, StopWrite]
  | leaveAudio | rejectIf =>
      simp only [runInstr]
      split <;> simp [Next.code, Writes]
  | toggleMute => simp [runInstr, Next.code, Writes, telemetryOf]
  | setState | setError | setStop | setMeter | clearHandle | setMenu =>
      simp [runInstr, Next.code]
  | create k' => exact absurd rfl (hc k')
  | _ => exact hcode.elim

theorem workerCode_meters (k : Worker) :
    ∀ b ∈ workerCode k, ∀ v, meterOf b = some v → telemetryOf v = some k := by
  cases k <;> simp [workerCode, micCaptureTask, dacToneTask, audioLoopbackTask, loopbackHandOff,
    loopbackSetup, cleanup, closes, leave, meterOf, telemetryOf]

theorem startWrites_own (k' : Worker) : ∀ b ∈ startWrites k', Writes k b → k' = k := by
  cases k' <;> simp [startWrites, Writes, telemetryOf]

theorem not_writes_of_showMenu (menu : MenuId) : ∀ b ∈ showMenu menu, ¬ Writes k b := by
  rw [showMenu]
  split <;> simp [sdCardMount, sdCardMountGuards, Writes]

/-- A callback writes to a diagnostic in its start function. -/
theorem create_of_writes {c : AudioTask.Callback} {b : Instr} (hb : b ∈ c.code)
    (hw : Writes k b) : .create k ∈ c.code := by
  cases c with
  | start k' =>
      have hk : k' = k := by
        rcases List.mem_append.mp hb with h1 | h1
        · rcases List.mem_append.mp h1 with h2 | h2
          · obtain ⟨g, -, rfl⟩ := List.mem_map.mp h2
            exact hw.elim
          · exact startWrites_own k' b h2 hw
        · obtain rfl := List.mem_singleton.mp h1
          exact hw.elim
      subst hk
      exact List.mem_append_right _ List.mem_cons_self
  | loopbackGainChanged value =>
      obtain rfl := List.mem_singleton.mp hb
      cases hw
  | stop | loopbackToggleMute =>
      obtain rfl := List.mem_singleton.mp hb
      exact hw.elim
  | navigate menu => exact absurd hw (not_writes_of_showMenu menu b hb)
  | audioMicBack menu =>
      rcases List.mem_append.mp hb with h1 | h1
      · have hstop : ∀ b ∈ [Instr.requestStop .mic, .requestStop .dac, .requestStop .loopback],
            ¬ Writes k b := by simp [Writes]
        exact absurd hw (hstop b h1)
      · exact absurd hw (not_writes_of_showMenu menu b h1)
  | sdMount =>
      obtain ⟨g, -, rfl⟩ := List.mem_map.mp hb
      exact hw.elim

/-- A failed start goes on to its end. -/
theorem failedStart_next (h : a ∈ failedStart k) :
    (runInstr ρ i fresh a sh r).next = .goOn [] := by
  have hall : ∀ b ∈ failedStart k, (runInstr ρ i fresh b sh r).next = .goOn [] := by
    simp [failedStart, runInstr]
  exact hall a h

/-- A step of the UI task keeps what it has to write. -/
theorem ui_writes_step (hui : UiOk (a :: rest) sh)
    (h : ∀ b ∈ a :: rest, Writes k b →
      StopWrite k b ∨ .create k ∈ a :: rest ∨ a :: rest <:+ failedStart k) :
    ∀ b ∈ (runInstr .ui i fresh a sh r).next.after rest, Writes k b →
      StopWrite k b ∨ .create k ∈ (runInstr .ui i fresh a sh r).next.after rest ∨
        (runInstr .ui i fresh a sh r).next.after rest <:+ failedStart k := by
  have hcode := hui.code a List.mem_cons_self
  intro b hb hw
  by_cases hcreate : ∃ k', a = .create k'
  · -- nothing follows a creation but its failure
    obtain ⟨k', rfl⟩ := hcreate
    obtain rfl := hui.at_create.1
    have hall : b ∈ failedStart k' ∧
        (runInstr .ui i fresh (.create k') sh r).next.after [] = failedStart k' := by
      by_cases hc : r.created = true
      · simp [runInstr, hc] at hb
      · simpa [runInstr, hc, failedStart] using hb
    have hk : k' = k := by
      have hown : ∀ b ∈ failedStart k', Writes k b → k' = k := by simp [failedStart, Writes]
      exact hown b hall.1 hw
    subst hk
    exact .inr (.inr (hall.2 ▸ List.suffix_refl _))
  · have hstop : ∀ b ∈ (runInstr .ui i fresh a sh r).next.code, Writes k b → StopWrite k b :=
      ui_brings_stop hcode fun k' h1 => hcreate ⟨k', h1⟩
    rcases Next.mem_after hb with h1 | h1
    · exact .inl (hstop b h1 hw)
    · have hn : (∃ q, (runInstr .ui i fresh a sh r).next = .goOn q ∧ _) ∨ _ := ui_next hcode
      rcases hn with ⟨q, hq, -⟩ | ⟨-, hq⟩
      · rw [hq, Next.after_goOn]
        rcases h b (List.mem_cons_of_mem a h1) hw with h2 | h2 | h2
        · exact .inl h2
        · rcases List.mem_cons.mp h2 with rfl | h3
          · exact absurd ⟨k, rfl⟩ hcreate
          · exact .inr (.inl (List.mem_append_right q h3))
        · have hnil : (runInstr .ui i fresh a sh r).next = .goOn [] :=
            failedStart_next (h2.subset List.mem_cons_self)
          obtain rfl : q = [] := Next.goOn.inj (hq.symm.trans hnil)
          exact .inr (.inr ((List.suffix_cons a rest).trans h2))
      · rw [hq] at hb
        exact absurd hb List.not_mem_nil

theorem writesOwn_step {p' : AudioPool} {l : Lab AudioTask.Reply AudioTask.Callback}
    {es : List AudioEv} (hok : Owned p tr) (h : Holds (fun _ _ => True) WritesOwn p tr)
    (hs : audio.step p l = some (p', es)) :
    Holds (fun _ _ => True) WritesOwn p' (tr ++ es) := by
  refine holds_step h ?_ ?_ ?_ ?_ hs
  · intro i r ρ a rest _ hi ht
    refine ⟨trivial, ?_⟩
    cases ρ with
    | worker k =>
        have hw : WorkerOk k i (a :: rest) p.shared := hok.2 i _ hi
        intro b hb
        rcases Next.mem_after hb with h1 | h1
        · exact worker_brings_meters hw.position b h1
        · exact ht b (List.mem_cons_of_mem a h1)
    | ui =>
        obtain ⟨-, hui⟩ : i = 0 ∧ UiOk (a :: rest) p.shared := hok.2 i _ hi
        exact fun k => ui_writes_step hui (ht k)
  · intro i r ρ a rest j u _ _ _ _ _ hu
    exact hu
  · intro i r ρ a rest ρ' _ _ _ o hspawn
    obtain ⟨k, -, -, rfl⟩ := runInstr_spawn hspawn
    exact workerCode_meters k
  · intro i c ρ code _ _ _ hcall
    obtain ⟨rfl, rfl⟩ := audio_call_inv hcall
    intro k b hb hw
    exact .inr (.inl (create_of_writes hb hw))

theorem writesOwn_of_run {ls : List (Lab AudioTask.Reply AudioTask.Callback)}
    (h : Run audio bootAudio ls p tr) : Holds (fun _ _ => True) WritesOwn p tr := by
  have hboot : Holds (fun _ _ => True) WritesOwn bootAudio [] := by
    refine ⟨trivial, fun i t hi => ?_⟩
    obtain ⟨rfl, rfl⟩ := AudioTask.boot_task hi
    exact fun _ b hb => absurd hb List.not_mem_nil
  refine (h.invariant (P := fun p tr => Owned p tr ∧ Holds (fun _ _ => True) WritesOwn p tr)
    ⟨owned_boot, hboot⟩ ?_).2
  intro s tr l s' es hP hs
  exact ⟨owned_step hP.1 hs, writesOwn_step hP.1 hP.2 hs⟩

/-- The diagnostic that a worker's instruction writes to is its own, unless it
    asks for a stop. -/
theorem worker_writes {k' : Worker} (hplace : Position k' (a :: rest))
    (hmeters : ∀ v, meterOf a = some v → telemetryOf v = some k') (hw : Writes k a) :
    k = k' ∨ k' = .loopback ∧ StopWrite k a := by
  cases a with
  | setState k₁ st =>
      obtain rfl : k₁ = k := hw
      rcases hplace.head with h1 | ⟨h1, -⟩ | h1
      · rcases h1 with h1 | ⟨h1, rfl | rfl⟩
        · exact .inl h1
        · exact .inr ⟨h1, .inr rfl⟩
        · exact .inr ⟨h1, .inl rfl⟩
      · cases h1
      · left
        have hmem := h1.subset List.mem_cons_self
        cases k' <;> simp [settled, leave] at hmem <;> exact hmem.1
  | setError k₁ e =>
      obtain rfl : k₁ = k := hw
      left
      rcases hplace.head with h1 | ⟨h1, -⟩ | h1
      · exact h1
      · cases h1
      · have hmem := h1.subset List.mem_cons_self
        cases k' <;> simp [settled, leave] at hmem <;> exact hmem.1
  | setMeter v x =>
      have hv : telemetryOf v = some k := hw
      exact .inl (Option.some.inj (hv.symm.trans (hmeters v rfl)))
  | publish v =>
      have hv : telemetryOf v = some k := hw
      exact .inl (Option.some.inj (hv.symm.trans (hmeters v rfl)))
  | _ => exact hw.elim

/-- **The audio workers are isolated**, in every state of every run. -/
theorem audioIsolated_of_run {ls : List (Lab AudioTask.Reply AudioTask.Callback)}
    (h : Run audio bootAudio ls p tr) (k : Worker) : AudioIsolated k p where
  cleared := by
    intro i rest r p' es hi hs ls q tr' hrun
    have hok : WorkerOk k i (.clearHandle k :: rest) p.shared := (owned_of_run h).2 i _ hi
    obtain ⟨-, rfl⟩ := hok.position.clearHandle
    obtain ⟨rfl, -⟩ := step_run_eq hi hs
    obtain ⟨hlt, -⟩ := List.getElem?_eq_some_iff.mp hi
    refine done_stays (T := audioProgram) (fun sh c => rfl) ?_ hrun
    rw [List.getElem?_append_left (by simpa using hlt), List.getElem?_set_self hlt]
    rfl
  gone := by
    intro i todo hi hne
    have hok : WorkerOk k i todo p.shared := (owned_of_run h).2 i _ hi
    exact hok.live hne
  writers := by
    intro l p' es hs
    cases l with
    | call i c =>
        obtain ⟨ρ, code, -, -, rfl, -⟩ := step_call_inv hs
        exact .inl ⟨rfl, rfl, fun _ _ => rfl⟩
    | run i r =>
        obtain ⟨ρ, a, rest, hi, rfl, -⟩ := step_run_inv hs
        by_cases hw : Writes k a
        · refine .inr ⟨ρ, a, rest, hi, ?_⟩
          have hwrites := (writesOwn_of_run h).2 i _ hi
          cases ρ with
          | ui =>
              obtain ⟨-, hui⟩ : i = 0 ∧ UiOk (a :: rest) p.shared := (owned_of_run h).2 i _ hi
              refine .inr (.inl ⟨rfl, ?_⟩)
              rcases hwrites k a List.mem_cons_self hw with h1 | h1 | h1
              · exact .inr (.inr ⟨a, rest, rfl, h1⟩)
              · exact .inl (hui.creating k h1)
              · exact .inr (.inl h1)
          | worker k' =>
              have hok : WorkerOk k' i (a :: rest) p.shared := (owned_of_run h).2 i _ hi
              rcases worker_writes hok.position (hwrites a List.mem_cons_self) hw with
                rfl | ⟨rfl, h1⟩
              · exact .inl ⟨rfl, hok.live (List.cons_ne_nil _ _)⟩
              · exact .inr (.inr ⟨rfl, h1⟩)
        · exact .inl (untouched_of_not_writes hw)

end Audio

/-! ## The battery worker -/

section Battery

open BatteryAdc

/-- State, error and the published sample are the same. -/
structure SampleUntouched (sh sh' : BatteryAdc.Shared) : Prop where
  sampleState : sh'.sampleState = sh.sampleState
  latestError : sh'.latestError = sh.latestError
  latest : sh'.latest = sh.latest

/-- Who may write them: the worker that the handle names, and
    `battery_adc_worker_start`. -/
def MayWriteSample (p : BatteryPool) : Lab BatteryAdc.Reply BatteryAdc.Callback → Prop
  | .run i _ =>
      ∃ ρ todo, p.tasks[i]? = some ⟨ρ, todo⟩ ∧
        (ρ = .worker ∧ p.shared.taskHandle = some i ∨
          ρ = .ui ∧ (todo <:+ startWorker ∨ todo <:+ BatteryAdc.failedStart))
  | .call _ _ => False

/-- No worker has code left but the one that the handle names. -/
def NoneLeft (p : BatteryPool) : Prop :=
  ∀ i todo, p.tasks[i]? = some ⟨.worker, todo⟩ → todo ≠ [] → p.shared.taskHandle = some i

structure BatteryIsolated (p : BatteryPool) (_ : List BatteryEv) : Prop where
  gone : NoneLeft p
  writers : ∀ l p' es, battery.step p l = some (p', es) →
    SampleUntouched p.shared p'.shared ∨ MayWriteSample p l

/-- The step is not the end of a worker. -/
def KeepsHandle (p : BatteryPool) : Lab BatteryAdc.Reply BatteryAdc.Callback → Prop
  | .run i _ => ∀ t ∈ p.tasks[i]?, t.role = .worker → t.todo.head? ≠ some .clearHandle
  | .call _ _ => True

/-- A session is on: a worker is there, or being started. -/
def SessionOn (p : BatteryPool) : Prop :=
  p.shared.taskHandle ≠ none ∨
    ∃ t ∈ p.tasks, t.role = .ui ∧ t.todo ≠ [] ∧
      (t.todo <:+ startWorker ∨ t.todo <:+ BatteryAdc.failedStart)

/-- While a session is on, only its own worker is left. -/
def OwnSession (p : BatteryPool) (tr : List BatteryEv) : Prop :=
  SessionOn p → BatteryIsolated p tr

/-- Where `battery_adc_worker_start` finds the handle NULL, no worker has code
    left. -/
def StartsClean (p : BatteryPool) (l : Lab BatteryAdc.Reply BatteryAdc.Callback) : Prop :=
  testsHandle p l = true → p.shared.taskHandle = none →
    ∀ t ∈ p.tasks, t.role = .worker → t.todo = []

instance (p : BatteryPool) : (l : Lab BatteryAdc.Reply BatteryAdc.Callback) →
    Decidable (KeepsHandle p l)
  | .run i _ => inferInstanceAs (Decidable (∀ t ∈ p.tasks[i]?, _ → _ ≠ _))
  | .call _ _ => isTrue trivial

instance (p : BatteryPool) (l : Lab BatteryAdc.Reply BatteryAdc.Callback) :
    Decidable (StartsClean p l) :=
  inferInstanceAs (Decidable (_ → _ → ∀ t ∈ p.tasks, _ → _ = _))

variable {p p' : BatteryPool} {l : Lab BatteryAdc.Reply BatteryAdc.Callback}
  {tr es : List BatteryEv} {i fresh : Nat} {a : BatteryAdc.Instr}
  {rest todo : List BatteryAdc.Instr} {sh : BatteryAdc.Shared} {r : BatteryAdc.Reply}

/-- The UI task writes in a start alone. -/
theorem untouched_or_starts (h : UiAt sh (a :: rest)) :
    SampleUntouched sh (BatteryAdc.runInstr fresh a sh r).shared ∨
      a :: rest <:+ startWorker ∨ a :: rest <:+ BatteryAdc.failedStart := by
  cases h with
  | starting hsuf => exact .inr (.inl hsuf)
  | failed hsuf => exact .inr (.inr hsuf)
  | opening hsuf =>
      left
      have hmem := hsuf.subset List.mem_cons_self
      simp only [BatteryAdc.showMenu, List.mem_append, List.mem_cons, List.not_mem_nil, or_false,
        if_true] at hmem
      rcases hmem with (rfl | rfl) | rfl | rfl <;> exact ⟨rfl, rfl, rfl⟩
  | aside hall =>
      left
      have ha := hall a List.mem_cons_self
      cases a with
      | setLabels | setMenu | timerGuard | readState | copyError | copyRaw | copyPinMv
      | copyRailMv | copyCalibrated | render => exact ⟨rfl, rfl, rfl⟩
      | _ => exact ha.elim

/-- **Isolation is about who is left**: the writers follow. -/
theorem isolated_of_gone (hok : Owned p tr) (h : NoneLeft p) : BatteryIsolated p tr where
  gone := h
  writers := by
    intro l p' es hs
    cases l with
    | call i c =>
        obtain ⟨ρ, code, -, -, rfl, -⟩ := step_call_inv hs
        exact .inl ⟨rfl, rfl, rfl⟩
    | run i r =>
        obtain ⟨ρ, a, rest, hi, rfl, -⟩ := step_run_inv hs
        cases ρ with
        | worker => exact .inr ⟨_, _, hi, .inl ⟨rfl, h i _ hi (List.cons_ne_nil _ _)⟩⟩
        | ui =>
            have hui := (hok.2 i _ hi).2
            have hwrote :
                SampleUntouched p.shared (BatteryAdc.runInstr p.tasks.length a p.shared r).shared ∨
                  _ := untouched_or_starts hui
            rcases hwrote with h1 | h1
            · exact .inl h1
            · exact .inr ⟨_, _, hi, .inr ⟨rfl, h1⟩⟩

/-- A step that is not the end of a worker leaves nobody behind. -/
theorem gone_step (hok : Owned p tr) (h : NoneLeft p) (hkeeps : KeepsHandle p l)
    (hs : battery.step p l = some (p', es)) : NoneLeft p' := by
  intro j todo hj hne
  cases l with
  | call i c =>
      obtain ⟨ρ, code, hi, hcall, rfl, -⟩ := step_call_inv hs
      obtain ⟨rfl, -⟩ := battery_call_inv hcall
      by_cases hji : i = j
      · subst hji
        obtain ⟨hlt, -⟩ := List.getElem?_eq_some_iff.mp hi
        change (p.tasks.set i _)[i]? = _ at hj
        rw [List.getElem?_set_self hlt] at hj
        cases hj
      · change (p.tasks.set i _)[j]? = _ at hj
        rw [List.getElem?_set_ne hji] at hj
        exact h j todo hj hne
  | run i r =>
      obtain ⟨ρ, a, rest, hi, rfl, -⟩ := step_run_inv hs
      have htask := hok.2 i _ hi
      rcases tasks_run hj with ⟨rfl, hu⟩ | ⟨hji, hj⟩ | ⟨rfl, ρ', hspawn, hu⟩
      · -- the worker itself
        obtain ⟨rfl, -⟩ := Task.mk.inj hu
        have hw : WorkerOk j (a :: rest) p.shared := htask
        have hhandle : (BatteryAdc.runInstr p.tasks.length a p.shared r).shared.taskHandle =
            p.shared.taskHandle ∨ _ := hw.handle
        rcases hhandle with h1 | ⟨rfl, -⟩
        · exact h1.trans (h j _ hi (List.cons_ne_nil _ _))
        · exact absurd rfl (hkeeps _ hi rfl)
      · have hj' := h j todo hj hne
        cases ρ with
        | worker =>
            have hi' := h i _ hi (List.cons_ne_nil _ _)
            exact absurd (Option.some.inj (hj'.symm.trans hi')) hji
        | ui =>
            have hhandle : (BatteryAdc.runInstr p.tasks.length a p.shared r).shared.taskHandle =
                p.shared.taskHandle ∨ _ := htask.2.handle
            rcases hhandle with h1 | ⟨-, -, -, h1, -⟩
            · exact h1.trans hj'
            · cases h1.symm.trans hj'
      · obtain ⟨rfl, hc, rfl⟩ := BatteryAdc.runInstr_spawn hspawn
        simp [batteryProgram, BatteryAdc.runInstr, hc]

/-- The end of a worker leaves the write of IDLE behind. -/
theorem not_gone_of_end (hok : Owned p tr) (hs : battery.step p l = some (p', es))
    (h : NoneLeft p') : KeepsHandle p l := by
  cases l with
  | call i c => exact trivial
  | run i r =>
      rintro ⟨ρ, todo⟩ hi rfl hhead
      obtain ⟨rest, rfl⟩ := List.head?_eq_some_iff.mp hhead
      have hw : WorkerOk i (.clearHandle :: rest) p.shared := hok.2 i _ hi
      obtain rfl : rest = [.setState .idle] := by
        rcases hw.position.head with ⟨h1, -⟩ | h1
        · exact h1.elim
        · simpa [BatteryAdc.leave, List.suffix_cons_iff] using h1
      obtain ⟨rfl, -⟩ := step_run_eq hi hs
      obtain ⟨hlt, -⟩ := List.getElem?_eq_some_iff.mp hi
      have hnow : (p.tasks.set i ⟨.worker, [.setState .idle]⟩ ++ [])[i]? =
          some ⟨.worker, [.setState .idle]⟩ := by
        rw [List.append_nil, List.getElem?_set_self hlt]
      cases h i _ hnow (List.cons_ne_nil _ _)

/-- A start in progress finds the handle NULL. -/
theorem null_of_start (h : UiAt sh todo) (hne : todo ≠ [])
    (hstart : todo <:+ startWorker ∨ todo <:+ BatteryAdc.failedStart) :
    sh.taskHandle = none := by
  -- a start ends with `xTaskCreate`, and its failure with ERROR
  have hend : .create ∈ todo ∨ .setState .error ∈ todo := by
    rcases hstart with h1 | h1
    · left
      have hlast := h1.getLast hne
      rw [show startWorker.getLast _ = .create from rfl] at hlast
      exact hlast ▸ List.getLast_mem hne
    · right
      have hlast := h1.getLast hne
      rw [show BatteryAdc.failedStart.getLast _ = .setState .error from rfl] at hlast
      exact hlast ▸ List.getLast_mem hne
  cases h with
  | starting _ _ hnull => exact hnull
  | failed _ hnull => exact hnull
  | opening hsuf =>
      rcases hend with h1 | h1
      · simpa [BatteryAdc.showMenu] using hsuf.subset h1
      · simpa [BatteryAdc.showMenu] using hsuf.subset h1
  | aside hall =>
      rcases hend with h1 | h1
      · exact (hall _ h1).elim
      · exact (hall _ h1).elim

/-- What can be left of a start. -/
theorem mem_of_start {b : BatteryAdc.Instr} (hb : b ∈ todo)
    (hstart : todo <:+ startWorker ∨ todo <:+ BatteryAdc.failedStart) :
    b ≠ .testHandle ∧ ¬ Aside b := by
  have hall : ∀ c ∈ startWorker ++ BatteryAdc.failedStart, c ≠ .testHandle ∧ ¬ Aside c := by
    simp [startWorker, BatteryAdc.failedStart, Aside]
  rcases hstart with h1 | h1
  · exact hall b (List.mem_append_left _ (h1.subset hb))
  · exact hall b (List.mem_append_right _ (h1.subset hb))

/-- A step of the UI task that leads into a start was in it, or is the test of
    the handle. -/
theorem start_back (h : UiAt sh (a :: rest))
    (hne : (BatteryAdc.runInstr fresh a sh r).next.after rest ≠ [])
    (hstart : (BatteryAdc.runInstr fresh a sh r).next.after rest <:+ startWorker ∨
      (BatteryAdc.runInstr fresh a sh r).next.after rest <:+ BatteryAdc.failedStart) :
    (a :: rest <:+ startWorker ∨ a :: rest <:+ BatteryAdc.failedStart) ∨
      a = .testHandle ∧ sh.taskHandle = none := by
  cases h with
  | starting hsuf => exact .inl (.inl hsuf)
  | failed hsuf => exact .inl (.inr hsuf)
  | aside hall =>
      have hnext : ∃ q, (BatteryAdc.runInstr fresh a sh r).next = .goOn q ∧ _ :=
        aside_next (hall a List.mem_cons_self)
      obtain ⟨q, hq, hq'⟩ := hnext
      rw [hq, Next.after_goOn] at hne hstart
      obtain ⟨b, hb⟩ := List.exists_mem_of_ne_nil _ hne
      refine absurd ?_ (mem_of_start hb hstart).2
      rcases List.mem_append.mp hb with h1 | h1
      · exact hq' b h1
      · exact hall b (List.mem_cons_of_mem a h1)
  | opening hsuf =>
      by_cases htest : a = .testHandle
      · subst htest
        refine .inr ⟨rfl, ?_⟩
        obtain rfl : rest = [] := by
          simpa [BatteryAdc.showMenu, List.suffix_cons_iff] using hsuf
        by_contra hnull
        simp [BatteryAdc.runInstr, hnull] at hne
      · -- the test of the handle is still to come
        exfalso
        have hlater : .testHandle ∈ (BatteryAdc.runInstr fresh a sh r).next.after rest := by
          simp only [BatteryAdc.showMenu, if_true, List.cons_append, List.nil_append,
            List.suffix_cons_iff, List.suffix_nil] at hsuf
          rcases hsuf with h1 | h1 | h1 | h1 | h1
          · obtain ⟨rfl, rfl⟩ := List.cons.inj h1
            simp [BatteryAdc.runInstr]
          · obtain ⟨rfl, rfl⟩ := List.cons.inj h1
            simp [BatteryAdc.runInstr]
          · obtain ⟨rfl, rfl⟩ := List.cons.inj h1
            simp [BatteryAdc.runInstr]
          · exact absurd (List.cons.inj h1).1 htest
          · cases h1
        exact (mem_of_start hlater hstart).1 rfl

/-- A session that is on after a step was on before it, or begins with it. -/
theorem sessionOn_back (hok : Owned p tr) (hs : battery.step p l = some (p', es))
    (h : SessionOn p') :
    SessionOn p ∨ (testsHandle p l = true ∧ p.shared.taskHandle = none) := by
  cases l with
  | call i c =>
      obtain ⟨ρ, code, hi, hcall, rfl, -⟩ := step_call_inv hs
      obtain ⟨rfl, rfl⟩ := battery_call_inv hcall
      rcases h with h1 | ⟨⟨ρ, todo⟩, ht, hrole, hne, hstart⟩
      · exact .inl (.inl h1)
      · rcases List.mem_or_eq_of_mem_set ht with h1 | h1
        · exact .inl (.inr ⟨_, h1, hrole, hne, hstart⟩)
        · -- no callback is a part of a start
          obtain ⟨rfl, rfl⟩ := Task.mk.inj h1
          exfalso
          cases c with
          | timer => exact (mem_of_start List.mem_cons_self hstart).2 trivial
          | navigate menu =>
              have hlabels : .setLabels false ∈ (BatteryAdc.Callback.navigate menu).code :=
                List.mem_append_left _ List.mem_cons_self
              exact (mem_of_start hlabels hstart).2 trivial
  | run i r =>
      obtain ⟨ρ, a, rest, hi, rfl, -⟩ := step_run_inv hs
      have htask := hok.2 i _ hi
      cases ρ with
      | worker =>
          have hw : WorkerOk i (a :: rest) p.shared := htask
          rcases h with h1 | ⟨t, ht, hrole, hne, hstart⟩
          · left
            left
            have hhandle : (BatteryAdc.runInstr p.tasks.length a p.shared r).shared.taskHandle =
                p.shared.taskHandle ∨ _ := hw.handle
            rcases hhandle with h2 | ⟨-, h2⟩
            · exact fun h0 => h1 (h2.trans h0)
            · exact absurd h2 h1
          · left
            right
            refine ⟨t, ?_, hrole, hne, hstart⟩
            obtain ⟨j, hj⟩ := List.mem_iff_getElem?.mp ht
            rcases tasks_run hj with ⟨-, rfl⟩ | ⟨-, hj⟩ | ⟨-, ρ', hspawn, rfl⟩
            · cases hrole
            · exact List.mem_of_getElem? hj
            · obtain ⟨-, -, rfl⟩ := BatteryAdc.runInstr_spawn hspawn
              cases hrole
      | ui =>
          have hui := htask.2
          have hback : (a :: rest <:+ startWorker ∨ a :: rest <:+ BatteryAdc.failedStart) →
              SessionOn p := fun hstart =>
            .inr ⟨_, List.mem_of_getElem? hi, rfl, List.cons_ne_nil _ _, hstart⟩
          rcases h with h1 | ⟨t, ht, hrole, hne, hstart⟩
          · have hhandle : (BatteryAdc.runInstr p.tasks.length a p.shared r).shared.taskHandle =
                p.shared.taskHandle ∨ _ := hui.handle
            rcases hhandle with h2 | ⟨rfl, rfl, -⟩
            · exact .inl (.inl fun h0 => h1 (h2.trans h0))
            · exact .inl (hback (.inl ⟨[_, _], rfl⟩))
          · obtain ⟨j, hj⟩ := List.mem_iff_getElem?.mp ht
            rcases tasks_run hj with ⟨-, rfl⟩ | ⟨-, hj⟩ | ⟨-, ρ', hspawn, rfl⟩
            · rcases start_back hui hne hstart with h2 | ⟨rfl, hnull⟩
              · exact .inl (hback h2)
              · refine .inr ⟨?_, hnull⟩
                rw [testsHandle, hi]
            · exact .inl (.inr ⟨t, List.mem_of_getElem? hj, hrole, hne, hstart⟩)
            · obtain ⟨-, -, rfl⟩ := BatteryAdc.runInstr_spawn hspawn
              cases hrole

/-- **A session keeps to its own worker** through every step but a start that
    finds an earlier worker with code left. -/
theorem ownSession_step (hok : Owned p tr) (h : OwnSession p tr) (hclean : StartsClean p l)
    (hs : battery.step p l = some (p', es)) : OwnSession p' (tr ++ es) := by
  intro hon
  refine isolated_of_gone (owned_step hok hs) ?_
  have hgone : NoneLeft p := by
    rcases sessionOn_back hok hs hon with h1 | ⟨htest, hnull⟩
    · exact (h h1).gone
    · intro i todo hi hne
      exact absurd (hclean htest hnull _ (List.mem_of_getElem? hi) rfl) hne
  refine gone_step hok hgone ?_ hs
  cases l with
  | call i c => exact trivial
  | run i r =>
      -- a worker that ends does so when no session is on any more
      rintro ⟨ρ, todo⟩ hi rfl hhead
      obtain ⟨rest, rfl⟩ := List.head?_eq_some_iff.mp hhead
      have hlive := hgone i _ hi (List.cons_ne_nil _ _)
      obtain ⟨rfl, -⟩ := step_run_eq hi hs
      rcases hon with h1 | ⟨⟨ρ, todo⟩, ht, hrole, hne, hstart⟩
      · exact h1 rfl
      · obtain rfl : ρ = .ui := hrole
        obtain ⟨j, hj⟩ := List.mem_iff_getElem?.mp ht
        rcases tasks_run hj with ⟨-, h2⟩ | ⟨-, hj⟩ | ⟨-, ρ', hspawn, -⟩
        · cases (Task.mk.inj h2).1
        · cases hlive.symm.trans (null_of_start (hok.2 j _ hj).2 hne hstart)
        · cases hspawn

/-- Where the handle is NULL, a start follows its test. -/
theorem test_starts (hi : p.tasks[i]? = some ⟨.ui, [.testHandle]⟩)
    (hnull : p.shared.taskHandle = none) (hs : battery.step p (.run i r) = some (p', es)) :
    p' = { p with tasks := p.tasks.set i ⟨.ui, startWorker⟩ } := by
  obtain ⟨rfl, -⟩ := step_run_eq hi hs
  simp [batteryProgram, BatteryAdc.runInstr, hnull, Program.spawned]

/-- A start that finds an earlier worker with code left is in its session with
    it. -/
theorem startsClean_of_own (hok : Owned p tr) (hs : battery.step p l = some (p', es))
    (h : OwnSession p' (tr ++ es)) : StartsClean p l := by
  rintro htest hnull ⟨ρ', todo⟩ ht rfl
  obtain ⟨i, r, ρ, rest, rfl, hi⟩ := testsHandle_inv htest
  have htask := hok.2 i _ hi
  cases ρ with
  | worker =>
      have hw : WorkerOk i (.testHandle :: rest) p.shared := htask
      exact absurd List.mem_cons_self hw.position.not_mem.2.1
  | ui =>
      obtain ⟨rfl, -⟩ := htask.2.at_test
      obtain rfl := test_starts hi hnull hs
      obtain ⟨hlt, -⟩ := List.getElem?_eq_some_iff.mp hi
      have hon : SessionOn { p with tasks := p.tasks.set i ⟨.ui, startWorker⟩ } :=
        .inr ⟨_, List.mem_of_getElem? (List.getElem?_set_self hlt), rfl, List.cons_ne_nil _ _,
          .inl (List.suffix_refl _)⟩
      obtain ⟨j, hj⟩ := List.mem_iff_getElem?.mp ht
      have hji : i ≠ j := by
        rintro rfl
        cases (Task.mk.inj (Option.some.inj (hi.symm.trans hj))).1
      have hj' : (p.tasks.set i ⟨.ui, startWorker⟩)[j]? = some ⟨.worker, todo⟩ := by
        rw [List.getElem?_set_ne hji, hj]
      by_contra hne
      -- its code is left when the session is on, and the handle is NULL
      cases hnull.symm.trans ((h hon).gone j todo hj' hne)

theorem noneLeft_boot : NoneLeft bootBattery := by
  intro i todo hi
  cases (Task.mk.inj (BatteryAdc.boot_task hi).2).1

/-- **The sessions are isolated.**  The audio workers are, in every state of
    every run.  The battery worker is, all along a run, exactly when none of
    its instances ends; and its sessions keep to their own workers exactly when
    each start that finds the handle NULL finds no earlier worker with code
    left. -/
theorem sessions_isolated_iff {la : List (Lab AudioTask.Reply AudioTask.Callback)}
    {pa : AudioTask.AudioPool} {ta : List AudioTask.AudioEv}
    {ls : List (Lab BatteryAdc.Reply BatteryAdc.Callback)}
    (ha : Run AudioTask.audio AudioTask.bootAudio la pa ta) (h : Run battery bootBattery ls p tr) :
    (∀ k, AudioIsolated k pa) ∧
      (Always battery bootBattery BatteryIsolated ls ↔
        Meets battery bootBattery KeepsHandle ls) ∧
      (Always battery bootBattery OwnSession ls ↔
        Meets battery bootBattery StartsClean ls) := by
  have hboot : BatteryIsolated bootBattery [] := isolated_of_gone owned_boot noneLeft_boot
  refine ⟨audioIsolated_of_run ha, ?_, ?_⟩
  · refine always_iff_meets (I := Owned) owned_boot (fun _ _ _ _ _ => owned_step) hboot ?_ h
    intro s tr l s' es hok hG hs
    constructor
    · exact fun hG' => not_gone_of_end hok hs hG'.gone
    · exact fun hC => isolated_of_gone (owned_step hok hs) (gone_step hok hG.gone hC hs)
  · refine always_iff_meets (I := Owned) owned_boot (fun _ _ _ _ _ => owned_step)
      (fun _ => hboot) ?_ h
    intro s tr l s' es hok hG hs
    exact ⟨startsClean_of_own hok hs, fun hC => ownSession_step hok hG hC hs⟩

theorem sessions_isolated_iff_at :
    ∃ pa ta, Run AudioTask.audio AudioTask.bootAudio AudioOwnership.meterOn pa ta ∧
      pa.shared.handle .mic = some 1 ∧ AudioIsolated .mic pa ∧
      Always battery bootBattery BatteryIsolated openBatteryPage ∧
      Always battery bootBattery OwnSession openBatteryPage := by
  have hmeter : ∃ pa ta, exec AudioTask.audio AudioTask.bootAudio AudioOwnership.meterOn =
      some (pa, ta) ∧ pa.shared.handle .mic = some 1 := ⟨_, _, rfl, rfl⟩
  have hpage : ∃ p tr, exec battery bootBattery openBatteryPage = some (p, tr) := ⟨_, _, rfl⟩
  obtain ⟨pa, ta, hexeca, hmic⟩ := hmeter
  obtain ⟨p, tr, hexec⟩ := hpage
  have hiff := sessions_isolated_iff (run_of_exec hexeca) (run_of_exec hexec)
  exact ⟨pa, ta, run_of_exec hexeca, hmic, hiff.1 .mic, hiff.2.1.mpr (meets_of_checks rfl),
    hiff.2.2.mpr (meets_of_checks rfl)⟩

/-- The page is left, its worker finds that out and clears its handle. -/
def leftAndCleared : List (Lab BatteryAdc.Reply BatteryAdc.Callback) :=
  openBatteryPage ++ .call 0 (.navigate .hardwareTests) :: List.replicate 2 (.run 0 {}) ++
    List.replicate 9 (.run 1 {})

/-- The page is opened again before the write of IDLE, and the new worker
    publishes its sample. -/
def reopenedInTime : List (Lab BatteryAdc.Reply BatteryAdc.Callback) :=
  leftAndCleared ++ .call 0 (.navigate .hwBattery) :: List.replicate 7 (.run 0 {}) ++
    List.replicate 10 (.run 2 {})

/-- The earlier worker puts the READY of the session back to IDLE. -/
theorem ready_put_back :
    ∃ p p' tr es, Run battery bootBattery reopenedInTime p tr ∧
      p.shared.currentMenu = .hwBattery ∧ p.shared.taskHandle = some 2 ∧
      p.shared.sampleState = .ready ∧ battery.step p (.run 1 {}) = some (p', es) ∧
      p'.shared.sampleState = .idle ∧ p'.shared.taskHandle = some 2 ∧
      ¬ BatteryIsolated p tr := by
  have hrun : ∃ p p' tr es, exec battery bootBattery reopenedInTime = some (p, tr) ∧
      p.shared.currentMenu = .hwBattery ∧ p.shared.taskHandle = some 2 ∧
      p.shared.sampleState = .ready ∧ battery.step p (.run 1 {}) = some (p', es) ∧
      p'.shared.sampleState = .idle ∧ p'.shared.taskHandle = some 2 ∧
      p.tasks[1]? = some ⟨.worker, [.setState .idle]⟩ :=
    ⟨_, _, _, _, rfl, rfl, rfl, rfl, rfl, rfl, rfl, rfl⟩
  obtain ⟨p, p', tr, es, hexec, hmenu, hhandle, hready, hstep, hidle, hhandle', hold⟩ := hrun
  refine ⟨p, p', tr, es, run_of_exec hexec, hmenu, hhandle, hready, hstep, hidle, hhandle', ?_⟩
  intro h
  cases (h.gone 1 _ hold (List.cons_ne_nil _ _)).symm.trans hhandle

end Battery

end SessionIsolation
