import KnobFirmware.BatteryAdcProofs
import Mathlib.Data.List.DropRight

/-! # The sample that the battery page shows

    A sample is four variables, written one after another while the state is
    READY from the sample before, and copied one after another by the timer.

    The trace records the writes and the copies.  `written v` are the samples
    that a variable has been written from, in order; each is a prefix of
    `samples`, and the worker's remaining code holds what is missing
    (`Cycle.publishing`).  So a tuple is one sample's when its four copies have
    seen the same number of writes, which is what `InStep` asks of a step. -/

namespace BatterySnapshot

open BatteryAdc EspErr StepMachine TaskPool

/-! ## What the trace says -/

/-- The samples of the successful reads, in order. -/
def samples (tr : List BatteryEv) : List Sample :=
  tr.filterMap fun
    | .sampled s => some s
    | _ => none

/-- The samples that the variable was written from, in order. -/
def written (v : Var) (tr : List BatteryEv) : List Sample :=
  tr.filterMap fun
    | .wrote u s => if u = v then some s else none
    | _ => none

/-- How many writes of `battery_latest_raw` its last copy comes after. -/
def seenByCopy (tr : List BatteryEv) : Nat :=
  (written .raw (tr.rdropWhile (· ≠ .copied .raw))).length

/-- What the timer shows is what one read, the `k`th, has returned and the
    `k`th write of each variable has published. -/
def Untorn (tr : List BatteryEv) : Prop :=
  ∀ pre post s, tr = pre ++ .shown s :: post →
    ∃ k : Nat, (samples pre)[k]? = some s ∧ ∀ v, (written v pre)[k]? = some s

/-- The variable that an instruction copies after the copy of
    `battery_latest_raw`. -/
def laterCopy : Instr → Option Var
  | .copyPinMv _ => some .pinMv
  | .copyRailMv _ _ => some .railMv
  | .copyCalibrated _ _ _ => some .calibrated
  | _ => none

/-- The variable that a step copies after the copy of `battery_latest_raw`. -/
def copiesLater (p : BatteryPool) : Lab Reply Callback → Option Var
  | .run i _ =>
      match p.tasks[i]? with
      | some ⟨_, a :: _⟩ => laterCopy a
      | _ => none
  | .call _ _ => none

/-- A step that copies a variable comes after as many writes of it as there
    were of `battery_latest_raw` at the copy of that: the timer and the worker
    have not overtaken each other. -/
def InStep (s : BatteryPool × List BatteryEv) (l : Lab Reply Callback) : Prop :=
  ∀ v ∈ copiesLater s.1 l, (written v s.2).length = seenByCopy s.2

instance (s : BatteryPool × List BatteryEv) (l : Lab Reply Callback) : Decidable (InStep s l) :=
  inferInstanceAs (Decidable (∀ v ∈ _, _))

section Traces

variable {v u : Var} {s x : Sample} {tr es : List BatteryEv} {e : BatteryEv}

@[simp] theorem samples_append : samples (tr ++ es) = samples tr ++ samples es :=
  List.filterMap_append

@[simp] theorem written_append : written v (tr ++ es) = written v tr ++ written v es :=
  List.filterMap_append

theorem seenByCopy_append (h : .copied .raw ∉ es) : seenByCopy (tr ++ es) = seenByCopy tr := by
  have hdrop : ∀ e ∈ es.reverse, decide (e ≠ .copied .raw) = true := by
    intro e he
    refine decide_eq_true ?_
    rintro rfl
    exact h (List.mem_reverse.mp he)
  rw [seenByCopy, List.rdropWhile, List.reverse_append, List.dropWhile_append_of_pos hdrop]
  rfl

theorem seenByCopy_copied : seenByCopy (tr ++ [.copied .raw]) = (written .raw tr).length := by
  rw [seenByCopy, List.rdropWhile_concat_neg _ _ _ (by simp)]
  simp [written]

theorem untorn_nil : Untorn [] := by
  intro pre post s h
  exact absurd h.symm (List.append_ne_nil_of_right_ne_nil _ (List.cons_ne_nil _ _))

/-- An event is either shown from one sample or does not show values. -/
theorem untorn_concat (h : Untorn tr)
    (hs : ∀ s, e = .shown s →
      ∃ k : Nat, (samples tr)[k]? = some s ∧ ∀ v, (written v tr)[k]? = some s) :
    Untorn (tr ++ [e]) := by
  intro pre post s heq
  rcases List.eq_nil_or_concat post with rfl | ⟨post', e', rfl⟩
  · obtain ⟨rfl, he⟩ := List.append_inj' heq rfl
    exact hs s (List.cons.inj he).1
  · rw [List.concat_eq_append, ← List.cons_append, ← List.append_assoc] at heq
    exact h pre post' s (List.append_inj' heq rfl).1

end Traces

/-! ## The worker's cycle -/

/-- The samples that the remaining code has still to write to the variable. -/
def pending (v : Var) (todo : List Instr) : List Sample :=
  todo.filterMap fun
    | .publish u s => if u = v then some s else none
    | _ => none

/-- A worker's remaining code, an instruction at a time. -/
inductive CycleAt : List Instr → Prop where
  | done : CycleAt []
  | idle : CycleAt [.setState .idle]
  | clear : CycleAt leave
  | loop : CycleAt (.loop :: leave)
  | read : CycleAt (.read :: .loop :: leave)
  | ready : CycleAt (.setState .ready :: .loop :: leave)
  | publish {v : Var} {s : Sample} {rest : List Instr} (h : CycleAt rest)
      (hclear : .clearHandle ∈ rest) : CycleAt (.publish v s :: rest)
  | setError {e : EspErr} {rest : List Instr} (h : CycleAt rest)
      (hclear : .clearHandle ∈ rest) : CycleAt (.setError e :: rest)
  | setState {st : SampleState} {rest : List Instr} (hne : st ≠ .ready) (h : CycleAt rest)
      (hclear : .clearHandle ∈ rest) : CycleAt (.setState st :: rest)

/-- The assertion of a worker.  Until it clears the handle, it holds what the
    variables lack of the samples. -/
structure Cycle (todo : List Instr) (tr : List BatteryEv) : Prop where
  place : CycleAt todo
  publishing : .clearHandle ∈ todo → ∀ v, written v tr ++ pending v todo = samples tr
  sampled : .setState .ready ∈ todo → samples tr ≠ []

/-- The assertion of the shared variables. -/
structure Published (sh : Shared) (tr : List BatteryEv) : Prop where
  latest : ∀ v s, (written v tr).getLast? = some s → sh.latest.put v s = sh.latest
  inOrder : ∀ v, written v tr <+: samples tr
  vacant : sh.taskHandle = none → ∀ v, written v tr = samples tr
  ready : sh.sampleState = .ready → written .raw tr ≠ []
  untorn : Untorn tr

section Worker

variable {i fresh : Nat} {a : Instr} {rest : List Instr} {sh : Shared} {r : Reply}
  {tr : List BatteryEv} {v u : Var} {s t x : Sample}

theorem cycleAt_publication (s : Sample) : CycleAt (publication s ++ .loop :: leave) := by
  refine .publish (.publish (.publish (.publish (.setError .ready ?_) ?_) ?_) ?_) ?_ <;>
    simp [leave]

theorem cycleAt_task : CycleAt batteryAdcWorkerTask := by
  refine .setState (by decide) (.setError .loop ?_) ?_ <;> simp [leave]

theorem pending_publication (s : Sample) : pending v (publication s ++ .loop :: leave) = [s] := by
  cases v <;> rfl

/-- Writing a variable leaves it with the sample's value. -/
theorem put_put_self : (x.put v s).put v s = x.put v s := by
  cases v <;> rfl

theorem put_comm (hne : u ≠ v) : (x.put u t).put v s = (x.put v s).put u t := by
  cases u <;> cases v <;> first
    | exact absurd rfl hne
    | rfl

/-- The assertion of the shared variables, where no sample is read, written or
    shown. -/
theorem Published.frame {sh' : Shared} {es : List BatteryEv} (h : Published sh tr)
    (hlatest : sh'.latest = sh.latest) (hhandle : sh'.taskHandle = none → sh.taskHandle = none)
    (hready : sh'.sampleState = .ready → written .raw tr ≠ [])
    (hsamples : samples es = []) (hwritten : ∀ v, written v es = [])
    (huntorn : Untorn (tr ++ es)) : Published sh' (tr ++ es) where
  latest := by
    intro v s hs
    rw [written_append, hwritten, List.append_nil] at hs
    rw [hlatest]
    exact h.latest v s hs
  inOrder := by
    intro v
    rw [written_append, hwritten, List.append_nil, samples_append, hsamples, List.append_nil]
    exact h.inOrder v
  vacant := by
    intro h0 v
    rw [written_append, hwritten, List.append_nil, samples_append, hsamples, List.append_nil]
    exact h.vacant (hhandle h0) v
  ready := by
    intro h0
    rw [written_append, hwritten, List.append_nil]
    exact hready h0
  untorn := huntorn

/-- The read of a sample. -/
theorem Published.sampled {adc : Adc} (h : Published sh tr) (hlive : sh.taskHandle ≠ none) :
    Published { sh with adc := adc } (tr ++ [.sampled s]) where
  latest := by
    intro v t ht
    rw [written_append] at ht
    exact h.latest v t (by simpa [written] using ht)
  inOrder := by
    intro v
    rw [written_append, samples_append]
    simpa [written] using (h.inOrder v).trans (List.prefix_append _ _)
  vacant := fun h0 => absurd h0 hlive
  ready := by
    intro h0
    rw [written_append]
    exact List.append_ne_nil_of_left_ne_nil (h.ready h0) _
  untorn := untorn_concat h.untorn (by simp)

/-- The write of a variable that lacks the sample. -/
theorem Published.wrote (h : Published sh tr) (hlive : sh.taskHandle ≠ none)
    (missing : List Sample) (hmissing : written v tr ++ s :: missing = samples tr) :
    Published { sh with latest := sh.latest.put v s } (tr ++ [.wrote v s]) where
  latest := by
    intro u t ht
    by_cases huv : v = u
    · subst huv
      obtain rfl : s = t := by simpa [written] using ht
      exact put_put_self
    · have hu : (written u tr).getLast? = some t := by simpa [written, huv] using ht
      show (sh.latest.put v s).put u t = _
      rw [put_comm huv, h.latest u t hu]
  inOrder := by
    intro u
    by_cases huv : v = u
    · subst huv
      refine ⟨missing, ?_⟩
      simpa [written, samples] using hmissing
    · simpa [written, samples, huv] using h.inOrder u
  vacant := fun h0 => absurd h0 hlive
  ready := by
    intro h0
    rw [written_append]
    exact List.append_ne_nil_of_left_ne_nil (h.ready h0) _
  untorn := untorn_concat h.untorn (by simp)

/-- The rest of the code after an instruction that writes no sample. -/
theorem Cycle.tail (h : Cycle (a :: rest) tr) (hplace : CycleAt rest)
    (hpending : ∀ v, pending v (a :: rest) = pending v rest) : Cycle rest tr where
  place := hplace
  publishing := by
    intro hclear v
    rw [← hpending v]
    exact h.publishing (List.mem_cons_of_mem a hclear) v
  sampled := fun hready => h.sampled (List.mem_cons_of_mem a hready)

/-- Where a worker has nothing left to write to a variable, the variable has
    every sample. -/
theorem Cycle.complete {todo : List Instr} (h : Cycle todo tr) (hclear : .clearHandle ∈ todo)
    (hnone : pending v todo = []) : written v tr = samples tr := by
  have hv := h.publishing hclear v
  rwa [hnone, List.append_nil] at hv

/-- **A worker's step**: a read leaves the variables lacking one sample, which
    the following writes make up for. -/
theorem Cycle.step (hw : WorkerOk i (a :: rest) sh) (h : Cycle (a :: rest) tr)
    (hG : Published sh tr) :
    Published (runInstr fresh a sh r).shared (tr ++ (runInstr fresh a sh r).events) ∧
      Cycle ((runInstr fresh a sh r).next.after rest)
        (tr ++ (runInstr fresh a sh r).events) := by
  have hlive : .clearHandle ∈ a :: rest → sh.taskHandle ≠ none := by
    intro hclear h0
    rw [hw.live hclear] at h0
    cases h0
  have hquiet : Untorn (tr ++ []) := by
    rw [List.append_nil]
    exact hG.untorn
  generalize htodo : a :: rest = todo at h
  cases h.place with
  | done => cases htodo
  | idle =>
      obtain ⟨rfl, rfl⟩ := List.cons.inj htodo
      refine ⟨hG.frame rfl id (fun h0 => ?_) rfl (fun _ => rfl) hquiet, ?_⟩
      · cases h0
      · exact ⟨.done, fun h0 => absurd h0 List.not_mem_nil, fun h0 => absurd h0 List.not_mem_nil⟩
  | clear =>
      obtain ⟨rfl, rfl⟩ := List.cons.inj htodo
      -- the next worker finds the variables complete
      have hall : ∀ v, written v tr = samples tr := fun v => h.complete List.mem_cons_self rfl
      refine ⟨⟨?_, ?_, fun _ v => ?_, ?_, hquiet⟩, ?_⟩
      · simpa [runInstr] using hG.latest
      · simpa [runInstr] using hG.inOrder
      · simpa [runInstr] using hall v
      · simpa [runInstr] using hG.ready
      · simpa [runInstr] using h.tail .idle fun _ => rfl
  | loop =>
      obtain ⟨rfl, rfl⟩ := List.cons.inj htodo
      refine ⟨hG.frame rfl id hG.ready rfl (fun _ => rfl) hquiet, ?_⟩
      show Cycle ((if _ then _ else _) ++ leave) (tr ++ [])
      rw [List.append_nil]
      split
      · exact ⟨.read, fun _ => h.publishing (by simp [leave]), by simp [leave]⟩
      · exact h.tail .clear fun _ => rfl
  | read =>
      obtain ⟨rfl, rfl⟩ := List.cons.inj htodo
      have hall : ∀ v, written v tr = samples tr := fun v => h.complete (by simp [leave]) rfl
      simp only [runInstr]
      split
      · rename_i s adc _
        refine ⟨hG.sampled (hlive (by simp [leave])), cycleAt_publication s, fun _ v => ?_, ?_⟩
        · show _ ++ pending v (publication s ++ .loop :: leave) = _
          rw [pending_publication, written_append, samples_append, hall v]
          simp [written, samples]
        · simp [samples]
      · rename_i e adc _
        refine ⟨hG.frame rfl id hG.ready rfl (fun _ => rfl) hquiet, ?_⟩
        refine ⟨.setError (.setState (by decide) .loop ?_) ?_, fun _ v => ?_, ?_⟩
        · simp [leave]
        · simp [leave]
        · rw [List.append_nil, hall v]
          exact List.append_nil _
        · simp [leave]
  | ready =>
      obtain ⟨rfl, rfl⟩ := List.cons.inj htodo
      have hraw : written .raw tr ≠ [] := by
        have hall : written .raw tr = samples tr := h.complete (by simp [leave]) rfl
        rw [hall]
        exact h.sampled List.mem_cons_self
      refine ⟨hG.frame rfl id (fun _ => hraw) rfl (fun _ => rfl) hquiet, ?_⟩
      simpa [runInstr] using h.tail .loop fun _ => rfl
  | @publish v s rest hrest hclear =>
      obtain ⟨rfl, rfl⟩ := List.cons.inj htodo
      have hlack := h.publishing (List.mem_cons_of_mem _ hclear)
      refine ⟨hG.wrote (hlive (List.mem_cons_of_mem _ hclear)) (pending v rest) ?_,
        hrest, fun _ u => ?_, fun hready => ?_⟩
      · simpa [pending] using hlack v
      · have hu := hlack u
        by_cases hvu : v = u
        · subst hvu
          simpa [pending, written, samples, runInstr] using hu
        · simpa [pending, written, samples, runInstr, hvu] using hu
      · simpa [runInstr, samples] using h.sampled (List.mem_cons_of_mem _ hready)
  | @setError e rest hrest hclear =>
      obtain ⟨rfl, rfl⟩ := List.cons.inj htodo
      refine ⟨hG.frame rfl id hG.ready rfl (fun _ => rfl) hquiet, ?_⟩
      simpa [runInstr] using h.tail hrest fun _ => rfl
  | @setState st rest hne hrest hclear =>
      obtain ⟨rfl, rfl⟩ := List.cons.inj htodo
      refine ⟨hG.frame rfl id (fun h0 => absurd h0 hne) rfl (fun _ => rfl) hquiet, ?_⟩
      simpa [runInstr] using h.tail hrest fun _ => rfl

end Worker

/-! ## The timer's copies -/

/-- The copy of `battery_latest_raw`, and those of the variables `vs`, were
    made of one sample. -/
def Copying (vs : List Var) (s : Sample) (tr : List BatteryEv) : Prop :=
  ∃ k : Nat, seenByCopy tr = k + 1 ∧ (samples tr)[k]? = some s ∧
    ∀ v ∈ vs, (written v tr)[k]? = some s

/-- What holds where the timer callback is to run an instruction. -/
def CopyOk (tr : List BatteryEv) : Instr → Prop
  | .timerGuard | .readState | .copyError => True
  | .copyRaw => written .raw tr ≠ []
  | .copyPinMv raw => ∃ s, Copying [.raw] s tr ∧ raw = s.raw
  | .copyRailMv raw pinMv =>
      ∃ s, Copying [.pinMv, .raw] s tr ∧ raw = s.raw ∧ pinMv = s.pinMv
  | .copyCalibrated raw pinMv railMv =>
      ∃ s, Copying [.railMv, .pinMv, .raw] s tr ∧ raw = s.raw ∧ pinMv = s.pinMv ∧
        railMv = s.railMv
  | .render s => Copying [.calibrated, .railMv, .pinMv, .raw] s tr
  | _ => False

/-- The UI instructions outside the timer callback. -/
def OffTimer : Instr → Prop
  | .setState st => st ≠ .ready
  | .setError _ | .clearHandle | .setLabels _ | .setMenu _ | .testHandle | .create => True
  | _ => False

/-- The assertion of the UI task. -/
inductive Timer (tr : List BatteryEv) : List Instr → Prop where
  | copying {a : Instr} (h : CopyOk tr a) : Timer tr [a]
  | off {todo : List Instr} (h : ∀ a ∈ todo, OffTimer a) : Timer tr todo

section Timer

variable {i fresh : Nat} {a : Instr} {rest todo : List Instr} {sh : Shared} {r : Reply}
  {tr es : List BatteryEv} {v : Var} {vs : List Var} {s : Sample}

theorem getElem?_append_of_some {xs ys : List Sample} {k : Nat} (h : xs[k]? = some s) :
    (xs ++ ys)[k]? = some s := by
  rw [List.getElem?_append_left (List.getElem?_eq_some_iff.mp h).1, h]

/-- What was copied stays one sample's until the next copy begins. -/
theorem Copying.append (h : Copying vs s tr) (hes : .copied .raw ∉ es) :
    Copying vs s (tr ++ es) := by
  obtain ⟨k, hseen, hk, hvs⟩ := h
  refine ⟨k, (seenByCopy_append hes).trans hseen, ?_, fun v hv => ?_⟩
  · rw [samples_append]
    exact getElem?_append_of_some hk
  · rw [written_append]
    exact getElem?_append_of_some (hvs v hv)

/-- The last write of a variable that was written `k + 1` times. -/
theorem Published.latest_of_length (h : Published sh tr) {k : Nat}
    (hlen : (written v tr).length = k + 1) (hk : (samples tr)[k]? = some s) :
    (written v tr)[k]? = some s ∧ sh.latest.put v s = sh.latest := by
  obtain ⟨more, hmore⟩ := h.inOrder v
  have hlt : k < (written v tr).length := by omega
  have hwritten : (written v tr)[k]? = some s := by
    rw [← hmore, List.getElem?_append_left hlt] at hk
    exact hk
  refine ⟨hwritten, h.latest v s ?_⟩
  rw [List.getLast?_eq_getElem?, hlen]
  exact hwritten

/-- The copy of `battery_latest_raw`. -/
theorem Published.copyRaw (h : Published sh tr) (hne : written .raw tr ≠ []) :
    ∃ s, Copying [.raw] s (tr ++ [.copied .raw]) ∧ sh.latest.raw = s.raw := by
  obtain ⟨k, hlen⟩ : ∃ k, (written .raw tr).length = k + 1 :=
    Nat.exists_eq_succ_of_ne_zero (fun h0 => hne (List.length_eq_zero_iff.mp h0))
  obtain ⟨more, hmore⟩ := h.inOrder .raw
  have hlt : k < (samples tr).length := by
    rw [← hmore, List.length_append]
    omega
  obtain ⟨s, hk⟩ : ∃ s, (samples tr)[k]? = some s := ⟨_, List.getElem?_eq_getElem hlt⟩
  obtain ⟨hwritten, hput⟩ := h.latest_of_length hlen hk
  refine ⟨s, ⟨k, seenByCopy_copied.trans hlen, ?_, ?_⟩, (congrArg Sample.raw hput).symm⟩
  · simpa [samples] using hk
  · simpa [written] using hwritten

/-- A later copy that is in step. -/
theorem Published.copyLater (h : Published sh tr) (hcopy : Copying vs s tr)
    (hstep : (written v tr).length = seenByCopy tr) (hv : v ≠ .raw) :
    Copying (v :: vs) s (tr ++ [.copied v]) ∧ sh.latest.put v s = sh.latest := by
  obtain ⟨k, hseen, hk, hvs⟩ := hcopy
  obtain ⟨hwritten, hput⟩ := h.latest_of_length (hstep.trans hseen) hk
  have hall : Copying (v :: vs) s tr := by
    refine ⟨k, hseen, hk, fun u hu => ?_⟩
    rcases List.mem_cons.mp hu with rfl | hu
    · exact hwritten
    · exact hvs u hu
  exact ⟨hall.append (by simpa using Ne.symm hv), hput⟩

theorem Timer.append (h : Timer tr todo) (hes : .copied .raw ∉ es) :
    Timer (tr ++ es) todo := by
  cases h with
  | off hall => exact .off hall
  | @copying a h =>
      refine .copying ?_
      cases a with
      | copyRaw =>
          show written .raw (tr ++ es) ≠ []
          rw [written_append]
          exact List.append_ne_nil_of_left_ne_nil h _
      | copyPinMv | copyRailMv | copyCalibrated =>
          obtain ⟨s, hs, heq⟩ := h
          exact ⟨s, hs.append hes, heq⟩
      | render s => exact Copying.append h hes
      | _ => exact h

/-- An instruction off the timer brings in no other and emits nothing. -/
theorem offTimer_next (h : OffTimer a) :
    (∃ q, (runInstr fresh a sh r).next = .goOn q ∧ ∀ b ∈ q, OffTimer b) ∧
      (runInstr fresh a sh r).events = [] := by
  cases a with
  | testHandle =>
      refine ⟨⟨_, rfl, ?_⟩, rfl⟩
      split <;> simp [startWorker, OffTimer]
  | create =>
      refine ⟨⟨_, rfl, ?_⟩, rfl⟩
      split <;> simp [OffTimer]
  | setState | setError | clearHandle | setLabels | setMenu => exact ⟨⟨[], rfl, by simp⟩, rfl⟩
  | _ => exact h.elim

/-- Nor does it touch the published variables, or set READY. -/
theorem offTimer_shared (h : OffTimer a) :
    (runInstr fresh a sh r).shared.latest = sh.latest ∧
      ((runInstr fresh a sh r).shared.sampleState = .ready → sh.sampleState = .ready) := by
  cases a with
  | setState st => exact ⟨rfl, fun h0 => absurd h0 h⟩
  | create => by_cases hc : r.created = true <;> simp [runInstr, hc]
  | testHandle | setError | clearHandle | setLabels | setMenu => exact ⟨rfl, id⟩
  | _ => exact h.elim

/-- The timer callback emits neither a sample nor a write. -/
theorem Timer.events (h : Timer tr (a :: rest)) :
    samples (runInstr fresh a sh r).events = [] ∧
      ∀ v, written v (runInstr fresh a sh r).events = [] := by
  generalize htodo : a :: rest = todo at h
  cases h with
  | off hall =>
      subst htodo
      rw [(offTimer_next (hall a List.mem_cons_self)).2]
      exact ⟨rfl, fun _ => rfl⟩
  | copying h =>
      obtain ⟨rfl, rfl⟩ := List.cons.inj htodo
      cases a with
      | readState => cases hst : sh.sampleState <;> simp [runInstr, hst, samples, written]
      | timerGuard | copyError | copyRaw | copyPinMv | copyRailMv | copyCalibrated | render =>
          exact ⟨rfl, fun _ => rfl⟩
      | _ => exact h.elim

/-- **A step of the UI task that is in step** copies one sample's values. -/
theorem Timer.step (hui : UiAt sh (a :: rest)) (h : Timer tr (a :: rest)) (hG : Published sh tr)
    (hin : ∀ v ∈ laterCopy a, (written v tr).length = seenByCopy tr) :
    Published (runInstr fresh a sh r).shared (tr ++ (runInstr fresh a sh r).events) ∧
      Timer (tr ++ (runInstr fresh a sh r).events) ((runInstr fresh a sh r).next.after rest) := by
  have hquiet : samples (runInstr fresh a sh r).events = [] ∧ _ := h.events
  obtain ⟨hsamples, hwritten⟩ := hquiet
  generalize htodo : a :: rest = todo at h
  cases h with
  | off hall =>
      subst htodo
      have ha := hall a List.mem_cons_self
      have hnext : (∃ q, (runInstr fresh a sh r).next = .goOn q ∧ _) ∧ _ := offTimer_next ha
      have hshared : (runInstr fresh a sh r).shared.latest = sh.latest ∧ _ := offTimer_shared ha
      obtain ⟨⟨q, hq, hq'⟩, hev⟩ := hnext
      obtain ⟨hlatest, hready⟩ := hshared
      refine ⟨hG.frame hlatest ?_ (fun h0 => hG.ready (hready h0)) hsamples hwritten ?_, ?_⟩
      · -- a handle that the UI task clears is NULL already
        intro h0
        have hhandle : (runInstr fresh a sh r).shared.taskHandle = sh.taskHandle ∨ _ := hui.handle
        rcases hhandle with h1 | ⟨-, -, -, h1, -⟩
        · exact h1.symm.trans h0
        · exact h1
      · rw [hev, List.append_nil]
        exact hG.untorn
      · rw [hq, hev, List.append_nil, Next.after_goOn]
        refine .off fun b hb => ?_
        rcases List.mem_append.mp hb with h1 | h1
        · exact hq' b h1
        · exact hall b (List.mem_cons_of_mem a h1)
  | copying h =>
      obtain ⟨rfl, rfl⟩ := List.cons.inj htodo
      -- nothing is shown but by the last instruction
      have hsame : ∀ e, (∀ s, e ≠ .shown s) → Untorn (tr ++ [e]) := fun e he =>
        untorn_concat hG.untorn fun s hs => absurd hs (he s)
      have hquiet : Untorn (tr ++ []) := by
        rw [List.append_nil]
        exact hG.untorn
      cases a with
      | timerGuard =>
          refine ⟨hG.frame rfl id hG.ready hsamples hwritten hquiet, ?_⟩
          show Timer (tr ++ []) ((if _ then _ else _) ++ [])
          split
          · exact .copying trivial
          · exact .off (by simp)
      | readState =>
          have hshown : Untorn (tr ++ (runInstr fresh .readState sh r).events) := by
            cases hst : sh.sampleState with
            | idle | starting => simpa [runInstr, hst] using hsame _ (by simp)
            | error | ready => simpa [runInstr, hst] using hG.untorn
          refine ⟨hG.frame rfl id hG.ready hsamples hwritten hshown, ?_⟩
          cases hst : sh.sampleState with
          | idle | starting => simpa [runInstr, hst] using .off (by simp)
          | error => simpa [runInstr, hst] using .copying trivial
          | ready =>
              have hraw : CopyOk tr .copyRaw := hG.ready hst
              simpa [runInstr, hst] using .copying hraw
      | copyError =>
          exact ⟨hG.frame rfl id hG.ready hsamples hwritten (hsame _ (by simp)),
            .off (by simp [runInstr])⟩
      | copyRaw =>
          refine ⟨hG.frame rfl id hG.ready hsamples hwritten (hsame _ (by simp)), ?_⟩
          exact .copying (hG.copyRaw h)
      | copyPinMv raw =>
          refine ⟨hG.frame rfl id hG.ready hsamples hwritten (hsame _ (by simp)), ?_⟩
          obtain ⟨s, hs, rfl⟩ := h
          obtain ⟨hs', hput⟩ := hG.copyLater hs (hin _ rfl) (by decide)
          exact .copying ⟨s, hs', rfl, (congrArg Sample.pinMv hput).symm⟩
      | copyRailMv raw pinMv =>
          refine ⟨hG.frame rfl id hG.ready hsamples hwritten (hsame _ (by simp)), ?_⟩
          obtain ⟨s, hs, rfl, rfl⟩ := h
          obtain ⟨hs', hput⟩ := hG.copyLater hs (hin _ rfl) (by decide)
          exact .copying ⟨s, hs', rfl, rfl, (congrArg Sample.railMv hput).symm⟩
      | copyCalibrated raw pinMv railMv =>
          refine ⟨hG.frame rfl id hG.ready hsamples hwritten (hsame _ (by simp)), ?_⟩
          obtain ⟨s, hs, rfl, rfl, rfl⟩ := h
          obtain ⟨hs', hput⟩ := hG.copyLater hs (hin _ rfl) (by decide)
          refine .copying ?_
          rw [← congrArg Sample.calibrated hput]
          exact hs'
      | render s =>
          refine ⟨hG.frame rfl id hG.ready hsamples hwritten ?_, .off (by simp [runInstr])⟩
          refine untorn_concat hG.untorn ?_
          rintro t ⟨⟩
          obtain ⟨k, -, hk, hall⟩ := h
          exact ⟨k, hk, fun v => hall v (by cases v <;> simp)⟩
      | _ => exact h.elim

end Timer

/-! ## Every run -/

section Runs

variable {p p' : BatteryPool} {l : Lab Reply Callback} {tr es : List BatteryEv}
  {fresh : Nat} {a : Instr} {rest todo : List Instr} {sh : Shared} {r : Reply}

/-- The assertion of a task. -/
def SnapshotOk (_ : Nat) (t : Task Role Instr) (_ : Shared) (tr : List BatteryEv) : Prop :=
  match t.role with
  | .ui => Timer tr t.todo
  | .worker => Cycle t.todo tr

/-- A worker copies nothing. -/
theorem CycleAt.events (h : CycleAt (a :: rest)) :
    .copied .raw ∉ (runInstr fresh a sh r).events := by
  cases h with
  | read =>
      simp only [runInstr]
      split <;> simp
  | _ => simp [runInstr]

/-- A worker that has cleared the handle emits nothing. -/
theorem CycleAt.live_or_quiet (h : CycleAt (a :: rest)) :
    .clearHandle ∈ a :: rest ∨ (runInstr fresh a sh r).events = [] := by
  cases h with
  | idle => exact .inr rfl
  | clear => exact .inl List.mem_cons_self
  | loop | read | ready => exact .inl (by simp [leave])
  | publish _ hclear | setError _ hclear | setState _ _ hclear =>
      exact .inl (List.mem_cons_of_mem _ hclear)

/-- A worker's assertion while another task moves. -/
theorem Cycle.frame (h : Cycle todo tr)
    (hes : .clearHandle ∈ todo → samples es = [] ∧ ∀ v, written v es = []) :
    Cycle todo (tr ++ es) where
  place := h.place
  publishing := by
    intro hclear v
    obtain ⟨hsamples, hwritten⟩ := hes hclear
    rw [written_append, samples_append, hwritten, hsamples, List.append_nil, List.append_nil]
    exact h.publishing hclear v
  sampled := by
    intro hready
    rw [samples_append]
    exact List.append_ne_nil_of_left_ne_nil (h.sampled hready) _

/-- **One step that is in step keeps the assertions.** -/
theorem snapshot_step (hok : Owned p tr) (h : Holds Published SnapshotOk p tr)
    (hin : InStep (p, tr) l) (hs : battery.step p l = some (p', es)) :
    Holds Published SnapshotOk p' (tr ++ es) := by
  refine holds_step h ?_ ?_ ?_ ?_ hs
  · intro i r ρ a rest hl hi ht
    have htask := hok.2 i _ hi
    cases ρ with
    | ui =>
        refine Timer.step htask.2 ht h.1 fun v hv => hin v ?_
        subst hl
        rw [copiesLater, hi]
        exact hv
    | worker => exact Cycle.step htask ht h.1
  · rintro i r ρ a rest j ⟨ρ', todo⟩ - hi ht hne hj hu
    have hti := hok.2 i _ hi
    have htj := hok.2 j _ hj
    cases ρ' with
    | ui =>
        cases ρ with
        | ui => exact absurd (htj.1.trans hti.1.symm) hne
        | worker => exact Timer.append hu (CycleAt.events ht.place)
    | worker =>
        refine Cycle.frame hu fun hclear => ?_
        cases ρ with
        | ui => exact Timer.events ht
        | worker =>
            have hquiet : _ ∨ (runInstr p.tasks.length a p.shared r).events = [] :=
              ht.place.live_or_quiet
            rcases hquiet with h1 | h1
            · exact absurd (WorkerOk.unique htj hti hclear h1) hne
            · exact ⟨congrArg samples h1, fun v => congrArg (written v) h1⟩
  · intro i r ρ a rest ρ' _ hi ht o hspawn
    obtain ⟨rfl, hc, rfl⟩ := runInstr_spawn hspawn
    have htask := hok.2 i _ hi
    cases ρ with
    | worker =>
        have hw : WorkerOk i (.create :: rest) p.shared := htask
        exact absurd List.mem_cons_self hw.position.not_mem.1
    | ui =>
        -- a worker starts where the last one has written all there is
        have hnull := htask.2.at_create
        have hev : o.events = [] := rfl
        refine ⟨cycleAt_task, fun _ v => ?_, fun hready => ?_⟩
        · rw [hev, List.append_nil, h.1.vacant hnull v]
          exact List.append_nil _
        · simp [batteryProgram, batteryAdcWorkerTask, leave] at hready
  · intro i c ρ code _ _ _ hcall
    obtain ⟨rfl, rfl⟩ := battery_call_inv hcall
    cases c with
    | timer => exact .copying trivial
    | navigate menu =>
        refine .off ?_
        by_cases hm : menu = .hwBattery <;> simp [Callback.code, showMenu, hm, OffTimer]

theorem snapshot_boot : Holds Published SnapshotOk bootBattery [] := by
  refine ⟨⟨?_, fun _ => List.prefix_refl _, fun _ _ => rfl, ?_, untorn_nil⟩, fun i t hi => ?_⟩
  · intro v s h
    cases h
  · intro h
    cases h
  · obtain ⟨rfl, rfl⟩ := boot_task hi
    exact .off (by simp)

end Runs

/-- **What the timer shows is one sample.**  In a run in which the timer and
    the worker do not overtake each other, every tuple shown is what a single
    read has returned and published. -/
theorem untorn_of_inStep {ls : List (Lab Reply Callback)} {p : BatteryPool}
    {tr : List BatteryEv} (h : Run battery bootBattery ls p tr)
    (hin : Meets battery.history (bootBattery, []) InStep ls) : Untorn tr := by
  have hboth : Owned p tr ∧ Holds Published SnapshotOk p tr := by
    refine h.invariant_of_history (P := fun p tr => Owned p tr ∧ Holds Published SnapshotOk p tr)
      ⟨owned_boot, snapshot_boot⟩ ?_ hin
    intro p tr l p' es hP hC hs
    exact ⟨owned_step hP.1 hs, snapshot_step hP.1 hP.2 hC hs⟩
  exact hboth.2.1.untorn

/-- A driver whose reads all return `raw`, without calibration. -/
def readsAll (raw : Int) : Reply :=
  { adc := { createScheme := espFail, read := fun _ => (espOk, raw) } }

/-- The page is opened, and its worker publishes the sample of `raw`. -/
def publishedOnce (raw : Int) : List (Lab Reply Callback) :=
  .call 0 (.navigate .hwBattery) :: List.replicate 7 (.run 0 {}) ++
    List.replicate 10 (.run 1 (readsAll raw))

/-- The timer shows the sample while the worker reads the next one. -/
def shownInStep : List (Lab Reply Callback) :=
  publishedOnce 2000 ++ .call 0 .timer :: List.replicate 4 (.run 0 {}) ++
    List.replicate 2 (.run 1 (readsAll 2500)) ++ List.replicate 3 (.run 0 {})

theorem untorn_of_inStep_at :
    ∃ p tr s, Run battery bootBattery shownInStep p tr ∧ .shown s ∈ tr ∧ Untorn tr := by
  have hrun : ∃ p tr, exec battery bootBattery shownInStep = some (p, tr) ∧
      decide (.shown ⟨2000, 1611, 3222, false⟩ ∈ tr) = true := ⟨_, _, rfl, rfl⟩
  obtain ⟨p, tr, hexec, hshown⟩ := hrun
  have hin : Meets battery.history (bootBattery, []) InStep shownInStep := meets_of_checks rfl
  exact ⟨p, tr, _, run_of_exec hexec, of_decide_eq_true hshown,
    untorn_of_inStep (run_of_exec hexec) hin⟩

/-- The worker publishes its second sample after the timer has copied
    `battery_latest_raw` and before it copies the other variables. -/
def publishedBetween : List (Lab Reply Callback) :=
  publishedOnce 2000 ++ .call 0 .timer :: List.replicate 3 (.run 0 {}) ++
    List.replicate 7 (.run 1 (readsAll 2500)) ++ List.replicate 4 (.run 0 {})

/-- The timer shows the raw value of one sample with the voltages of another. -/
theorem torn_by_publication :
    ¬ ∀ ls p tr, Run battery bootBattery ls p tr → Untorn tr := by
  intro hall
  have hrun : ∃ p tr, exec battery bootBattery publishedBetween = some (p, tr) ∧
      tr.getLast? = some (.shown ⟨2000, 2014, 4028, false⟩) ∧
      decide (⟨2000, 2014, 4028, false⟩ ∉ samples tr) = true := ⟨_, _, rfl, rfl, rfl⟩
  obtain ⟨p, tr, hexec, hlast, hnot⟩ := hrun
  obtain ⟨pre, rfl⟩ := List.getLast?_eq_some_iff.mp hlast
  obtain ⟨k, hk, -⟩ := hall _ p _ (run_of_exec hexec) pre [] _ rfl
  refine of_decide_eq_true hnot ?_
  rw [samples_append]
  exact List.mem_append_left _ (List.mem_of_getElem? hk)

end BatterySnapshot
