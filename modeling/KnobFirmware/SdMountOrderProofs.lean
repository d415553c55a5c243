import KnobFirmware.SdMountProofs

/-! # When a mounted card can be mounted again

    The firmware with the SD variables runs the audio program: a run of it, with
    the SD code left out, is a run of the audio program with the same events, and
    its SD variables, driver calls and results are those of a run of the SD machine
    (`firmware_refines`).  So what holds of the workers and of the card's record
    holds here.

    A card is mounted with the meter at rest.  In a run that does not start the
    meter over a mounted card, and whose stop requests come in time, the meter
    stays at rest, and mounting is idempotent (`idempotent_of_unstarted`). -/

namespace SdMountOrder

open SdMount SdCard EspErr StepMachine TaskPool
open AudioTask (Guard Worker Role AudioEv AudioPool audio bootAudio sdCardMountGuards workerCode)
open AudioOwnership (Owned)
open AudioWedge (Settles AtRest)

/-! ## The audio program and the SD machine -/

/-- What an instruction is in the audio program. -/
def erase : Instr → List AudioTask.Instr
  | .audio a => [a]
  | .mount => AudioTask.sdCardMount
  | .mountUnless g => [.rejectIf g]
  | .mountRest | .unmount => []

def eraseTask (t : Task Role Instr) : Task Role AudioTask.Instr := ⟨t.role, t.todo.flatMap erase⟩

def erasePool (p : FirmwarePool) : AudioPool := ⟨p.shared.audio, p.tasks.map eraseTask⟩

def eraseCallback : Callback → Option AudioTask.Callback
  | .audio c => some c
  | .sdReadWriteTest | .sdListRoot => some .sdMount
  | .sdUnmount => none

def eraseLab : Lab Reply Callback → Option (Lab AudioTask.Reply AudioTask.Callback)
  | .run i r => some (.run i r.audio)
  | .call i c => (eraseCallback c).map (.call i)

/-- What the audio program shows: its own events, and where the guard of
    `sd_card_mount` refuses, its result. -/
def eraseEv : Ev → List AudioEv
  | .audio e => [e]
  | .mountReturned r => if r.events.isEmpty ∧ r.err ≠ espOk then [.returned r.err] else []
  | .mountCalled _ | .unmountReturned _ => []

/-- What the SD machine shows: the driver calls and the results. -/
def sdEvs : Ev → List SdEv
  | .mountReturned r | .unmountReturned r => r.events ++ [.returned r.err]
  | .audio _ | .mountCalled _ => []

section Erase

variable {p p' : FirmwarePool} {l : Lab Reply Callback} {i : Nat} {t : Task Role Instr}
  {tr es : List Ev}

theorem erase_audio (codes : List AudioTask.Instr) :
    (codes.map Instr.audio).flatMap erase = codes := by
  rw [List.flatMap_map]
  exact List.flatMap_singleton' codes

theorem erase_events (es : List AudioEv) : (es.map Ev.audio).flatMap eraseEv = es := by
  rw [List.flatMap_map]
  exact List.flatMap_singleton' es

theorem sdEvs_audio (es : List AudioEv) : (es.map Ev.audio).flatMap sdEvs = [] := by
  rw [List.flatMap_map]
  exact List.flatMap_eq_nil_iff.mpr fun _ _ => rfl

/-- After its guard `sd_card_mount` fails only with a call of the driver. -/
theorem erase_rest (err : EspErr) (sd : Sd) :
    eraseEv (.mountReturned (sdCardMountRest err sd)) = [] := by
  refine if_neg ?_
  rintro ⟨hempty, herr⟩
  unfold sdCardMountRest at hempty herr
  split at hempty
  case isTrue hcard =>
    rw [if_pos hcard] at herr
    exact herr rfl
  case isFalse =>
    simp only at hempty
    split at hempty <;> cases hempty

theorem erase_after (n : Next AudioTask.Instr) (rest : List Instr) :
    ((n.map .audio).after rest).flatMap erase = n.after (rest.flatMap erase) := by
  cases n with
  | goOn pre =>
      show (pre.map Instr.audio ++ rest).flatMap erase = pre ++ rest.flatMap erase
      rw [List.flatMap_append, erase_audio]
  | jump code => exact erase_audio code

theorem erase_menu (menu : AudioTask.MenuId) :
    (showMenu menu).flatMap erase = AudioTask.showMenu menu := by
  by_cases hm : menu = .hwSd
  · subst hm
    rfl
  · simp [showMenu, AudioTask.showMenu, hm, erase]

theorem erase_code {c : Callback} {c' : AudioTask.Callback} (h : eraseCallback c = some c') :
    c.code.flatMap erase = c'.code := by
  cases c with
  | audio c =>
      obtain rfl := Option.some.inj h
      cases c with
      | navigate menu => exact erase_menu menu
      | audioMicBack menu =>
          exact (erase_after (.goOn [.requestStop .mic, .requestStop .dac, .requestStop .loopback])
            (showMenu menu)).trans (congrArg _ (erase_menu menu))
      | start k => exact erase_audio (AudioTask.Callback.start k).code
      | sdMount | stop | loopbackGainChanged | loopbackToggleMute => rfl
  | sdReadWriteTest | sdListRoot =>
      obtain rfl := Option.some.inj h
      rfl
  | sdUnmount => exact nomatch h

theorem erase_page {c : Callback} {c' : AudioTask.Callback} (h : eraseCallback c = some c') :
    c'.page = c.page := by
  cases c with
  | audio c =>
      obtain rfl := Option.some.inj h
      rfl
  | sdReadWriteTest | sdListRoot =>
      obtain rfl := Option.some.inj h
      rfl
  | sdUnmount => exact nomatch h

theorem erase_spawned (spawn : Option Role) :
    (firmwareProgram.spawned spawn).map eraseTask = AudioTask.audioProgram.spawned spawn := by
  cases spawn with
  | none => rfl
  | some ρ =>
      cases ρ with
      | ui => rfl
      | worker k =>
          show [Task.mk (Role.worker k) (((workerCode k).map Instr.audio).flatMap erase)] = _
          rw [erase_audio]
          rfl

theorem erase_task {t : Task Role Instr} (hi : p.tasks[i]? = some t) :
    (erasePool p).tasks[i]? = some (eraseTask t) := by
  show (p.tasks.map eraseTask)[i]? = _
  rw [List.getElem?_map, hi]
  rfl

/-- A step of the SD code. -/
theorem erase_stutter {ρ : Role} {todo todo' : List Instr} (hi : p.tasks[i]? = some ⟨ρ, todo⟩)
    (h : todo'.flatMap erase = todo.flatMap erase) :
    (p.tasks.set i ⟨ρ, todo'⟩).map eraseTask = p.tasks.map eraseTask := by
  obtain ⟨hlt, hget⟩ := List.getElem?_eq_some_iff.mp hi
  have hlt' : i < (p.tasks.map eraseTask).length := by simpa using hlt
  have hsame : eraseTask ⟨ρ, todo'⟩ = (p.tasks.map eraseTask)[i] := by
    rw [List.getElem_map, hget]
    show (⟨ρ, todo'.flatMap erase⟩ : Task Role AudioTask.Instr) = ⟨ρ, todo.flatMap erase⟩
    rw [h]
  rw [List.map_set, hsame]
  exact List.set_getElem_self _

theorem erase_stay {ρ : Role} {todo todo' : List Instr} {sh : Shared}
    (hi : p.tasks[i]? = some ⟨ρ, todo⟩) (haudio : sh.audio = p.shared.audio)
    (h : todo'.flatMap erase = todo.flatMap erase) :
    erasePool ⟨sh, p.tasks.set i ⟨ρ, todo'⟩ ++ []⟩ = erasePool p := by
  rw [List.append_nil]
  show Pool.mk sh.audio ((p.tasks.set i ⟨ρ, todo'⟩).map eraseTask) = erasePool p
  rw [haudio, erase_stutter hi h]
  rfl

/-- A step that runs one access of the audio program. -/
theorem erase_run {ρ : Role} {a : Instr} {b : AudioTask.Instr} {rest : List Instr} {r : Reply}
    (hi : p.tasks[i]? = some ⟨ρ, a :: rest⟩) (ha : erase a = [b])
    (hs : firmware.step p (.run i r) = some (p', es))
    (hshared : (runInstr ρ i p.tasks.length a p.shared r).shared.audio =
      (AudioTask.runInstr ρ i p.tasks.length b p.shared.audio r.audio).shared)
    (hnext : ((runInstr ρ i p.tasks.length a p.shared r).next.after rest).flatMap erase =
      (AudioTask.runInstr ρ i p.tasks.length b p.shared.audio r.audio).next.after
        (rest.flatMap erase))
    (hspawn : (runInstr ρ i p.tasks.length a p.shared r).spawn =
      (AudioTask.runInstr ρ i p.tasks.length b p.shared.audio r.audio).spawn)
    (hevents : (runInstr ρ i p.tasks.length a p.shared r).events.flatMap eraseEv =
      (AudioTask.runInstr ρ i p.tasks.length b p.shared.audio r.audio).events) :
    audio.step (erasePool p) (.run i r.audio) = some (erasePool p', es.flatMap eraseEv) := by
  obtain ⟨rfl, rfl⟩ := step_run_eq hi hs
  have hi'' : (erasePool p).tasks[i]? = some ⟨ρ, b :: rest.flatMap erase⟩ := by
    rw [erase_task hi]
    show some (Task.mk ρ (erase a ++ rest.flatMap erase)) = _
    rw [ha]
    rfl
  have hlen : (erasePool p).tasks.length = p.tasks.length := List.length_map _
  have htasks : (p.tasks.set i ⟨ρ, (runInstr ρ i p.tasks.length a p.shared r).next.after rest⟩ ++
        firmwareProgram.spawned (runInstr ρ i p.tasks.length a p.shared r).spawn).map eraseTask =
      (p.tasks.map eraseTask).set i ⟨ρ, (AudioTask.runInstr ρ i p.tasks.length b p.shared.audio
          r.audio).next.after (rest.flatMap erase)⟩ ++ AudioTask.audioProgram.spawned
        (AudioTask.runInstr ρ i p.tasks.length b p.shared.audio r.audio).spawn := by
    rw [List.map_append, List.map_set, erase_spawned, hspawn, ← hnext]
    rfl
  refine (step_run hi'').trans (congrArg some ?_)
  rw [hlen]
  exact Prod.ext (congr (congrArg Pool.mk hshared) htasks).symm hevents.symm

/-- **One step** is a step of the audio program, or none of it. -/
theorem erase_step (hs : firmware.step p l = some (p', es)) :
    (erasePool p' = erasePool p ∧ es.flatMap eraseEv = []) ∨
      ∃ l', eraseLab l = some l' ∧
        audio.step (erasePool p) l' = some (erasePool p', es.flatMap eraseEv) := by
  cases l with
  | call i c =>
      obtain ⟨ρ, code, hi, hcall, rfl, rfl⟩ := step_call_inv hs
      obtain ⟨rfl, hpage, rfl⟩ := call_inv hcall
      cases hc : eraseCallback c with
      | none =>
          left
          have hunmount : c = .sdUnmount := by
            cases c with
            | sdUnmount => rfl
            | _ => exact nomatch hc
          subst hunmount
          exact ⟨congrArg (Pool.mk _) (erase_stutter hi rfl), rfl⟩
      | some c' =>
          right
          have hcall' : AudioTask.audioProgram.call .ui p.shared.audio c' = some c'.code :=
            if_pos ⟨rfl, fun m hm => hpage m (erase_page hc ▸ hm)⟩
          refine ⟨.call i c', congrArg (Option.map _) hc, ?_⟩
          refine (step_call (erase_task hi) hcall').trans (congrArg some (Prod.ext ?_ rfl))
          show Pool.mk p.shared.audio ((p.tasks.map eraseTask).set i ⟨.ui, c'.code⟩) =
            Pool.mk p.shared.audio ((p.tasks.set i ⟨.ui, c.code⟩).map eraseTask)
          rw [List.map_set, ← erase_code hc]
          rfl
  | run i r =>
      obtain ⟨ρ, a, rest, hi, hp', hes⟩ := step_run_inv hs
      cases a with
      | audio b =>
          right
          exact ⟨_, rfl, erase_run hi rfl hs rfl (erase_after _ rest) rfl (erase_events _)⟩
      | mountUnless g =>
          right
          have hnext : ((runInstr ρ i p.tasks.length (.mountUnless g) p.shared r).next.after
              rest).flatMap erase = (AudioTask.runInstr ρ i p.tasks.length (.rejectIf g)
                p.shared.audio r.audio).next.after (rest.flatMap erase) := by
            by_cases hg : g.holds p.shared.audio = true
            · simp only [runInstr, AudioTask.runInstr, if_pos hg]
              rfl
            · simp only [runInstr, AudioTask.runInstr, if_neg hg]
              rfl
          have hevents : (runInstr ρ i p.tasks.length (.mountUnless g) p.shared r).events.flatMap
              eraseEv = (AudioTask.runInstr ρ i p.tasks.length (.rejectIf g)
                p.shared.audio r.audio).events := by
            by_cases hg : g.holds p.shared.audio = true
            · simp only [runInstr, AudioTask.runInstr, if_pos hg]
              rfl
            · simp only [runInstr, AudioTask.runInstr, if_neg hg]
              rfl
          exact ⟨_, rfl, erase_run hi rfl hs rfl hnext rfl hevents⟩
      | mount | unmount =>
          rw [hp', hes]
          exact .inl ⟨erase_stay hi rfl rfl, rfl⟩
      | mountRest =>
          rw [hp', hes]
          exact .inl ⟨erase_stay hi rfl rfl,
            (List.append_nil _).trans (erase_rest r.mounted p.shared.sd)⟩

/-- **A run of the firmware is a run of the audio program** with the SD code left
    out. -/
theorem audio_of_run {ls : List (Lab Reply Callback)} (h : Run firmware bootFirmware ls p tr) :
    ∃ ls', Run audio bootAudio ls' (erasePool p) (tr.flatMap eraseEv) := by
  have hboot : ∃ ls', Run audio bootAudio ls' (erasePool bootFirmware) [] := ⟨[], .nil⟩
  refine h.invariant
    (P := fun q tr => ∃ ls', Run audio bootAudio ls' (erasePool q) (tr.flatMap eraseEv)) hboot ?_
  rintro q tr l q' es ⟨ls', hrun⟩ hs
  rw [List.flatMap_append]
  rcases erase_step hs with ⟨hsame, hnone⟩ | ⟨l', -, hs'⟩
  · rw [hsame, hnone, List.append_nil]
    exact ⟨ls', hrun⟩
  · exact ⟨ls' ++ [l'], hrun.snoc hs'⟩

/-- A test on the way through `sd_card_mount` is one of its guard. -/
theorem guard_mem {g : Guard} {rest : List Instr} (h : .mountUnless g :: rest <:+ mountCode) :
    g ∈ sdCardMountGuards := by
  rcases mountCode_suffix h with ⟨g', hg', heq, -⟩ | ⟨heq, -⟩
  · rwa [Instr.mountUnless.inj heq]
  · cases heq

/-- The rest of `sd_card_mount` is what the SD machine does where no test of the
    guard holds. -/
theorem rest_is_call (err : EspErr) (s : Sd) :
    sdStep s (.mount ⟨AudioTask.bootShared, err⟩) = some ((sdCardMountRest err s).sd,
      sdEvs (.mountReturned (sdCardMountRest err s))) := rfl

/-- A test that holds is what the SD machine does on these audio variables. -/
theorem rejected_is_call {g : Guard} {sh : AudioTask.Shared} (hg : g ∈ sdCardMountGuards)
    (hholds : g.holds sh = true) (s : Sd) :
    sdStep s (.mount ⟨sh, espOk⟩) =
      some (s, sdEvs (.mountReturned ⟨espErrInvalidState, s, []⟩)) := by
  have hany : sdCardMountGuards.any (Guard.holds sh) = true :=
    List.any_eq_true.mpr ⟨g, hg, hholds⟩
  have hres : sdCardMount ⟨sh, espOk⟩ s = ⟨espErrInvalidState, s, []⟩ :=
    (sdCardMount_eq _ s).trans (if_pos hany)
  show some ((sdCardMount ⟨sh, espOk⟩ s).sd, (sdCardMount ⟨sh, espOk⟩ s).events ++
    [SdEv.returned (sdCardMount ⟨sh, espOk⟩ s).err]) = _
  rw [hres]
  rfl

/-- **One step** of the firmware is a call of the SD machine, or none of it. -/
theorem sd_step (hcalls : Calls p tr) (hs : firmware.step p l = some (p', es)) :
    (p'.shared.sd = p.shared.sd ∧ es.flatMap sdEvs = []) ∨
      ∃ call, sdCalls.step p.shared.sd call = some (p'.shared.sd, es.flatMap sdEvs) := by
  cases l with
  | call i c =>
      obtain ⟨ρ, code, -, -, rfl, rfl⟩ := step_call_inv hs
      exact .inl ⟨rfl, rfl⟩
  | run i r =>
      obtain ⟨ρ, a, rest, hi, rfl, rfl⟩ := step_run_inv hs
      cases a with
      | audio b => exact .inl ⟨rfl, sdEvs_audio _⟩
      | mount => exact .inl ⟨rfl, rfl⟩
      | mountUnless g =>
          by_cases hg : g.holds p.shared.audio = true
          · obtain ⟨-, -, hsuffix, -⟩ := hcalls.inside hi trivial
            have hmem : g ∈ sdCardMountGuards := guard_mem hsuffix
            right
            refine ⟨.mount ⟨p.shared.audio, espOk⟩, ?_⟩
            show sdStep _ _ = some (_, (if _ then [Ev.mountReturned _] else []).flatMap sdEvs)
            rw [if_pos hg, rejected_is_call hmem hg]
            rfl
          · left
            refine ⟨rfl, ?_⟩
            show (if _ then [Ev.mountReturned _] else []).flatMap sdEvs = []
            rw [if_neg hg]
            rfl
      | mountRest =>
          right
          refine ⟨_, (rest_is_call r.mounted p.shared.sd).trans (congrArg some ?_)⟩
          exact Prod.ext rfl (List.append_nil _).symm
      | unmount =>
          right
          refine ⟨.unmount r.unmount, congrArg some ?_⟩
          exact Prod.ext rfl (List.append_nil _).symm

/-- **The SD variables of a run** are those of a run of the SD machine, with the
    same driver calls and results. -/
theorem sd_of_run {ls : List (Lab Reply Callback)} (h : Run firmware bootFirmware ls p tr) :
    ∃ calls, Run sdCalls bootSd calls p.shared.sd (tr.flatMap sdEvs) := by
  refine (h.invariant (P := fun q tr => Calls q tr ∧
    ∃ calls, Run sdCalls bootSd calls q.shared.sd (tr.flatMap sdEvs))
    ⟨calls_boot, [], .nil⟩ ?_).2
  rintro q tr l q' es ⟨hcalls, calls, hrun⟩ hs
  refine ⟨calls_step hcalls hs, ?_⟩
  rw [List.flatMap_append]
  rcases sd_step hcalls hs with ⟨hsame, hnone⟩ | ⟨call, hs'⟩
  · rw [hsame, hnone, List.append_nil]
    exact ⟨calls, hrun⟩
  · exact ⟨calls ++ [call], hrun.snoc hs'⟩

/-- **The firmware refines its two parts.**  Every run, with the SD code left out,
    is a run of the audio program, event for event; and what its calls of
    `sd_card_mount` and `sd_card_unmount` do to the SD variables, ask of the driver
    and return is what a run of the SD machine does. -/
theorem firmware_refines {ls : List (Lab Reply Callback)} (h : Run firmware bootFirmware ls p tr) :
    (∃ ls', Run audio bootAudio ls' (erasePool p) (tr.flatMap eraseEv)) ∧
      ∃ calls, Run sdCalls bootSd calls p.shared.sd (tr.flatMap sdEvs) :=
  ⟨audio_of_run h, sd_of_run h⟩

/-- The card is mounted when the SD page is opened, with one call of the driver. -/
theorem firmware_refines_at : ∃ p tr, Run firmware bootFirmware cardMounted p tr ∧
    tr.flatMap sdEvs = [.mount bootSd.driver, .returned espOk] ∧
    (∃ ls', Run audio bootAudio ls' (erasePool p) (tr.flatMap eraseEv)) ∧
      ∃ calls, Run sdCalls bootSd calls p.shared.sd (tr.flatMap sdEvs) := by
  have hrun : ∃ p tr, exec firmware bootFirmware cardMounted = some (p, tr) ∧
      tr.flatMap sdEvs = [.mount bootSd.driver, .returned espOk] := ⟨_, _, rfl, rfl⟩
  obtain ⟨p, tr, hexec, hcalled⟩ := hrun
  exact ⟨p, tr, run_of_exec hexec, hcalled, firmware_refines (run_of_exec hexec)⟩

end Erase

/-! ## The meter at rest -/

/-- The meter is not started over a mounted card. -/
def NotOverCard (p : FirmwarePool) : Lab Reply Callback → Prop
  | .call _ (.audio (.start .mic)) => ¬ Mounted p.shared.sd
  | _ => True

/-- The stop requests of the audio program come in time. -/
def StopsInTime (p : FirmwarePool) (l : Lab Reply Callback) : Prop :=
  ∀ l' ∈ eraseLab l, AudioWedge.StopsInTime (erasePool p) l'

instance (p : FirmwarePool) (l : Lab Reply Callback) : Decidable (StopsInTime p l) :=
  inferInstanceAs (Decidable (∀ l' ∈ eraseLab l, _))

/-- No meter over a mounted card. -/
def NoMeter (sh : Shared) (_ : List Ev) : Prop :=
  Mounted sh.sd → sh.audio.handle .mic = none

/-- The UI task creates no meter over a card, and where it has passed the first
    test of `sd_card_mount`, no meter is there. -/
structure UiRests (todo : List Instr) (sh : Shared) : Prop where
  creating : .create .mic ∈ todo.flatMap erase → ¬ Mounted sh.sd
  tested : ∀ a rest, todo = a :: rest → a.OfMount → a ≠ .mountUnless (.handle .mic) →
    sh.audio.handle .mic = none

def TaskRests (_ : Nat) (t : Task Role Instr) (sh : Shared) (_ : List Ev) : Prop :=
  t.role = .ui → UiRests t.todo sh

abbrev Rests : FirmwarePool → List Ev → Prop := Holds NoMeter TaskRests

section Rest

variable {ρ : Role} {i fresh : Nat} {a : Instr} {rest todo : List Instr} {sh : Shared}
  {r : Reply} {s : Sd} {p p' : FirmwarePool} {l : Lab Reply Callback} {tr es : List Ev}
  {tr' : List AudioEv}

theorem mounted_of_unmount {u : UnmountReply} (h : Mounted (sdCardUnmount u s).sd) :
    Mounted s := by
  unfold sdCardUnmount at h
  split at h
  · rename_i card hflag hcard
    exact ⟨hflag, by rw [hcard]; rfl⟩
  · exact nomatch h.1

theorem uiRests_nil : UiRests [] sh where
  creating := fun h => absurd h List.not_mem_nil
  tested := fun _ _ h => nomatch h

theorem not_ofMount_of_outside (h : Outside (a :: rest)) : ¬ a.OfMount := by
  rcases h.head with ⟨b, rfl, -⟩ | ⟨rfl, -⟩ | ⟨rfl, -⟩ <;> exact id

/-- A handle that is NULL stays so in a step of a worker. -/
theorem worker_null {k : Worker} (hown : Owned (erasePool p) tr')
    (hi : p.tasks[i]? = some ⟨.worker k, a :: rest⟩) (hcalls : Calls p tr)
    (hnull : p.shared.audio.handle .mic = none) :
    (runInstr (.worker k) i fresh a p.shared r).shared.audio.handle .mic = none := by
  obtain ⟨b, codes, rfl, rfl⟩ := worker_head (hcalls.2 i _ hi).choose_spec
  have ht := hown.2 i _ (erase_task hi)
  exact AudioOwnership.null_stays ht fresh r.audio (fun h => nomatch h) hnull

/-- An access of the audio code by the UI task: a meter is not created over a
    card. -/
theorem UiRests.audio_step {b : AudioTask.Instr} (hown : Owned (erasePool p) tr')
    (hi : p.tasks[0]? = some ⟨.ui, .audio b :: rest⟩) (hout : Outside rest)
    (hnull : NoMeter p.shared tr) (h : UiRests (.audio b :: rest) p.shared) :
    let o := runInstr .ui 0 p.tasks.length (.audio b) p.shared r
    NoMeter o.shared tr ∧ UiRests (o.next.after rest) o.shared := by
  have ht := hown.2 0 _ (erase_task hi)
  refine ⟨fun hmounted => ?_, fun hmem => ?_, fun a' rest' heq ha' _ => ?_⟩
  · rcases AudioOwnership.task_handle ht p.tasks.length r.audio .mic with
      h1 | ⟨h1, -⟩ | ⟨-, h1, -⟩
    · exact h1.trans (hnull hmounted)
    · cases h1
    · have hmem : .create .mic ∈ (Instr.audio b :: rest).flatMap erase := by
        rw [h1]
        exact List.mem_cons_self
      exact absurd hmounted (h.creating hmem)
  · change _ ∈ ((Next.map Instr.audio _).after rest).flatMap erase at hmem
    rw [erase_after] at hmem
    exact h.creating (List.mem_append_right [b] (AudioOwnership.rooted_after id hmem).1)
  · have hafter := hout.after (AudioTask.runInstr .ui 0 p.tasks.length b p.shared.audio
      r.audio).next
    exact absurd ha' (not_ofMount_of_outside (heq ▸ hafter))

/-- A test of `sd_card_mount`: the first one has found no handle where the next
    is made. -/
theorem UiRests.test_step {g : Guard} (hnull : NoMeter p.shared tr)
    (h : UiRests (.mountUnless g :: rest) p.shared) :
    let o := runInstr .ui 0 fresh (.mountUnless g) p.shared r
    NoMeter o.shared tr ∧ UiRests (o.next.after rest) o.shared := by
  by_cases hg : g.holds p.shared.audio = true
  · simp only [runInstr, if_pos hg]
    exact ⟨hnull, uiRests_nil⟩
  · simp only [runInstr, if_neg hg]
    refine ⟨hnull, fun hmem => ?_, fun a' rest' _ _ _ => ?_⟩
    · exact h.creating (List.mem_append_right _ hmem)
    · by_cases hfirst : g = .handle .mic
      · subst hfirst
        exact Option.not_isSome_iff_eq_none.mp hg
      · exact h.tested _ rest rfl trivial fun heq => hfirst (Instr.mountUnless.inj heq)

/-- A step of the UI task. -/
theorem UiRests.step (hown : Owned (erasePool p) tr') (hi : p.tasks[0]? = some ⟨.ui, a :: rest⟩)
    (hcalls : Calls p tr) (hnull : NoMeter p.shared tr) (h : UiRests (a :: rest) p.shared) :
    let o := runInstr .ui 0 p.tasks.length a p.shared r
    NoMeter o.shared tr ∧ UiRests (o.next.after rest) o.shared := by
  rcases (hcalls.2 0 _ hi).2 with hout | ⟨hsuffix, -⟩
  · rcases hout.head with ⟨b, rfl, hrest⟩ | ⟨rfl, rfl⟩ | ⟨rfl, rfl⟩
    · exact h.audio_step hown hi hrest hnull
    · refine ⟨hnull, fun hmem => ?_, fun a' rest' heq _ hne => ?_⟩
      · simp [runInstr, mountCode, sdCardMountGuards, erase] at hmem
      · exact absurd (List.cons.inj heq).1.symm hne
    · exact ⟨fun hmounted => hnull (mounted_of_unmount hmounted), uiRests_nil⟩
  · rcases mountCode_suffix hsuffix with ⟨g, -, rfl, -⟩ | ⟨rfl, rfl⟩
    · exact h.test_step hnull
    · exact ⟨fun _ => h.tested _ [] rfl trivial (by simp), uiRests_nil⟩

theorem rests_boot : Rests bootFirmware [] := by
  refine ⟨fun h => absurd h.1 Bool.false_ne_true, fun i t hi => ?_⟩
  cases i with
  | zero =>
      obtain rfl := Option.some.inj hi
      exact fun _ => uiRests_nil
  | succ n => exact nomatch hi

/-- A callback that creates the meter is the start of the meter. -/
theorem create_mem_erase {c : Callback} (h : .create .mic ∈ c.code.flatMap erase) :
    c = .audio (.start .mic) := by
  cases hc : eraseCallback c with
  | none =>
      cases c with
      | sdUnmount => exact absurd h List.not_mem_nil
      | _ => exact nomatch hc
  | some c' =>
      rw [erase_code hc] at h
      obtain rfl := AudioOwnership.create_mem_code h
      cases c with
      | audio c => exact congrArg Callback.audio (Option.some.inj hc)
      | _ => exact nomatch hc

theorem UiRests.called {c : Callback} (hok : c = .audio (.start .mic) → ¬ Mounted sh.sd) :
    UiRests c.code sh where
  creating := fun hmem => hok (create_mem_erase hmem)
  tested := fun _ _ heq ha => absurd ha (not_ofMount_of_outside (heq ▸ outside_code c))

/-- **One step** that does not start the meter over a card keeps the meter at
    rest while one is mounted. -/
theorem rests_step (hown : Owned (erasePool p) tr') (hcalls : Calls p tr) (h : Rests p tr)
    (hC : NotOverCard p l) (hs : firmware.step p l = some (p', es)) : Rests p' (tr ++ es) := by
  refine holds_step h ?_ ?_ ?_ ?_ hs
  · intro i r ρ a rest _ hi hL
    cases ρ with
    | ui =>
        obtain rfl : i = 0 := (hcalls.2 i _ hi).1
        obtain ⟨hnull, hui⟩ := UiRests.step (r := r) hown hi hcalls h.1 (hL rfl)
        exact ⟨hnull, fun _ => hui⟩
    | worker k =>
        obtain ⟨b, codes, rfl, rfl⟩ := worker_head (hcalls.2 i _ hi).choose_spec
        exact ⟨fun hmounted => worker_null hown hi hcalls (h.1 hmounted),
          fun hrole => nomatch hrole⟩
  · rintro i r ρ a rest j ⟨ρ', todo⟩ _ hi _ hne hj hu o hrole
    obtain rfl : ρ' = .ui := hrole
    cases ρ with
    | ui => exact absurd ((hcalls.2 j _ hj).1.trans (hcalls.2 i _ hi).1.symm) hne
    | worker k =>
        obtain ⟨b, codes, rfl, rfl⟩ := worker_head (hcalls.2 i _ hi).choose_spec
        exact {
          creating := (hu rfl).creating
          tested := fun a' rest' heq ha' hfirst =>
            worker_null hown hi hcalls ((hu rfl).tested a' rest' heq ha' hfirst) }
  · intro i r ρ a rest ρ' _ _ _ _ hspawn hrole
    obtain ⟨k, rfl⟩ := spawn_inv hspawn
    exact nomatch hrole
  · rintro i c ρ code rfl hi _ hcall
    obtain ⟨rfl, -, rfl⟩ := call_inv hcall
    refine fun _ => UiRests.called ?_
    rintro rfl
    exact hC

end Rest

/-! ## Every run -/

section Every

variable {p : FirmwarePool} {l : Lab Reply Callback} {ls : List (Lab Reply Callback)}
  {tr : List Ev} {tr' : List AudioEv}

/-- With a card mounted and no meter over it, `sd_card_mount` finds the meter at
    rest. -/
theorem testsAtRest_of_rests (hcalls : Calls p tr) (hrests : Rests p tr)
    (hsettles : Settles (erasePool p) tr') : TestsAtRest p l := by
  intro g hg hmounted
  obtain ⟨i, r, ρ, rest, rfl, hi⟩ := mountTest_inv hg
  obtain ⟨rfl, rfl, hsuffix, -⟩ := hcalls.inside hi trivial
  have hmem : g ∈ sdCardMountGuards := guard_mem hsuffix
  have hmic : AudioWedge.guardReads g = .mic :=
    (by decide : ∀ g ∈ sdCardMountGuards, AudioWedge.guardReads g = .mic) g hmem
  have hnull : p.shared.audio.handle .mic = none := hrests.1 hmounted
  have hui : AudioWedge.UiSettles (.rejectIf g :: rest.flatMap erase) p.shared.audio :=
    hsettles.2 0 _ (erase_task hi)
  have hrest : AtRest (p.shared.audio.testState .mic) :=
    (hui.gone .mic hnull).resolve_right fun hmid => hmid.2 g List.mem_cons_self
  exact AudioWedge.guard_clear (k := .mic) (hmic ▸ hnull) (hmic ▸ hrest)
    (List.mem_append_right _ hmem)

/-- **Mounting is idempotent** in a run that does not start the meter over a
    mounted card, and whose stop requests come in time. -/
theorem idempotent_of_unstarted (h : Run firmware bootFirmware ls p tr)
    (hok : Meets firmware bootFirmware (fun q l => NotOverCard q l ∧ StopsInTime q l) ls) :
    Idempotent tr := by
  have hboot : Idempotent [] := fun pre r post s htr => absurd htr.symm (by simp)
  refine (h.invariant_of_meets (P := fun q tr => (Calls q tr ∧ Rests q tr ∧
    ∃ tr', Owned (erasePool q) tr' ∧ Settles (erasePool q) tr') ∧ Idempotent tr)
    ⟨⟨calls_boot, rests_boot, [], AudioOwnership.owned_boot, AudioWedge.settles_boot⟩, hboot⟩
    ?_ hok).2
  rintro q tr l q' es ⟨⟨hcalls, hrests, tr', hown, hsettles⟩, hidem⟩ ⟨hover, hstops⟩ hs
  have htests : TestsAtRest q l := testsAtRest_of_rests hcalls hrests hsettles
  refine ⟨⟨calls_step hcalls hs, rests_step hown hcalls hrests hover hs, ?_⟩,
    onMounted_step (fun _ => rfl) hcalls hs hidem (.inl htests)⟩
  rcases erase_step hs with ⟨hsame, -⟩ | ⟨l', hl', hs'⟩
  · rw [hsame]
    exact ⟨tr', hown, hsettles⟩
  · exact ⟨_, AudioOwnership.owned_step hown hs',
      AudioWedge.settles_step hown hsettles (hstops l' hl') hs'⟩

/-- The SD page is opened, and its button mounts the card again. -/
theorem idempotent_of_unstarted_at : ∃ p tr,
    Run firmware bootFirmware mountedAgain p tr ∧ (∃ s, found tr = some s ∧ Mounted s) ∧
      Idempotent tr := by
  have hover : Meets firmware bootFirmware NotOverCard mountedAgain := by
    refine meets_of_forall fun l hl q => ?_
    simp only [mountedAgain, cardMounted, List.mem_append, List.mem_cons, List.mem_replicate] at hl
    rcases hl with (rfl | ⟨-, rfl⟩) | rfl | ⟨-, rfl⟩ <;> trivial
  have hstops : Meets firmware bootFirmware StopsInTime mountedAgain := meets_of_checks rfl
  have hrun : ∃ p tr, exec firmware bootFirmware mountedAgain = some (p, tr) ∧
      ∃ s, found tr = some s ∧ Mounted s := ⟨_, _, rfl, _, rfl, rfl, rfl⟩
  obtain ⟨p, tr, hexec, hfound⟩ := hrun
  exact ⟨p, tr, run_of_exec hexec, hfound, idempotent_of_unstarted (run_of_exec hexec)
    fun pre l post q tr' hls hq => ⟨hover pre l post q tr' hls hq, hstops pre l post q tr' hls hq⟩⟩

end Every

end SdMountOrder
