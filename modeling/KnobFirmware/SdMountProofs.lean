import KnobFirmware.AudioWedgeProofs
import KnobFirmware.SdCardProofs

/-! # Mounting a mounted card

    `sd_card_mount` is called by the constructor of the SD page and by three of
    its buttons.  Its comment calls it idempotent.  It tests the state of the
    microphone meter first, one access after the other, and only then whether a
    card is mounted; the meter may have been started since the card was mounted,
    and its worker goes on while the four tests are made.

    The program of the audio workers is run here beside the SD variables.  A call
    on a mounted card changes nothing in any run, and returns `ESP_OK` exactly
    when each of its tests finds the meter at rest (`mount_idempotent_iff`). -/

namespace SdMount

open EspErr SdCard StepMachine TaskPool
open AudioTask (Guard Worker MenuId Role AudioEv AudioPool sdCardMountGuards workerCode)

/-! ## The program -/

/-- The audio variables and the SD variables. -/
structure Shared where
  audio : AudioTask.Shared
  sd    : Sd

inductive Instr where
  /-- An access of the audio code. -/
  | audio (a : AudioTask.Instr)
  /-- The call `sd_card_mount()`. -/
  | mount
  /-- One condition of its guard. -/
  | mountUnless (g : Guard)
  /-- `sd_card_mount` after the guard. -/
  | mountRest
  /-- The call `sd_card_unmount()`. -/
  | unmount

structure Reply where
  audio   : AudioTask.Reply := {}
  mounted : EspErr := espOk
  unmount : UnmountReply := ⟨espOk, false⟩

inductive Ev where
  | audio (e : AudioEv)
  /-- `sd_card_mount` is called, and finds these SD variables. -/
  | mountCalled (s : Sd)
  /-- `sd_card_mount` returns. -/
  | mountReturned (r : Result)
  /-- `sd_card_unmount` returns. -/
  | unmountReturned (r : Result)

/-- `sd_card_mount` after its guard. -/
def sdCardMountRest (err : EspErr) (s : Sd) : Result :=
  if s.sdCardMounted && s.sdCard.isSome then ⟨espOk, s, []⟩
  else
    let (driver, mountedCard) := s.driver.mount err
    if err ≠ espOk then ⟨err, ⟨none, false, driver⟩, [.mount s.driver]⟩
    else ⟨espOk, ⟨mountedCard, true, driver⟩, [.mount s.driver]⟩

/-- `sd_card_mount`. -/
def mountCode : List Instr := sdCardMountGuards.map .mountUnless ++ [.mountRest]

/-- `show_menu`; the constructor of the SD page mounts the card. -/
def showMenu (menu : MenuId) : List Instr :=
  [.audio (.leaveAudio menu), .audio (.setMenu menu)] ++ if menu = .hwSd then [.mount] else []

/-- The callbacks of the UI task; those of the SD page beside the audio ones. -/
inductive Callback where
  | audio (c : AudioTask.Callback)
  | sdReadWriteTest
  | sdListRoot
  | sdUnmount

def Callback.page : Callback → Option MenuId
  | .audio c => c.page
  | .sdReadWriteTest | .sdListRoot | .sdUnmount => some .hwSd

/-- The self-test and the listing touch none of the variables after the mount. -/
def Callback.code : Callback → List Instr
  | .audio (.navigate menu) => showMenu menu
  | .audio (.audioMicBack menu) =>
      [.audio (.requestStop .mic), .audio (.requestStop .dac), .audio (.requestStop .loopback)] ++
        showMenu menu
  | .audio .sdMount | .sdReadWriteTest | .sdListRoot => [.mount]
  | .audio c => c.code.map .audio
  | .sdUnmount => [.unmount]

def runInstr (ρ : Role) (i fresh : Nat) (a : Instr) (sh : Shared) (r : Reply) :
    Outcome Role Instr Shared Ev :=
  match a with
  | .audio a =>
      let o := AudioTask.runInstr ρ i fresh a sh.audio r.audio
      { shared := { sh with audio := o.shared }
        next := o.next.map .audio
        spawn := o.spawn
        events := o.events.map .audio }
  | .mount => { shared := sh, next := .goOn mountCode, events := [.mountCalled sh.sd] }
  | .mountUnless g =>
      { shared := sh
        next := if g.holds sh.audio then .jump [] else .goOn []
        events :=
          if g.holds sh.audio then [.mountReturned ⟨espErrInvalidState, sh.sd, []⟩] else [] }
  | .mountRest =>
      let res := sdCardMountRest r.mounted sh.sd
      { shared := { sh with sd := res.sd }, events := [.mountReturned res] }
  | .unmount =>
      let res := sdCardUnmount r.unmount sh.sd
      { shared := { sh with sd := res.sd }, events := [.unmountReturned res] }

/-- The UI task and the audio workers, with the SD variables. -/
def firmwareProgram : Program Role Instr Shared Reply Callback Ev where
  body := fun
    | .ui => []
    | .worker k => (workerCode k).map .audio
  call := fun ρ sh c =>
    if ρ = .ui ∧ (∀ m ∈ c.page, sh.audio.currentMenu = m) then some c.code else none
  exec := runInstr

abbrev FirmwarePool := Pool Role Instr Shared

def bootFirmware : FirmwarePool := ⟨⟨AudioTask.bootShared, bootSd⟩, [⟨.ui, []⟩]⟩

def firmware : Machine FirmwarePool (Lab Reply Callback) Ev :=
  firmwareProgram.machine (fun p => p = bootFirmware)

/-! ## A call -/

/-- The card that a call can find: `sd_card_mounted && sd_card != NULL`. -/
def Mounted (s : Sd) : Prop := s.sdCardMounted = true ∧ s.sdCard.isSome = true

instance (s : Sd) : Decidable (Mounted s) := inferInstanceAs (Decidable (_ ∧ _))

/-- The SD variables that the last call of `sd_card_mount` found. -/
def found (tr : List Ev) : Option Sd :=
  (tr.filterMap fun
    | .mountCalled s => some s
    | _ => none).getLast?

/-- What each call on a mounted card has returned, beside what it found. -/
def OnMounted (Q : Result → Sd → Prop) (tr : List Ev) : Prop :=
  ∀ pre r post s, tr = pre ++ .mountReturned r :: post → found pre = some s → Mounted s → Q r s

/-- Each call on a mounted card has returned `ESP_OK`, without a driver call and
    with the SD variables as it found them. -/
def Idempotent : List Ev → Prop := OnMounted fun r s => r = ⟨espOk, s, []⟩

/-- Each call on a mounted card, whatever it returned, has made no driver call
    and left the SD variables as it found them. -/
def Unchanged : List Ev → Prop := OnMounted fun r s => r.sd = s ∧ r.events = []

/-- An instruction of `sd_card_mount`. -/
def Instr.OfMount : Instr → Prop
  | .mountUnless _ | .mountRest => True
  | .audio _ | .mount | .unmount => False

/-- A step of `sd_card_mount`. -/
def InMount (p : FirmwarePool) (l : Lab Reply Callback) : Prop :=
  ∃ i r ρ a rest, l = .run i r ∧ p.tasks[i]? = some ⟨ρ, a :: rest⟩ ∧ a.OfMount

/-- The step leaves the audio variables as they are, and the SD variables where
    a card is mounted. -/
def Untouched (p : FirmwarePool) (l : Lab Reply Callback) : Prop :=
  ∀ p' es, firmware.step p l = some (p', es) →
    p'.shared.audio = p.shared.audio ∧ (Mounted p.shared.sd → p'.shared.sd = p.shared.sd)

/-- The condition that the step tests, of the guard of `sd_card_mount`. -/
def mountTest (p : FirmwarePool) : Lab Reply Callback → Option Guard
  | .run i _ =>
      match p.tasks[i]? with
      | some ⟨_, .mountUnless g :: _⟩ => some g
      | _ => none
  | .call _ _ => none

/-- A test that `sd_card_mount` makes with a card mounted finds the meter at
    rest: no handle, and a state that is not RUNNING, STARTING or STOPPING. -/
def TestsAtRest (p : FirmwarePool) (l : Lab Reply Callback) : Prop :=
  ∀ g ∈ mountTest p l, Mounted p.shared.sd → g.holds p.shared.audio = false

instance (p : FirmwarePool) (l : Lab Reply Callback) : Decidable (TestsAtRest p l) :=
  inferInstanceAs (Decidable (∀ g ∈ _, _))

section Call

variable {ρ : Role} {i fresh : Nat} {a : Instr} {rest : List Instr} {sh : Shared} {r : Reply}
  {err : EspErr} {s : Sd} {tr es : List Ev} {Q : Result → Sd → Prop}

/-- `sd_card_mount` in one step is its guard and the rest of it. -/
theorem sdCardMount_eq (m : MountReplies) (s : Sd) :
    sdCardMount m s = if sdCardMountGuards.any (Guard.holds m.audio) then
      ⟨espErrInvalidState, s, []⟩ else sdCardMountRest m.err s := rfl

theorem mountRest_mounted (h : Mounted s) : sdCardMountRest err s = ⟨espOk, s, []⟩ := by
  unfold sdCardMountRest
  rw [h.1, h.2]
  rfl

/-- The steps of `sd_card_mount` write no audio variable, and no SD variable
    where a card is mounted. -/
theorem mount_untouched (ha : a.OfMount) :
    (runInstr ρ i fresh a sh r).shared.audio = sh.audio ∧
      (Mounted sh.sd → (runInstr ρ i fresh a sh r).shared.sd = sh.sd) := by
  cases a with
  | mountUnless => exact ⟨rfl, fun _ => rfl⟩
  | mountRest =>
      refine ⟨rfl, fun hmounted => ?_⟩
      show (sdCardMountRest r.mounted sh.sd).sd = sh.sd
      rw [mountRest_mounted hmounted]
  | audio | mount | unmount => exact ha.elim

/-- What is left of `sd_card_mount` begins with a test, or is the rest. -/
theorem mountCode_suffix (h : a :: rest <:+ mountCode) :
    (∃ g ∈ sdCardMountGuards, a = .mountUnless g ∧ rest ≠ []) ∨
      (a = .mountRest ∧ rest = []) := by
  obtain ⟨front, hfront⟩ := h
  rcases List.eq_nil_or_concat rest with rfl | ⟨rest', b, rfl⟩
  · obtain ⟨-, hlast⟩ := List.append_inj' hfront rfl
    exact .inr ⟨(List.cons.inj hlast).1, rfl⟩
  · rw [List.concat_eq_append, ← List.cons_append, ← List.append_assoc] at hfront
    obtain ⟨hguards, -⟩ := List.append_inj' hfront rfl
    have hmem : a ∈ sdCardMountGuards.map Instr.mountUnless := by
      rw [← hguards]
      exact List.mem_append_right _ List.mem_cons_self
    obtain ⟨g, hg, rfl⟩ := List.mem_map.mp hmem
    exact .inl ⟨g, hg, rfl, by simp⟩

/-- Other events leave what the last call found. -/
theorem found_append (h : ∀ s, .mountCalled s ∉ es) : found (tr ++ es) = found tr := by
  have hnone : es.filterMap (fun
      | Ev.mountCalled s => some s
      | _ => none) = [] := by
    refine List.filterMap_eq_nil_iff.mpr fun e he => ?_
    cases e with
    | mountCalled s => exact absurd he (h s)
    | audio | mountReturned | unmountReturned => rfl
  unfold found
  rw [List.filterMap_append, hnone, List.append_nil]

theorem found_called : found (tr ++ [.mountCalled s]) = some s := by
  unfold found
  rw [List.filterMap_append]
  exact List.getLast?_concat

/-- A property of the returns, over one more part of the trace. -/
theorem onMounted_append :
    OnMounted Q (tr ++ es) ↔ OnMounted Q tr ∧
      ∀ pre r post s, es = pre ++ .mountReturned r :: post → found (tr ++ pre) = some s →
        Mounted s → Q r s := by
  constructor
  · intro h
    refine ⟨fun pre r post s htr => h pre r (post ++ es) s ?_,
      fun pre r post s hes => h (tr ++ pre) r post s ?_⟩
    · rw [htr, List.append_assoc, List.cons_append]
    · rw [hes, List.append_assoc]
  · rintro ⟨htr, hes⟩ pre r post s hsplit
    -- the return is in the first part or in the second
    rcases List.append_eq_append_iff.mp hsplit with ⟨mid, rfl, hmid⟩ | ⟨mid, hmid, hrest⟩
    · exact hes mid r post s hmid
    · cases mid with
      | nil =>
          rw [List.append_nil] at hmid
          subst hmid
          have := hes [] r post s hrest.symm
          rwa [List.append_nil] at this
      | cons e mid =>
          obtain ⟨rfl, rfl⟩ := List.cons.inj hrest
          exact htr pre r mid s hmid

/-- Steps that return from no call. -/
theorem onMounted_quiet (h : ∀ r, .mountReturned r ∉ es) :
    OnMounted Q (tr ++ es) ↔ OnMounted Q tr := by
  rw [onMounted_append]
  refine and_iff_left fun pre r post s hes => absurd ?_ (h r)
  rw [hes]
  exact List.mem_append_right pre List.mem_cons_self

/-- The step that returns. -/
theorem onMounted_returned {res : Result} (hfound : found tr = some s) :
    OnMounted Q (tr ++ [.mountReturned res]) ↔ OnMounted Q tr ∧ (Mounted s → Q res s) := by
  rw [onMounted_append]
  refine and_congr_right fun _ => ⟨fun h => ?_, fun h pre r post s' hes hs' => ?_⟩
  · refine h [] res [] s rfl ?_
    rw [List.append_nil, hfound]
  · cases pre with
    | nil =>
        obtain ⟨hres, -⟩ := List.cons.inj hes
        obtain rfl := Ev.mountReturned.inj hres
        rw [List.append_nil, hfound] at hs'
        obtain rfl := Option.some.inj hs'
        exact h
    | cons e pre => exact absurd (List.cons.inj hes).2.symm (by simp)

end Call

/-! ## What the tasks have left to run -/

/-- Code of the audio program, and after it at most one call of the SD code. -/
inductive Outside : List Instr → Prop where
  | intro (codes : List AudioTask.Instr) {tail : List Instr}
      (htail : tail = [] ∨ tail = [.mount] ∨ tail = [.unmount]) :
      Outside (codes.map .audio ++ tail)

/-- The UI task is outside of `sd_card_mount`, or on its way through it; then
    the SD variables are those that the call has found. -/
def UiTodo (todo : List Instr) (sh : Shared) (tr : List Ev) : Prop :=
  Outside todo ∨ (todo <:+ mountCode ∧ found tr = some sh.sd)

/-- The SD code is the UI task's. -/
def TaskTodo (i : Nat) (t : Task Role Instr) (sh : Shared) (tr : List Ev) : Prop :=
  match t.role with
  | .ui => i = 0 ∧ UiTodo t.todo sh tr
  | .worker _ => ∃ codes : List AudioTask.Instr, t.todo = codes.map .audio

abbrev Calls : FirmwarePool → List Ev → Prop := Holds (fun _ _ => True) TaskTodo

section Todo

variable {ρ : Role} {i fresh : Nat} {a : Instr} {rest todo : List Instr} {sh : Shared}
  {r : Reply} {tr : List Ev} {Q : Result → Sd → Prop}

theorem outside_audio (codes : List AudioTask.Instr) : Outside (codes.map .audio) := by
  rw [← List.append_nil (codes.map _)]
  exact .intro codes (.inl rfl)

/-- Audio code is followed by audio code, and by the SD call if it goes on. -/
theorem Outside.after (n : Next AudioTask.Instr) (h : Outside rest) :
    Outside ((n.map .audio).after rest) := by
  obtain ⟨codes, htail⟩ := h
  cases n with
  | goOn pre =>
      show Outside (pre.map .audio ++ (codes.map .audio ++ _))
      rw [← List.append_assoc, ← List.map_append]
      exact .intro (pre ++ codes) htail
  | jump code => exact outside_audio code

theorem Outside.head (h : Outside (a :: rest)) :
    (∃ b, a = .audio b ∧ Outside rest) ∨ (a = .mount ∧ rest = []) ∨
      (a = .unmount ∧ rest = []) := by
  generalize htodo : a :: rest = todo at h
  obtain ⟨codes, htail⟩ := h
  cases codes with
  | nil =>
      rcases htail with rfl | rfl | rfl
      · exact nomatch htodo
      · obtain ⟨rfl, rfl⟩ := List.cons.inj htodo
        exact .inr (.inl ⟨rfl, rfl⟩)
      · obtain ⟨rfl, rfl⟩ := List.cons.inj htodo
        exact .inr (.inr ⟨rfl, rfl⟩)
  | cons b codes =>
      obtain ⟨rfl, rfl⟩ := List.cons.inj htodo
      exact .inl ⟨b, rfl, .intro codes htail⟩

theorem outside_menu (menu : MenuId) : Outside (showMenu menu) := by
  refine .intro [.leaveAudio menu, .setMenu menu] ?_
  by_cases hm : menu = .hwSd
  · exact .inr (.inl (if_pos hm))
  · exact .inl (if_neg hm)

theorem outside_code (c : Callback) : Outside c.code := by
  cases c with
  | audio c =>
      cases c with
      | navigate menu => exact outside_menu menu
      | audioMicBack menu =>
          exact (outside_menu menu).after
            (.goOn [.requestStop .mic, .requestStop .dac, .requestStop .loopback])
      | sdMount => exact .intro [] (.inr (.inl rfl))
      | start k => exact outside_audio (AudioTask.Callback.start k).code
      | stop k => exact outside_audio (AudioTask.Callback.stop k).code
      | loopbackGainChanged value =>
          exact outside_audio (AudioTask.Callback.loopbackGainChanged value).code
      | loopbackToggleMute => exact outside_audio AudioTask.Callback.loopbackToggleMute.code
  | sdReadWriteTest | sdListRoot => exact .intro [] (.inr (.inl rfl))
  | sdUnmount => exact .intro [] (.inr (.inr rfl))

/-- The code of a worker. -/
theorem worker_head {codes : List AudioTask.Instr} (h : a :: rest = codes.map .audio) :
    ∃ b, ∃ codes' : List AudioTask.Instr, a = .audio b ∧ rest = codes'.map .audio := by
  cases codes with
  | nil => exact nomatch h
  | cons b codes =>
      obtain ⟨rfl, rfl⟩ := List.cons.inj h
      exact ⟨b, codes, rfl, rfl⟩

theorem worker_after (n : Next AudioTask.Instr) (codes : List AudioTask.Instr) :
    (n.map Instr.audio).after (codes.map .audio) = (n.after codes).map .audio := by
  cases n with
  | goOn pre => exact List.map_append.symm
  | jump code => rfl

/-- Tasks are created by the audio code, and run audio code. -/
theorem spawn_inv {ρ' : Role} (h : (runInstr ρ i fresh a sh r).spawn = some ρ') :
    ∃ k, ρ' = .worker k := by
  cases a with
  | audio b =>
      obtain ⟨k, -, -, rfl⟩ := AudioTask.runInstr_spawn h
      exact ⟨k, rfl⟩
  | mount | mountUnless | mountRest | unmount => exact nomatch h

theorem call_inv {c : Callback} {code : List Instr}
    (h : firmwareProgram.call ρ sh c = some code) :
    ρ = .ui ∧ (∀ m ∈ c.page, sh.audio.currentMenu = m) ∧ code = c.code := by
  simp only [firmwareProgram] at h
  split at h
  · rename_i hpage
    exact ⟨hpage.1, hpage.2, (Option.some.inj h).symm⟩
  · exact nomatch h

/-- The audio instructions leave the SD variables and the calls on the card. -/
theorem audio_found (b : AudioTask.Instr) :
    found (tr ++ (runInstr ρ i fresh (.audio b) sh r).events) = found tr := by
  refine found_append fun s hs => ?_
  obtain ⟨e, -, he⟩ := List.mem_map.mp hs
  exact nomatch he

/-- A step of the UI task. -/
theorem UiTodo.step (h : UiTodo (a :: rest) sh tr) :
    let o := runInstr .ui i fresh a sh r
    UiTodo (o.next.after rest) o.shared (tr ++ o.events) := by
  rcases h with hout | ⟨hsuffix, hfound⟩
  · rcases hout.head with ⟨b, rfl, hrest⟩ | ⟨rfl, rfl⟩ | ⟨rfl, rfl⟩
    · exact .inl (hrest.after _)
    · right
      exact ⟨⟨[], List.append_nil mountCode⟩, found_called⟩
    · exact .inl (outside_audio [])
  · rcases mountCode_suffix hsuffix with ⟨g, -, rfl, -⟩ | ⟨rfl, rfl⟩
    · -- a test returns, or goes on to the next
      by_cases hg : g.holds sh.audio = true
      · simp only [runInstr, if_pos hg]
        exact .inl (outside_audio [])
      · simp only [runInstr, if_neg hg]
        right
        rw [List.append_nil]
        exact ⟨(List.suffix_cons _ _).trans hsuffix, hfound⟩
    · exact .inl (outside_audio [])

end Todo

section Runs

variable {p p' : FirmwarePool} {l : Lab Reply Callback} {tr es : List Ev}

theorem calls_boot : Calls bootFirmware [] := by
  refine ⟨trivial, fun i t hi => ?_⟩
  cases i with
  | zero =>
      obtain rfl := Option.some.inj hi
      exact ⟨rfl, .inl (outside_audio [])⟩
  | succ n => exact nomatch hi

/-- **One step** keeps the SD code to the UI task, and the SD variables as the
    call has found them. -/
theorem calls_step (h : Calls p tr) (hs : firmware.step p l = some (p', es)) :
    Calls p' (tr ++ es) := by
  refine holds_step h ?_ ?_ ?_ ?_ hs
  · intro i r ρ a rest _ _ hL
    refine ⟨trivial, ?_⟩
    cases ρ with
    | ui => exact ⟨hL.1, hL.2.step⟩
    | worker k =>
        obtain ⟨b, codes, rfl, rfl⟩ := worker_head hL.choose_spec
        exact ⟨_, worker_after _ codes⟩
  · intro i r ρ a rest j u _ _ hL hne _ hu
    obtain ⟨ρ', todo⟩ := u
    cases ρ' with
    | worker k => exact hu
    | ui =>
        -- the moving task is a worker, and runs audio code
        cases ρ with
        | ui => exact absurd (hu.1.trans hL.1.symm) hne
        | worker k =>
            obtain ⟨b, codes, rfl, rfl⟩ := worker_head hL.choose_spec
            exact ⟨hu.1, hu.2.imp_right fun hin => ⟨hin.1, (audio_found b).trans hin.2⟩⟩
  · intro i r ρ a rest ρ' _ _ _ _ hspawn
    obtain ⟨k, rfl⟩ := spawn_inv hspawn
    exact ⟨workerCode k, rfl⟩
  · intro i c ρ code _ _ hL hcode
    obtain ⟨rfl, -, rfl⟩ := call_inv hcode
    exact ⟨hL.1, .inl (outside_code c)⟩

/-- The task that is on its way through `sd_card_mount`. -/
theorem Calls.inside (h : Calls p tr) {i : Nat} {ρ : Role} {a : Instr} {rest : List Instr}
    (hi : p.tasks[i]? = some ⟨ρ, a :: rest⟩) (ha : a.OfMount) :
    ρ = .ui ∧ i = 0 ∧ a :: rest <:+ mountCode ∧ found tr = some p.shared.sd := by
  have hL := h.2 i _ hi
  cases ρ with
  | worker k =>
      obtain ⟨b, codes, rfl, -⟩ := worker_head hL.choose_spec
      exact ha.elim
  | ui =>
      refine ⟨rfl, hL.1, hL.2.resolve_left fun hout => ?_⟩
      rcases hout.head with ⟨b, rfl, -⟩ | ⟨rfl, -⟩ | ⟨rfl, -⟩ <;> exact ha.elim

theorem mountTest_run {i : Nat} {r : Reply} {ρ : Role} {g : Guard} {rest : List Instr}
    (hi : p.tasks[i]? = some ⟨ρ, .mountUnless g :: rest⟩) : mountTest p (.run i r) = some g := by
  rw [mountTest, hi]

theorem mountTest_inv {g : Guard} (h : mountTest p l = some g) :
    ∃ i r ρ rest, l = .run i r ∧ p.tasks[i]? = some ⟨ρ, .mountUnless g :: rest⟩ := by
  cases l with
  | call i c => exact nomatch h
  | run i r =>
      rw [mountTest] at h
      split at h
      · rename_i ρ g' rest hi
        obtain rfl := Option.some.inj h
        exact ⟨i, r, ρ, rest, rfl, hi⟩
      · exact nomatch h

theorem untouched_step (h : InMount p l) : Untouched p l := by
  obtain ⟨i, r, ρ, a, rest, rfl, hi, ha⟩ := h
  intro p' es hs
  obtain ⟨rfl, -⟩ := step_run_eq hi hs
  exact mount_untouched ha

/-- A test that finds the meter at rest or no card, and every other step, keeps
    a property that the rest of `sd_card_mount` has where it finds a card. -/
theorem onMounted_step {Q : Result → Sd → Prop} (hrest : ∀ s, Q ⟨espOk, s, []⟩ s)
    (h : Calls p tr) (hs : firmware.step p l = some (p', es)) (hQ : OnMounted Q tr)
    (hok : TestsAtRest p l ∨ ∀ s, Q ⟨espErrInvalidState, s, []⟩ s) : OnMounted Q (tr ++ es) := by
  cases l with
  | call i c =>
      obtain ⟨ρ, code, -, -, -, rfl⟩ := step_call_inv hs
      rwa [List.append_nil]
  | run i r =>
      obtain ⟨ρ, a, rest, hi, -, rfl⟩ := step_run_inv hs
      cases a with
      | audio b =>
          refine (onMounted_quiet fun res hres => ?_).mpr hQ
          obtain ⟨e, -, he⟩ := List.mem_map.mp hres
          exact nomatch he
      | mount | unmount =>
          refine (onMounted_quiet fun res hres => ?_).mpr hQ
          exact nomatch List.mem_singleton.mp hres
      | mountUnless g =>
          obtain ⟨-, -, -, hfound⟩ := h.inside hi trivial
          by_cases hg : g.holds p.shared.audio = true
          · simp only [firmwareProgram, runInstr, if_pos hg]
            refine (onMounted_returned hfound).mpr ⟨hQ, fun hmounted => ?_⟩
            rcases hok with hok | hok
            · cases hg.symm.trans (hok g (mountTest_run hi) hmounted)
            · exact hok _
          · simp only [firmwareProgram, runInstr, if_neg hg]
            rwa [List.append_nil]
      | mountRest =>
          obtain ⟨-, -, -, hfound⟩ := h.inside hi trivial
          refine (onMounted_returned hfound).mpr ⟨hQ, fun hmounted => ?_⟩
          rw [mountRest_mounted hmounted]
          exact hrest _

/-- The test that rejects a call on a mounted card. -/
theorem testsAtRest_of_idempotent (h : Calls p tr) (hs : firmware.step p l = some (p', es))
    (hall : Idempotent (tr ++ es)) : TestsAtRest p l := by
  intro g hg hmounted
  obtain ⟨i, r, ρ, rest, rfl, hi⟩ := mountTest_inv hg
  obtain ⟨-, -, -, hfound⟩ := h.inside hi trivial
  obtain ⟨-, rfl⟩ := step_run_eq hi hs
  by_contra hg
  rw [Bool.not_eq_false] at hg
  simp only [firmwareProgram, runInstr, if_pos hg] at hall
  have herr : espErrInvalidState = espOk :=
    congrArg Result.err (((onMounted_returned hfound).mp hall).2 hmounted)
  exact absurd herr (by decide)

theorem unchanged_of_run {ls : List (Lab Reply Callback)}
    (h : Run firmware bootFirmware ls p tr) : Unchanged tr := by
  have hnil : Unchanged [] := by
    intro pre r post s htr
    exact absurd htr.symm (by simp)
  refine (h.invariant (P := fun p tr => Calls p tr ∧ Unchanged tr) ⟨calls_boot, hnil⟩ ?_).2
  intro p tr l p' es hP hs
  refine ⟨calls_step hP.1 hs, onMounted_step (fun s => ⟨rfl, rfl⟩) hP.1 hs hP.2 (.inr fun s => ?_)⟩
  exact ⟨rfl, rfl⟩

/-! ## A call returns -/

/-- The steps of the UI task. -/
def uiSteps (ls : List (Lab Reply Callback)) : Nat :=
  ls.countP fun
    | .run 0 _ => true
    | _ => false

/-- The UI task has `n` accesses of `sd_card_mount` left. -/
def Inside (n : Nat) (p : FirmwarePool) : Prop :=
  ∃ a rest, p.tasks[0]? = some ⟨.ui, a :: rest⟩ ∧ a :: rest <:+ mountCode ∧ rest.length + 1 = n

/-- A step of the UI task returns, or leaves one access less. -/
theorem Inside.step {n : Nat} {r : Reply} (h : Inside n p)
    (hs : firmware.step p (.run 0 r) = some (p', es)) :
    (∃ res, .mountReturned res ∈ es) ∨ ∃ m, m + 1 = n ∧ Inside m p' := by
  obtain ⟨a, rest, hi, hsuffix, hn⟩ := h
  obtain ⟨rfl, rfl⟩ := step_run_eq hi hs
  rcases mountCode_suffix hsuffix with ⟨g, -, rfl, hrest⟩ | ⟨rfl, rfl⟩
  · by_cases hg : g.holds p.shared.audio = true
    · left
      simp only [firmwareProgram, runInstr, if_pos hg]
      exact ⟨_, List.mem_singleton_self _⟩
    · right
      obtain ⟨b, rest', rfl⟩ := List.exists_cons_of_ne_nil hrest
      refine ⟨rest'.length + 1, hn, b, rest', ?_, (List.suffix_cons _ _).trans hsuffix, rfl⟩
      obtain ⟨hlt, -⟩ := List.getElem?_eq_some_iff.mp hi
      simp only [firmwareProgram, runInstr, if_neg hg]
      rw [List.getElem?_append_left (by simpa using hlt), List.getElem?_set_self hlt]
      rfl
  · exact .inl ⟨_, List.mem_singleton_self _⟩

/-- A step of another task leaves it where it is. -/
theorem Inside.frame {n : Nat} (h : Inside n p) (hs : firmware.step p l = some (p', es))
    (hl : l.task ≠ 0) : Inside n p' := by
  obtain ⟨a, rest, hi, hsuffix, hn⟩ := h
  exact ⟨a, rest, other_step hs hi hl, hsuffix, hn⟩

theorem Inside.not_called {n : Nat} {c : Callback} (h : Inside n p) :
    firmware.step p (.call 0 c) ≠ some (p', es) := by
  intro hs
  obtain ⟨a, rest, hi, -, -⟩ := h
  obtain ⟨ρ, code, hi', -⟩ := step_call_inv hs
  cases (Task.mk.inj (Option.some.inj (hi.symm.trans hi'))).2

theorem uiSteps_snoc (ls : List (Lab Reply Callback)) :
    uiSteps (ls ++ [l]) = uiSteps ls + uiSteps [l] := List.countP_append

/-- **A call returns**, however the workers go on meanwhile: with its fifth step
    after the call at the latest. -/
theorem Inside.returns {ls : List (Lab Reply Callback)} {n : Nat} (h : Inside n p)
    (hrun : Run firmware p ls p' tr) (hsteps : n ≤ uiSteps ls) :
    ∃ res, .mountReturned res ∈ tr := by
  have hstep : (∃ res, .mountReturned res ∈ tr) ∨ ∃ m, m + uiSteps ls = n ∧ Inside m p' := by
    clear hsteps
    induction hrun with
    | nil => exact .inr ⟨n, rfl, h⟩
    | @snoc ls q tr l q' es _ hs ih =>
        rcases ih with ⟨res, hres⟩ | ⟨m, hm, hin⟩
        · exact .inl ⟨res, List.mem_append_left es hres⟩
        rw [uiSteps_snoc]
        by_cases hl : l.task = 0
        · cases l with
          | call i c =>
              obtain rfl : i = 0 := hl
              exact absurd hs hin.not_called
          | run i r =>
              obtain rfl : i = 0 := hl
              rcases hin.step hs with ⟨res, hres⟩ | ⟨m', rfl, hin'⟩
              · exact .inl ⟨res, List.mem_append_right tr hres⟩
              · have hown : uiSteps [Lab.run 0 r] = 1 := rfl
                exact .inr ⟨m', by omega, hin'⟩
        · have hother : uiSteps [l] = 0 := by
            cases l with
            | call i c => rfl
            | run i r =>
                cases i with
                | zero => exact absurd rfl hl
                | succ i => rfl
          exact .inr ⟨m, by rw [hother, Nat.add_zero, hm], hin.frame hs hl⟩
  rcases hstep with hret | ⟨m, hm, a, rest, -, -, hpos⟩
  · exact hret
  · omega

theorem Inside.enabled {n : Nat} (h : Inside n p) (r : Reply) :
    (firmware.step p (.run 0 r)).isSome := by
  obtain ⟨a, rest, hi, -, -⟩ := h
  show (firmwareProgram.step p (.run 0 r)).isSome
  rw [step_run hi]
  rfl

end Runs

/-! ## Every run -/

/-- A call of `sd_card_mount` that is under way can go on, and returns after at
    most as many steps of its own as it has accesses left. -/
structure Returns (p : FirmwarePool) : Prop where
  enabled : ∀ n r, Inside n p → (firmware.step p (.run 0 r)).isSome
  returns : ∀ n ls p' tr, Inside n p → Run firmware p ls p' tr → n ≤ uiSteps ls →
    ∃ res, .mountReturned res ∈ tr

theorem returns_always (p : FirmwarePool) : Returns p where
  enabled := fun _ r h => h.enabled r
  returns := fun _ _ _ _ h hrun hsteps => h.returns hrun hsteps

section Every

variable {p : FirmwarePool} {ls : List (Lab Reply Callback)} {tr : List Ev}

theorem idempotent_iff_tests (h : Run firmware bootFirmware ls p tr) :
    Idempotent tr ↔ Meets firmware bootFirmware TestsAtRest ls := by
  have hnil : Idempotent [] := fun pre r post s htr => absurd htr.symm (by simp)
  have hstep : ∀ p tr l p' es, Calls p tr → firmware.step p l = some (p', es) →
      Calls p' (tr ++ es) := fun _ _ _ _ _ hP hs => calls_step hP hs
  have hend := always_iff_of_never_regained (G := fun _ tr => Idempotent tr) calls_boot hstep hnil
    (fun _ _ _ _ _ _ _ hall => (onMounted_append.mp hall).1) h
  rw [← hend]
  refine always_iff_meets calls_boot hstep hnil ?_ h
  intro p tr l p' es hP hidem hs
  exact ⟨testsAtRest_of_idempotent hP hs,
    fun hC => onMounted_step (fun _ => rfl) hP hs hidem (.inl hC)⟩

/-- **Mounting a mounted card.**  In every run, a call that finds a card mounted
    returns, makes no driver call and changes no SD and no audio variable; all
    such calls return `ESP_OK` exactly if each of their tests finds the meter at
    rest. -/
theorem mount_idempotent_iff (h : Run firmware bootFirmware ls p tr) :
    (Idempotent tr ↔ Meets firmware bootFirmware TestsAtRest ls) ∧ Unchanged tr ∧
      Meets firmware bootFirmware (fun q l => InMount q l → Untouched q l) ls ∧ Returns p :=
  ⟨idempotent_iff_tests h, unchanged_of_run h, fun _ _ _ _ _ _ _ hin => untouched_step hin,
    returns_always p⟩

end Every

/-- The SD page is opened and mounts the card. -/
def cardMounted : List (Lab Reply Callback) :=
  .call 0 (.audio (.navigate .hwSd)) :: List.replicate 8 (.run 0 {})

/-- Its button mounts the card again. -/
def mountedAgain : List (Lab Reply Callback) :=
  cardMounted ++ .call 0 (.audio .sdMount) :: List.replicate 6 (.run 0 {})

theorem mount_idempotent_iff_at :
    ∃ p tr, Run firmware bootFirmware mountedAgain p tr ∧ Idempotent tr ∧ Unchanged tr ∧
      Meets firmware bootFirmware (fun q l => InMount q l → Untouched q l) mountedAgain ∧
      Returns p := by
  have hrun : ∃ p tr, exec firmware bootFirmware mountedAgain = some (p, tr) := ⟨_, _, rfl⟩
  obtain ⟨p, tr, hexec⟩ := hrun
  obtain ⟨hiff, hrest⟩ := mount_idempotent_iff (run_of_exec hexec)
  exact ⟨p, tr, run_of_exec hexec, hiff.mpr (meets_of_checks rfl), hrest⟩

/-- With the card mounted the meter is started, the audio page is left, and the
    SD page is opened again before the meter has stopped. -/
def mountedUnderMeter : List (Lab Reply Callback) :=
  cardMounted ++ List.flatten
    [.call 0 (.audio (.navigate .hwAudioMic)) :: List.replicate 2 (.run 0 {}),
      .call 0 (.audio (.start .mic)) :: List.replicate 18 (.run 0 {}),
      .call 0 (.audio (.audioMicBack .hardwareTests)) :: List.replicate 14 (.run 0 {}),
      .call 0 (.audio (.navigate .hwSd)) :: List.replicate 4 (.run 0 {})]

/-- The call on the mounted card returns `ESP_ERR_INVALID_STATE`. -/
theorem mount_refused_under_meter :
    ¬ ∀ ls p tr, Run firmware bootFirmware ls p tr → Idempotent tr := by
  intro hall
  have hrun : ∃ p pre s, exec firmware bootFirmware mountedUnderMeter =
      some (p, pre ++ [.mountReturned ⟨espErrInvalidState, s, []⟩]) ∧ found pre = some s ∧
      Mounted s := ⟨_, [_, _, _, _, _], _, rfl, rfl, rfl, rfl⟩
  obtain ⟨p, pre, s, hexec, hfound, hmounted⟩ := hrun
  have herr : espErrInvalidState = espOk :=
    congrArg Result.err (hall _ p _ (run_of_exec hexec) pre _ [] s rfl hfound hmounted)
  exact absurd herr (by decide)

end SdMount
