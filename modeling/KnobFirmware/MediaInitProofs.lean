import KnobFirmware.MediaCommandProofs

/-! # `media_controller_init` — the order in which the handles appear

    The module is initialised by a chain of driver calls.  Each of them returns
    at the first error; the last three set `s_hid_device`, `s_command_queue` and
    create the command task.  A call that finds `s_ready` or `s_hid_device` set
    returns `ESP_OK` at once.

    The machine below is the whole module: calls of `media_controller_init` in any
    number and with any results inside them, and between them all that the tasks
    of `MediaCommand` do.

    `init_contract_iff`: a call that returns `ESP_OK` leaves the module able to
    take keys in exactly those runs where no call comes after one that created
    the HID device and then failed on the queue or on the task. -/

namespace MediaInit

open EspErr LossyFifo MediaCallback MediaCommand StepMachine

/-! ## The code -/

def espErrNvsNoFreePages : EspErr := 0x110d
def espErrNvsNewVersionFound : EspErr := 0x1110

/-- The results of the calls inside `media_controller_init`, those that are only
    logged left out. -/
structure InitReplies where
  nvsFlashInit          : EspErr := espOk
  nvsFlashErase         : EspErr := espOk
  nvsFlashInitAgain     : EspErr := espOk
  btControllerInit      : EspErr := espOk
  btControllerEnable    : EspErr := espOk
  bluedroidInit         : EspErr := espOk
  bluedroidEnable       : EspErr := espOk
  gapRegisterCallback   : EspErr := espOk
  setAuthenReqMode      : EspErr := espOk
  setIocapMode          : EspErr := espOk
  setMaxKeySize         : EspErr := espOk
  setInitKey            : EspErr := espOk
  setRspKey             : EspErr := espOk
  gapSetDeviceName      : EspErr := espOk
  gapConfigAdvData      : EspErr := espOk
  gattsRegisterCallback : EspErr := espOk
  hiddDevInit           : EspErr := espOk
  /-- `xQueueCreate` does not return NULL. -/
  queueCreated          : Bool := true
  /-- `xTaskCreate` returns `pdPASS`. -/
  taskCreated           : Bool := true
  deriving DecidableEq, Repr

/-- The module: the state that `MediaCommand` works on, and whether
    `media_command_task` has been created. -/
structure MediaModule where
  sys         : MediaSys
  commandTask : Bool
  deriving DecidableEq, Repr

/-- `media_nvs_init`. -/
def mediaNvsInit (r : InitReplies) : EspErr :=
  if r.nvsFlashInit = espErrNvsNoFreePages ∨ r.nvsFlashInit = espErrNvsNewVersionFound then
    if r.nvsFlashErase ≠ espOk then r.nvsFlashErase else r.nvsFlashInitAgain
  else r.nvsFlashInit

/-- `media_bluetooth_stack_init`. -/
def mediaBluetoothStackInit (r : InitReplies) : EspErr :=
  firstError [r.btControllerInit, r.btControllerEnable, r.bluedroidInit, r.bluedroidEnable]

/-- `media_gap_init`. -/
def mediaGapInit (r : InitReplies) : EspErr :=
  firstError [r.gapRegisterCallback, r.setAuthenReqMode, r.setIocapMode, r.setMaxKeySize,
    r.setInitKey, r.setRspKey, r.gapSetDeviceName, r.gapConfigAdvData]

/-- The steps of `media_controller_init` up to `esp_hidd_dev_init`, each under
    `ESP_RETURN_ON_ERROR`. -/
def initChain (r : InitReplies) : EspErr :=
  firstError [mediaNvsInit r, mediaBluetoothStackInit r, mediaGapInit r,
    r.gattsRegisterCallback, r.hiddDevInit]

/-- `media_controller_init`.  `esp_hidd_dev_init` sets `s_hid_device` only when it
    returns `ESP_OK`. -/
def mediaControllerInit (r : InitReplies) (m : MediaModule) : EspErr × MediaModule :=
  if m.sys.flags.sReady = true ∨ m.sys.sHidDevice = true then (espOk, m)
  else if initChain r ≠ espOk then (initChain r, m)
  else if r.queueCreated = false then
    (espErrNoMem, { m with sys := { m.sys with sHidDevice := true, sCommandQueue := none } })
  else if r.taskCreated = false then
    -- the queue is deleted again, the device is not
    (espErrNoMem, { m with sys := { m.sys with sHidDevice := true, sCommandQueue := none } })
  else
    (espOk, { m with
      sys := { m.sys with sHidDevice := true, sCommandQueue := some .empty },
      commandTask := true })

/-! ## The module as a machine -/

inductive ModuleLab where
  /-- A call of `media_controller_init`. -/
  | init (r : InitReplies)
  /-- A step of the tasks and callbacks, or of a `media_controller_send`. -/
  | media (l : MediaLab)
  deriving DecidableEq, Repr

inductive ModuleEv where
  /-- `media_controller_init` returns. -/
  | initReturned (err : EspErr)
  | media (e : MediaEv)
  deriving DecidableEq, Repr

/-- What can take steps.  The events of the HID device come from the event loop
    of `esp_hidd_dev_init`, which a failed call deletes again. -/
def Exists (m : MediaModule) : MediaLab → Prop
  | .event (.hidd _) => m.sys.sHidDevice = true
  | .task _ => m.commandTask = true
  | .event (.gap _) | .callback _ _ | .send _ | .sender _ => True

instance (m : MediaModule) : (l : MediaLab) → Decidable (Exists m l)
  | .event (.hidd _) => inferInstanceAs (Decidable (_ = _))
  | .task _ => inferInstanceAs (Decidable (_ = _))
  | .event (.gap _) => .isTrue trivial
  | .callback _ _ => .isTrue trivial
  | .send _ => .isTrue trivial
  | .sender _ => .isTrue trivial

def moduleStep (m : MediaModule) : ModuleLab → Option (MediaModule × List ModuleEv)
  | .init r => some ((mediaControllerInit r m).2, [.initReturned (mediaControllerInit r m).1])
  | .media l =>
      if Exists m l then
        (mediaStep m.sys l).map fun (sys, es) => ({ m with sys := sys }, es.map .media)
      else
        none

/-- The module as its static initialisers leave it. -/
def notInitialized : MediaModule where
  sys := {
    callbacks := ⟨{}, [], []⟩
    sHidDevice := false
    sCommandQueue := none
    task := .receive
    senders := []
    connections := 0 }
  commandTask := false

def controller : Machine MediaModule ModuleLab ModuleEv where
  start := fun m => m = notInitialized
  step := moduleStep

/-! ## What a call can do -/

/-- The call gets past `esp_hidd_dev_init`. -/
def InitReplies.CreatesDevice (r : InitReplies) : Prop := initChain r = espOk

/-- The queue and the task can be created. -/
def InitReplies.Completes (r : InitReplies) : Prop :=
  r.queueCreated = true ∧ r.taskCreated = true

instance (r : InitReplies) : Decidable r.CreatesDevice := inferInstanceAs (Decidable (_ = _))

instance (r : InitReplies) : Decidable r.Completes := inferInstanceAs (Decidable (_ ∧ _))

/-- `s_hid_device` and `s_command_queue` are non-NULL and the command task exists. -/
def Operational (m : MediaModule) : Prop :=
  m.sys.sHidDevice = true ∧ m.sys.sCommandQueue ≠ none ∧ m.commandTask = true

/-- What a call of `media_controller_init` does.  Every invariant below is proved
    from this. -/
inductive InitOutcome (r : InitReplies) (m : MediaModule) : EspErr → MediaModule → Prop where
  | skip (h : m.sys.flags.sReady = true ∨ m.sys.sHidDevice = true) : InitOutcome r m espOk m
  | fail (hdev : m.sys.sHidDevice = false) (hno : ¬ r.CreatesDevice) :
      InitOutcome r m (initChain r) m
  | half (m' : MediaModule) (hdev : m.sys.sHidDevice = false) (hyes : r.CreatesDevice)
      (hnot : ¬ r.Completes) (hdev' : m'.sys.sHidDevice = true)
      (hqueue : m'.sys.sCommandQueue = none)
      (hcb : m'.sys.callbacks = m.sys.callbacks) : InitOutcome r m espErrNoMem m'
  | full (m' : MediaModule) (hdev : m.sys.sHidDevice = false) (hyes : r.CreatesDevice)
      (hall : r.Completes) (hop : Operational m')
      (hcb : m'.sys.callbacks = m.sys.callbacks) : InitOutcome r m espOk m'

theorem mediaControllerInit_outcome (r : InitReplies) (m : MediaModule) :
    InitOutcome r m (mediaControllerInit r m).1 (mediaControllerInit r m).2 := by
  rw [mediaControllerInit]
  by_cases hskip : m.sys.flags.sReady = true ∨ m.sys.sHidDevice = true
  · rw [if_pos hskip]
    exact .skip hskip
  · rw [if_neg hskip]
    have hdev : m.sys.sHidDevice = false := (Bool.not_eq_true _).mp fun h => hskip (.inr h)
    by_cases hchain : initChain r = espOk
    · rw [if_neg (not_not_intro hchain)]
      cases hq : r.queueCreated with
      | false =>
          rw [if_pos rfl]
          exact .half _ hdev hchain (fun h => absurd (hq.symm.trans h.1) Bool.false_ne_true)
            rfl rfl rfl
      | true =>
          rw [if_neg Bool.false_ne_true.symm]
          cases ht : r.taskCreated with
          | false =>
              rw [if_pos rfl]
              exact .half _ hdev hchain (fun h => absurd (ht.symm.trans h.2) Bool.false_ne_true)
                rfl rfl rfl
          | true =>
              rw [if_neg Bool.false_ne_true.symm]
              exact .full _ hdev hchain ⟨hq, ht⟩ ⟨rfl, Option.some_ne_none _, rfl⟩ rfl
    · rw [if_pos hchain]
      exact .fail hdev hchain

/-! ## What the rest of the module leaves alone -/

/-- No step of a task or callback makes or deletes the queue. -/
theorem sCommandQueue_step {s s' : MediaSys} {l : MediaLab} {es : List MediaEv}
    (h : media.step s l = some (s', es)) :
    s'.sCommandQueue = none ↔ s.sCommandQueue = none := by
  cases l with
  | event e =>
      obtain ⟨rfl, -⟩ := event_inv h
      exact Iff.rfl
  | callback t err =>
      obtain ⟨_, _, heq⟩ := Option.map_eq_some_iff.mp h
      obtain ⟨rfl, -⟩ := Prod.mk.inj heq
      exact Iff.rfl
  | send key =>
      obtain ⟨rfl, -⟩ := Prod.mk.inj (Option.some.inj h)
      exact Iff.rfl
  | sender i =>
      obtain ⟨snd, s₁, next, -, hsend, rfl⟩ := sender_inv h
      rcases mediaControllerSend_cases hsend with
        ⟨rfl, -⟩ | ⟨rfl, -⟩ | ⟨q, q', -, hq, -, rfl, -⟩
      · exact Iff.rfl
      · exact Iff.rfl
      · show some q' = none ↔ s.sCommandQueue = none
        rw [hq]
        exact iff_of_false (Option.some_ne_none _) (Option.some_ne_none _)
  | task r =>
      obtain ⟨q, t, hframe, hqueue⟩ := mediaCommandTask_frame s r
      rw [show mediaCommandTask s r = (s', es) from Option.some.inj h] at hframe
      obtain rfl : s' = _ := hframe
      exact hqueue

theorem operational_kept {m : MediaModule} {s' : MediaSys} {l : MediaLab} {es : List MediaEv}
    (h : mediaStep m.sys l = some (s', es)) :
    Operational { m with sys := s' } ↔ Operational m := by
  show s'.sHidDevice = true ∧ ¬ s'.sCommandQueue = none ∧ m.commandTask = true ↔ _
  rw [sHidDevice_step h, sCommandQueue_step h]
  rfl

/-! ## `s_ready` comes after the device -/

/-- `s_ready` is set only by a callback of the HID device. -/
structure ReadyGuarded (m : MediaModule) : Prop where
  ready : m.sys.flags.sReady = true → m.sys.sHidDevice = true
  hidd  : m.sys.callbacks.hidd ≠ [] → m.sys.sHidDevice = true
  gap   : .setReady true ∉ m.sys.callbacks.gap

theorem sReady_access {err : EspErr} {f : MediaFlags} {a : Access}
    (h : (access err f a).1.sReady = true) : f.sReady = true ∨ a = .setReady true := by
  cases a with
  | setReady v =>
      right
      rw [show v = true from h]
  | setConnected | setHidStarted | setAdvDataReady | setAdvertising | ifHidStarted
  | ifAdvDataReady | unlessConnected | unlessAdvertising | startAdvertising => exact .inl h

theorem setReady_not_mem_gap (e : GapEvent) : .setReady true ∉ mediaGapEventHandler e := by
  cases e <;> simp [mediaGapEventHandler, mediaTryStartAdvertising]

/-- One access of a callback: only the HID device's callback sets `s_ready`, and
    what is left to do was to be done before. -/
theorem readyGuarded_advance {m : MediaModule} {t : BtTask} {err : EspErr} {c' : Callbacks}
    {calls : List StartCall} {n : Nat} (hi : ReadyGuarded m)
    (h : m.sys.callbacks.advance t err = some (c', calls)) :
    ReadyGuarded { m with sys := { m.sys with callbacks := c', connections := n } } := by
  rw [Callbacks.advance] at h
  cases htodo : m.sys.callbacks.todo t with
  | nil => rw [htodo] at h; contradiction
  | cons a rest =>
      rw [htodo] at h
      have hsub : ∀ b : Bool, (if b = true then rest else []) ⊆ a :: rest := by
        intro b
        cases b with
        | true => exact List.subset_cons_self a rest
        | false => exact List.nil_subset _
      cases t with
      | gap =>
          obtain ⟨rfl, -⟩ := Prod.mk.inj (Option.some.inj h)
          have hgap : m.sys.callbacks.gap = a :: rest := htodo
          have hnot : .setReady true ∉ a :: rest := hgap ▸ hi.gap
          refine ⟨fun hready => ?_, hi.hidd, fun hmem => hnot (hsub _ hmem)⟩
          rcases sReady_access hready with hbefore | rfl
          · exact hi.ready hbefore
          · exact absurd List.mem_cons_self hnot
      | hidd =>
          obtain ⟨rfl, -⟩ := Prod.mk.inj (Option.some.inj h)
          have hhidd : m.sys.callbacks.hidd = a :: rest := htodo
          have hset : m.sys.sHidDevice = true := hi.hidd (hhidd ▸ List.cons_ne_nil a rest)
          exact ⟨fun _ => hset, fun _ => hset, hi.gap⟩

/-- A step that leaves the callbacks and the device alone keeps the guard. -/
theorem ReadyGuarded.frame {m : MediaModule} {s' : MediaSys} (hi : ReadyGuarded m)
    (hdev : s'.sHidDevice = m.sys.sHidDevice) (hcb : s'.callbacks = m.sys.callbacks) :
    ReadyGuarded { m with sys := s' } := by
  constructor
  · show s'.callbacks.flags.sReady = true → s'.sHidDevice = true
    rw [hcb, hdev]
    exact hi.ready
  · show s'.callbacks.hidd ≠ [] → s'.sHidDevice = true
    rw [hcb, hdev]
    exact hi.hidd
  · show .setReady true ∉ s'.callbacks.gap
    rw [hcb]
    exact hi.gap

theorem readyGuarded_media {m : MediaModule} {s' : MediaSys} {l : MediaLab}
    {es : List MediaEv} (hi : ReadyGuarded m) (hex : Exists m l)
    (h : mediaStep m.sys l = some (s', es)) : ReadyGuarded { m with sys := s' } := by
  have hdev : s'.sHidDevice = m.sys.sHidDevice := sHidDevice_step h
  cases l with
  | event e =>
      obtain ⟨rfl, -⟩ := event_inv h
      cases e with
      | gap e => exact ⟨hi.ready, hi.hidd, setReady_not_mem_gap e⟩
      | hidd e => exact ⟨hi.ready, fun _ => hex, hi.gap⟩
  | callback t err =>
      obtain ⟨⟨c', calls⟩, hadv, heq⟩ := Option.map_eq_some_iff.mp h
      obtain ⟨rfl, -⟩ := Prod.mk.inj heq
      exact readyGuarded_advance hi hadv
  | send key =>
      obtain ⟨rfl, -⟩ := Prod.mk.inj (Option.some.inj h)
      exact hi.frame hdev rfl
  | sender i =>
      obtain ⟨snd, s₁, next, -, hsend, rfl⟩ := sender_inv h
      rcases mediaControllerSend_cases hsend with ⟨rfl, -⟩ | ⟨rfl, -⟩ | ⟨_, _, -, -, -, rfl, -⟩ <;>
        exact hi.frame hdev rfl
  | task r =>
      obtain ⟨q, t, hframe, -⟩ := mediaCommandTask_frame m.sys r
      rw [show mediaCommandTask m.sys r = (s', es) from Option.some.inj h] at hframe
      obtain rfl : s' = _ := hframe
      exact hi.frame hdev rfl

theorem media_inv {m m' : MediaModule} {l : MediaLab} {es : List ModuleEv}
    (h : controller.step m (.media l) = some (m', es)) :
    Exists m l ∧ ∃ s' es', mediaStep m.sys l = some (s', es') ∧ m' = { m with sys := s' } ∧
      es = es'.map .media := by
  have hstep : moduleStep m (.media l) = some (m', es) := h
  rw [moduleStep] at hstep
  split at hstep
  · rename_i hex
    obtain ⟨⟨s', es'⟩, hs, heq⟩ := Option.map_eq_some_iff.mp hstep
    obtain ⟨rfl, rfl⟩ := Prod.mk.inj heq
    exact ⟨hex, s', es', hs, rfl, rfl⟩
  · exact nomatch hstep

theorem init_inv {m m' : MediaModule} {r : InitReplies} {es : List ModuleEv}
    (h : controller.step m (.init r) = some (m', es)) :
    ∃ err, InitOutcome r m err m' ∧ es = [.initReturned err] := by
  obtain ⟨rfl, rfl⟩ := Prod.mk.inj (Option.some.inj h)
  exact ⟨_, mediaControllerInit_outcome r m, rfl⟩

theorem readyGuarded_step {m m' : MediaModule} {l : ModuleLab} {es : List ModuleEv}
    (hi : ReadyGuarded m) (h : controller.step m l = some (m', es)) : ReadyGuarded m' := by
  -- a call that leaves the callbacks alone and the device set
  have made : m'.sys.sHidDevice = true → m'.sys.callbacks = m.sys.callbacks →
      ReadyGuarded m' := by
    intro hdev hcb
    exact ⟨fun _ => hdev, fun _ => hdev, hcb ▸ hi.gap⟩
  cases l with
  | init r =>
      obtain ⟨err, hout, -⟩ := init_inv h
      cases hout with
      | skip => exact hi
      | fail => exact hi
      | half _ _ _ _ hdev' _ hcb => exact made hdev' hcb
      | full _ _ _ _ hop hcb => exact made hop.1 hcb
  | media l =>
      obtain ⟨hex, s', es', hs, rfl, -⟩ := media_inv h
      exact readyGuarded_media hi hex hs

/-! ## Keys -/

/-- Once a host is connected and while the queue has room, a call of
    `media_controller_send` with a valid key can run and return `ESP_OK`. -/
def AcceptsKeys (m : MediaModule) : Prop :=
  m.sys.flags.sReady = true → m.sys.flags.sConnected = true →
    (∀ q, m.sys.sCommandQueue = some q → q.items.length < mediaCommandQueueLength) →
    ∀ key, mediaKeyToReportBit key ≠ 0 →
      ∃ m' c, Run controller m
        (.media (.send key) :: List.replicate 5 (.media (.sender m.sys.senders.length))) m'
        [.media (.returned c espOk)] ∧ c.key = key

section Accepting

variable {m : MediaModule} {key : MediaControlKey}

/-- The module while the last of the calls in progress is one with `key`. -/
def sending (m : MediaModule) (key : MediaControlKey) (n : SendStep) : MediaModule :=
  { m with sys := { m.sys with senders := m.sys.senders ++ [⟨key, n⟩] } }

theorem step_sender {i : Nat} {snd : Sender} (h : m.sys.senders[i]? = some snd) :
    controller.step m (.media (.sender i)) =
      (mediaControllerSend m.sys snd).map fun (s', snd', es) =>
        ({ m with
            sys := { s' with
              senders := match snd' with
                | none => m.sys.senders.eraseIdx i
                | some snd' => m.sys.senders.set i snd' } }, es.map .media) := by
  have hex : Exists m (.sender i) := trivial
  show moduleStep m (.media (.sender i)) = _
  rw [moduleStep, if_pos hex, mediaStep, h]
  exact Option.map_map _ _ _

theorem sending_last (n : SendStep) :
    (sending m key n).sys.senders[m.sys.senders.length]? = some ⟨key, n⟩ := by
  simp [sending]

/-- The call has passed a test and goes on. -/
theorem sending_goesOn {n n' : SendStep}
    (h : mediaControllerSend (sending m key n).sys ⟨key, n⟩ =
      some ((sending m key n).sys, some ⟨key, n'⟩, [])) :
    controller.step (sending m key n) (.media (.sender m.sys.senders.length)) =
      some (sending m key n', []) := by
  have hset : (sending m key n).sys.senders.set m.sys.senders.length ⟨key, n'⟩ =
      (sending m key n').sys.senders := by
    simp [sending]
  rw [step_sender (sending_last n), h, Option.map_some]
  dsimp only
  rw [hset]
  rfl

theorem acceptsKeys_of_operational (h : Operational m) : AcceptsKeys m := by
  intro hready hconn hroom key hbit
  obtain ⟨hdev, hqueue, -⟩ := h
  obtain ⟨q, hq⟩ := Option.ne_none_iff_exists'.mp hqueue
  have hcall : controller.step m (.media (.send key)) =
      some (sending m key .testReady, []) := rfl
  have h1 := @sending_goesOn m key .testReady .testConnected (if_pos hready)
  have h2 := @sending_goesOn m key .testConnected .testDevice (if_pos hconn)
  have h3 := @sending_goesOn m key .testDevice .testQueue (if_pos hdev)
  have h4 : controller.step (sending m key .testQueue)
      (.media (.sender m.sys.senders.length)) = some (sending m key .enqueue, []) := by
    refine sending_goesOn ?_
    have hq' : (sending m key .testQueue).sys.sCommandQueue = some q := hq
    rw [mediaControllerSend]
    dsimp only
    rw [hq']
    exact if_neg hbit
  have h5 : ∃ m' c, controller.step (sending m key .enqueue)
      (.media (.sender m.sys.senders.length)) = some (m', [.media (.returned c espOk)]) ∧
        c.key = key := by
    have hq' : (sending m key .enqueue).sys.sCommandQueue = some q := hq
    obtain ⟨q', hsend⟩ := BoundedFifo.send_of_lt
      ⟨key, (sending m key .enqueue).sys.connUp⟩ (hroom q hq)
    rw [step_sender (sending_last .enqueue), mediaControllerSend]
    dsimp only
    rw [hq']
    dsimp only
    rw [hsend]
    exact ⟨_, _, rfl, rfl⟩
  obtain ⟨m', c, h5, hkey⟩ := h5
  exact ⟨m', c, (((((Run.nil.snoc hcall).snoc h1).snoc h2).snoc h3).snoc h4).snoc h5, hkey⟩

end Accepting

/-! ## The contract -/

/-- A call that returned `ESP_OK` has left the module operational, so that it can
    take keys. -/
def Contract (m : MediaModule) (tr : List ModuleEv) : Prop :=
  .initReturned espOk ∈ tr → Operational m ∧ AcceptsKeys m

/-- The calls of `media_controller_init` in a schedule. -/
def inits : List ModuleLab → List InitReplies
  | [] => []
  | .init r :: ls => r :: inits ls
  | .media _ :: ls => inits ls

/-- The first of the calls that gets past `esp_hidd_dev_init` fails after it, on
    the queue or on the task. -/
def HalfDone : List InitReplies → Prop
  | [] => False
  | r :: rs => if r.CreatesDevice then ¬ r.Completes else HalfDone rs

/-- No call comes after one that created the HID device and then failed on the
    queue or on the task. -/
def NotRetried : List InitReplies → Prop
  | [] => True
  | r :: rs => if r.CreatesDevice then r.Completes ∨ rs = [] else NotRetried rs

section Calls

variable {r : InitReplies} {rs : List InitReplies} {ls ls' : List ModuleLab}

theorem inits_append : inits (ls ++ ls') = inits ls ++ inits ls' := by
  induction ls with
  | nil => rfl
  | cons l ls ih =>
      cases l with
      | init r => exact congrArg (r :: ·) ih
      | media _ => exact ih

theorem halfDone_snoc : HalfDone (rs ++ [r]) ↔
    HalfDone rs ∨ (¬ (∃ x ∈ rs, x.CreatesDevice) ∧ r.CreatesDevice ∧ ¬ r.Completes) := by
  induction rs with
  | nil =>
      by_cases hr : r.CreatesDevice <;> simp [HalfDone, hr]
  | cons x rs ih =>
      rw [List.cons_append, HalfDone, HalfDone]
      by_cases hx : x.CreatesDevice
      · rw [if_pos hx, if_pos hx]
        exact (or_iff_left fun h => h.1 ⟨x, List.mem_cons_self, hx⟩).symm
      · have hrest : (∃ y ∈ x :: rs, y.CreatesDevice) ↔ ∃ y ∈ rs, y.CreatesDevice := by
          simp [hx]
        rw [if_neg hx, if_neg hx, ih, hrest]

theorem notRetried_snoc : NotRetried (rs ++ [r]) ↔ NotRetried rs ∧ ¬ HalfDone rs := by
  induction rs with
  | nil =>
      rw [List.nil_append, NotRetried, HalfDone, NotRetried, NotRetried]
      refine iff_of_true ?_ ⟨trivial, id⟩
      split
      · exact .inr rfl
      · trivial
  | cons x rs ih =>
      rw [List.cons_append, NotRetried, NotRetried, HalfDone]
      by_cases hx : x.CreatesDevice
      · rw [if_pos hx, if_pos hx, if_pos hx, not_not]
        constructor
        · intro h
          have hall : x.Completes :=
            h.resolve_right (List.append_ne_nil_of_right_ne_nil _ (by simp))
          exact ⟨.inl hall, hall⟩
        · intro h
          exact .inl h.2
      · rw [if_neg hx, if_neg hx, if_neg hx]
        exact ih

end Calls

theorem contract_iff {m : MediaModule} {tr : List ModuleEv} :
    Contract m tr ↔ (.initReturned espOk ∈ tr → Operational m) :=
  ⟨fun h hok => (h hok).1, fun h hok => ⟨h hok, acceptsKeys_of_operational (h hok)⟩⟩

/-- The call finds no device, or an operational module. -/
def FindsOperational (m : MediaModule) (l : ModuleLab) : Prop :=
  (∃ r, l = .init r) → m.sys.sHidDevice = true → Operational m

/-- **One step.**  As long as the contract has been kept, a step keeps it exactly
    when it is no call that finds a device in a module that is not operational. -/
theorem contract_step {m m' : MediaModule} {l : ModuleLab} {tr es : List ModuleEv}
    (hi : ReadyGuarded m) (hc : Contract m tr) (h : controller.step m l = some (m', es)) :
    Contract m' (tr ++ es) ↔ FindsOperational m l := by
  -- without a device no call has returned `ESP_OK`
  have fresh : m.sys.sHidDevice = false → .initReturned espOk ∉ tr := by
    intro hdev hok
    exact absurd (hdev.symm.trans (hc hok).1.1) Bool.false_ne_true
  have away : ∀ err, err ≠ espOk → m.sys.sHidDevice = false →
      .initReturned espOk ∉ tr ++ [.initReturned err] := by
    intro err herr hdev hok
    rcases List.mem_append.mp hok with h1 | h1
    · exact fresh hdev h1
    · exact herr (ModuleEv.initReturned.inj (List.mem_singleton.mp h1)).symm
  cases l with
  | init r =>
      obtain ⟨err, hout, rfl⟩ := init_inv h
      cases hout with
      | skip hskip =>
          have hdev : m.sys.sHidDevice = true := hskip.elim hi.ready id
          rw [contract_iff]
          constructor
          · intro hop _ _
            exact hop (by simp)
          · intro hfind _
            exact hfind ⟨r, rfl⟩ hdev
      | fail hdev hno =>
          refine iff_of_true (fun hok => absurd hok (away _ hno hdev)) fun _ h1 => ?_
          exact absurd (hdev.symm.trans h1) Bool.false_ne_true
      | half _ hdev _ _ _ _ _ =>
          refine iff_of_true (fun hok => absurd hok (away _ (by decide) hdev)) fun _ h1 => ?_
          exact absurd (hdev.symm.trans h1) Bool.false_ne_true
      | full _ hdev _ _ hop _ =>
          refine iff_of_true (contract_iff.mpr fun _ => hop) fun _ h1 => ?_
          exact absurd (hdev.symm.trans h1) Bool.false_ne_true
  | media l =>
      obtain ⟨-, s', es', hs, rfl, rfl⟩ := media_inv h
      have hev : .initReturned espOk ∈ tr ++ es'.map .media ↔ .initReturned espOk ∈ tr := by
        simp
      refine iff_of_true ?_ fun ⟨r, hr⟩ => nomatch hr
      rw [contract_iff, hev, operational_kept hs]
      exact contract_iff.mp hc

/-- What the calls so far have made of the handles. -/
structure Handles (m : MediaModule) (rs : List InitReplies) : Prop where
  guarded : ReadyGuarded m
  device  : m.sys.sHidDevice = true ↔ ∃ r ∈ rs, r.CreatesDevice
  half    : HalfDone rs ↔ m.sys.sHidDevice = true ∧ ¬ Operational m

theorem handles_start : Handles notInitialized [] := by
  refine ⟨⟨nofun, fun h => absurd rfl h, List.not_mem_nil⟩, ?_, ?_⟩
  · exact iff_of_false Bool.false_ne_true fun ⟨_, hr, _⟩ => nomatch hr
  · exact iff_of_false id fun hdev => absurd hdev.1 Bool.false_ne_true

/-- One call of `media_controller_init`. -/
theorem handles_init {m m' : MediaModule} {r : InitReplies} {rs : List InitReplies}
    {err : EspErr} (h : Handles m rs) (hguarded : ReadyGuarded m')
    (hout : InitOutcome r m err m') : Handles m' (rs ++ [r]) := by
  have hany : (∃ x ∈ rs ++ [r], x.CreatesDevice) ↔
      (∃ x ∈ rs, x.CreatesDevice) ∨ r.CreatesDevice := by
    simp [or_and_right, exists_or]
  cases hout with
  | skip hskip =>
      have hdev : m.sys.sHidDevice = true := hskip.elim h.guarded.ready id
      have hbefore : ∃ x ∈ rs, x.CreatesDevice := h.device.mp hdev
      refine ⟨hguarded, iff_of_true hdev (hany.mpr (.inl hbefore)), ?_⟩
      rw [halfDone_snoc, or_iff_left fun hnew => hnew.1 hbefore]
      exact h.half
  | fail _ hno =>
      refine ⟨hguarded, ?_, ?_⟩
      · rw [hany, or_iff_left hno]
        exact h.device
      · rw [halfDone_snoc, or_iff_left fun hnew => hno hnew.2.1]
        exact h.half
  | half _ hdev hyes hnot hdev' hqueue _ =>
      have hfresh : ¬ ∃ x ∈ rs, x.CreatesDevice := by
        rw [← h.device, hdev]
        exact Bool.false_ne_true
      refine ⟨hguarded, iff_of_true hdev' (hany.mpr (.inr hyes)), ?_⟩
      exact iff_of_true (halfDone_snoc.mpr (.inr ⟨hfresh, hyes, hnot⟩))
        ⟨hdev', fun hop => hop.2.1 hqueue⟩
  | full _ hdev hyes hall hop _ =>
      refine ⟨hguarded, iff_of_true hop.1 (hany.mpr (.inr hyes)), ?_⟩
      refine iff_of_false ?_ fun hnot => hnot.2 hop
      rw [halfDone_snoc, h.half, hdev]
      rintro (hbefore | hnew)
      · exact Bool.false_ne_true hbefore.1
      · exact hnew.2.2 hall

/-- The module's own steps leave the handles alone. -/
theorem handles_media {m : MediaModule} {s' : MediaSys} {l : MediaLab} {es : List MediaEv}
    {rs : List InitReplies} (h : Handles m rs) (hguarded : ReadyGuarded { m with sys := s' })
    (hs : mediaStep m.sys l = some (s', es)) : Handles { m with sys := s' } rs := by
  refine ⟨hguarded, ?_, ?_⟩
  · rw [← h.device]
    show s'.sHidDevice = true ↔ _
    rw [sHidDevice_step hs]
  · rw [h.half, operational_kept hs]
    show _ ↔ s'.sHidDevice = true ∧ _
    rw [sHidDevice_step hs]

theorem run_handles {ls : List ModuleLab} {m : MediaModule} {tr : List ModuleEv}
    (h : Run controller notInitialized ls m tr) : Handles m (inits ls) := by
  induction h with
  | nil => exact handles_start
  | @snoc ls m tr l m' es hrun hs ih =>
      have hguarded : ReadyGuarded m' := readyGuarded_step ih.guarded hs
      rw [inits_append]
      cases l with
      | init r =>
          obtain ⟨err, hout, -⟩ := init_inv hs
          exact handles_init ih hguarded hout
      | media l =>
          obtain ⟨-, s', es', hstep, rfl, -⟩ := media_inv hs
          show Handles _ (inits ls ++ [])
          rw [List.append_nil]
          exact handles_media ih hguarded hstep

/-- Every call finds an operational module or none exactly when none is a retry. -/
theorem meets_findsOperational_iff {ls : List ModuleLab} {m : MediaModule}
    {tr : List ModuleEv} (h : Run controller notInitialized ls m tr) :
    Meets controller notInitialized FindsOperational ls ↔ NotRetried (inits ls) := by
  induction h with
  | nil => exact ⟨fun _ => trivial, fun _ => meets_nil⟩
  | @snoc ls m tr l m' es hrun hs ih =>
      rw [meets_snoc, ih, inits_append]
      have hhandles : Handles m (inits ls) := run_handles hrun
      cases l with
      | init r =>
          show _ ↔ NotRetried (inits ls ++ [r])
          rw [notRetried_snoc, hhandles.half]
          refine and_congr_right fun _ => ?_
          constructor
          · rintro hfind ⟨hdev, hnot⟩
            exact hnot (hfind m tr hrun ⟨r, rfl⟩ hdev)
          · intro hnot m₁ tr₁ hrun₁ _ hdev
            obtain ⟨rfl, -⟩ := hrun.det hrun₁
            exact not_not.mp fun hno => hnot ⟨hdev, hno⟩
      | media l =>
          show _ ↔ NotRetried (inits ls ++ [])
          rw [List.append_nil]
          exact and_iff_left fun _ _ _ ⟨_, hr⟩ => nomatch hr

/-- **The contract of `media_controller_init`.**  In a run of the module every call
    that returns `ESP_OK` leaves it operational, with both handles, the task, and
    keys accepted once a host is connected, if and only if no call comes after one
    that created the HID device and then failed on the queue or on the task. -/
theorem init_contract_iff {ls : List ModuleLab} {m : MediaModule} {tr : List ModuleEv}
    (h : Run controller notInitialized ls m tr) :
    Always controller notInitialized Contract ls ↔ NotRetried (inits ls) := by
  rw [← meets_findsOperational_iff h]
  have hstart : ReadyGuarded notInitialized := (run_handles Run.nil).guarded
  refine always_iff_meets (I := fun m _ => ReadyGuarded m) hstart ?_ ?_ ?_ h
  · intro m tr l m' es hi hs
    exact readyGuarded_step hi hs
  · intro hok
    exact nomatch hok
  · intro m tr l m' es hi hc hs
    exact contract_step hi hc hs

/-- A first call fails in NVS, a second one completes, the HID profile starts and a
    host connects, and a third call has nothing to do. -/
theorem init_contract_iff_at :
    ∃ m tr, Run controller notInitialized
        ([.init { nvsFlashInit := espFail }, .init {}, .media (.event (.hidd .start)),
          .media (.callback .hidd espOk), .media (.callback .hidd espOk), .init {}]) m tr ∧
      NotRetried [{ nvsFlashInit := espFail }, {}, {}] ∧
      Always controller notInitialized Contract
        ([.init { nvsFlashInit := espFail }, .init {}, .media (.event (.hidd .start)),
          .media (.callback .hidd espOk), .media (.callback .hidd espOk), .init {}]) := by
  have hrun : ∃ m tr, Run controller notInitialized
      ([.init { nvsFlashInit := espFail }, .init {}, .media (.event (.hidd .start)),
        .media (.callback .hidd espOk), .media (.callback .hidd espOk), .init {}]) m tr :=
    ⟨_, _, run_of_exec rfl⟩
  obtain ⟨m, tr, hrun⟩ := hrun
  have hcalls : NotRetried [{ nvsFlashInit := espFail }, {}, {}] := by
    rw [NotRetried, if_neg (by decide), NotRetried, if_pos (by decide)]
    exact .inl ⟨rfl, rfl⟩
  exact ⟨m, tr, hrun, hcalls, (init_contract_iff hrun).mpr hcalls⟩

/-- The queue cannot be allocated; the next call returns `ESP_OK` all the same. -/
theorem retried_not_operational :
    ¬ ∀ ls m tr, Run controller notInitialized ls m tr →
      Always controller notInitialized Contract ls := by
  intro hall
  have hrun : ∃ m, exec controller notInitialized [.init { queueCreated := false }, .init {}] =
      some (m, [.initReturned espErrNoMem, .initReturned espOk]) ∧
        m.sys.sCommandQueue = none := ⟨_, rfl, rfl⟩
  obtain ⟨m, hexec, hqueue⟩ := hrun
  have hrun : Run controller notInitialized _ m _ := run_of_exec hexec
  have hcontract : Contract m _ := hall _ m _ hrun _ [] m _ (List.append_nil _).symm hrun
  exact (hcontract (by simp)).1.2.1 hqueue

end MediaInit
