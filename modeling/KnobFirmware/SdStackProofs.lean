import KnobFirmware.FatMountProofs
import KnobFirmware.SdCardProofs

/-! # The SD card over the vendored drivers

    The calls of `SdCardProofs`, run on the drivers' own code and memory in place
    of an abstract driver.  The allocator, the controller, the card and the file
    functions answer with whatever the label says; a step that reads, writes or
    frees a block that is not in use leads to no memory at all.

    * `coherent_iff` — the firmware, the drivers' tables and the heap agree along
      a run exactly while no mount fails at its very end;
    * `leak_free_iff` — between two calls without a card the heap is the one at
      boot exactly while no mount wedges or leaks and no interrupt is kept at an
      unmount;
    * `mounts_iff` — which mounts succeed, after which runs;
    * `call_returns` — no call runs into an assertion of the drivers;
    * `refines` — the drivers' code does what the abstract driver does, and its
      unmount never fails late. -/

namespace SdStack

open HeapProgram EspErr SdHost FatMount StepMachine
open AudioTask (Guard sdCardMountGuards)
open SdCard (FileOp FileReplies DirReplies writeReadCompare listEntries)

/-! ## The code -/

/-- `SD_MOUNT_POINT`. -/
def sdMountPoint : List Char := "/sdcard".toList

theorem sdMountPoint_fits : PathFits sdMountPoint := ⟨by decide, by decide⟩

/-- What a mount finds in the audio variables, and what the drivers are told. -/
structure MountCall where
  audio   : AudioTask.Shared
  replies : MountReplies

/-- The microphone test stands in the way. -/
def MountCall.Blocked (c : MountCall) : Prop := sdCardMountGuards.any (Guard.holds c.audio) = true

instance (c : MountCall) : Decidable c.Blocked := inferInstanceAs (Decidable (_ = true))

/-- `sd_card_mount`. -/
def sdCardMount (c : MountCall) : SdProg EspErr := do
  if c.Blocked then pure espErrInvalidState else do
    let g ← read id
    if g.sdCardMounted && g.sdCard.isSome then pure espOk else do
      let (err, mountedCard) ← espVfsFatSdmmcMount sdMountPoint c.replies
      if err ≠ espOk then do
        modify fun g => { g with sdCard := none, sdCardMounted := false }
        pure err
      else do
        modify fun g => { g with sdCard := mountedCard, sdCardMounted := true }
        match mountedCard with
        | none => halt
        | some card => do
            -- `sdmmc_card_print_info`
            load Kind.card card
            pure espOk

/-- `sd_card_unmount`. -/
def sdCardUnmount (intrFree : EspErr) : SdProg EspErr := do
  let g ← read id
  match g.sdCardMounted, g.sdCard with
  | true, some card => do
      let err ← espVfsFatSdcardUnmount sdMountPoint card intrFree
      if err ≠ espOk then pure err else do
        modify fun g => { g with sdCard := none, sdCardMounted := false }
        pure espOk
  | _, _ => do
      modify fun g => { g with sdCard := none, sdCardMounted := false }
      pure espOk

/-- The functions on files mount the card first and give up when that fails. -/
def withCard (c : MountCall) (body : EspErr × List FileOp) : SdProg (EspErr × List FileOp) := do
  let err ← sdCardMount c
  if err ≠ espOk then pure (err, []) else pure body

/-- `sd_card_update_status_label`, as far as it reads the card. -/
def sdCardUpdateStatusLabel : SdProg Unit := do
  let g ← read id
  match g.sdCardMounted, g.sdCard with
  | true, some card => do
      load Kind.card card
      pure ()
  | _, _ => pure ()

inductive Call where
  | mount (c : MountCall)
  | unmount (intrFree : EspErr)
  | readWriteTest (c : MountCall) (r : FileReplies)
  | listRoot (c : MountCall) (r : DirReplies)
  | updateStatusLabel

/-- The calls on files and directories, and the result of a call. -/
inductive Ev where
  | file (op : FileOp)
  | returned (err : EspErr)
  deriving DecidableEq, Repr

def results (r : EspErr × List FileOp) : List Ev := r.2.map .file ++ [.returned r.1]

def Call.run : Call → SdProg (List Ev)
  | .mount c => do
      let err ← sdCardMount c
      pure [.returned err]
  | .unmount intrFree => do
      let err ← sdCardUnmount intrFree
      pure [.returned err]
  | .readWriteTest c r => do
      let res ← withCard c (writeReadCompare r)
      pure (results res)
  | .listRoot c r => do
      let res ← withCard c (listEntries r).1
      pure (results res)
  | .updateStatusLabel => do
      sdCardUpdateStatusLabel
      pure []

/-- The mount that a call begins with. -/
def Call.mountCall : Call → Option MountCall
  | .mount c | .readWriteTest c _ | .listRoot c _ => some c
  | .unmount _ | .updateStatusLabel => none

/-- What a call emits, given the result of its mount or unmount. -/
def Call.emits (err : EspErr) : Call → List Ev
  | .mount _ | .unmount _ => [.returned err]
  | .readWriteTest _ r => results (if err ≠ espOk then (err, []) else writeReadCompare r)
  | .listRoot _ r => results (if err ≠ espOk then (err, []) else (listEntries r).1)
  | .updateStatusLabel => []

/-- After a fault there is no memory to speak of. -/
def stackStep : Option SdMem → Call → Option (Option SdMem × List Ev)
  | none, _ => none
  | some s, call =>
      match call.run s with
      | .done es s' => some (some s', es)
      | .stopped => none
      | .fault => some (none, [])

/-- Nothing is mounted yet; what else is in use does not matter, as long as the
    table of file systems has room. -/
structure Boot (i : Nat) (s : SdMem) : Prop extends Clear sdMountPoint i s.globals where
  controller    : s.globals.controller = none
  sSlot1        : s.globals.sSlot1 = none
  sdCard        : s.globals.sdCard = none
  sdCardMounted : s.globals.sdCardMounted = false

/-- The calls in any order, whatever the allocator, the controller, the card and
    the file functions answer. -/
def sdStack : Machine (Option SdMem) Call Ev where
  start s := ∃ i m, s = some m ∧ Boot i m
  step := stackStep

/-- The variables as initialised, with one file system registered. -/
def bootStatics : Statics where
  controller := none
  sCtlr := none
  sSlot1 := none
  sImpls := [none, none]
  sCards := [none, none]
  fatFs := [none, none]
  mutexes := [none, none]
  sVfs := some ⟨0, some "/dev".toList, 0⟩ :: List.replicate 7 none
  sVfsCount := 1
  sFatCtxs := [none, none]
  sCtx := [none, none]
  sdCard := none
  sdCardMounted := false

def bootMem : SdMem := ⟨put (fun _ _ => none) .vfsEntry 0 (some ()), bootStatics⟩

theorem boot_bootMem : Boot 1 bootMem where
  free := by decide
  room := by decide
  count := by decide
  other := by
    intro e he
    simp [bootMem, bootStatics] at he
    rw [he]
    decide
  sImpls := rfl
  sCards := ⟨none, rfl⟩
  fatFs := rfl
  mutexes := rfl
  sFatCtxs := rfl
  sCtx := rfl
  controller := rfl
  sSlot1 := rfl
  sdCard := rfl
  sdCardMounted := rfl

/-- Everything is granted, and there is a card. -/
def granted : MountReplies where
  card := some 1
  host :=
    { ctlr := ⟨some 1, some 1, some 1, some 1, some 1, espOk, 1, espOk⟩
      slot := some 1
      ioConfig := espOk
      cardInit := espOk
      intrFree := espOk }
  fat :=
    { basePath := some 1
      impl := some 1
      fatCtx := some 1
      flags := some 1
      vfsEntry := some 1
      lock := some 1
      volume := ⟨some 1, true, true, true, some 1, .ok⟩
      sdCtx := some 1 }

/-- A mount with the microphone test at rest. -/
def mountWith (m : MountReplies) : Call := .mount ⟨AudioTask.bootShared, m⟩

/-! ## Between two calls -/

/-- Nothing is mounted. -/
structure Off (i : Nat) (s : SdMem) : Prop extends Clear sdMountPoint i s.globals where
  sSlot1        : s.globals.sSlot1 = none
  sdCard        : s.globals.sdCard = none
  sdCardMounted : s.globals.sdCardMounted = false

/-- The card is mounted; without it the heap would be `h`. -/
structure On (i : Nat) (b : CardBlocks) (h : Heap Content) (s : SdMem) : Prop where
  mounted       : ∃ g, Mounted sdMountPoint i b h g s
  sdCard        : s.globals.sdCard = some b.card
  sdCardMounted : s.globals.sdCardMounted = true

/-- How `sd_card_mount` ends where nothing is mounted. -/
inductive MountsFromOff (i : Nat) (c : MountCall) (s : SdMem) : EspErr → SdMem → Prop where
  | blocked : c.Blocked → MountsFromOff i c s espErrInvalidState s
  | claimed {err : EspErr} : ¬ c.Blocked → s.globals.controller.isSome → err ≠ espOk →
      MountsFromOff i c s err s
  | refused {err : EspErr} {s' : SdMem} : ¬ c.Blocked → s.globals.controller = none →
      ¬ c.replies.Reaches → ¬ c.replies.Wedges → err ≠ espOk → Off i s' →
      s'.globals.controller = none → (s'.heap = s.heap ↔ ¬ c.replies.Leaks) →
      MountsFromOff i c s err s'
  | wedged {err : EspErr} {s' : SdMem} : ¬ c.Blocked → s.globals.controller = none →
      c.replies.Wedges → err ≠ espOk → Off i s' → s'.globals.controller.isSome →
      s'.heap ≠ s.heap → MountsFromOff i c s err s'
  | unsaved {err : EspErr} {s' : SdMem} : ¬ c.Blocked → s.globals.controller = none →
      c.replies.Unsaved → err ≠ espOk → (∃ impl, s'.globals.sImpls = [some impl, none]) →
      s'.globals.sdCardMounted = false → s'.heap ≠ s.heap → MountsFromOff i c s err s'
  | mounted {b : CardBlocks} {s' : SdMem} : ¬ c.Blocked → s.globals.controller = none →
      c.replies.Mounts → On i b s.heap s' → MountsFromOff i c s espOk s'

/-- How a call ends where nothing is mounted. -/
inductive OffCall (i : Nat) (call : Call) (s : SdMem) : List Ev → SdMem → Prop where
  | mounts {c : MountCall} {err : EspErr} {s' : SdMem} : call.mountCall = some c →
      MountsFromOff i c s err s' → OffCall i call s (call.emits err) s'
  | idle : call.mountCall = none → OffCall i call s (call.emits espOk) s

/-- The result of a mount where the card is mounted. -/
def MountCall.again (c : MountCall) : EspErr := if c.Blocked then espErrInvalidState else espOk

/-- How a call ends where the card is mounted. -/
inductive OnCall (i : Nat) (h : Heap Content) (call : Call) (s : SdMem) :
    List Ev → SdMem → Prop where
  | mounts {c : MountCall} : call.mountCall = some c → OnCall i h call s (call.emits c.again) s
  | reads : call = .updateStatusLabel → OnCall i h call s (call.emits espOk) s
  | unmounts {x : EspErr} {s' : SdMem} : call = .unmount x → Off i s' →
      s'.globals.controller = none → (s'.heap = h ↔ x = espOk) →
      OnCall i h call s (call.emits espOk) s'

theorem MountCall.again_iff {c : MountCall} : c.again = espOk ↔ ¬ c.Blocked := by
  unfold MountCall.again
  split <;> simp_all

section Calls

variable {stop : Prop} {i : Nat} {s : SdMem} {c : MountCall} {b : CardBlocks}
  {h : Heap Content} {x : EspErr}

theorem Boot.off (hboot : Boot i s) : Off i s :=
  ⟨hboot.toClear, hboot.sSlot1, hboot.sdCard, hboot.sdCardMounted⟩

/-- The variables of the firmware, where nothing is mounted. -/
theorem Off.clear_vars (hoff : Off i s) :
    (⟨s.heap, { s.globals with sdCard := none, sdCardMounted := false }⟩ : SdMem) = s := by
  rw [← hoff.sdCard, ← hoff.sdCardMounted]

theorem Off.with_card {card : Option Nat} {flag : Bool} (hoff : Off i s) :
    Clear sdMountPoint i { s.globals with sdCard := card, sdCardMounted := flag } :=
  ⟨hoff.toVacant, hoff.sImpls, hoff.sCards, hoff.fatFs, hoff.mutexes, hoff.sFatCtxs, hoff.sCtx⟩

theorem off_of_rests {g₀ : Statics} {s' : SdMem} (hrests : Rests sdMountPoint i g₀ s'.globals) :
    Off i ⟨s'.heap, { s'.globals with sdCard := none, sdCardMounted := false }⟩ :=
  ⟨⟨hrests.toVacant, hrests.sImpls, hrests.sCards, hrests.fatFs, hrests.mutexes,
    hrests.sFatCtxs, hrests.sCtx⟩, hrests.sSlot1, rfl, rfl⟩

/-- **`sd_card_mount`** where nothing is mounted. -/
theorem Off.mount (hoff : Off i s) (hfits : c.replies.Fits stop s.heap) :
    wp stop (sdCardMount c) (MountsFromOff i c s) s := by
  by_cases hblocked : c.Blocked
  · simp [sdCardMount, hblocked]
    exact .blocked hblocked
  simp [sdCardMount, hblocked, hoff.sdCardMounted]
  cases hctlr : s.globals.controller with
  | some w =>
      refine wp_mono (mount_wedged (by simp [hctlr]) hfits) ?_
      rintro ⟨err, _⟩ _ ⟨herr, rfl, rfl⟩
      simp [herr]
      rw [hoff.clear_vars]
      exact .claimed hblocked (by simp [hctlr]) herr
  | none =>
      refine wp_mono (mount_ends sdMountPoint_fits hoff.toClear hctlr hoff.sSlot1 hfits) ?_
      rintro _ _ (⟨hreaches, hwedges, herr, hrests, hnone, hleaks⟩ |
        ⟨hwedges, herr, hrests, hsome, hne⟩ | ⟨hunsaved, herr, himpls, hflag, hne⟩ |
        ⟨hmounts, hfresh, rfl⟩)
      · simp [herr]
        exact .refused hblocked hctlr hreaches hwedges herr (off_of_rests hrests) hnone hleaks
      · simp [herr]
        exact .wedged hblocked hctlr hwedges herr (off_of_rests hrests) hsome hne
      · simp [herr]
        exact .unsaved hblocked hctlr hunsaved herr himpls rfl hne
      · rename_i b
        have hin : b.InUse sdMountPoint (b.atop sdMountPoint s.heap) := b.inUse_atop s.heap
        simp [hin.card]
        exact .mounted hblocked hctlr hmounts
          ⟨⟨{ s.globals with sdCard := some b.card, sdCardMounted := true },
            hfresh, hoff.with_card, rfl, rfl⟩, rfl, rfl⟩

/-- **`sd_card_mount`** where the card is mounted. -/
theorem On.mount (hon : On i b h s) :
    wp stop (sdCardMount c) (fun err s' => err = c.again ∧ s' = s) s := by
  by_cases hblocked : c.Blocked <;>
    simp [sdCardMount, MountCall.again, hblocked, hon.sdCardMounted, hon.sdCard]

/-- **`sd_card_unmount`** where the card is mounted. -/
theorem On.unmount (hon : On i b h s) :
    wp stop (sdCardUnmount x) (fun err s' => err = espOk ∧ Off i s' ∧
      s'.globals.controller = none ∧ (s'.heap = h ↔ x = espOk)) s := by
  obtain ⟨g, hmounted⟩ := hon.mounted
  simp [sdCardUnmount, hon.sdCardMounted, hon.sdCard]
  refine wp_mono (unmount_ends hmounted) ?_
  rintro _ _ ⟨rfl, hrests, hnone, hheap⟩
  simp
  exact ⟨off_of_rests hrests, hnone, hheap⟩

theorem wp_withCard {body : EspErr × List FileOp} {Q : EspErr × List FileOp → SdMem → Prop} :
    wp stop (withCard c body) Q s ↔
      wp stop (sdCardMount c) (fun err s' => Q (if err ≠ espOk then (err, []) else body) s') s := by
  have hite : ∀ (err : EspErr) (s' : SdMem),
      (if err ≠ espOk then Q (err, []) s' else Q body s') ↔
        Q (if err ≠ espOk then (err, []) else body) s' := by
    intro err s'
    split <;> rfl
  simp only [withCard, wp_bind, wp_ite, wp_pure, hite]

/-- **A call** where nothing is mounted. -/
theorem Off.call {call : Call} (hoff : Off i s)
    (hfits : ∀ c, call.mountCall = some c → c.replies.Fits stop s.heap) :
    wp stop call.run (OffCall i call s) s := by
  cases call with
  | mount c =>
      simp [Call.run]
      refine wp_mono (hoff.mount (hfits c rfl)) ?_
      intro err s' hends
      exact .mounts rfl hends
  | unmount x =>
      simp [Call.run, sdCardUnmount, hoff.sdCardMounted]
      rw [hoff.clear_vars]
      exact .idle rfl
  | readWriteTest c r =>
      simp only [Call.run, wp_bind, wp_withCard, wp_pure]
      refine wp_mono (hoff.mount (hfits c rfl)) ?_
      intro err s' hends
      exact .mounts rfl hends
  | listRoot c r =>
      simp only [Call.run, wp_bind, wp_withCard, wp_pure]
      refine wp_mono (hoff.mount (hfits c rfl)) ?_
      intro err s' hends
      exact .mounts rfl hends
  | updateStatusLabel =>
      simp [Call.run, sdCardUpdateStatusLabel, hoff.sdCardMounted]
      exact .idle rfl

/-- **A call** where the card is mounted. -/
theorem On.call {call : Call} (hon : On i b h s) :
    wp stop call.run (OnCall i h call s) s := by
  cases call with
  | mount c =>
      simp only [Call.run, wp_bind, wp_pure]
      refine wp_mono hon.mount ?_
      rintro _ _ ⟨rfl, rfl⟩
      exact .mounts rfl
  | unmount x =>
      simp only [Call.run, wp_bind, wp_pure]
      refine wp_mono hon.unmount ?_
      rintro _ s' ⟨rfl, hoff, hnone, hheap⟩
      exact .unmounts rfl hoff hnone hheap
  | readWriteTest c r =>
      simp only [Call.run, wp_bind, wp_withCard, wp_pure]
      refine wp_mono hon.mount ?_
      rintro _ _ ⟨rfl, rfl⟩
      exact .mounts rfl
  | listRoot c r =>
      simp only [Call.run, wp_bind, wp_withCard, wp_pure]
      refine wp_mono hon.mount ?_
      rintro _ _ ⟨rfl, rfl⟩
      exact .mounts rfl
  | updateStatusLabel =>
      obtain ⟨g, hmounted⟩ := hon.mounted
      have hin : b.InUse sdMountPoint s.heap := by
        rw [hmounted.heap]
        exact b.inUse_atop h
      simp [Call.run, sdCardUpdateStatusLabel, hon.sdCardMounted, hon.sdCard, hin.card]
      exact .reads rfl

end Calls

/-! ## Coherence -/

/-- The firmware, the drivers and the heap agree.  The flag says that there is a
    card.  Every table has the one card in its first place, or nothing; so has the
    table of file systems for the path.  The pointers to the card and all that
    belongs to it lead to blocks in use. -/
structure Coherent (s : SdMem) : Prop where
  flag   : s.globals.sdCardMounted = s.globals.sdCard.isSome
  tables : ∀ t ∈ [s.globals.sImpls, s.globals.fatFs, s.globals.mutexes, s.globals.sFatCtxs,
    s.globals.sCtx], t.map Option.isSome = [s.globals.sdCardMounted, false]
  path   : (∃ e, some e ∈ s.globals.sVfs ∧ e.pathPrefix = some sdMountPoint) ↔
    s.globals.sdCardMounted = true
  live   : ∀ card, s.globals.sdCard = some card → ∃ b : CardBlocks, b.card = card ∧
    b.InUse sdMountPoint s.heap ∧ HostUp b.host s ∧
    s.globals.sImpls = [some b.fat.impl, none] ∧ s.globals.sCards = [some card, none] ∧
    s.globals.fatFs = [some b.fat.fatCtx, none] ∧
    s.globals.mutexes = [some b.fat.volMutex, none] ∧
    s.globals.sFatCtxs = [some b.fat.fatCtx, none] ∧ s.globals.sCtx = [some b.fat.sdCtx, none]

/-- The call looks for a card and is told `m`: nothing stands in the way of its
    mount, nothing is mounted, and the controller is free. -/
def Asks (s : SdMem) (call : Call) (m : MountReplies) : Prop :=
  ∃ c, call.mountCall = some c ∧ c.replies = m ∧ ¬ c.Blocked ∧
    s.globals.sdCardMounted = false ∧ s.globals.controller = none

/-- No mount fails at its very end, where the context of the card is allocated. -/
def KeepsContext (s : Option SdMem) (call : Call) : Prop :=
  ∀ mem m, s = some mem → Asks mem call m → ¬ m.Unsaved

section Steps

variable {i : Nat} {s : SdMem} {s' : Option SdMem} {b : CardBlocks} {h : Heap Content}
  {call : Call} {es : List Ev}

/-- For safety, an answer that cannot be given is no matter. -/
theorem fits_true {m : MountReplies} : m.Fits True h where
  card := granted_true
  host := ⟨granted_true, granted_true, granted_true, granted_true, granted_true, granted_true,
    granted_true⟩
  fat := ⟨⟨⟨granted_true, granted_true, granted_true, granted_true, fun _ => trivial⟩,
    granted_true, granted_true, granted_true, fun _ => trivial⟩, granted_true, granted_true⟩

theorem Off.coherent (hoff : Off i s) : Coherent s where
  flag := by rw [hoff.sdCardMounted, hoff.sdCard]; rfl
  tables := by
    simp [hoff.sImpls, hoff.fatFs, hoff.mutexes, hoff.sFatCtxs, hoff.sCtx, hoff.sdCardMounted]
  path := by
    refine iff_of_false ?_ (by simp [hoff.sdCardMounted])
    rintro ⟨e, he, hpath⟩
    exact hoff.other e he hpath
  live := by
    intro card hcard
    rw [hoff.sdCard] at hcard
    cases hcard

theorem On.coherent (hon : On i b h s) : Coherent s := by
  obtain ⟨⟨g, hfresh, hclear, hheap, hglobals⟩, hcard, hflag⟩ := hon
  have hup : HostUp b.host s := by
    refine (hostUp_atop (h := put h .card b.card (some ())) g).of_eq ?_ ?_ ?_ ?_
    · simp [hheap, hostKinds, CardBlocks.atop, MountBlocks.atop, VolumeBlocks.atop, volumeOver,
        PathBlocks.atop]
    all_goals
      rw [hglobals]
      rfl
  have himpls : s.globals.sImpls = [some b.fat.impl, none] := by rw [hglobals]; rfl
  have hcards : s.globals.sCards = [some b.card, none] := by rw [hglobals]; rfl
  have hfatFs : s.globals.fatFs = [some b.fat.fatCtx, none] := by rw [hglobals]; rfl
  have hmutexes : s.globals.mutexes = [some b.fat.volMutex, none] := by rw [hglobals]; rfl
  have hctxs : s.globals.sFatCtxs = [some b.fat.fatCtx, none] := by rw [hglobals]; rfl
  have hsdCtx : s.globals.sCtx = [some b.fat.sdCtx, none] := by rw [hglobals]; rfl
  refine ⟨by rw [hflag, hcard]; rfl, ?_, iff_of_true ?_ hflag, ?_⟩
  · simp [himpls, hfatFs, hmutexes, hctxs, hsdCtx, hflag]
  · refine ⟨⟨b.fat.vfsEntry, some sdMountPoint, b.fat.fatCtx⟩, ?_, rfl⟩
    rw [hglobals]
    exact List.mem_set hclear.lt_length _
  · intro card hcard'
    obtain rfl := Option.some.inj (hcard.symm.trans hcard')
    exact ⟨b, rfl, hheap ▸ b.inUse_atop h, hup, himpls, hcards, hfatFs, hmutexes, hctxs, hsdCtx⟩

/-- A step where nothing is mounted. -/
theorem Off.step (hoff : Off i s) (hs : sdStack.step (some s) call = some (s', es)) :
    ∃ mem, s' = some mem ∧ OffCall i call s es mem := by
  have hcall : wp True call.run (OffCall i call s) s := hoff.call fun _ _ => fits_true
  rcases wp_ends hcall with ⟨es', mem, hrun, hends⟩ | ⟨hrun, -⟩
  · simp only [sdStack, stackStep, hrun] at hs
    obtain ⟨rfl, rfl⟩ := Prod.mk.inj (Option.some.inj hs)
    exact ⟨mem, rfl, hends⟩
  · simp only [sdStack, stackStep, hrun] at hs
    cases hs

/-- A step where the card is mounted. -/
theorem On.step (hon : On i b h s) (hs : sdStack.step (some s) call = some (s', es)) :
    ∃ mem, s' = some mem ∧ OnCall i h call s es mem := by
  have hcall : wp True call.run (OnCall i h call s) s := hon.call
  rcases wp_ends hcall with ⟨es', mem, hrun, hends⟩ | ⟨hrun, -⟩
  · simp only [sdStack, stackStep, hrun] at hs
    obtain ⟨rfl, rfl⟩ := Prod.mk.inj (Option.some.inj hs)
    exact ⟨mem, rfl, hends⟩
  · simp only [sdStack, stackStep, hrun] at hs
    cases hs

/-- When a mount succeeds where nothing is mounted. -/
theorem MountsFromOff.ok_iff {c : MountCall} {err : EspErr} {mem : SdMem}
    (hends : MountsFromOff i c s err mem) :
    err = espOk ↔ ¬ c.Blocked ∧ s.globals.controller = none ∧ c.replies.Mounts := by
  cases hends with
  | blocked hblocked => exact iff_of_false espErrInvalidState_ne fun h => h.1 hblocked
  | claimed _ hsome herr =>
      refine iff_of_false herr fun h => ?_
      simp [h.2.1] at hsome
  | refused _ _ hreaches _ herr => exact iff_of_false herr fun h => hreaches h.2.2.1
  | wedged _ _ hwedges herr =>
      exact iff_of_false herr fun h => h.2.2.not_wedges hwedges
  | unsaved _ _ hunsaved herr =>
      exact iff_of_false herr fun h => h.2.2.not_unsaved hunsaved
  | mounted hblocked hctlr hmounts => exact iff_of_true rfl ⟨hblocked, hctlr, hmounts⟩

/-- The flag says whether the mount has succeeded. -/
theorem MountsFromOff.flag {c : MountCall} {err : EspErr} {mem : SdMem}
    (hends : MountsFromOff i c s err mem) (hflag : s.globals.sdCardMounted = false) :
    mem.globals.sdCardMounted = decide (err = espOk) := by
  cases hends with
  | blocked => simp [hflag]
  | claimed _ _ herr => simp [hflag, herr]
  | refused _ _ _ _ herr hoff => simp [hoff.sdCardMounted, herr]
  | wedged _ _ _ herr hoff => simp [hoff.sdCardMounted, herr]
  | unsaved _ _ _ herr _ hflag' => simp [hflag', herr]
  | mounted _ _ _ hon => simp [hon.sdCardMounted]

theorem MountsFromOff.of_blocked {c : MountCall} {err : EspErr} {mem : SdMem}
    (hends : MountsFromOff i c s err mem) (hblocked : c.Blocked) : err = espErrInvalidState := by
  cases hends with
  | blocked => rfl
  | claimed hno => exact absurd hblocked hno
  | refused hno => exact absurd hblocked hno
  | wedged hno => exact absurd hblocked hno
  | unsaved hno => exact absurd hblocked hno
  | mounted hno => exact absurd hblocked hno

/-- What a mount leaves that fails at its very end. -/
theorem OffCall.of_unsaved {c : MountCall} {mem : SdMem} (hends : OffCall i call s es mem)
    (hcall : call.mountCall = some c) (hblocked : ¬ c.Blocked)
    (hctlr : s.globals.controller = none) (hunsaved : c.replies.Unsaved) :
    (∃ impl, mem.globals.sImpls = [some impl, none]) ∧ mem.globals.sdCardMounted = false ∧
      mem.heap ≠ s.heap := by
  obtain ⟨hcall', hends⟩ | hcall' := hends
  · obtain rfl := Option.some.inj (hcall.symm.trans hcall')
    cases hends with
    | blocked hb => exact absurd hb hblocked
    | claimed _ hsome => simp [hctlr] at hsome
    | refused _ _ hreaches => exact absurd hunsaved.1 hreaches
    | wedged _ _ hwedges => exact absurd hwedges.2 hunsaved.1.2.1.not_wedges
    | unsaved _ _ _ _ himpls hflag hne => exact ⟨himpls, hflag, hne⟩
    | mounted _ _ hmounts => exact absurd hunsaved hmounts.not_unsaved
  · rw [hcall] at hcall'
    cases hcall'

/-- Between two calls nothing is mounted or the card is. -/
def Settled (i : Nat) (s : Option SdMem) : Prop :=
  ∃ mem, s = some mem ∧ (Off i mem ∨ ∃ b h, On i b h mem)

theorem Settled.coherent {s : Option SdMem} (hs : Settled i s) :
    ∃ mem, s = some mem ∧ Coherent mem := by
  obtain ⟨mem, hmem, hoff | ⟨b, h, hon⟩⟩ := hs
  · exact ⟨mem, hmem, hoff.coherent⟩
  · exact ⟨mem, hmem, hon.coherent⟩

/-- **One call** that keeps the context leads from rest to rest. -/
theorem Settled.step {s : Option SdMem} (hsettled : Settled i s) (hkeeps : KeepsContext s call)
    (hs : sdStack.step s call = some (s', es)) : Settled i s' := by
  obtain ⟨mem, rfl, hoff | ⟨b, h, hon⟩⟩ := hsettled
  · obtain ⟨mem', rfl, ⟨hcall, hends⟩ | hcall⟩ := hoff.step hs
    · cases hends with
      | blocked => exact ⟨_, rfl, .inl hoff⟩
      | claimed => exact ⟨_, rfl, .inl hoff⟩
      | refused _ _ _ _ _ hoff' => exact ⟨_, rfl, .inl hoff'⟩
      | wedged _ _ _ _ hoff' => exact ⟨_, rfl, .inl hoff'⟩
      | unsaved hblocked hctlr hunsaved =>
          exact absurd hunsaved
            (hkeeps _ _ rfl ⟨_, hcall, rfl, hblocked, hoff.sdCardMounted, hctlr⟩)
      | mounted _ _ _ hon => exact ⟨_, rfl, .inr ⟨_, _, hon⟩⟩
    · exact ⟨_, rfl, .inl hoff⟩
  · obtain ⟨mem', rfl, hcall | hcall | ⟨hcall, hoff, -⟩⟩ := hon.step hs
    · exact ⟨_, rfl, .inr ⟨_, _, hon⟩⟩
    · exact ⟨_, rfl, .inr ⟨_, _, hon⟩⟩
    · exact ⟨_, rfl, .inl hoff⟩

end Steps

/-- **Everything agrees exactly while the context of a card is kept.**  All along
    a run from boot, whatever the allocator, the controller, the card and the file
    functions answer: no call reads, writes or frees a block that is not in use,
    and between two calls the firmware, the drivers' tables and the heap agree; if
    and only if no mount of the run fails at its very end, where the context of
    the card is allocated. -/
theorem coherent_iff {i : Nat} {s₀ : SdMem} {ls : List Call} {s : Option SdMem} {tr : List Ev}
    (hboot : Boot i s₀) (hrun : Run sdStack (some s₀) ls s tr) :
    Always sdStack (some s₀) (fun s _ => ∃ mem, s = some mem ∧ Coherent mem) ls ↔
      Meets sdStack (some s₀) KeepsContext ls := by
  refine always_iff_meets_within (D := fun _ _ => True) (P := fun s _ => Settled i s)
    ⟨s₀, rfl, .inl hboot.off⟩ (fun _ _ hs => hs.coherent) ?_ ?_ hrun ?_
  · intro s tr call s' es hsettled _ hkeeps hs
    exact hsettled.step hkeeps hs
  · rintro s tr call s' es ⟨mem, rfl, hoff | ⟨b, h, hon⟩⟩ - hs ⟨mem', rfl, hcoherent⟩
    · rintro _ m hmem ⟨c, hcall, rfl, hblocked, -, hctlr⟩ hunsaved
      obtain rfl := Option.some.inj hmem
      obtain ⟨_, hmem', hends⟩ := hoff.step hs
      obtain rfl := Option.some.inj hmem'
      obtain ⟨⟨impl, himpls⟩, hflag, -⟩ := hends.of_unsaved hcall hblocked hctlr hunsaved
      -- the drive of a card that is gone stays registered
      have htables := hcoherent.tables _ List.mem_cons_self
      rw [himpls, hflag] at htables
      cases htables
    · rintro _ m hmem ⟨c, hcall, rfl, hblocked, hflag, -⟩
      obtain rfl := Option.some.inj hmem
      rw [hon.sdCardMounted] at hflag
      cases hflag
  · intro _ _ _ _ _ _ _
    trivial

/-- All but the context of the card is granted. -/
def unsaved : MountReplies := { granted with fat := { granted.fat with sdCtx := none } }

theorem not_blocked_boot {m : MountReplies} : ¬ MountCall.Blocked ⟨AudioTask.bootShared, m⟩ := by
  show ¬ sdCardMountGuards.any (Guard.holds AudioTask.bootShared) = true
  decide

theorem asks_bootMem {m : MountReplies} : Asks bootMem (mountWith m) m :=
  ⟨_, rfl, rfl, not_blocked_boot, rfl, rfl⟩

theorem keepsContext_mountWith {s : Option SdMem} {m : MountReplies} (hm : ¬ m.Unsaved) :
    KeepsContext s (mountWith m) := by
  rintro _ _ - ⟨_, ⟨⟩, rfl, -⟩
  exact hm

theorem coherent_iff_unsaved :
    ¬ Always sdStack (some bootMem) (fun s _ => ∃ mem, s = some mem ∧ Coherent mem)
      [mountWith unsaved] := by
  obtain ⟨s, hrun⟩ : ∃ s, Run sdStack (some bootMem) [mountWith unsaved] s
      [.returned espErrNoMem] := run_of_events (by decide +kernel)
  rw [coherent_iff boot_bootMem hrun]
  intro hkeeps
  exact hkeeps [] _ [] _ _ rfl .nil _ _ rfl asks_bootMem (by decide)

/-! ## What stays behind -/

/-- Nothing stays behind: a mount that is told `m` neither wedges nor leaks nor
    loses its context, and the interrupt of a mounted card's host is freed. -/
def Tidy (s : Option SdMem) (call : Call) : Prop :=
  (∀ mem m, s = some mem → Asks mem call m → ¬ m.Wedges ∧ ¬ m.Leaks ∧ ¬ m.Unsaved) ∧
    ∀ mem x, s = some mem → call = .unmount x → mem.globals.sdCardMounted = true → x = espOk

/-- Between two tidy calls the controller is free and the heap is that at boot,
    but for the mounted card. -/
def Clean (i : Nat) (h₀ : Heap Content) (s : Option SdMem) : Prop :=
  ∃ mem, s = some mem ∧
    ((Off i mem ∧ mem.globals.controller = none ∧ mem.heap = h₀) ∨ ∃ b, On i b h₀ mem)

section Leaks

variable {i : Nat} {h₀ : Heap Content} {s s' : Option SdMem} {call : Call} {es : List Ev}

/-- **One tidy call** leaves nothing behind. -/
theorem Clean.step (hclean : Clean i h₀ s) (htidy : Tidy s call)
    (hs : sdStack.step s call = some (s', es)) : Clean i h₀ s' := by
  obtain ⟨mem, rfl, ⟨hoff, hctlr, hheap⟩ | ⟨b, hon⟩⟩ := hclean
  · obtain ⟨mem', rfl, ⟨hcall, hends⟩ | hcall⟩ := hoff.step hs
    · have hasks : ∀ {c : MountCall}, call.mountCall = some c → ¬ c.Blocked →
          ¬ c.replies.Wedges ∧ ¬ c.replies.Leaks ∧ ¬ c.replies.Unsaved := fun hc hb =>
        htidy.1 _ _ rfl ⟨_, hc, rfl, hb, hoff.sdCardMounted, hctlr⟩
      cases hends with
      | blocked => exact ⟨_, rfl, .inl ⟨hoff, hctlr, hheap⟩⟩
      | claimed => exact ⟨_, rfl, .inl ⟨hoff, hctlr, hheap⟩⟩
      | refused hb _ _ _ _ hoff' hctlr' hleaks =>
          exact ⟨_, rfl, .inl ⟨hoff', hctlr', (hleaks.mpr (hasks hcall hb).2.1).trans hheap⟩⟩
      | wedged hb _ hwedges => exact absurd hwedges (hasks hcall hb).1
      | unsaved hb _ hunsaved => exact absurd hunsaved (hasks hcall hb).2.2
      | mounted _ _ _ hon => exact ⟨_, rfl, .inr ⟨_, hheap ▸ hon⟩⟩
    · exact ⟨_, rfl, .inl ⟨hoff, hctlr, hheap⟩⟩
  · obtain ⟨mem', rfl, hcall | hcall | ⟨hcall, hoff, hctlr, hheap⟩⟩ := hon.step hs
    · exact ⟨_, rfl, .inr ⟨b, hon⟩⟩
    · exact ⟨_, rfl, .inr ⟨b, hon⟩⟩
    · have hfreed := htidy.2 mem _ rfl hcall hon.sdCardMounted
      exact ⟨_, rfl, .inl ⟨hoff, hctlr, hheap.mpr hfreed⟩⟩

end Leaks

/-- The call leaves the controller free: its mount, if it looks for a card, does
    not fail in the setup of the slot. -/
def LeavesHost (s : Option SdMem) (call : Call) : Prop :=
  ∀ mem m, s = some mem → Asks mem call m → ¬ m.Wedges

section Controller

variable {i : Nat} {s : SdMem} {s' : Option SdMem} {call : Call} {es : List Ev}
  {c : MountCall} {m : MountReplies}

theorem Asks.replies (hasks : Asks s call m) (hcall : call.mountCall = some c) :
    c.replies = m ∧ ¬ c.Blocked := by
  obtain ⟨c', hcall', hm, hblocked, -⟩ := hasks
  obtain rfl := Option.some.inj (hcall.symm.trans hcall')
  exact ⟨hm, hblocked⟩

/-- A call that looks for no card leaves the controller as it is. -/
theorem leavesHost_of_silent (hsilent : ∀ m, ¬ Asks s call m) : LeavesHost (some s) call := by
  rintro _ m hmem hasks
  obtain rfl := Option.some.inj hmem
  exact absurd hasks (hsilent m)

theorem not_asks_of_mounted (hflag : s.globals.sdCardMounted = true) :
    ∀ m, ¬ Asks s call m := by
  rintro m ⟨c, -, -, -, hno, -⟩
  simp [hflag] at hno

/-- **One call** where nothing is mounted and the controller is free. -/
theorem Off.step_free (hoff : Off i s) (hctlr : s.globals.controller = none)
    (hkeeps : KeepsContext (some s) call) (hs : sdStack.step (some s) call = some (s', es)) :
    ∃ mem, s' = some mem ∧
      (LeavesHost (some s) call ∧
          (Off i mem ∧ mem.globals.controller = none ∨ ∃ b h, On i b h mem) ∨
        ¬ LeavesHost (some s) call ∧ Off i mem ∧ mem.globals.controller.isSome) := by
  obtain ⟨mem, rfl, hends⟩ := hoff.step hs
  refine ⟨mem, rfl, ?_⟩
  rcases hends with @⟨c, err, _, hcall, hends⟩ | hcall
  · -- the mount is told what the call has been given
    have hleaves : ¬ c.replies.Wedges → LeavesHost (some s) call := by
      rintro hno _ m hmem hasks
      obtain rfl := Option.some.inj hmem
      obtain ⟨rfl, -⟩ := hasks.replies hcall
      exact hno
    have hasks : ¬ c.Blocked → Asks s call c.replies := fun hb =>
      ⟨c, hcall, rfl, hb, hoff.sdCardMounted, hctlr⟩
    cases hends with
    | blocked hblocked =>
        refine .inl ⟨leavesHost_of_silent fun m hasks => ?_, .inl ⟨hoff, hctlr⟩⟩
        exact (hasks.replies hcall).2 hblocked
    | claimed _ hsome => simp [hctlr] at hsome
    | refused _ _ _ hwedges _ hoff' hctlr' => exact .inl ⟨hleaves hwedges, .inl ⟨hoff', hctlr'⟩⟩
    | wedged hblocked _ hwedges _ hoff' hctlr' =>
        exact .inr ⟨fun h => h _ _ rfl (hasks hblocked) hwedges, hoff', hctlr'⟩
    | unsaved hblocked _ hunsaved =>
        exact absurd hunsaved (hkeeps _ _ rfl (hasks hblocked))
    | mounted _ _ hmounts hon =>
        exact .inl ⟨hleaves hmounts.not_wedges, .inr ⟨_, _, hon⟩⟩
  · refine .inl ⟨leavesHost_of_silent ?_, .inl ⟨hoff, hctlr⟩⟩
    rintro m ⟨c, hcall', -⟩
    rw [hcall] at hcall'
    cases hcall'

/-- `sd_card_mount` as a step. -/
theorem Off.step_mount (hoff : Off i s)
    (hs : sdStack.step (some s) (.mount c) = some (s', es)) :
    ∃ err mem, es = (Call.mount c).emits err ∧ MountsFromOff i c s err mem := by
  obtain ⟨mem, -, ⟨hcall, hends⟩ | hcall⟩ := hoff.step hs
  · obtain rfl := Option.some.inj hcall
    exact ⟨_, mem, rfl, hends⟩
  · cases hcall

/-- **One call** where nothing is mounted and the controller is claimed: there is
    no way out. -/
theorem Off.step_claimed (hoff : Off i s) (hctlr : s.globals.controller.isSome)
    (hs : sdStack.step (some s) call = some (s', es)) :
    s' = some s := by
  obtain ⟨mem, rfl, ⟨hcall, hends⟩ | hcall⟩ := hoff.step hs
  · cases hends with
    | blocked => rfl
    | claimed => rfl
    | refused _ hnone => simp [hnone] at hctlr
    | wedged _ hnone => simp [hnone] at hctlr
    | unsaved _ hnone => simp [hnone] at hctlr
    | mounted _ hnone => simp [hnone] at hctlr
  · rfl

end Controller

/-- The controller between two calls: it is free, or the card has it, unless an
    earlier call has not left it. -/
theorem controller_state {i : Nat} {s₀ : SdMem} {ls : List Call} {s : Option SdMem}
    {tr : List Ev} (hboot : Boot i s₀) (hrun : Run sdStack (some s₀) ls s tr)
    (hkeeps : Meets sdStack (some s₀) KeepsContext ls) :
    ∃ mem, s = some mem ∧
      (Meets sdStack (some s₀) LeavesHost ls ∧
          (Off i mem ∧ mem.globals.controller = none ∨ ∃ b h, On i b h mem) ∨
        ¬ Meets sdStack (some s₀) LeavesHost ls ∧ Off i mem ∧
          mem.globals.controller.isSome) := by
  induction hrun with
  | nil => exact ⟨s₀, rfl, .inl ⟨meets_nil, .inl ⟨hboot.off, hboot.controller⟩⟩⟩
  | @snoc ls s tr call s' es hrun hs ih =>
      obtain ⟨hpre, hkeep⟩ := hrun.meets_last.mp hkeeps
      rw [hrun.meets_last]
      obtain ⟨mem, rfl, ⟨hleaves, ⟨hoff, hctlr⟩ | ⟨b, h, hon⟩⟩ | ⟨hno, hoff, hctlr⟩⟩ := ih hpre
      · obtain ⟨mem', rfl, ⟨hleaves', hends⟩ | ⟨hno, hends⟩⟩ := hoff.step_free hctlr hkeep hs
        · exact ⟨mem', rfl, .inl ⟨⟨hleaves, hleaves'⟩, hends⟩⟩
        · exact ⟨mem', rfl, .inr ⟨fun h => hno h.2, hends⟩⟩
      · have hsilent : LeavesHost (some mem) call :=
          leavesHost_of_silent (not_asks_of_mounted hon.sdCardMounted)
        obtain ⟨mem', rfl, hends⟩ := hon.step hs
        refine ⟨mem', rfl, .inl ⟨⟨hleaves, hsilent⟩, ?_⟩⟩
        cases hends with
        | mounts => exact .inr ⟨b, h, hon⟩
        | reads => exact .inr ⟨b, h, hon⟩
        | unmounts _ hoff hctlr => exact .inl ⟨hoff, hctlr⟩
      · obtain rfl := hoff.step_claimed hctlr hs
        exact ⟨mem, rfl, .inr ⟨fun h => hno h.1, hoff, hctlr⟩⟩

/-- **When a mount succeeds.**  After a run from boot in which every card's context
    was kept, a mount that returns has succeeded exactly when the microphone test
    does not stand in its way and the card is mounted already or everything works
    and no call before has left the controller claimed: after such a call no card
    is ever mounted again. -/
theorem mounts_iff {i : Nat} {s₀ s : SdMem} {ls : List Call} {tr : List Ev} {c : MountCall}
    {s' : Option SdMem} {es : List Ev} (hboot : Boot i s₀)
    (hrun : Run sdStack (some s₀) ls (some s) tr)
    (hkeeps : Meets sdStack (some s₀) KeepsContext ls)
    (hs : sdStack.step (some s) (.mount c) = some (s', es)) :
    es = [.returned espOk] ↔ ¬ c.Blocked ∧ (s.globals.sdCardMounted = true ∨
      c.replies.Mounts ∧ Meets sdStack (some s₀) LeavesHost ls) := by
  obtain ⟨mem, hmem, hstate⟩ := controller_state hboot hrun hkeeps
  obtain rfl := Option.some.inj hmem
  have hemits : ∀ err, (Call.mount c).emits err = [.returned espOk] ↔ err = espOk := by
    intro err
    simp [Call.emits]
  rcases hstate with ⟨hleaves, ⟨hoff, hctlr⟩ | ⟨b, h, hon⟩⟩ | ⟨hno, hoff, hctlr⟩
  · obtain ⟨err, _, rfl, hends⟩ := hoff.step_mount hs
    rw [hemits, hends.ok_iff, hoff.sdCardMounted]
    simp [hctlr, hleaves]
  · obtain ⟨_, -, hcall | hcall | hcall⟩ := hon.step hs
    · obtain rfl := Option.some.inj hcall
      rw [hemits, MountCall.again_iff, hon.sdCardMounted]
      simp
    · cases hcall
    · cases hcall
  · obtain ⟨err, _, rfl, hends⟩ := hoff.step_mount hs
    rw [hemits, hends.ok_iff, hoff.sdCardMounted]
    simp [Option.ne_none_iff_isSome.mpr hctlr, hno]

/-- There is no memory for the slot. -/
def noSlot : MountReplies := { granted with host := { granted.host with slot := none } }

/-- Everything is granted, at a place that is free after that. -/
def elsewhere : MountReplies :=
  { granted with
    host := { granted.host with ctlr := { granted.host.ctlr with ctlr := some 2 } } }

theorem mounts_iff_noSlot : ¬ Meets sdStack (some bootMem) LeavesHost [mountWith noSlot] := by
  obtain ⟨_, hruns⟩ : ∃ s, Run sdStack (some bootMem) ([mountWith noSlot] ++ [mountWith elsewhere])
      s [.returned espErrNoMem, .returned espErrNotFound] := run_of_events (by decide +kernel)
  obtain ⟨s, tr, es, hrun, hs, htr⟩ := run_snoc_inv hruns
  have hkeeps : Meets sdStack (some bootMem) KeepsContext [mountWith noSlot] := by
    refine meets_of_forall fun l hl s => ?_
    obtain rfl := List.mem_singleton.mp hl
    exact keepsContext_mountWith (by decide)
  cases s with
  | none => cases hs
  | some s =>
      intro hleaves
      have hmounts := (mounts_iff boot_bootMem hrun hkeeps hs).mpr
        ⟨not_blocked_boot, .inr ⟨by decide, hleaves⟩⟩
      have hlast := congrArg List.getLast? htr
      rw [hmounts] at hlast
      simp at hlast

/-- What both levels show. -/
def view : SdCard.SdEv → Option Ev
  | .file op => some (.file op)
  | .returned err => some (.returned err)
  | .mount _ | .unmount _ _ => none

/-- An unmount that does not fail. -/
def unmounted : SdCard.UnmountReply := ⟨espOk, true⟩

/-- A call over the abstract driver, whose mount returns `err` and whose unmount
    does not fail. -/
def Call.abstract (err : EspErr) : Call → List SdCard.Call
  | .mount c => [.mount ⟨c.audio, err⟩]
  | .unmount _ => [.unmount unmounted]
  | .readWriteTest c r => [.readWriteTest ⟨c.audio, err⟩ r]
  | .listRoot c r => [.listRoot ⟨c.audio, err⟩ r]
  | .updateStatusLabel => []

/-- The record over the abstract driver is that over the drivers' code. -/
structure Abstracts (i : Nat) (s : Option SdMem) (a : SdCard.Sd) : Prop where
  settled : Settled i s
  inStep  : SdCard.InStep a
  flag    : ∀ mem, s = some mem → a.sdCardMounted = mem.globals.sdCardMounted

section Refinement

variable {i : Nat} {s s' : Option SdMem} {a : SdCard.Sd} {call : Call} {es : List Ev}
  {c : MountCall} {err : EspErr}

/-- The driver calls of `sd_card_mount` do not show. -/
theorem mount_silent {m : SdCard.MountReplies} :
    (SdCard.sdCardMount m a).events.filterMap view = [] := by
  unfold SdCard.sdCardMount
  split
  · rfl
  · split
    · rfl
    · dsimp only
      split <;> rfl

/-- `sd_card_mount` over the abstract driver, where the card is mounted. -/
theorem mount_again (err : EspErr) (hin : SdCard.InStep a) (hflag : a.sdCardMounted = true) :
    (SdCard.sdCardMount ⟨c.audio, err⟩ a).err = c.again ∧
      (SdCard.sdCardMount ⟨c.audio, err⟩ a).sd.sdCardMounted = true := by
  have hcard : a.sdCard.isSome := hin.flag ▸ hflag
  by_cases hblocked : c.Blocked
  · have hguard : sdCardMountGuards.any (Guard.holds c.audio) = true := hblocked
    simp [SdCard.sdCardMount, MountCall.again, hblocked, hguard, hflag]
  · have hguard : ¬ sdCardMountGuards.any (Guard.holds c.audio) = true := hblocked
    simp [SdCard.sdCardMount, MountCall.again, hblocked, hguard, hflag, hcard]

/-- The same where nothing is mounted. -/
theorem mount_new (hflag : a.sdCardMounted = false)
    (hblocked : c.Blocked → err = espErrInvalidState) :
    (SdCard.sdCardMount ⟨c.audio, err⟩ a).err = err ∧
      (SdCard.sdCardMount ⟨c.audio, err⟩ a).sd.sdCardMounted = decide (err = espOk) := by
  by_cases hb : c.Blocked
  · have hguard : sdCardMountGuards.any (Guard.holds c.audio) = true := hb
    simp [SdCard.sdCardMount, hguard, hflag, hblocked hb]
  · have hguard : ¬ sdCardMountGuards.any (Guard.holds c.audio) = true := hb
    by_cases herr : err = espOk <;>
      simp [SdCard.sdCardMount, hguard, hflag, herr]

/-- A function on files shows its operations and its result. -/
theorem withCard_shows {m : SdCard.MountReplies} {body : EspErr × List FileOp} :
    ((SdCard.withCard m a body).events ++
        [SdCard.SdEv.returned (SdCard.withCard m a body).err]).filterMap view =
      results (if (SdCard.sdCardMount m a).err ≠ espOk
        then ((SdCard.sdCardMount m a).err, []) else body) := by
  have hfile : view ∘ SdCard.SdEv.file = some ∘ Ev.file := rfl
  by_cases herr : (SdCard.sdCardMount m a).err = espOk
  · simp [SdCard.withCard, herr, mount_silent, view, results, hfile]
  · simp [SdCard.withCard, herr, mount_silent, view, results]

/-- A function on files leaves what its mount leaves. -/
theorem withCard_sd {m : SdCard.MountReplies} (body : EspErr × List FileOp) :
    (SdCard.withCard m a body).sd = (SdCard.sdCardMount m a).sd := by
  unfold SdCard.withCard
  dsimp only
  split <;> rfl

/-- A call that mounts, over the abstract driver. -/
theorem abstract_call (err : EspErr) (hcall : call.mountCall = some c) :
    ∃ es, Run SdCard.sdCalls a (call.abstract err) (SdCard.sdCardMount ⟨c.audio, err⟩ a).sd es ∧
      es.filterMap view = call.emits (SdCard.sdCardMount ⟨c.audio, err⟩ a).err := by
  cases call with
  | mount c =>
      obtain rfl := Option.some.inj hcall
      refine ⟨_, Run.single rfl, ?_⟩
      simp [SdCard.Call.run, mount_silent, view, Call.emits]
  | unmount x => cases hcall
  | readWriteTest c r =>
      obtain rfl := Option.some.inj hcall
      rw [← withCard_sd (writeReadCompare r)]
      exact ⟨_, Run.single rfl, withCard_shows⟩
  | listRoot c r =>
      obtain rfl := Option.some.inj hcall
      rw [← withCard_sd (listEntries r).1]
      exact ⟨_, Run.single rfl, withCard_shows⟩
  | updateStatusLabel => cases hcall

theorem not_late : ¬ unmounted.Late := fun h => h.1 rfl

/-- `sd_card_unmount` over the abstract driver. -/
theorem unmount_ok : (SdCard.sdCardUnmount unmounted a).sd.sdCardMounted = false ∧
    ((SdCard.sdCardUnmount unmounted a).events ++
      [SdCard.SdEv.returned (SdCard.sdCardUnmount unmounted a).err]).filterMap view =
        [.returned espOk] := by
  unfold SdCard.sdCardUnmount
  split <;> simp [unmounted, view, List.filterMap_cons]

/-- **One call** over the drivers' code is a call over the abstract driver, or none. -/
theorem Abstracts.step (habs : Abstracts i s a) (hkeeps : KeepsContext s call)
    (hs : sdStack.step s call = some (s', es)) :
    ∃ ls a' es', (∃ err, ls = call.abstract err) ∧ Run SdCard.sdCalls a ls a' es' ∧
      es'.filterMap view = es ∧ Abstracts i s' a' := by
  obtain ⟨hsettled, hin, hflag⟩ := habs
  have hsettled' := hsettled.step hkeeps hs
  obtain ⟨mem, rfl, hoff | ⟨b, h, hon⟩⟩ := hsettled
  · have hno : a.sdCardMounted = false := (hflag mem rfl).trans hoff.sdCardMounted
    obtain ⟨mem', rfl, @⟨c, err, _, hcall, hends⟩ | hcall⟩ := hoff.step hs
    · obtain ⟨es', hrun, hshows⟩ := abstract_call (a := a) err hcall
      obtain ⟨herr, hmounted⟩ := mount_new hno hends.of_blocked
      refine ⟨_, _, es', ⟨err, rfl⟩, hrun, by rw [hshows, herr], hsettled', hin.mount.1, ?_⟩
      rintro _ hmem
      obtain rfl := Option.some.inj hmem
      rw [hmounted, hends.flag hoff.sdCardMounted]
    · cases call with
      | unmount x =>
          obtain ⟨hmounted, hshows⟩ := unmount_ok (a := a)
          refine ⟨_, _, _, ⟨espOk, rfl⟩, Run.single rfl, hshows, hsettled',
            hin.unmount fun _ => not_late, ?_⟩
          rintro _ hmem
          obtain rfl := Option.some.inj hmem
          exact hmounted.trans hoff.sdCardMounted.symm
      | updateStatusLabel =>
          exact ⟨[], a, [], ⟨espOk, rfl⟩, .nil, rfl, hsettled', hin, hflag⟩
      | mount => cases hcall
      | readWriteTest => cases hcall
      | listRoot => cases hcall
  · have hyes : a.sdCardMounted = true := (hflag mem rfl).trans hon.sdCardMounted
    obtain ⟨mem', rfl, @⟨c, hcall⟩ | rfl | ⟨rfl, hoff, -⟩⟩ := hon.step hs
    · obtain ⟨es', hrun, hshows⟩ := abstract_call (a := a) espOk hcall
      obtain ⟨herr, hmounted⟩ := mount_again (c := c) espOk hin hyes
      refine ⟨_, _, es', ⟨espOk, rfl⟩, hrun, by rw [hshows, herr], hsettled', hin.mount.1, ?_⟩
      rintro _ hmem
      obtain rfl := Option.some.inj hmem
      rw [hmounted, hon.sdCardMounted]
    · exact ⟨[], a, [], ⟨espOk, rfl⟩, .nil, rfl, hsettled', hin, hflag⟩
    · obtain ⟨hmounted, hshows⟩ := unmount_ok (a := a)
      refine ⟨_, _, _, ⟨espOk, rfl⟩, Run.single rfl, hshows, hsettled',
        hin.unmount fun _ => not_late, ?_⟩
      rintro _ hmem
      obtain rfl := Option.some.inj hmem
      exact hmounted.trans hoff.sdCardMounted.symm

/-- Every call that stands for one over the drivers' code is in time. -/
theorem inTime_of_abstract {ls : List Call} {lss : List (List SdCard.Call)}
    (h : List.Forall₂ (fun call ls' => ∃ err, ls' = call.abstract err) ls lss) :
    ∀ l ∈ lss.flatten, SdCard.InTime a l := by
  induction h with
  | nil => simp
  | @cons call _ ls lss hcall _ ih =>
      obtain ⟨err, rfl⟩ := hcall
      intro l hl
      rcases List.mem_append.mp hl with hl | hl
      · cases call with
        | unmount x =>
            obtain rfl := List.mem_singleton.mp hl
            exact fun _ => not_late
        | mount c =>
            obtain rfl := List.mem_singleton.mp hl
            trivial
        | readWriteTest c r =>
            obtain rfl := List.mem_singleton.mp hl
            trivial
        | listRoot c r =>
            obtain rfl := List.mem_singleton.mp hl
            trivial
        | updateStatusLabel => cases hl
      · exact ih l hl

end Refinement

/-- **The drivers' code refines the abstract driver.**  Every run from boot in which
    every card's context was kept is a run over the abstract driver, call for call,
    with the same operations on files, the same results and the same record of the
    mount.  The abstract driver's unmount does not fail in it: the run is in time,
    and the record is the driver's. -/
theorem refines {i : Nat} {s₀ : SdMem} {ls : List Call} {s : Option SdMem} {tr : List Ev}
    (hboot : Boot i s₀) (hrun : Run sdStack (some s₀) ls s tr)
    (hkeeps : Meets sdStack (some s₀) KeepsContext ls) :
    ∃ lss a tr', List.Forall₂ (fun call ls' => ∃ err, ls' = call.abstract err) ls lss ∧
      Run SdCard.sdCalls SdCard.bootSd lss.flatten a tr' ∧
      Meets SdCard.sdCalls SdCard.bootSd SdCard.InTime lss.flatten ∧
      tr'.filterMap view = tr ∧ SdCard.InStep a ∧
      ∀ mem, s = some mem → a.sdCardMounted = mem.globals.sdCardMounted := by
  have h0 : Abstracts i (some s₀) SdCard.bootSd := by
    refine ⟨⟨s₀, rfl, .inl hboot.off⟩, SdCard.inStep_boot, ?_⟩
    rintro _ hmem
    obtain rfl := Option.some.inj hmem
    exact hboot.sdCardMounted.symm
  obtain ⟨lss, a, tr', hcalls, hrun', hshows, habs⟩ := hrun.relates
    (fun _ _ _ _ _ habs hkeeps hs => habs.step hkeeps hs) h0 hkeeps
  exact ⟨lss, a, tr', hcalls, hrun',
    meets_of_forall fun l hl a => inTime_of_abstract hcalls l hl, hshows, habs.inStep, habs.flag⟩

/-- A mount and an unmount at which `esp_intr_free` fails. -/
theorem refines_intr :
    ∃ lss a tr', List.Forall₂ (fun call ls' => ∃ err, ls' = call.abstract err)
        [mountWith granted, .unmount espFail] lss ∧
      Run SdCard.sdCalls SdCard.bootSd lss.flatten a tr' ∧
      Meets SdCard.sdCalls SdCard.bootSd SdCard.InTime lss.flatten ∧
      tr'.filterMap view = [.returned espOk, .returned espOk] ∧ SdCard.InStep a := by
  obtain ⟨s, hrun⟩ : ∃ s, Run sdStack (some bootMem) [mountWith granted, .unmount espFail] s
      [.returned espOk, .returned espOk] := run_of_events (by decide +kernel)
  have hkeeps : Meets sdStack (some bootMem) KeepsContext
      [mountWith granted, .unmount espFail] := by
    refine meets_of_forall fun l hl s => ?_
    simp only [List.mem_cons, List.not_mem_nil, or_false] at hl
    rcases hl with rfl | rfl
    · exact keepsContext_mountWith (by decide)
    · rintro _ _ - ⟨_, ⟨⟩, -⟩
  obtain ⟨lss, a, tr', hcalls, hrun', htime, hshows, hin, -⟩ :=
    refines boot_bootMem hrun hkeeps
  exact ⟨lss, a, tr', hcalls, hrun', htime, hshows, hin⟩

end SdStack
