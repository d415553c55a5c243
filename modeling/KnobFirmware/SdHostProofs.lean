import KnobFirmware.HeapProgramProofs
import KnobFirmware.EspErrProofs

/-! # The SDMMC host — claiming the controller, and giving it back

    `esp_vfs_fat_sdmmc_mount` brings the host up before it looks for a card: the
    one controller of the chip is claimed, its blocks are allocated, a slot is
    added.  `sdmmc_host_deinit_slot` takes it down again.

    Three ways out of the bring-up do not restore what they found.  The creation
    of the controller has two returns that do not pass its error label, so that
    the claim is kept with nobody to give it back; a failure between them gives
    the claim back and passes NULL to `esp_intr_free`, which keeps the blocks; and
    `sdmmc_host_deinit_slot` does nothing where there is no slot yet.  `init_ends`
    says which answers lead where: the host comes up and finds a card, it is left
    as it was, it leaks (`HostReplies.Leaks`), or its controller is never free
    again (`HostReplies.Wedges`). -/

namespace SdHost

open HeapProgram EspErr

/-! ## The memory of the SD stack -/

/-- The blocks of the SD stack, by what they are allocated for. -/
inductive Kind where
  | card
  | ctlr
  | dmaDesc
  | ioIntrSem
  | mutex
  | eventQueue
  | intr
  | slot
  | basePath
  | impl
  | fatCtx
  | flags
  | lock
  | vfsEntry
  | volMutex
  | win
  | sdCtx
  deriving DecidableEq, Repr

/-- `sd_host_sdmmc_ctlr_t`. -/
structure Ctlr where
  dmaDesc            : Option Nat
  ioIntrSem          : Option Nat
  mutex              : Option Nat
  eventQueue         : Option Nat
  intrHandle         : Option Nat
  slot1              : Option Nat
  registeredSlotNums : Int

/-- `vfs_fat_ctx_t`, with the buffer of the FATFS inside it. -/
structure FatCtx where
  basePath : List Char
  drive    : Nat
  flags    : Nat
  lock     : Option Nat
  win      : Option Nat

/-- `vfs_fat_sd_ctx_t`. -/
structure SdCtx where
  pdrv     : Nat
  fs       : Option Nat
  card     : Nat
  basePath : Nat

/-- What the code reads in a block; of the others it keeps the address alone. -/
@[reducible] def Content : Kind → Type
  | .ctlr => Ctlr
  -- `slot->ctlr`
  | .slot => Nat
  | .fatCtx => FatCtx
  | .sdCtx => SdCtx
  | _ => Unit

/-- `vfs_entry_t`: its block, its path prefix and its context; what is
    registered for file descriptors alone has no prefix. -/
structure VfsEntry where
  block      : Nat
  pathPrefix : Option (List Char)
  ctx        : Nat

/-- The variables of the SD stack, file by file, and those of the firmware. -/
structure Statics where
  /-- `s_platform.controllers[0]` -/
  controller    : Option Nat
  sCtlr         : Option Nat
  sSlot1        : Option Nat
  sImpls        : List (Option Nat)
  sCards        : List (Option Nat)
  /-- `FatFs`; a FATFS lies in its `vfs_fat_ctx_t` -/
  fatFs         : List (Option Nat)
  mutexes       : List (Option Nat)
  sVfs          : List (Option VfsEntry)
  sVfsCount     : Nat
  sFatCtxs      : List (Option Nat)
  sCtx          : List (Option Nat)
  sdCard        : Option Nat
  sdCardMounted : Bool

/-- The variables with those of the host replaced. -/
def Statics.host (g : Statics) (controller sCtlr sSlot1 : Option Nat) : Statics :=
  { g with controller := controller, sCtlr := sCtlr, sSlot1 := sSlot1 }

abbrev SdProg (α : Type) := Prog Content Statics α

abbrev SdMem := Mem Content Statics

/-! ## The code -/

def espErrNotFound : EspErr := 0x105

@[simp] theorem espErrNoMem_ne : espErrNoMem ≠ espOk := by decide

@[simp] theorem espErrInvalidArg_ne : espErrInvalidArg ≠ espOk := by decide

@[simp] theorem espErrInvalidState_ne : espErrInvalidState ≠ espOk := by decide

@[simp] theorem espErrNotFound_ne : espErrNotFound ≠ espOk := by decide

@[simp] theorem espFail_ne : espFail ≠ espOk := by decide

/-- What `sd_host_create_sdmmc_controller` is told: the answers of the allocator
    in the order of the calls, the result of `esp_intr_alloc` with the handle for
    `ESP_OK`, and the result of `sd_host_reset`. -/
structure CtlrReplies where
  ctlr       : Option Nat
  dmaDesc    : Option Nat
  ioIntrSem  : Option Nat
  mutex      : Option Nat
  eventQueue : Option Nat
  intrAlloc  : EspErr
  intr       : Nat
  reset      : EspErr
  deriving DecidableEq, Repr

/-- The handle that `esp_intr_alloc` stores. -/
def CtlrReplies.intrHandle (r : CtlrReplies) : Option Nat :=
  if r.intrAlloc = espOk then some r.intr else none

/-- What the host is told while it is brought up: the slot's block, the results
    of `sdmmc_slot_io_config` and `sdmmc_card_init`, and the result of
    `esp_intr_free` should it be taken down again. -/
structure HostReplies where
  ctlr     : CtlrReplies
  slot     : Option Nat
  ioConfig : EspErr
  cardInit : EspErr
  intrFree : EspErr
  deriving DecidableEq, Repr

/-- `sd_host_claim_controller`; the chip has one controller. -/
def sdHostClaimController (ctlr : Nat) : SdProg EspErr := do
  match ← read Statics.controller with
  | some _ => pure espErrNotFound
  | none => do
      modify fun g => { g with controller := some ctlr }
      pure espOk

/-- `sd_host_declaim_controller`. -/
def sdHostDeclaimController : SdProg EspErr := do
  modify fun g => { g with controller := none }
  pure espOk

/-- `esp_intr_free`. -/
def espIntrFree (handle : Option Nat) (reply : EspErr) : SdProg EspErr :=
  match handle with
  | none => pure espErrInvalidArg
  | some a => if reply ≠ espOk then pure reply else do
      free Kind.intr (some a)
      pure espOk

/-- `sd_host_del_sdmmc_controller`. -/
def sdHostDelSdmmcController (ctlr : Nat) (intrFree : EspErr) : SdProg EspErr := do
  let c ← load Kind.ctlr ctlr
  if c.registeredSlotNums ≠ 0 then pure espErrInvalidState else do
    let declaimed ← sdHostDeclaimController
    if declaimed ≠ espOk then pure declaimed else do
      let freed ← espIntrFree c.intrHandle intrFree
      if freed ≠ espOk then pure freed else do
        free Kind.eventQueue c.eventQueue
        free Kind.mutex c.mutex
        free Kind.ioIntrSem c.ioIntrSem
        free Kind.dmaDesc c.dmaDesc
        free Kind.ctlr (some ctlr)
        pure espOk

/-- Allocates for a field of the controller and stores the pointer, NULL or not. -/
def allocInto (ctlr : Nat) (k : Kind) (answer : Option Nat) (c : Content k)
    (set : Ctlr → Option Nat → Ctlr) : SdProg (Option Nat) := do
  let p ← malloc k answer c
  let fields ← load Kind.ctlr ctlr
  store Kind.ctlr ctlr (set fields p)
  pure p

/-- `sd_host_create_sdmmc_controller`, with the handle that it returns. -/
def sdHostCreateSdmmcController (r : CtlrReplies) (intrFree : EspErr) :
    SdProg (EspErr × Option Nat) := do
  let p ← malloc Kind.ctlr r.ctlr ⟨none, none, none, none, none, none, 0⟩
  match p with
  | none => pure (espErrNoMem, none)
  | some ctlr => do
      let claimed ← sdHostClaimController ctlr
      if claimed ≠ espOk then do
        free Kind.ctlr (some ctlr)
        pure (claimed, none)
      else do
        -- at `err:`
        let fail (err : EspErr) : SdProg (EspErr × Option Nat) := do
          let _ ← sdHostDelSdmmcController ctlr intrFree
          pure (err, none)
        let dmaDesc ← allocInto ctlr Kind.dmaDesc r.dmaDesc () fun c p => { c with dmaDesc := p }
        -- this return and the one after `sd_host_reset` do not pass `err:`
        if dmaDesc.isNone then pure (espErrNoMem, none) else do
          let sem ← allocInto ctlr Kind.ioIntrSem r.ioIntrSem ()
            fun c p => { c with ioIntrSem := p }
          if sem.isNone then fail espErrNoMem else do
            let mutex ← allocInto ctlr Kind.mutex r.mutex () fun c p => { c with mutex := p }
            if mutex.isNone then fail espErrNoMem else do
              let queue ← allocInto ctlr Kind.eventQueue r.eventQueue ()
                fun c p => { c with eventQueue := p }
              if queue.isNone then fail espErrNoMem else do
                let _ ← allocInto ctlr Kind.intr r.intrHandle ()
                  fun c p => { c with intrHandle := p }
                if r.intrAlloc ≠ espOk then fail r.intrAlloc else
                  if r.reset ≠ espOk then pure (r.reset, none) else
                    pure (espOk, some ctlr)

/-- `sdmmc_host_init`. -/
def sdmmcHostInit (r : CtlrReplies) (intrFree : EspErr) : SdProg EspErr := do
  let (err, handle) ← sdHostCreateSdmmcController r intrFree
  if err ≠ espOk then pure err else do
    modify fun g => { g with sCtlr := handle }
    pure espOk

/-- `sd_host_sdmmc_controller_add_slot`, with the handle that it returns. -/
def sdHostSdmmcControllerAddSlot (handle : Option Nat) (answer : Option Nat)
    (ioConfig : EspErr) : SdProg (EspErr × Option Nat) :=
  match handle with
  | none => pure (espErrInvalidArg, none)
  | some ctlr => do
      let p ← malloc Kind.slot answer ctlr
      match p with
      | none => pure (espErrNoMem, none)
      | some slot => do
          let c ← load Kind.ctlr ctlr
          if c.slot1.isSome then do
            free Kind.slot (some slot)
            pure (espErrInvalidState, none)
          else do
            store Kind.ctlr ctlr
              { c with slot1 := some slot, registeredSlotNums := c.registeredSlotNums + 1 }
            if ioConfig ≠ espOk then do
              free Kind.slot (some slot)
              pure (ioConfig, none)
            else pure (espOk, some slot)

/-- `sdmmc_host_init_slot` for `SDMMC_HOST_SLOT_1`. -/
def sdmmcHostInitSlot (answer : Option Nat) (ioConfig : EspErr) : SdProg EspErr := do
  let (err, handle) ← sdHostSdmmcControllerAddSlot (← read Statics.sCtlr) answer ioConfig
  if err ≠ espOk then pure err else do
    modify fun g => { g with sSlot1 := handle }
    pure espOk

/-- `sd_host_remove_slot` and `sd_host_controller_remove_sdmmc_slot`. -/
def sdHostRemoveSlot (handle : Option Nat) : SdProg EspErr :=
  match handle with
  | none => pure espErrInvalidArg
  | some slot => do
      let ctlr ← load Kind.slot slot
      let c ← load Kind.ctlr ctlr
      if c.slot1.isNone then pure espErrInvalidState else do
        store Kind.ctlr ctlr
          { c with slot1 := none, registeredSlotNums := c.registeredSlotNums - 1 }
        free Kind.slot (some slot)
        pure espOk

/-- `sd_host_del_controller`. -/
def sdHostDelController (handle : Option Nat) (intrFree : EspErr) : SdProg EspErr :=
  match handle with
  | none => pure espErrInvalidArg
  | some ctlr => sdHostDelSdmmcController ctlr intrFree

/-- `sdmmc_host_deinit_slot`, which `call_host_deinit` calls; its result is not
    looked at there. -/
def sdmmcHostDeinitSlot (intrFree : EspErr) : SdProg EspErr := do
  let removed ← sdHostRemoveSlot (← read Statics.sSlot1)
  if removed ≠ espOk then pure removed else do
    modify fun g => { g with sSlot1 := none }
    let ret ← sdHostDelController (← read Statics.sCtlr) intrFree
    pure (if ret = espErrInvalidState then espOk else ret)

/-- `esp_vfs_fat_sdmmc_sdcard_init`. -/
def espVfsFatSdmmcSdcardInit (card : Nat) (r : HostReplies) : SdProg EspErr := do
  let err ← sdmmcHostInit r.ctlr r.intrFree
  if err ≠ espOk then pure err else do
    let err ← sdmmcHostInitSlot r.slot r.ioConfig
    if err ≠ espOk then do
      let _ ← sdmmcHostDeinitSlot r.intrFree
      pure err
    else do
      load Kind.card card
      if r.cardInit ≠ espOk then do
        let _ ← sdmmcHostDeinitSlot r.intrFree
        pure r.cardInit
      else pure espOk

/-! ## The blocks of the host -/

/-- The blocks of a controller. -/
structure CtlrBlocks where
  ctlr       : Nat
  dmaDesc    : Nat
  ioIntrSem  : Nat
  mutex      : Nat
  eventQueue : Nat
  intr       : Nat

/-- The controller's fields, before a slot is added. -/
def CtlrBlocks.cell (o : CtlrBlocks) : Ctlr :=
  ⟨some o.dmaDesc, some o.ioIntrSem, some o.mutex, some o.eventQueue, some o.intr, none, 0⟩

/-- A controller over the other blocks. -/
def CtlrBlocks.atop (o : CtlrBlocks) (h : Heap Content) : Heap Content :=
  put (put (put (put (put (put h .ctlr o.ctlr (some o.cell))
    .dmaDesc o.dmaDesc (some ())) .ioIntrSem o.ioIntrSem (some ()))
    .mutex o.mutex (some ())) .eventQueue o.eventQueue (some ())) .intr o.intr (some ())

/-- None of the blocks is in use. -/
structure CtlrBlocks.FreshIn (o : CtlrBlocks) (h : Heap Content) : Prop where
  ctlr       : h .ctlr o.ctlr = none
  dmaDesc    : h .dmaDesc o.dmaDesc = none
  ioIntrSem  : h .ioIntrSem o.ioIntrSem = none
  mutex      : h .mutex o.mutex = none
  eventQueue : h .eventQueue o.eventQueue = none
  intr       : h .intr o.intr = none

/-- The blocks of a host that is up. -/
structure HostBlocks extends CtlrBlocks where
  slot : Nat

namespace HostBlocks

variable (o : HostBlocks) (h : Heap Content)

/-- The controller's fields with the slot. -/
def slotted : Ctlr :=
  ⟨some o.dmaDesc, some o.ioIntrSem, some o.mutex, some o.eventQueue, some o.intr,
    some o.slot, 1⟩

/-- A host over the other blocks. -/
def atop : Heap Content :=
  put (put (o.toCtlrBlocks.atop h) .ctlr o.ctlr (some o.slotted)) .slot o.slot (some o.ctlr)

/-- The host is gone. -/
def gone : Heap Content :=
  put (put (put (put (put (put (put h .slot o.slot none) .intr o.intr none)
    .eventQueue o.eventQueue none) .mutex o.mutex none) .ioIntrSem o.ioIntrSem none)
    .dmaDesc o.dmaDesc none) .ctlr o.ctlr none

/-- The slot is gone, and the controller is left behind. -/
def abandoned : Heap Content :=
  put (put h .ctlr o.ctlr (some o.cell)) .slot o.slot none

/-- None of the blocks is in use. -/
structure FreshIn : Prop extends o.toCtlrBlocks.FreshIn h where
  slot : h .slot o.slot = none

end HostBlocks

/-- The blocks of the host are in use, and its variables name them. -/
structure HostUp (o : HostBlocks) (s : SdMem) : Prop where
  controller : s.globals.controller = some o.ctlr
  sCtlr      : s.globals.sCtlr = some o.ctlr
  sSlot1     : s.globals.sSlot1 = some o.slot
  slot       : s.heap .slot o.slot = some o.ctlr
  ctlr       : s.heap .ctlr o.ctlr = some o.slotted
  dmaDesc    : s.heap .dmaDesc o.dmaDesc = some ()
  ioIntrSem  : s.heap .ioIntrSem o.ioIntrSem = some ()
  mutex      : s.heap .mutex o.mutex = some ()
  eventQueue : s.heap .eventQueue o.eventQueue = some ()
  intr       : s.heap .intr o.intr = some ()

/-! ## What the answers decide -/

/-- Everything that the controller needs is granted. -/
def CtlrReplies.Complete (r : CtlrReplies) : Prop :=
  r.ctlr.isSome ∧ r.dmaDesc.isSome ∧ r.ioIntrSem.isSome ∧ r.mutex.isSome ∧
    r.eventQueue.isSome ∧ r.intrAlloc = espOk ∧ r.reset = espOk

/-- The creation fails at one of the two returns that keep the claim: no memory
    for the descriptors, or a reset in vain. -/
def CtlrReplies.KeepsClaim (r : CtlrReplies) : Prop :=
  r.ctlr.isSome ∧
    (r.dmaDesc = none ∨
      r.ioIntrSem.isSome ∧ r.mutex.isSome ∧ r.eventQueue.isSome ∧ r.intrAlloc = espOk ∧
        r.reset ≠ espOk)

/-- The creation fails later; it gives the claim back and keeps the blocks that
    it has, because `esp_intr_free` is passed NULL. -/
def CtlrReplies.Leaks (r : CtlrReplies) : Prop :=
  r.ctlr.isSome ∧ r.dmaDesc.isSome ∧
    ¬ (r.ioIntrSem.isSome ∧ r.mutex.isSome ∧ r.eventQueue.isSome ∧ r.intrAlloc = espOk)

/-- The host comes up. -/
def HostReplies.Up (r : HostReplies) : Prop :=
  r.ctlr.Complete ∧ r.slot.isSome ∧ r.ioConfig = espOk

/-- The host comes up and finds a card. -/
def HostReplies.FindsCard (r : HostReplies) : Prop := r.Up ∧ r.cardInit = espOk

/-- The controller stays claimed and nobody can give it back: the creation keeps
    the claim, or no slot is added. -/
def HostReplies.Wedges (r : HostReplies) : Prop :=
  r.ctlr.KeepsClaim ∨ r.ctlr.Complete ∧ ¬ (r.slot.isSome ∧ r.ioConfig = espOk)

/-- Blocks stay behind, with the controller free to be claimed again: the
    creation leaks, or the host comes up without a card and `esp_intr_free` fails
    when it is taken down. -/
def HostReplies.Leaks (r : HostReplies) : Prop :=
  r.ctlr.Leaks ∨ r.Up ∧ r.cardInit ≠ espOk ∧ r.intrFree ≠ espOk

instance (r : CtlrReplies) : Decidable r.Complete := inferInstanceAs (Decidable (_ ∧ _))

instance (r : CtlrReplies) : Decidable r.KeepsClaim := inferInstanceAs (Decidable (_ ∧ _))

instance (r : CtlrReplies) : Decidable r.Leaks := inferInstanceAs (Decidable (_ ∧ _))

instance (r : HostReplies) : Decidable r.Up := inferInstanceAs (Decidable (_ ∧ _))

instance (r : HostReplies) : Decidable r.FindsCard := inferInstanceAs (Decidable (_ ∧ _))

instance (r : HostReplies) : Decidable r.Wedges := inferInstanceAs (Decidable (_ ∨ _))

instance (r : HostReplies) : Decidable r.Leaks := inferInstanceAs (Decidable (_ ∨ _))

namespace CtlrReplies

variable {r : CtlrReplies}

theorem Complete.not_keepsClaim (h : r.Complete) : ¬ r.KeepsClaim := by
  obtain ⟨-, hdma, -, -, -, -, hreset⟩ := h
  rintro ⟨-, hnone | ⟨-, -, -, -, hne⟩⟩
  · rw [hnone] at hdma
    cases hdma
  · exact hne hreset

theorem Complete.not_leaks (h : r.Complete) : ¬ r.Leaks := by
  obtain ⟨-, -, hsem, hmutex, hqueue, hintr, -⟩ := h
  rintro ⟨-, -, hmissing⟩
  exact hmissing ⟨hsem, hmutex, hqueue, hintr⟩

theorem Leaks.not_keepsClaim (h : r.Leaks) : ¬ r.KeepsClaim := by
  obtain ⟨-, hdma, hmissing⟩ := h
  rintro ⟨-, hnone | ⟨hsem, hmutex, hqueue, hintr, -⟩⟩
  · rw [hnone] at hdma
    cases hdma
  · exact hmissing ⟨hsem, hmutex, hqueue, hintr⟩

end CtlrReplies

theorem HostReplies.FindsCard.not_wedges {r : HostReplies} (h : r.FindsCard) : ¬ r.Wedges := by
  rintro (hkeeps | ⟨-, hno⟩)
  · exact h.1.1.not_keepsClaim hkeeps
  · exact hno h.1.2

theorem HostReplies.FindsCard.not_leaks {r : HostReplies} (h : r.FindsCard) : ¬ r.Leaks := by
  rintro (hleaks | ⟨-, hno, -⟩)
  · exact h.1.1.not_leaks hleaks
  · exact hno h.2

/-- The allocator's answers can be given. -/
structure HostReplies.Fits (stop : Prop) (r : HostReplies) (h : Heap Content) : Prop where
  ctlr       : Granted stop h .ctlr r.ctlr.ctlr
  dmaDesc    : Granted stop h .dmaDesc r.ctlr.dmaDesc
  ioIntrSem  : Granted stop h .ioIntrSem r.ctlr.ioIntrSem
  mutex      : Granted stop h .mutex r.ctlr.mutex
  eventQueue : Granted stop h .eventQueue r.ctlr.eventQueue
  intr       : Granted stop h .intr r.ctlr.intrHandle
  slot       : Granted stop h .slot r.slot

/-- The kinds that the host allocates. -/
def hostKinds : List Kind := [.ctlr, .dmaDesc, .ioIntrSem, .mutex, .eventQueue, .intr, .slot]

theorem HostReplies.Fits.of_eq {stop : Prop} {r : HostReplies} {h h' : Heap Content}
    (hfits : r.Fits stop h) (heq : ∀ k ∈ hostKinds, h' k = h k) : r.Fits stop h' where
  ctlr := hfits.ctlr.of_eq (heq _ (by decide))
  dmaDesc := hfits.dmaDesc.of_eq (heq _ (by decide))
  ioIntrSem := hfits.ioIntrSem.of_eq (heq _ (by decide))
  mutex := hfits.mutex.of_eq (heq _ (by decide))
  eventQueue := hfits.eventQueue.of_eq (heq _ (by decide))
  intr := hfits.intr.of_eq (heq _ (by decide))
  slot := hfits.slot.of_eq (heq _ (by decide))

/-! ## The controller -/

/-- How the creation of the controller ends. -/
inductive CreateEnds (r : CtlrReplies) (s : SdMem) : EspErr × Option Nat → SdMem → Prop where
  | refused : r.ctlr = none → CreateEnds r s (espErrNoMem, none) s
  | leaked {err : EspErr} {h : Heap Content} : r.Leaks → err ≠ espOk → h ≠ s.heap →
      h .card = s.heap .card →
      CreateEnds r s (err, none) ⟨h, { s.globals with controller := none }⟩
  | kept {err : EspErr} {h : Heap Content} {w : Nat} : r.KeepsClaim → err ≠ espOk →
      h ≠ s.heap → h .card = s.heap .card →
      CreateEnds r s (err, none) ⟨h, { s.globals with controller := some w }⟩
  | created {o : CtlrBlocks} {h : Heap Content} : r.Complete → o.FreshIn s.heap →
      h = o.atop s.heap →
      CreateEnds r s (espOk, some o.ctlr)
        ⟨h, { s.globals with controller := some o.ctlr }⟩

section Controller

variable {stop : Prop} {s : SdMem} {r : HostReplies} {c a : Nat} {x : EspErr}

/-- A heap with one more block is another heap. -/
theorem ne_of_block {k : Kind} {h h' : Heap Content} (hnone : h k a = none)
    (hsome : h' k a ≠ none) : h' ≠ h := by
  rintro rfl
  exact hsome hnone

theorem create_ends (hoff : s.globals.controller = none) (hfits : r.Fits stop s.heap) :
    wp stop (sdHostCreateSdmmcController r.ctlr x) (CreateEnds r.ctlr s) s := by
  cases hctlr : r.ctlr.ctlr with
  | none =>
      simp only [sdHostCreateSdmmcController, hctlr, wp_bind, wp_malloc_none, wp_pure]
      exact .refused hctlr
  | some ctlr =>
  simp [sdHostCreateSdmmcController, allocInto, hctlr, sdHostClaimController, hoff]
  refine ⟨fun hfree => ?_, hfits.ctlr _ hctlr⟩
  cases hdma : r.ctlr.dmaDesc with
  | none =>
      simp
      refine .kept (by simp [CtlrReplies.KeepsClaim, hctlr, hdma]) (by decide) ?_ (by simp)
      exact ne_of_block hfree (by simp)
  | some dma =>
  simp
  refine ⟨fun hfreeDma => ?_, hfits.dmaDesc _ hdma⟩
  cases hsem : r.ctlr.ioIntrSem with
  | none =>
      simp [sdHostDelSdmmcController, sdHostDeclaimController, espIntrFree]
      refine .leaked (by simp [CtlrReplies.Leaks, hctlr, hdma, hsem]) (by decide) ?_
        (by simp)
      exact ne_of_block hfree (by simp)
  | some sem =>
  simp
  refine ⟨fun hfreeSem => ?_, hfits.ioIntrSem _ hsem⟩
  cases hmutex : r.ctlr.mutex with
  | none =>
      simp [sdHostDelSdmmcController, sdHostDeclaimController, espIntrFree]
      refine .leaked (by simp [CtlrReplies.Leaks, hctlr, hdma, hmutex]) (by decide) ?_
        (by simp)
      exact ne_of_block hfree (by simp)
  | some mutex =>
  simp
  refine ⟨fun hfreeMutex => ?_, hfits.mutex _ hmutex⟩
  cases hqueue : r.ctlr.eventQueue with
  | none =>
      simp [sdHostDelSdmmcController, sdHostDeclaimController, espIntrFree]
      refine .leaked (by simp [CtlrReplies.Leaks, hctlr, hdma, hqueue]) (by decide) ?_
        (by simp)
      exact ne_of_block hfree (by simp)
  | some queue =>
  simp
  refine ⟨fun hfreeQueue => ?_, hfits.eventQueue _ hqueue⟩
  by_cases hintr : r.ctlr.intrAlloc = espOk
  · have hhandle : r.ctlr.intrHandle = some r.ctlr.intr := if_pos hintr
    simp [hhandle, hintr]
    refine ⟨fun hfreeIntr => ?_, hfits.intr _ hhandle⟩
    split
    · rename_i hreset
      refine .created (o := ⟨ctlr, dma, sem, mutex, queue, r.ctlr.intr⟩)
        (by simp [CtlrReplies.Complete, *])
        ⟨hfree, hfreeDma, hfreeSem, hfreeMutex, hfreeQueue, hfreeIntr⟩ ?_
      funext k
      cases k <;> simp [put_pool, CtlrBlocks.atop, CtlrBlocks.cell]
    · rename_i hreset
      refine .kept (by simp [CtlrReplies.KeepsClaim, *]) hreset ?_ (by simp)
      exact ne_of_block hfree (by simp)
  · have hhandle : r.ctlr.intrHandle = none := if_neg hintr
    simp [hhandle, hintr, sdHostDelSdmmcController, sdHostDeclaimController, espIntrFree]
    refine .leaked (by simp [CtlrReplies.Leaks, hctlr, hdma, hintr]) hintr ?_ (by simp)
    exact ne_of_block hfree (by simp)

end Controller

/-! ## The host -/

/-- What is left of a host that is taken down; the argument is the result of
    `esp_intr_free`. -/
def HostBlocks.after (o : HostBlocks) (x : EspErr) (h : Heap Content) : Heap Content :=
  if x = espOk then o.gone h else o.abandoned h

/-- How the search for a card ends. -/
inductive InitEnds (r : HostReplies) (s : SdMem) : EspErr → SdMem → Prop where
  | down {err : EspErr} {h : Heap Content} {c : Option Nat} : ¬ r.Wedges → ¬ r.FindsCard →
      (h = s.heap ↔ ¬ r.Leaks) → h .card = s.heap .card → err ≠ espOk →
      InitEnds r s err ⟨h, s.globals.host none c none⟩
  | wedged {err : EspErr} {h : Heap Content} {w : Nat} {c : Option Nat} : r.Wedges →
      h ≠ s.heap → h .card = s.heap .card → err ≠ espOk →
      InitEnds r s err ⟨h, s.globals.host (some w) c none⟩
  | up {o : HostBlocks} {h : Heap Content} : r.FindsCard → o.FreshIn s.heap →
      h = o.atop s.heap →
      InitEnds r s espOk ⟨h, s.globals.host (some o.ctlr) (some o.ctlr) (some o.slot)⟩

section Host

variable {stop : Prop} {s : SdMem} {r : HostReplies} {o : HostBlocks} {c : Nat} {x : EspErr}
  {h : Heap Content}

/-- A host that is taken down from a heap without its blocks leaves the heap. -/
theorem gone_atop (hfresh : o.FreshIn h) : o.gone (o.atop h) = h := by
  obtain ⟨⟨hctlr, hdma, hsem, hmutex, hqueue, hintr⟩, hslot⟩ := hfresh
  funext k
  cases k <;> simp [HostBlocks.gone, HostBlocks.atop, CtlrBlocks.atop, put_pool, *]

/-- A host that has been brought up. -/
theorem hostUp_atop (g : Statics) :
    HostUp o ⟨o.atop h, g.host (some o.ctlr) (some o.ctlr) (some o.slot)⟩ := by
  constructor <;> simp [HostBlocks.atop, CtlrBlocks.atop, Statics.host]

/-- A host is up whatever else happens. -/
theorem HostUp.of_eq {s' : SdMem} (hup : HostUp o s)
    (heq : ∀ k ∈ hostKinds, s'.heap k = s.heap k)
    (eqController : s'.globals.controller = s.globals.controller)
    (eqCtlr' : s'.globals.sCtlr = s.globals.sCtlr)
    (eqSlot' : s'.globals.sSlot1 = s.globals.sSlot1) : HostUp o s' := by
  obtain ⟨hcontroller, hsCtlr, hsSlot1, hslot, hctlr, hdma, hsem, hmutex, hqueue, hintr⟩ := hup
  simp only [hostKinds, List.forall_mem_cons] at heq
  obtain ⟨eqCtlr, eqDma, eqSem, eqMutex, eqQueue, eqIntr, eqSlot, -⟩ := heq
  constructor
  · rw [eqController, hcontroller]
  · rw [eqCtlr', hsCtlr]
  · rw [eqSlot', hsSlot1]
  · rw [eqSlot, hslot]
  · rw [eqCtlr, hctlr]
  · rw [eqDma, hdma]
  · rw [eqSem, hsem]
  · rw [eqMutex, hmutex]
  · rw [eqQueue, hqueue]
  · rw [eqIntr, hintr]

/-- Other blocks are untouched. -/
theorem after_kind {k : Kind} (hk : k ∉ hostKinds) : o.after x h k = h k := by
  simp only [hostKinds, List.mem_cons, not_or] at hk
  unfold HostBlocks.after
  split <;> simp [HostBlocks.gone, HostBlocks.abandoned, hk]

/-- What stays of a host that is not taken down entirely. -/
theorem after_atop (hfresh : o.FreshIn h) : o.after x (o.atop h) = h ↔ x = espOk := by
  unfold HostBlocks.after
  split
  · rename_i hx
    exact iff_of_true (gone_atop hfresh) hx
  · rename_i hx
    refine iff_of_false (ne_of_block hfresh.ctlr ?_) hx
    simp [HostBlocks.abandoned]

/-- **Taking the host down.**  Where `esp_intr_free` fails, the controller stays
    allocated. -/
theorem deinit_ends (hup : HostUp o s) :
    wp stop (sdmmcHostDeinitSlot x)
      (fun _ s' => s' = ⟨o.after x s.heap,
        { s.globals with controller := none, sSlot1 := none }⟩) s := by
  simp [sdmmcHostDeinitSlot, sdHostRemoveSlot, sdHostDelController,
    sdHostDelSdmmcController, sdHostDeclaimController, espIntrFree, hup.sSlot1, hup.sCtlr,
    hup.slot, hup.ctlr, HostBlocks.slotted]
  by_cases hx : x = espOk
  · simp [hx, hup.intr, hup.dmaDesc, hup.ioIntrSem, hup.mutex, hup.eventQueue,
      HostBlocks.after]
    funext k
    cases k <;> simp [HostBlocks.gone, put_pool]
  · simp [hx, HostBlocks.after, HostBlocks.abandoned, CtlrBlocks.cell]

/-- How the addition of a slot ends. -/
inductive SlotEnds (answer : Option Nat) (ioConfig : EspErr) (o : CtlrBlocks) (s : SdMem) :
    EspErr → SdMem → Prop where
  | refused {err : EspErr} {h : Heap Content} : ¬ (answer.isSome ∧ ioConfig = espOk) →
      err ≠ espOk → h .ctlr o.ctlr ≠ none → h .card = s.heap .card →
      SlotEnds answer ioConfig o s err ⟨h, s.globals⟩
  | added {slot : Nat} : answer = some slot → ioConfig = espOk → s.heap .slot slot = none →
      SlotEnds answer ioConfig o s espOk
        ⟨put (put s.heap .ctlr o.ctlr (some (HostBlocks.mk o slot).slotted)) .slot slot
          (some o.ctlr), { s.globals with sSlot1 := some slot }⟩

theorem initSlot_ends {o : CtlrBlocks} {answer : Option Nat}
    (hs : s.globals.sCtlr = some o.ctlr) (hctlr : s.heap .ctlr o.ctlr = some o.cell)
    (hfits : Granted stop s.heap .slot answer) :
    wp stop (sdmmcHostInitSlot answer x) (SlotEnds answer x o s) s := by
  cases hanswer : answer with
  | none =>
      simp [sdmmcHostInitSlot, sdHostSdmmcControllerAddSlot, hs]
      exact .refused (by simp) espErrNoMem_ne (by simp [hctlr]) rfl
  | some slot =>
      simp [sdmmcHostInitSlot, sdHostSdmmcControllerAddSlot, hs, hctlr, CtlrBlocks.cell]
      refine ⟨fun hfree => ?_, hfits _ hanswer⟩
      by_cases hx : x = espOk
      · subst hx
        simp only [if_pos]
        rw [put_comm (by simp)]
        simpa [hs, HostBlocks.slotted] using
          SlotEnds.added (o := o) (s := s) rfl rfl hfree
      · simp [hx]
        exact .refused (by simp [hx]) hx (by simp) (by simp)

/-- A free host that is as it was. -/
theorem host_self {g : Statics} (hoff : g.controller = none) (hslot : g.sSlot1 = none) :
    g.host none g.sCtlr none = g := by
  cases g
  subst hoff hslot
  rfl

/-- What `esp_vfs_fat_sdmmc_sdcard_init` does once the slot is there. -/
theorem cardInit_ends (hup : r.Up) (hfresh : o.FreshIn s.heap) (hcard : s.heap .card c ≠ none)
    {s' : SdMem} (hs' : s' = ⟨o.atop s.heap,
      s.globals.host (some o.ctlr) (some o.ctlr) (some o.slot)⟩) :
    wp stop (do
      load Kind.card c
      if r.cardInit ≠ espOk then do
        let _ ← sdmmcHostDeinitSlot r.intrFree
        pure r.cardInit
      else pure espOk) (InitEnds r s) s' := by
  have hcard' : ∃ x, s'.heap .card c = some x := by
    refine Option.ne_none_iff_exists'.mp ?_
    simpa [hs', HostBlocks.atop, CtlrBlocks.atop] using hcard
  simp
  refine ⟨hcard', ?_⟩
  by_cases hinit : r.cardInit = espOk
  · rw [if_pos hinit, hs']
    exact .up ⟨hup, hinit⟩ hfresh rfl
  · rw [if_neg hinit]
    refine wp_mono (deinit_ends (hs' ▸ hostUp_atop s.globals)) ?_
    rintro _ _ rfl
    rw [hs']
    refine .down ?_ (fun h => hinit h.2) ?_ ?_ hinit
    · rintro (h | h)
      · exact hup.1.not_keepsClaim h
      · exact h.2 hup.2
    · rw [after_atop hfresh]
      refine ⟨fun hx => ?_, fun h => not_not.mp fun hx => h (.inr ⟨hup, hinit, hx⟩)⟩
      rintro (h | h)
      · exact hup.1.not_leaks h
      · exact h.2.2 hx
    · rw [after_kind (by decide)]
      simp [HostBlocks.atop, CtlrBlocks.atop]

/-- **Looking for a card** on a host that is free. -/
theorem init_ends (hoff : s.globals.controller = none) (hslot : s.globals.sSlot1 = none)
    (hcard : s.heap .card c ≠ none) (hfits : r.Fits stop s.heap) :
    wp stop (espVfsFatSdmmcSdcardInit c r) (InitEnds r s) s := by
  simp only [espVfsFatSdmmcSdcardInit, sdmmcHostInit, wp_bind]
  refine wp_mono (create_ends hoff hfits) ?_
  rintro _ _ (hnone | ⟨hleaks, herr, hne, hcards⟩ | ⟨hkeeps, herr, hne, hcards⟩ |
    @⟨o, _, hcomplete, hfresh, rfl⟩)
  · have hself : InitEnds r s espErrNoMem ⟨s.heap, s.globals.host none s.globals.sCtlr none⟩ := by
      refine .down ?_ ?_ (iff_of_true rfl ?_) rfl espErrNoMem_ne
      all_goals
        simp [HostReplies.Wedges, HostReplies.FindsCard, HostReplies.Up, HostReplies.Leaks,
          CtlrReplies.Complete, CtlrReplies.KeepsClaim, CtlrReplies.Leaks, hnone]
    rw [host_self hoff hslot] at hself
    simpa using hself
  · have hincomplete : ¬ r.ctlr.Complete := fun h => h.not_leaks hleaks
    simp [herr, hslot]
    refine .down ?_ ?_ (iff_of_false hne ?_) hcards herr
    · rintro (h | h)
      · exact hleaks.not_keepsClaim h
      · exact hincomplete h.1
    · exact fun h => hincomplete h.1.1
    · exact fun h => h (.inl hleaks)
  · simp [herr, hslot]
    exact .wedged (.inl hkeeps) hne hcards herr
  · have hfitsSlot : Granted stop (o.atop s.heap) .slot r.slot := by
      simpa [Granted, CtlrBlocks.atop] using hfits.slot
    simp
    refine wp_mono (initSlot_ends (o := o) rfl (by simp [CtlrBlocks.atop]) hfitsSlot) ?_
    rintro _ _ (⟨hno, herr, hctlr, hcards⟩ | @⟨slot, hanswer, hio, hfree⟩)
    · simp [herr, sdmmcHostDeinitSlot, sdHostRemoveSlot, hslot]
      exact .wedged (.inr ⟨hcomplete, hno⟩) (ne_of_block hfresh.ctlr hctlr)
        (by simp [hcards, CtlrBlocks.atop]) herr
    · have hfresh' : (HostBlocks.mk o slot).FreshIn s.heap := ⟨hfresh, by
        simpa [CtlrBlocks.atop] using hfree⟩
      have hup : r.Up := ⟨hcomplete, by simp [hanswer], hio⟩
      simpa [HostBlocks.atop, Statics.host] using cardInit_ends hup hfresh' hcard rfl

/-- Nobody finds a card on a controller that stays claimed, and nothing
    changes. -/
theorem init_wedged (hclaimed : s.globals.controller.isSome) (hfits : r.Fits stop s.heap) :
    wp stop (espVfsFatSdmmcSdcardInit c r) (fun err s' => err ≠ espOk ∧ s' = s) s := by
  obtain ⟨w, hw⟩ := Option.isSome_iff_exists.mp hclaimed
  cases hctlr : r.ctlr.ctlr with
  | none =>
      simp [espVfsFatSdmmcSdcardInit, sdmmcHostInit, sdHostCreateSdmmcController, hctlr]
  | some ctlr =>
      simp [espVfsFatSdmmcSdcardInit, sdmmcHostInit, sdHostCreateSdmmcController, hctlr,
        sdHostClaimController, hw]
      refine ⟨fun hfree => ?_, hfits.ctlr _ hctlr⟩
      rw [put_self hfree]

end Host

end SdHost
