import KnobFirmware.SdHostProofs

/-! # Mounting a card — the tables behind a mount point

    `esp_vfs_fat_sdmmc_mount` takes a place in five tables: the drives of the
    disk layer, the volumes of FatFs, the FAT contexts by path, the registered
    file systems and the mounted cards.  `esp_vfs_fat_sdcard_unmount` gives the
    places back, and frees what the mount has allocated for them.

    Each layer has one lemma that says how its function ends, for all answers of
    the allocator, of the controller and of the card: `register_ends` and
    `unregister_ends` for a path, `volume_ends` and `drop_ends` for a volume,
    `internal_ends` and `initialized_ends` for an initialised card.  `mount_ends`
    and `unmount_ends` put them together: a mount that fails leaves the tables as
    they were and the heap as well, but for what the host has kept, with one
    exception.  Where the last block, the context of the card, is refused, the
    volume, the path and the drive stay, and the card that they lead to is
    freed. -/

namespace FatMount

open HeapProgram EspErr SdHost

/-! ## The code -/

/-- `FRESULT`. -/
inductive FResult where
  | ok
  | diskErr
  | intErr
  | notReady
  | noFile
  | noPath
  | invalidName
  | denied
  | exist
  | invalidObject
  | writeProtected
  | invalidDrive
  | notEnabled
  | noFilesystem
  | mkfsAborted
  | timeout
  | locked
  | notEnoughCore
  | tooManyOpenFiles
  | invalidParameter
  deriving DecidableEq, Repr

/-- `CONFIG_VFS_MAX_COUNT`. -/
def vfsMaxCount : Nat := 8

def espVfsPathMax : Nat := 15

/-- What mounting a volume is told: the mutex of the volume, whether it was
    taken in time, whether the drive became ready and has a usable sector size,
    the buffer of a sector, and the result of the rest of `mount_volume`. -/
structure VolumeReplies where
  mutex    : Option Nat
  locked   : Bool
  ready    : Bool
  sectorOk : Bool
  win      : Option Nat
  result   : FResult
  deriving DecidableEq, Repr

/-- What the mount of an initialised card is told, in the order of the calls. -/
structure FatReplies where
  basePath : Option Nat
  impl     : Option Nat
  fatCtx   : Option Nat
  flags    : Option Nat
  vfsEntry : Option Nat
  lock     : Option Nat
  volume   : VolumeReplies
  sdCtx    : Option Nat
  deriving DecidableEq, Repr

/-- What `esp_vfs_fat_sdmmc_mount` is told. -/
structure MountReplies where
  card : Option Nat
  host : HostReplies
  fat  : FatReplies
  deriving DecidableEq, Repr

/-- The pointer at a place of a table. -/
def entry (table : List (Option Nat)) (i : Nat) : Option Nat := table[i]?.join

/-- The first free place of a table. -/
def freeIndex {α : Type} (table : List (Option α)) : Option Nat :=
  table.findIdx? Option.isNone

/-- `is_path_prefix_valid`. -/
def isPathPrefixValid (path : List Char) : Bool :=
  decide (2 ≤ path.length) && decide (path.length ≤ espVfsPathMax) &&
    path.head? == some '/' && path.getLast? != some '/'

/-- `esp_vfs_register_fs` for a static table of functions. -/
def espVfsRegisterFs (path : List Char) (ctx : Nat) (answer : Option Nat) :
    SdProg EspErr := do
  let count ← read Statics.sVfsCount
  if vfsMaxCount ≤ count then pure espErrNoMem
  else if path ≠ [] ∧ isPathPrefixValid path = false then pure espErrInvalidArg
  else
    match freeIndex (← read Statics.sVfs) with
    | none => pure espErrNoMem
    | some i => do
        -- the count stays up should the block be refused
        modify fun g => { g with sVfsCount := if i = count then count + 1 else count }
        let p ← malloc Kind.vfsEntry answer ()
        match p with
        | none => pure espErrNoMem
        | some block => do
            modify fun g => { g with sVfs := g.sVfs.set i (some ⟨block, some path, ctx⟩) }
            pure espOk

/-- Where a path is registered. -/
def findPrefix (path : List Char) (table : List (Option VfsEntry)) : Option Nat :=
  table.findIdx? fun e => e.any (·.pathPrefix = some path)

/-- `esp_vfs_unregister`. -/
def espVfsUnregister (path : List Char) : SdProg EspErr := do
  let g ← read id
  match findPrefix path (g.sVfs.take g.sVfsCount) with
  | none => pure espErrInvalidState
  | some i => do
      free Kind.vfsEntry ((g.sVfs[i]?).join.map VfsEntry.block)
      modify fun g => { g with sVfs := g.sVfs.set i none }
      pure espOk

/-- The loop of `find_context_index_by_path`, from the `i`-th place on. -/
def scanContexts (path : List Char) : List (Option Nat) → Nat → SdProg (Option Nat)
  | [], _ => pure none
  | none :: table, i => scanContexts path table (i + 1)
  | some a :: table, i => do
      let ctx ← load Kind.fatCtx a
      if ctx.basePath = path then pure (some i) else scanContexts path table (i + 1)

/-- `find_context_index_by_path`. -/
def findContextIndexByPath (path : List Char) : SdProg (Option Nat) := do
  scanContexts path (← read Statics.sFatCtxs) 0

/-- `esp_vfs_fat_register`, with `*out_fs`. -/
def espVfsFatRegister (path : List Char) (drive : Nat) (r : FatReplies) :
    SdProg (EspErr × Option Nat) := do
  match ← findContextIndexByPath path with
  | some _ => pure (espErrInvalidState, none)
  | none => do
      match freeIndex (← read Statics.sFatCtxs) with
      | none => pure (espErrNoMem, none)
      | some i => do
          let p ← malloc Kind.fatCtx r.fatCtx ⟨[], 0, 0, none, none⟩
          match p with
          | none => pure (espErrNoMem, none)
          | some fatCtx => do
              let flags ← malloc Kind.flags r.flags ()
              match flags with
              | none => do
                  free Kind.fatCtx (some fatCtx)
                  pure (espErrNoMem, none)
              | some f => do
                  -- `strlcpy` is given one byte less than the array has, and keeps one for the NUL
                  let ctx : FatCtx := ⟨path.take (espVfsPathMax - 2), drive, f, none, none⟩
                  store Kind.fatCtx fatCtx ctx
                  let err ← espVfsRegisterFs path fatCtx r.vfsEntry
                  if err ≠ espOk then do
                    free Kind.flags (some f)
                    free Kind.fatCtx (some fatCtx)
                    pure (err, none)
                  else do
                    -- `_lock_init` aborts where there is no memory
                    let lock ← malloc Kind.lock r.lock ()
                    if lock.isNone then halt else do
                      store Kind.fatCtx fatCtx { ctx with lock := lock }
                      modify fun g => { g with sFatCtxs := g.sFatCtxs.set i (some fatCtx) }
                      pure (espOk, some fatCtx)

/-- `esp_vfs_fat_unregister_path`. -/
def espVfsFatUnregisterPath (path : List Char) : SdProg EspErr := do
  match ← findContextIndexByPath path with
  | none => pure espErrInvalidState
  | some i => do
      match entry (← read Statics.sFatCtxs) i with
      | none => pure espErrInvalidState
      | some fatCtx => do
          let ctx ← load Kind.fatCtx fatCtx
          let err ← espVfsUnregister ctx.basePath
          if err ≠ espOk then pure err else do
            free Kind.lock ctx.lock
            free Kind.flags (some ctx.flags)
            free Kind.fatCtx (some fatCtx)
            modify fun g => { g with sFatCtxs := g.sFatCtxs.set i none }
            pure espOk

/-- `ff_diskio_register` without functions: `ff_diskio_unregister`. -/
def ffDiskioUnregister (pdrv : Nat) : SdProg Unit := do
  let im := entry (← read Statics.sImpls) pdrv
  modify fun g => { g with sImpls := g.sImpls.set pdrv none }
  free Kind.impl im

/-- `ff_diskio_register_sdmmc`. -/
def ffDiskioRegisterSdmmc (pdrv card : Nat) (answer : Option Nat) : SdProg Unit := do
  modify fun g => { g with sCards := g.sCards.set pdrv (some card) }
  ffDiskioUnregister pdrv
  let impl ← malloc Kind.impl answer ()
  -- `assert(impl != NULL)`
  if impl.isNone then halt else
    modify fun g => { g with sImpls := g.sImpls.set pdrv impl }

/-- The disk functions of a drive: both pointers are followed. -/
def useDrive (pdrv : Nat) : SdProg Unit := do
  match entry (← read Statics.sImpls) pdrv, entry (← read Statics.sCards) pdrv with
  | some impl, some card => do
      load Kind.impl impl
      load Kind.card card
      pure ()
  | _, _ => halt

/-- `mount_volume` for a volume that is not mounted yet. -/
def mountVolume (vol : Nat) (r : VolumeReplies) : SdProg FResult := do
  match entry (← read Statics.fatFs) vol with
  | none => pure .notEnabled
  | some fs => do
      if r.locked = false then pure .timeout else do
        useDrive vol
        if r.ready = false then pure .notReady
        else if r.sectorOk = false then pure .diskErr else do
          let ctx ← load Kind.fatCtx fs
          match ctx.win with
          | some _ => pure r.result
          | none => do
              let win ← malloc Kind.win r.win ()
              store Kind.fatCtx fs { ctx with win := win }
              if win.isNone then pure .notEnoughCore else pure r.result

/-- The part of `f_mount` that takes the old volume away. -/
def dropVolume (vol : Nat) : SdProg Unit := do
  match entry (← read Statics.fatFs) vol with
  | none => pure ()
  | some cfs => do
      modify fun g => { g with fatFs := g.fatFs.set vol none }
      free Kind.volMutex (entry (← read Statics.mutexes) vol)
      modify fun g => { g with mutexes := g.mutexes.set vol none }
      let ctx ← load Kind.fatCtx cfs
      free Kind.win ctx.win
      store Kind.fatCtx cfs { ctx with win := none }

/-- `f_mount` that mounts at once. -/
def fMount (fs : Option Nat) (vol : Nat) (r : VolumeReplies) : SdProg FResult := do
  dropVolume vol
  match fs with
  | none => mountVolume vol r
  | some fs => do
      let mutex ← malloc Kind.volMutex r.mutex ()
      modify fun g => { g with mutexes := g.mutexes.set vol mutex }
      if mutex.isNone then pure .intErr else do
        modify fun g => { g with fatFs := g.fatFs.set vol (some fs) }
        mountVolume vol r

/-- `s_f_mount`; the firmware does not ask for a format. -/
def sFMount (fs : Option Nat) (pdrv : Nat) (r : VolumeReplies) : SdProg EspErr := do
  let res ← fMount fs pdrv r
  pure (if res = .ok then espOk else espFail)

/-- `esp_vfs_fat_mount_internal`, with `*out_fs`. -/
def espVfsFatMountInternal (card pdrv : Nat) (path : List Char) (r : FatReplies) :
    SdProg (EspErr × Option Nat) := do
  ffDiskioRegisterSdmmc pdrv card r.impl
  let (registered, fs) ← espVfsFatRegister path pdrv r
  -- `ESP_ERR_INVALID_STATE` is let pass
  let err ← if registered ≠ espOk ∧ registered ≠ espErrInvalidState then pure registered
    else sFMount fs pdrv r.volume
  if err ≠ espOk then do
    if fs.isSome then dropVolume pdrv else pure ()
    let _ ← espVfsFatUnregisterPath path
    ffDiskioUnregister pdrv
    pure (err, fs)
  else pure (espOk, fs)

/-- `esp_vfs_fat_save_ctx`. -/
def espVfsFatSaveCtx (pdrv card basePath : Nat) (fs : Option Nat) (answer : Option Nat) :
    SdProg EspErr := do
  let p ← malloc Kind.sdCtx answer ⟨pdrv, fs, card, basePath⟩
  match p with
  | none => pure espErrNoMem
  | some ctx => do
      match freeIndex (← read Statics.sCtx) with
      | none => halt
      | some i => do
          modify fun g => { g with sCtx := g.sCtx.set i (some ctx) }
          pure espOk

/-- `esp_vfs_fat_mount_initialized`. -/
def espVfsFatMountInitialized (card : Nat) (path : List Char) (r : FatReplies) :
    SdProg EspErr := do
  -- `mount_prepare_mem`
  match freeIndex (← read Statics.sImpls) with
  | none => pure espErrNoMem
  | some pdrv => do
      let p ← malloc Kind.basePath r.basePath ()
      match p with
      | none => pure espErrNoMem
      | some dupPath => do
          let (err, fs) ← espVfsFatMountInternal card pdrv path r
          if err ≠ espOk then do
            free Kind.basePath (some dupPath)
            pure err
          else do
            let err ← espVfsFatSaveCtx pdrv card dupPath fs r.sdCtx
            if err ≠ espOk then do
              free Kind.basePath (some dupPath)
              pure err
            else pure espOk

/-- `esp_vfs_fat_sdmmc_mount`, with `*out_card`. -/
def espVfsFatSdmmcMount (path : List Char) (r : MountReplies) :
    SdProg (EspErr × Option Nat) := do
  let p ← malloc Kind.card r.card ()
  match p with
  | none => pure (espErrNoMem, none)
  | some card => do
      let err ← espVfsFatSdmmcSdcardInit card r.host
      if err ≠ espOk then do
        free Kind.card (some card)
        pure (err, none)
      else do
        let err ← espVfsFatMountInitialized card path r.fat
        if err ≠ espOk then do
          let _ ← sdmmcHostDeinitSlot r.host.intrFree
          free Kind.card (some card)
          pure (err, none)
        else pure (espOk, some card)

/-- `unmount_card_core`. -/
def unmountCardCore (path : List Char) (card : Nat) (intrFree : EspErr) : SdProg EspErr := do
  let cards ← read Statics.sCards
  let pdrvNum := cards.count (some card)
  if pdrvNum = 0 then pure espErrInvalidArg else do
    let pdrv := cards.idxOf (some card)
    dropVolume pdrv
    ffDiskioUnregister pdrv
    if pdrvNum = 1 then do
      load Kind.card card
      let _ ← sdmmcHostDeinitSlot intrFree
      free Kind.card (some card)
    else pure ()
    espVfsFatUnregisterPath path

/-- The loop of `s_get_context_id_by_card`, from the `i`-th place on. -/
def scanCards (card : Nat) : List (Option Nat) → Nat → SdProg (Option Nat)
  | [], _ => pure none
  | none :: table, i => scanCards card table (i + 1)
  | some a :: table, i => do
      let ctx ← load Kind.sdCtx a
      if ctx.card = card then pure (some i) else scanCards card table (i + 1)

/-- `esp_vfs_fat_sdcard_unmount`. -/
def espVfsFatSdcardUnmount (path : List Char) (card : Nat) (intrFree : EspErr) :
    SdProg EspErr := do
  match ← scanCards card (← read Statics.sCtx) 0 with
  | none => pure espErrInvalidArg
  | some id => do
      match entry (← read Statics.sCtx) id with
      | none => pure espErrInvalidArg
      | some a => do
          let ctx ← load Kind.sdCtx a
          free Kind.basePath (some ctx.basePath)
          free Kind.sdCtx (some a)
          modify fun g => { g with sCtx := g.sCtx.set id none }
          unmountCardCore path card intrFree

/-! ## The tables -/

@[simp] theorem freeIndex_none {α : Type} (table : List (Option α)) :
    freeIndex (none :: table) = some 0 := by
  simp [freeIndex, List.findIdx?_cons]

@[simp] theorem espErrNoMem_ne_state : espErrNoMem ≠ espErrInvalidState := by decide

@[simp] theorem entry_zero (p : Option Nat) (table : List (Option Nat)) :
    entry (p :: table) 0 = p := rfl

/-- The number of places that are looked at once the `i`-th is taken. -/
def countAfter (i count : Nat) : Nat := if i = count then count + 1 else count

/-- Nothing is registered for a path, and its place in the table will be the
    `i`-th. -/
structure Vacant (path : List Char) (i : Nat) (vfs : List (Option VfsEntry)) (count : Nat) :
    Prop where
  free  : freeIndex vfs = some i
  room  : i + 1 < vfsMaxCount
  count : i ≤ count ∧ count < vfsMaxCount
  other : ∀ e, some e ∈ vfs → e.pathPrefix ≠ some path

/-- No volume is mounted.  `s_cards` keeps the last card that was. -/
structure Clear (path : List Char) (i : Nat) (g : Statics) : Prop
    extends Vacant path i g.sVfs g.sVfsCount where
  sImpls   : g.sImpls = [none, none]
  sCards   : ∃ card, g.sCards = [card, none]
  fatFs    : g.fatFs = [none, none]
  mutexes  : g.mutexes = [none, none]
  sFatCtxs : g.sFatCtxs = [none, none]
  sCtx     : g.sCtx = [none, none]

/-- A path that fits the array of a context. -/
structure PathFits (path : List Char) : Prop where
  valid : isPathPrefixValid path = true
  short : path.length ≤ espVfsPathMax - 2

namespace Vacant

variable {path : List Char} {i count : Nat} {vfs : List (Option VfsEntry)}

theorem lt_length (h : Vacant path i vfs count) : i < vfs.length :=
  (List.findIdx?_eq_some_iff_getElem.mp h.free).1

theorem getElem?_eq (h : Vacant path i vfs count) : vfs[i]? = some none := by
  obtain ⟨hlt, hnone, -⟩ := List.findIdx?_eq_some_iff_getElem.mp h.free
  rw [List.getElem?_eq_getElem hlt]
  simpa using hnone

/-- There is still room when the place has been counted. -/
theorem count_after (h : Vacant path i vfs count) :
    i ≤ countAfter i count ∧ countAfter i count < vfsMaxCount := by
  have hroom := h.room
  have hcount := h.count
  unfold countAfter
  split <;> omega

/-- There is nothing to take out. -/
theorem set_none (h : Vacant path i vfs count) : vfs.set i none = vfs := by
  refine List.ext_getElem? fun j => ?_
  rw [List.getElem?_set]
  split
  · rename_i hij
    subst hij
    rw [if_pos h.lt_length, h.getElem?_eq]
  · rfl

/-- What is registered there is found. -/
theorem found (h : Vacant path i vfs count) (e : VfsEntry) (he : e.pathPrefix = some path) :
    findPrefix path ((vfs.set i (some e)).take (countAfter i count)) = some i := by
  have hlt : i < countAfter i count := by
    have := h.count.1
    unfold countAfter
    split <;> omega
  refine List.findIdx?_eq_some_iff_getElem.mpr ⟨?_, ?_, ?_⟩
  · rw [List.length_take, List.length_set]
    exact Nat.lt_min.mpr ⟨hlt, h.lt_length⟩
  · simp [he]
  · intro j hj
    have hlt' : j < vfs.length := Nat.lt_trans hj h.lt_length
    simp only [List.getElem_take, List.getElem_set, if_neg (Nat.ne_of_gt hj)]
    cases hget : vfs[j] with
    | none => simp
    | some e' => simpa using h.other e' (hget ▸ List.getElem_mem hlt')

end Vacant

/-- The blocks of a registered path. -/
structure PathBlocks where
  fatCtx   : Nat
  flags    : Nat
  lock     : Nat
  vfsEntry : Nat

namespace PathBlocks

variable (b : PathBlocks) (path : List Char) (h : Heap Content)

/-- The context, with the buffer of its volume. -/
def cell (win : Option Nat) : FatCtx := ⟨path, 0, b.flags, some b.lock, win⟩

/-- A registered path over the other blocks. -/
def atop : Heap Content :=
  put (put (put (put h .fatCtx b.fatCtx (some (b.cell path none))) .flags b.flags (some ()))
    .lock b.lock (some ())) .vfsEntry b.vfsEntry (some ())

/-- The blocks are gone. -/
def gone : Heap Content :=
  put (put (put (put h .vfsEntry b.vfsEntry none) .lock b.lock none) .flags b.flags none)
    .fatCtx b.fatCtx none

/-- None of the blocks is in use. -/
structure FreshIn : Prop where
  fatCtx   : h .fatCtx b.fatCtx = none
  flags    : h .flags b.flags = none
  lock     : h .lock b.lock = none
  vfsEntry : h .vfsEntry b.vfsEntry = none

/-- The tables with the path in its place. -/
def register (i : Nat) (g : Statics) : Statics :=
  { g with
    sVfs := g.sVfs.set i (some ⟨b.vfsEntry, some path, b.fatCtx⟩)
    sVfsCount := countAfter i g.sVfsCount
    sFatCtxs := [some b.fatCtx, none] }

end PathBlocks

/-- The allocator's answers for the registration can be given; without a lock
    the program aborts. -/
structure FatReplies.FitsPath (stop : Prop) (r : FatReplies) (h : Heap Content) : Prop where
  fatCtx   : Granted stop h .fatCtx r.fatCtx
  flags    : Granted stop h .flags r.flags
  vfsEntry : Granted stop h .vfsEntry r.vfsEntry
  lock     : Granted stop h .lock r.lock
  locked   : r.lock = none → stop

/-- The same with the volume; without a drive an assertion fails. -/
structure FatReplies.FitsVolume (stop : Prop) (r : FatReplies) (h : Heap Content) : Prop
    extends r.FitsPath stop h where
  impl     : Granted stop h .impl r.impl
  mutex    : Granted stop h .volMutex r.volume.mutex
  win      : Granted stop h .win r.volume.win
  driven   : r.impl = none → stop

/-- The same with the context of the card. -/
structure FatReplies.Fits (stop : Prop) (r : FatReplies) (h : Heap Content) : Prop
    extends r.FitsVolume stop h where
  basePath : Granted stop h .basePath r.basePath
  sdCtx    : Granted stop h .sdCtx r.sdCtx

namespace FatReplies

variable {stop : Prop} {r : FatReplies} {h h' : Heap Content}

theorem FitsPath.of_eq (hfits : r.FitsPath stop h)
    (heq : ∀ k ∈ [Kind.fatCtx, .flags, .vfsEntry, .lock], h' k = h k) :
    r.FitsPath stop h' where
  fatCtx := hfits.fatCtx.of_eq (heq _ (by decide))
  flags := hfits.flags.of_eq (heq _ (by decide))
  vfsEntry := hfits.vfsEntry.of_eq (heq _ (by decide))
  lock := hfits.lock.of_eq (heq _ (by decide))
  locked := hfits.locked

theorem FitsVolume.of_eq (hfits : r.FitsVolume stop h)
    (heq : ∀ k ∈ [Kind.fatCtx, .flags, .vfsEntry, .lock, .impl, .volMutex, .win], h' k = h k) :
    r.FitsVolume stop h' where
  toFitsPath := hfits.toFitsPath.of_eq (by simp at heq ⊢; simp [heq])
  impl := hfits.impl.of_eq (heq _ (by decide))
  mutex := hfits.mutex.of_eq (heq _ (by decide))
  win := hfits.win.of_eq (heq _ (by decide))
  driven := hfits.driven

theorem Fits.of_eq (hfits : r.Fits stop h)
    (heq : ∀ k ∈ [Kind.fatCtx, .flags, .vfsEntry, .lock, .impl, .volMutex, .win, .basePath,
      .sdCtx], h' k = h k) : r.Fits stop h' where
  toFitsVolume := hfits.toFitsVolume.of_eq (by simp at heq ⊢; simp [heq])
  basePath := hfits.basePath.of_eq (heq _ (by decide))
  sdCtx := hfits.sdCtx.of_eq (heq _ (by decide))

end FatReplies

/-- Everything that the registration needs is granted. -/
def FatReplies.Registers (r : FatReplies) : Prop :=
  r.fatCtx.isSome ∧ r.flags.isSome ∧ r.vfsEntry.isSome

/-- How the registration of a path ends. -/
inductive RegisterEnds (path : List Char) (i : Nat) (r : FatReplies) (s : SdMem) :
    EspErr × Option Nat → SdMem → Prop where
  | refused {n : Nat} : ¬ r.Registers →
      n = s.globals.sVfsCount ∨ n = countAfter i s.globals.sVfsCount →
      RegisterEnds path i r s (espErrNoMem, none) ⟨s.heap, { s.globals with sVfsCount := n }⟩
  | registered {b : PathBlocks} {h : Heap Content} : r.Registers → b.FreshIn s.heap →
      h = b.atop path s.heap →
      RegisterEnds path i r s (espOk, some b.fatCtx) ⟨h, b.register path i s.globals⟩

section Registering

variable {stop : Prop} {s : SdMem} {path : List Char} {i : Nat} {r : FatReplies}
  {b : PathBlocks}

theorem PathFits.take (h : PathFits path) : path.take (espVfsPathMax - 2) = path :=
  List.take_of_length_le h.short

/-- `esp_vfs_register_fs` where there is a place. -/
theorem registerFs_ends {ctx : Nat} {answer : Option Nat} (hpath : PathFits path)
    (hvacant : Vacant path i s.globals.sVfs s.globals.sVfsCount)
    (hfits : Granted stop s.heap .vfsEntry answer)
    {Q : EspErr → SdMem → Prop}
    (hnone : answer = none →
      Q espErrNoMem ⟨s.heap,
        { s.globals with sVfsCount := countAfter i s.globals.sVfsCount }⟩)
    (hsome : ∀ a, answer = some a → s.heap .vfsEntry a = none →
      Q espOk ⟨put s.heap .vfsEntry a (some ()),
        { s.globals with
          sVfs := s.globals.sVfs.set i (some ⟨a, some path, ctx⟩)
          sVfsCount := countAfter i s.globals.sVfsCount }⟩) :
    wp stop (espVfsRegisterFs path ctx answer) Q s := by
  simp [espVfsRegisterFs, Nat.not_le.mpr hvacant.count.2, hpath.valid, hvacant.free]
  cases hanswer : answer with
  | none => simpa [countAfter] using hnone hanswer
  | some a =>
      simp
      refine ⟨fun hfree => ?_, hfits _ hanswer⟩
      simpa [countAfter] using hsome a hanswer hfree

/-- **Registering a path** where none is registered. -/
theorem register_ends (hpath : PathFits path)
    (hvacant : Vacant path i s.globals.sVfs s.globals.sVfsCount)
    (hctxs : s.globals.sFatCtxs = [none, none]) (hfits : r.FitsPath stop s.heap) :
    wp stop (espVfsFatRegister path 0 r) (RegisterEnds path i r s) s := by
  cases hctx : r.fatCtx with
  | none =>
      simp [espVfsFatRegister, findContextIndexByPath, scanContexts, hctxs, hctx]
      exact .refused (by simp [FatReplies.Registers, hctx]) (.inl rfl)
  | some fatCtx =>
  simp [espVfsFatRegister, findContextIndexByPath, scanContexts, hctxs, hctx, hpath.take]
  refine ⟨fun hfreeCtx => ?_, hfits.fatCtx _ hctx⟩
  cases hflags : r.flags with
  | none =>
      simp [put_self hfreeCtx]
      exact .refused (by simp [FatReplies.Registers, hflags]) (.inl rfl)
  | some flags =>
  simp
  refine ⟨fun hfreeFlags => ?_, hfits.flags _ hflags⟩
  refine registerFs_ends hpath (i := i) ?_ ?_ ?_ ?_
  · exact hvacant
  · simpa [Granted] using hfits.vfsEntry
  · intro hentry
    have hheap : put (put (put (put (put s.heap .fatCtx fatCtx
        (some ⟨[], 0, 0, none, none⟩)) .flags flags (some ()))
        .fatCtx fatCtx (some ⟨path, 0, flags, none, none⟩)) .flags flags none)
        .fatCtx fatCtx none = s.heap := by
      funext k
      cases k <;> simp [put_pool, hfreeCtx, hfreeFlags]
    simp [hheap]
    exact .refused (by simp [FatReplies.Registers, hentry]) (.inr rfl)
  · intro entry hentry hfreeEntry
    cases hlock : r.lock with
    | none => simpa using hfits.locked hlock
    | some lock =>
        simp [hctxs]
        refine ⟨fun hfreeLock => ?_, fun hused => hfits.lock _ hlock (by simpa using hused)⟩
        refine .registered (b := ⟨fatCtx, flags, lock, entry⟩)
          (by simp [FatReplies.Registers, *])
          ⟨hfreeCtx, hfreeFlags, hfreeLock, by simpa using hfreeEntry⟩ ?_
        funext k
        cases k <;> simp [put_pool, PathBlocks.atop, PathBlocks.cell]

end Registering

/-- A path is registered in the `i`-th place, and its blocks are in use. -/
structure PathUp (path : List Char) (i : Nat) (b : PathBlocks) (s : SdMem) : Prop where
  sFatCtxs : s.globals.sFatCtxs = [some b.fatCtx, none]
  cell     : ∃ win, s.heap .fatCtx b.fatCtx = some (b.cell path win)
  flags    : s.heap .flags b.flags = some ()
  lock     : s.heap .lock b.lock = some ()
  vfsEntry : s.heap .vfsEntry b.vfsEntry = some ()
  found    : findPrefix path (s.globals.sVfs.take s.globals.sVfsCount) = some i
  place    : s.globals.sVfs[i]? = some (some ⟨b.vfsEntry, some path, b.fatCtx⟩)

section Unregistering

variable {stop : Prop} {s : SdMem} {path : List Char} {i : Nat} {b : PathBlocks}
  {h : Heap Content} {g : Statics}

theorem path_gone_atop (hfresh : b.FreshIn h) : b.gone (b.atop path h) = h := by
  obtain ⟨hctx, hflags, hlock, hentry⟩ := hfresh
  funext k
  cases k <;> simp [PathBlocks.gone, PathBlocks.atop, put_pool, *]

/-- The path is registered wherever the tables are `register`'s and the blocks
    are in use. -/
theorem pathUp_register (hvacant : Vacant path i g.sVfs g.sVfsCount) {g' : Statics}
    (hctxs : g'.sFatCtxs = (b.register path i g).sFatCtxs)
    (hvfs : g'.sVfs = (b.register path i g).sVfs)
    (hcount : g'.sVfsCount = (b.register path i g).sVfsCount)
    (hcell : ∃ win, h .fatCtx b.fatCtx = some (b.cell path win))
    (hflags : h .flags b.flags = some ()) (hlock : h .lock b.lock = some ())
    (hentry : h .vfsEntry b.vfsEntry = some ()) : PathUp path i b ⟨h, g'⟩ where
  sFatCtxs := hctxs
  cell := hcell
  flags := hflags
  lock := hlock
  vfsEntry := hentry
  found := by
    simp only [hvfs, hcount, PathBlocks.register]
    exact hvacant.found _ rfl
  place := by
    simp only [hvfs, PathBlocks.register]
    rw [List.getElem?_set_self hvacant.lt_length]

/-- **Taking a path out of the tables.** -/
theorem unregister_ends (hup : PathUp path i b s) :
    wp stop (espVfsFatUnregisterPath path) (fun err s' => err = espOk ∧
      s' = ⟨b.gone s.heap, { s.globals with
        sVfs := s.globals.sVfs.set i none, sFatCtxs := [none, none] }⟩) s := by
  obtain ⟨win, hcell⟩ := hup.cell
  simp [espVfsFatUnregisterPath, findContextIndexByPath, hup.sFatCtxs, scanContexts, hcell,
    PathBlocks.cell, espVfsUnregister, hup.found, hup.place]
  simp [hup.vfsEntry, hup.lock, hup.flags, PathBlocks.gone]

end Unregistering

/-! ## The volume -/

/-- The volume can be mounted: it is granted its mutex and its buffer, the card
    answers, and there is a FAT on it. -/
def VolumeReplies.Mounts (v : VolumeReplies) : Prop :=
  v.mutex.isSome ∧ v.locked = true ∧ v.ready = true ∧ v.sectorOk = true ∧ v.win.isSome ∧
    v.result = .ok

/-- A volume over the other blocks: its mutex, and its buffer if it has one. -/
def volumeOver (fs : Nat) (ctx : FatCtx) (mutex : Nat) (win : Option Nat)
    (h : Heap Content) : Heap Content :=
  let h' := put h .volMutex mutex (some ())
  match win with
  | none => h'
  | some w => put (put h' .win w (some ())) .fatCtx fs (some { ctx with win := win })

/-- The tables with the volume in them. -/
def withVolume (fs mutex : Nat) (g : Statics) : Statics :=
  { g with fatFs := [some fs, none], mutexes := [some mutex, none] }

/-- How the mount of a volume ends. -/
inductive VolumeEnds (fs : Nat) (ctx : FatCtx) (v : VolumeReplies) (s : SdMem) :
    EspErr → SdMem → Prop where
  | untouched : ¬ v.Mounts → VolumeEnds fs ctx v s espFail s
  | failed {m : Nat} {b : Option Nat} {h : Heap Content} : ¬ v.Mounts →
      s.heap .volMutex m = none → (∀ w, b = some w → s.heap .win w = none) →
      h = volumeOver fs ctx m b s.heap →
      VolumeEnds fs ctx v s espFail ⟨h, withVolume fs m s.globals⟩
  | mounted {m w : Nat} {h : Heap Content} : v.Mounts → s.heap .volMutex m = none →
      s.heap .win w = none → h = volumeOver fs ctx m (some w) s.heap →
      VolumeEnds fs ctx v s espOk ⟨h, withVolume fs m s.globals⟩

section Volume

variable {stop : Prop} {s : SdMem} {fs card impl : Nat} {c : FatCtx} {v : VolumeReplies}

theorem VolumeEnds.not_mounts {err : EspErr} {s' : SdMem} (h : VolumeEnds fs c v s err s')
    (herr : err ≠ espOk) : ¬ v.Mounts := by
  cases h with
  | untouched hno => exact hno
  | failed hno => exact hno
  | mounted => exact absurd rfl herr

/-- **Mounting a volume** on a drive that is there. -/
theorem volume_ends (hfatFs : s.globals.fatFs = [none, none])
    (hmutexes : s.globals.mutexes = [none, none])
    (himpls : s.globals.sImpls = [some impl, none])
    (hcards : s.globals.sCards = [some card, none])
    (himpl : s.heap .impl impl = some ()) (hcard : s.heap .card card = some ())
    (hfs : s.heap .fatCtx fs = some c) (hwin : c.win = none)
    (hmutex : Granted stop s.heap .volMutex v.mutex) (hbuf : Granted stop s.heap .win v.win) :
    wp stop (sFMount (some fs) 0 v) (VolumeEnds fs c v s) s := by
  obtain ⟨h, g⟩ := s
  cases g
  subst hfatFs hmutexes himpls hcards
  cases hm : v.mutex with
  | none =>
      simp [sFMount, fMount, dropVolume, hm]
      exact .untouched (by simp [VolumeReplies.Mounts, hm])
  | some m =>
  simp only at himpl hcard hfs
  simp [sFMount, fMount, dropVolume, hm, mountVolume, useDrive, himpl, hcard, hfs, hwin]
  refine ⟨fun hfree => ?_, hmutex _ hm⟩
  cases hlocked : v.locked with
  | false =>
      simp
      exact .failed (b := none) (by simp [VolumeReplies.Mounts, hlocked]) hfree (by simp) rfl
  | true =>
  cases hready : v.ready with
  | false =>
      simp
      exact .failed (b := none) (by simp [VolumeReplies.Mounts, hready]) hfree (by simp) rfl
  | true =>
  cases hsector : v.sectorOk with
  | false =>
      simp
      exact .failed (b := none) (by simp [VolumeReplies.Mounts, hsector]) hfree (by simp) rfl
  | true =>
  simp
  cases hw : v.win with
  | none =>
      simp [hfs]
      refine .failed (b := none) (by simp [VolumeReplies.Mounts, hw]) hfree (by simp) ?_
      rw [put_self]
      · rfl
      · simp [hfs, ← hwin]
  | some w =>
      simp [hfs]
      refine ⟨fun hfreeWin => ?_, fun hused => hbuf _ hw (by simpa using hused)⟩
      split
      · rename_i hres
        refine .mounted ⟨by simp [hm], hlocked, hready, hsector, by simp [hw], hres⟩ hfree
          hfreeWin rfl
      · rename_i hres
        refine .failed (b := some w) (fun hv => hres hv.2.2.2.2.2) hfree ?_ rfl
        intro w' hw'
        cases hw'
        exact hfreeWin

section Over

variable {h : Heap Content} {m : Nat} {win : Option Nat}

theorem volumeOver_mutex : volumeOver fs c m win h .volMutex m = some () := by
  cases win <;> simp [volumeOver]

theorem volumeOver_win {w : Nat} (hw : win = some w) :
    volumeOver fs c m win h .win w = some () := by
  simp [volumeOver, hw]

theorem volumeOver_cell (hfs : h .fatCtx fs = some c) (hwin : c.win = none) :
    volumeOver fs c m win h .fatCtx fs = some { c with win := win } := by
  cases win with
  | none => simp [volumeOver, hfs, ← hwin]
  | some w => simp [volumeOver]

end Over

/-- What is left of a volume that is taken away. -/
def volumeGone (fs : Nat) (c : FatCtx) (mutex : Nat) (h : Heap Content) : Heap Content :=
  let h' := put h .volMutex mutex none
  match c.win with
  | none => h'
  | some w => put (put h' .win w none) .fatCtx fs (some { c with win := none })

/-- A volume that is taken away from a heap without its blocks leaves the heap. -/
theorem volumeGone_atop {h : Heap Content} {m : Nat} {win : Option Nat}
    (hfree : h .volMutex m = none) (hfreeWin : ∀ w, win = some w → h .win w = none)
    (hfs : h .fatCtx fs = some c) (hwin : c.win = none) :
    volumeGone fs { c with win := win } m (volumeOver fs c m win h) = h := by
  have hctx : { c with win := none } = c := by rw [← hwin]
  cases win with
  | none => simp [volumeGone, volumeOver, put_self hfree]
  | some w =>
      have hfreeWin := hfreeWin w rfl
      simp only [volumeGone, volumeOver, hctx]
      funext k
      cases k <;> simp [put_pool, *]

/-- The part of `f_mount` that takes a volume away. -/
theorem drop_ends {m : Nat} (hfatFs : s.globals.fatFs = [some fs, none])
    (hmutexes : s.globals.mutexes = [some m, none]) (hm : s.heap .volMutex m = some ())
    (hfs : s.heap .fatCtx fs = some c)
    (hbuf : ∀ w, c.win = some w → s.heap .win w = some ()) :
    wp stop (dropVolume 0) (fun _ s' => s' = ⟨volumeGone fs c m s.heap,
      { s.globals with fatFs := [none, none], mutexes := [none, none] }⟩) s := by
  simp [dropVolume, hfatFs, hmutexes, hm, hfs]
  cases hwin : c.win with
  | none =>
      have hctx : { c with win := none } = c := by rw [← hwin]
      have hsame : put (put s.heap .volMutex m none) .fatCtx fs (some c) =
          put s.heap .volMutex m none := put_self (by simp [hfs])
      simp [hctx, hsame, hfs, volumeGone, hwin]
  | some w =>
      simp [hbuf w hwin, hfs, volumeGone, hwin]

/-- A mount that fails is taken away again. -/
theorem drop_failed {err : EspErr} {s' : SdMem} (hends : VolumeEnds fs c v s err s')
    (herr : err ≠ espOk) (hfatFs : s.globals.fatFs = [none, none])
    (hmutexes : s.globals.mutexes = [none, none]) (hfs : s.heap .fatCtx fs = some c)
    (hwin : c.win = none) : wp stop (dropVolume 0) (fun _ s'' => s'' = s) s' := by
  cases hends with
  | untouched hno => simp [dropVolume, hfatFs]
  | mounted => exact absurd rfl herr
  | @failed m win h hno hfree hfreeWin hh =>
      obtain ⟨heap, g⟩ := s
      cases g
      subst hfatFs hmutexes hh
      refine wp_mono (drop_ends (c := { c with win := win }) rfl rfl volumeOver_mutex
        (volumeOver_cell hfs hwin) fun w hw => volumeOver_win hw) ?_
      rintro _ _ rfl
      simp [volumeGone_atop hfree hfreeWin hfs hwin, withVolume]

end Volume

/-! ## The mount of an initialised card -/

/-- The path is registered and the volume mounted. -/
def FatReplies.Volume (r : FatReplies) : Prop := r.Registers ∧ r.volume.Mounts

/-- Everything works but, maybe, the last thing: the context of the card. -/
def FatReplies.Mounts (r : FatReplies) : Prop := r.basePath.isSome ∧ r.Volume

/-- The blocks of a volume on a registered path. -/
structure VolumeBlocks extends PathBlocks where
  impl     : Nat
  volMutex : Nat
  win      : Nat

namespace VolumeBlocks

variable (b : VolumeBlocks) (path : List Char) (h : Heap Content)

/-- A mounted volume over the other blocks. -/
def atop : Heap Content :=
  volumeOver b.fatCtx (b.cell path none) b.volMutex (some b.win)
    (b.toPathBlocks.atop path (put h .impl b.impl (some ())))

/-- The blocks are gone. -/
def gone : Heap Content :=
  put (put (put (b.toPathBlocks.gone h) .win b.win none) .volMutex b.volMutex none)
    .impl b.impl none

/-- None of the blocks is in use. -/
structure FreshIn : Prop extends b.toPathBlocks.FreshIn h where
  impl     : h .impl b.impl = none
  volMutex : h .volMutex b.volMutex = none
  win      : h .win b.win = none

/-- The tables with the volume of a card in them. -/
def mount (i card : Nat) (g : Statics) : Statics :=
  withVolume b.fatCtx b.volMutex (b.register path i
    { g with sImpls := [some b.impl, none], sCards := [some card, none] })

end VolumeBlocks

/-- How the mount of an initialised card ends, before its context is kept. -/
inductive InternalEnds (path : List Char) (i card : Nat) (r : FatReplies) (s : SdMem) :
    EspErr × Option Nat → SdMem → Prop where
  | refused {err : EspErr} {fs : Option Nat} {n : Nat} : ¬ r.Volume → err ≠ espOk →
      n = s.globals.sVfsCount ∨ n = countAfter i s.globals.sVfsCount →
      InternalEnds path i card r s (err, fs)
        ⟨s.heap, { s.globals with sCards := [some card, none], sVfsCount := n }⟩
  | mounted {b : VolumeBlocks} : r.Volume → b.FreshIn s.heap →
      InternalEnds path i card r s (espOk, some b.fatCtx)
        ⟨b.atop path s.heap, b.mount path i card s.globals⟩

/-- The blocks of a mounted card beside those of its volume. -/
structure MountBlocks extends VolumeBlocks where
  basePath : Nat
  sdCtx    : Nat

namespace MountBlocks

variable (b : MountBlocks) (path : List Char) (card : Nat) (h : Heap Content)

/-- The context of the card. -/
def cardCtx : SdCtx := ⟨0, some b.fatCtx, card, b.basePath⟩

/-- A mounted card over the other blocks. -/
def atop : Heap Content :=
  put (put (b.toVolumeBlocks.atop path h) .basePath b.basePath (some ())) .sdCtx b.sdCtx
    (some (b.cardCtx card))

/-- None of the blocks is in use. -/
structure FreshIn : Prop where
  volume   : b.toVolumeBlocks.FreshIn h
  basePath : h .basePath b.basePath = none
  sdCtx    : h .sdCtx b.sdCtx = none

/-- The tables with the card in them. -/
def keep (i : Nat) (g : Statics) : Statics :=
  { b.mount path i card g with sCtx := [some b.sdCtx, none] }

end MountBlocks

/-- How the mount of an initialised card ends. -/
inductive InitializedEnds (path : List Char) (i card : Nat) (r : FatReplies) (s : SdMem) :
    EspErr → SdMem → Prop where
  | refused {err : EspErr} {n : Nat} {c : Option Nat} : ¬ r.Mounts → err ≠ espOk →
      n = s.globals.sVfsCount ∨ n = countAfter i s.globals.sVfsCount →
      InitializedEnds path i card r s err
        ⟨s.heap, { s.globals with sCards := [c, none], sVfsCount := n }⟩
  | unsaved {b : VolumeBlocks} : r.Mounts → r.sdCtx = none → b.FreshIn s.heap →
      InitializedEnds path i card r s espErrNoMem
        ⟨b.atop path s.heap, b.mount path i card s.globals⟩
  | mounted {b : MountBlocks} {h : Heap Content} : r.Mounts → r.sdCtx.isSome →
      b.FreshIn s.heap → h = b.atop path card s.heap →
      InitializedEnds path i card r s espOk ⟨h, b.keep path card i s.globals⟩

section Mounting

variable {stop : Prop} {s : SdMem} {path : List Char} {i card : Nat} {r : FatReplies}

theorem internal_ends (hpath : PathFits path) (hclear : Clear path i s.globals)
    (hcard : s.heap .card card = some ()) (hfits : r.FitsVolume stop s.heap) :
    wp stop (espVfsFatMountInternal card 0 path r) (InternalEnds path i card r s) s := by
  obtain ⟨h, g⟩ := s
  cases g
  obtain ⟨hvacant, himpls, ⟨c, hcards⟩, hfatFs, hmutexes, hctxs, hctx⟩ := hclear
  subst himpls hcards hfatFs hmutexes hctxs hctx
  dsimp only at hcard hfits hvacant
  cases himpl : r.impl with
  | none =>
      simpa [espVfsFatMountInternal, ffDiskioRegisterSdmmc, ffDiskioUnregister, himpl] using
        hfits.driven himpl
  | some impl =>
  simp [espVfsFatMountInternal, ffDiskioRegisterSdmmc, ffDiskioUnregister, himpl]
  refine ⟨fun hfree => ?_, hfits.impl _ himpl⟩
  have hfits' : r.FitsPath stop (put h .impl impl (some ())) :=
    hfits.toFitsPath.of_eq (by simp)
  refine wp_mono (register_ends (i := i) hpath hvacant rfl hfits') ?_
  rintro _ _ (⟨hno, hn⟩ | @⟨b, _, hreg, hfresh, rfl⟩)
  · simp [espVfsFatUnregisterPath, findContextIndexByPath, scanContexts, put_self hfree]
    exact .refused (fun hv => hno hv.1) espErrNoMem_ne hn
  · have hcell : b.atop path (put h .impl impl (some ())) .fatCtx b.fatCtx =
        some (b.cell path none) := by
      simp [PathBlocks.atop]
    simp
    refine wp_mono (volume_ends (c := b.cell path none)
      rfl rfl rfl rfl ?_ ?_ hcell rfl ?_ ?_) ?_
    · simp [PathBlocks.atop]
    · simp [PathBlocks.atop, hcard]
    · simpa [Granted, PathBlocks.atop] using hfits.mutex
    · simpa [Granted, PathBlocks.atop] using hfits.win
    intro err s' hends
    by_cases herr : err = espOk
    · rw [if_pos herr]
      rcases hends with hno | ⟨hno, -⟩ | @⟨m, w, _, hvol, hm, hw, rfl⟩
      · exact absurd herr espFail_ne
      · exact absurd herr espFail_ne
      · refine .mounted (b := ⟨b, impl, m, w⟩) ⟨hreg, hvol⟩ ⟨?_, hfree, ?_, ?_⟩
        · exact ⟨by simpa using hfresh.fatCtx, by simpa using hfresh.flags,
            by simpa using hfresh.lock, by simpa using hfresh.vfsEntry⟩
        · simpa [PathBlocks.atop] using hm
        · simpa [PathBlocks.atop] using hw
    · rw [if_neg herr]
      refine wp_mono (drop_failed hends herr rfl rfl hcell rfl) ?_
      rintro _ _ rfl
      refine wp_mono (unregister_ends (i := i) (b := b) ?_) ?_
      · exact pathUp_register hvacant rfl rfl rfl ⟨none, hcell⟩ (by simp [PathBlocks.atop])
          (by simp [PathBlocks.atop]) (by simp [PathBlocks.atop])
      rintro _ _ ⟨-, rfl⟩
      simp [path_gone_atop hfresh, PathBlocks.register, put_self hfree]
      rw [hvacant.set_none]
      exact .refused (fun hv => hends.not_mounts herr hv.2) herr (.inr rfl)

/-- **Mounting an initialised card** where no volume is mounted. -/
theorem initialized_ends (hpath : PathFits path) (hclear : Clear path i s.globals)
    (hcard : s.heap .card card = some ()) (hfits : r.Fits stop s.heap) :
    wp stop (espVfsFatMountInitialized card path r) (InitializedEnds path i card r s) s := by
  cases hbase : r.basePath with
  | none =>
      obtain ⟨c, hcards⟩ := hclear.sCards
      simp [espVfsFatMountInitialized, hclear.sImpls, hbase]
      have hsame : (⟨s.heap, { s.globals with
          sCards := [c, none], sVfsCount := s.globals.sVfsCount }⟩ : SdMem) = s := by
        rw [← hcards]
      rw [← hsame]
      exact .refused (by simp [FatReplies.Mounts, hbase]) espErrNoMem_ne (.inl rfl)
  | some base =>
  simp [espVfsFatMountInitialized, hclear.sImpls, hbase]
  refine ⟨fun hfree => ?_, hfits.basePath _ hbase⟩
  have hfits' : r.FitsVolume stop (put s.heap .basePath base (some ())) :=
    hfits.toFitsVolume.of_eq (by simp)
  refine wp_mono (internal_ends (i := i) hpath hclear (by simpa using hcard) hfits') ?_
  rintro _ _ (⟨hno, herr, hn⟩ | @⟨b, hvol, hfresh⟩)
  · simp [herr, put_self hfree]
    exact .refused (fun h => hno h.2) herr hn
  · have hmounts : r.Mounts := ⟨by simp [hbase], hvol⟩
    have hfresh' : b.FreshIn s.heap :=
      ⟨⟨hfresh.fatCtx, hfresh.flags, hfresh.lock, hfresh.vfsEntry⟩, hfresh.impl,
        hfresh.volMutex, hfresh.win⟩
    cases hctx : r.sdCtx with
    | none =>
        have hheap : put (b.atop path (put s.heap .basePath base (some ()))) .basePath base none =
            b.atop path s.heap := by
          funext k
          cases k <;> simp [VolumeBlocks.atop, volumeOver, PathBlocks.atop, put_pool, hfree]
        simp [espVfsFatSaveCtx, hheap]
        refine ⟨by simp [VolumeBlocks.atop, volumeOver, PathBlocks.atop], ?_⟩
        exact .unsaved hmounts hctx hfresh'
    | some ctx =>
        simp [espVfsFatSaveCtx]
        refine ⟨fun hfreeCtx => ?_, fun hused => hfits.sdCtx _ hctx ?_⟩
        · have hctxs : (b.mount path i card s.globals).sCtx = [none, none] := hclear.sCtx
          simp [hctxs]
          refine .mounted (b := ⟨b, base, ctx⟩) hmounts (by simp [hctx]) ⟨hfresh', hfree, ?_⟩ ?_
          · simpa [VolumeBlocks.atop, volumeOver, PathBlocks.atop] using hfreeCtx
          · funext k
            cases k <;> simp [MountBlocks.atop, MountBlocks.cardCtx, VolumeBlocks.atop,
              volumeOver, PathBlocks.atop, put_pool]
        · simpa [VolumeBlocks.atop, volumeOver, PathBlocks.atop] using hused

end Mounting

/-! ## The card -/

/-- The blocks of a mounted card. -/
structure CardBlocks where
  card : Nat
  host : HostBlocks
  fat  : MountBlocks

namespace CardBlocks

variable (b : CardBlocks) (path : List Char) (h : Heap Content)

/-- A mounted card over the other blocks. -/
def atop : Heap Content :=
  b.fat.atop path b.card (b.host.atop (put h .card b.card (some ())))

/-- None of the blocks is in use. -/
structure FreshIn : Prop where
  card : h .card b.card = none
  host : b.host.FreshIn h
  fat  : b.fat.FreshIn h

/-- The tables with the card in them. -/
def keep (i : Nat) (g : Statics) : Statics :=
  b.fat.keep path b.card i (g.host (some b.host.ctlr) (some b.host.ctlr) (some b.host.slot))

end CardBlocks

/-- The mount succeeds, but for the context of the card. -/
def MountReplies.Reaches (m : MountReplies) : Prop :=
  m.card.isSome ∧ m.host.FindsCard ∧ m.fat.Mounts

/-- The mount succeeds. -/
def MountReplies.Mounts (m : MountReplies) : Prop := m.Reaches ∧ m.fat.sdCtx.isSome

/-- The mount fails at the very end: there is no memory for the context of the
    card. -/
def MountReplies.Unsaved (m : MountReplies) : Prop := m.Reaches ∧ m.fat.sdCtx = none

/-- The mount leaves the controller claimed. -/
def MountReplies.Wedges (m : MountReplies) : Prop := m.card.isSome ∧ m.host.Wedges

/-- The mount fails and leaves blocks behind, with the controller free: the host
    does, or `esp_intr_free` fails when it is taken down. -/
def MountReplies.Leaks (m : MountReplies) : Prop :=
  m.card.isSome ∧ (m.host.Leaks ∨
    m.host.FindsCard ∧ ¬ m.fat.Mounts ∧ m.host.intrFree ≠ espOk)

instance (v : VolumeReplies) : Decidable v.Mounts := inferInstanceAs (Decidable (_ ∧ _))

instance (r : FatReplies) : Decidable r.Registers := inferInstanceAs (Decidable (_ ∧ _))

instance (r : FatReplies) : Decidable r.Volume := inferInstanceAs (Decidable (_ ∧ _))

instance (r : FatReplies) : Decidable r.Mounts := inferInstanceAs (Decidable (_ ∧ _))

instance (m : MountReplies) : Decidable m.Reaches := inferInstanceAs (Decidable (_ ∧ _))

instance (m : MountReplies) : Decidable m.Mounts := inferInstanceAs (Decidable (_ ∧ _))

instance (m : MountReplies) : Decidable m.Unsaved := inferInstanceAs (Decidable (_ ∧ _))

instance (m : MountReplies) : Decidable m.Wedges := inferInstanceAs (Decidable (_ ∧ _))

instance (m : MountReplies) : Decidable m.Leaks := inferInstanceAs (Decidable (_ ∧ _))

theorem MountReplies.Mounts.not_wedges {m : MountReplies} (h : m.Mounts) : ¬ m.Wedges :=
  fun hwedges => h.1.2.1.not_wedges hwedges.2

theorem MountReplies.Mounts.not_unsaved {m : MountReplies} (h : m.Mounts) : ¬ m.Unsaved := by
  intro hunsaved
  have hsome := h.2
  rw [hunsaved.2] at hsome
  cases hsome

theorem MountReplies.Mounts.not_leaks {m : MountReplies} (h : m.Mounts) : ¬ m.Leaks := by
  rintro ⟨-, hleaks | ⟨-, hno, -⟩⟩
  · exact h.1.2.1.not_leaks hleaks
  · exact hno h.1.2.2

/-- The allocator's answers can be given. -/
structure MountReplies.Fits (stop : Prop) (m : MountReplies) (h : Heap Content) : Prop where
  card : Granted stop h .card m.card
  host : m.host.Fits stop h
  fat  : m.fat.Fits stop h

/-- No volume is mounted and no slot is there; the variables of the firmware are
    as before. -/
structure Rests (path : List Char) (i : Nat) (g₀ g : Statics) : Prop
    extends Clear path i g where
  sSlot1        : g.sSlot1 = none
  sdCard        : g.sdCard = g₀.sdCard
  sdCardMounted : g.sdCardMounted = g₀.sdCardMounted

/-- How `esp_vfs_fat_sdmmc_mount` ends on a host that is free. -/
inductive MountEnds (path : List Char) (i : Nat) (m : MountReplies) (s : SdMem) :
    EspErr × Option Nat → SdMem → Prop where
  | refused {err : EspErr} {s' : SdMem} : ¬ m.Reaches → ¬ m.Wedges → err ≠ espOk →
      Rests path i s.globals s'.globals → s'.globals.controller = none →
      (s'.heap = s.heap ↔ ¬ m.Leaks) → MountEnds path i m s (err, none) s'
  | wedged {err : EspErr} {s' : SdMem} : m.Wedges → err ≠ espOk →
      Rests path i s.globals s'.globals → s'.globals.controller.isSome →
      s'.heap ≠ s.heap → MountEnds path i m s (err, none) s'
  | unsaved {err : EspErr} {s' : SdMem} : m.Unsaved → err ≠ espOk →
      (∃ impl, s'.globals.sImpls = [some impl, none]) →
      s'.globals.sdCardMounted = s.globals.sdCardMounted →
      s'.heap ≠ s.heap → MountEnds path i m s (err, none) s'
  | mounted {b : CardBlocks} {s' : SdMem} : m.Mounts → b.FreshIn s.heap →
      s' = ⟨b.atop path s.heap, b.keep path i s.globals⟩ →
      MountEnds path i m s (espOk, some b.card) s'

section Card

variable {stop : Prop} {s : SdMem} {path : List Char} {i : Nat} {m : MountReplies}

theorem Clear.rests_host {g : Statics} {w c : Option Nat} (h : Clear path i g) :
    Rests path i g (g.host w c none) :=
  ⟨⟨⟨h.free, h.room, h.count, h.other⟩, h.sImpls, h.sCards, h.fatFs, h.mutexes, h.sFatCtxs,
    h.sCtx⟩, rfl, rfl, rfl⟩

/-- What the mount leaves in the tables when it fails. -/
theorem Clear.rests {g : Statics} {w c card : Option Nat} {n : Nat} (h : Clear path i g)
    (hn : n = g.sVfsCount ∨ n = countAfter i g.sVfsCount) :
    Rests path i g { g.host w c none with sCards := [card, none], sVfsCount := n } := by
  have hcount : i ≤ n ∧ n < vfsMaxCount := by
    rcases hn with rfl | rfl
    · exact h.count
    · exact h.count_after
  exact ⟨⟨⟨h.free, h.room, hcount, h.other⟩, h.sImpls, ⟨card, rfl⟩, h.fatFs, h.mutexes,
    h.sFatCtxs, h.sCtx⟩, rfl, rfl, rfl⟩

/-- **`esp_vfs_fat_sdmmc_mount`** on a host that is free. -/
theorem mount_ends (hpath : PathFits path) (hclear : Clear path i s.globals)
    (hoff : s.globals.controller = none) (hslot : s.globals.sSlot1 = none)
    (hfits : m.Fits stop s.heap) :
    wp stop (espVfsFatSdmmcMount path m) (MountEnds path i m s) s := by
  obtain ⟨c, hcards⟩ := hclear.sCards
  cases hcard : m.card with
  | none =>
      simp [espVfsFatSdmmcMount, hcard]
      refine .refused ?_ ?_ espErrNoMem_ne ⟨hclear, hslot, rfl, rfl⟩ hoff (iff_of_true rfl ?_)
      · simp [MountReplies.Reaches, hcard]
      · simp [MountReplies.Wedges, hcard]
      · simp [MountReplies.Leaks, hcard]
  | some card =>
  simp [espVfsFatSdmmcMount, hcard]
  refine ⟨fun hfree => ?_, hfits.card _ hcard⟩
  refine wp_mono (init_ends (s := ⟨put s.heap .card card (some ()), s.globals⟩) hoff hslot
    (by simp) (hfits.host.of_eq (by simp [hostKinds]))) ?_
  rintro _ _ (⟨hwedges, hfinds, hheap, hkeeps, herr⟩ | ⟨hwedges, hheap, hkeeps, herr⟩ |
    @⟨o, _, hfinds, hfresh, rfl⟩)
  · simp [herr, hkeeps]
    refine .refused ?_ ?_ herr ?_ rfl ?_
    · exact fun h => hfinds h.2.1
    · exact fun h => hwedges h.2
    · exact hclear.rests_host
    · rw [put_none_iff (c := ()) hfree (by simp [hkeeps]), hheap]
      simp [MountReplies.Leaks, hcard, hfinds]
  · simp [herr, hkeeps]
    refine .wedged ⟨by simp [hcard], hwedges⟩ herr hclear.rests_host rfl ?_
    exact fun h => hheap ((put_none_iff (c := ()) hfree (by simp [hkeeps])).mp h)
  · have hclear' := (hclear.rests_host (w := some o.ctlr) (c := some o.ctlr)).toClear
    simp
    refine wp_mono (initialized_ends (i := i) hpath ?_ ?_ ?_) ?_
    · exact ⟨hclear.toVacant, hclear.sImpls, hclear.sCards, hclear.fatFs, hclear.mutexes,
        hclear.sFatCtxs, hclear.sCtx⟩
    · simp [HostBlocks.atop, CtlrBlocks.atop]
    · exact hfits.fat.of_eq (by simp [HostBlocks.atop, CtlrBlocks.atop])
    rintro _ _ (⟨hno, herr, hn⟩ | @⟨b, hmounts, hnone, hfreshFat⟩ | ⟨hmounts, hctx, hfreshFat, rfl⟩)
    · simp [herr]
      refine wp_mono (deinit_ends (o := o) ?_) ?_
      · exact (hostUp_atop s.globals).of_eq (fun _ _ => rfl) rfl rfl rfl
      rintro _ _ rfl
      have hused : o.after m.host.intrFree (o.atop (put s.heap .card card (some ()))) .card card =
          some () := by
        rw [after_kind (by decide)]
        simp [HostBlocks.atop, CtlrBlocks.atop]
      refine ⟨by simp [hused], .refused ?_ ?_ herr ?_ rfl ?_⟩
      · exact fun h => hno h.2.2
      · exact fun h => hfinds.not_wedges h.2
      · exact hclear.rests hn
      · rw [put_none_iff hfree hused, after_atop hfresh]
        simp [MountReplies.Leaks, hcard, hfinds, hno, hfinds.not_leaks]
    · simp
      refine wp_mono (deinit_ends (o := o) ?_) ?_
      · refine (hostUp_atop (h := put s.heap .card card (some ())) s.globals).of_eq ?_
          rfl rfl rfl
        simp [hostKinds, VolumeBlocks.atop, volumeOver, PathBlocks.atop]
      rintro _ _ rfl
      refine ⟨?_, .unsaved ⟨⟨by simp [hcard], hfinds, hmounts⟩, hnone⟩ espErrNoMem_ne
        ⟨b.impl, rfl⟩ rfl (ne_of_block (k := .impl) (a := b.impl) ?_ ?_)⟩
      · dsimp only
        rw [after_kind (by decide)]
        simp [VolumeBlocks.atop, volumeOver, PathBlocks.atop, HostBlocks.atop, CtlrBlocks.atop]
      · simpa [HostBlocks.atop, CtlrBlocks.atop] using hfreshFat.impl
      · dsimp only
        rw [put_kind (by decide), after_kind (by decide)]
        simp [VolumeBlocks.atop, volumeOver, PathBlocks.atop]
    · simp
      refine .mounted (b := ⟨card, o, _⟩) ⟨⟨by simp [hcard], hfinds, hmounts⟩, hctx⟩
        ⟨hfree, ?_, ?_⟩ rfl
      · obtain ⟨⟨h₁, h₂, h₃, h₄, h₅, h₆⟩, h₇⟩ := hfresh
        exact ⟨⟨h₁, h₂, h₃, h₄, h₅, h₆⟩, h₇⟩
      · obtain ⟨⟨⟨h₁, h₂, h₃, h₄⟩, h₅, h₆, h₇⟩, h₈, h₉⟩ := hfreshFat
        exact ⟨⟨⟨h₁, h₂, h₃, h₄⟩, h₅, h₆, h₇⟩, h₈, h₉⟩

/-- A mount finds the controller claimed, and nothing changes. -/
theorem mount_wedged (hclaimed : s.globals.controller.isSome) (hfits : m.Fits stop s.heap) :
    wp stop (espVfsFatSdmmcMount path m)
      (fun r s' => r.1 ≠ espOk ∧ r.2 = none ∧ s' = s) s := by
  cases hcard : m.card with
  | none => simp [espVfsFatSdmmcMount, hcard]
  | some card =>
      simp [espVfsFatSdmmcMount, hcard]
      refine ⟨fun hfree => ?_, hfits.card _ hcard⟩
      refine wp_mono (init_wedged (s := ⟨put s.heap .card card (some ()), s.globals⟩) hclaimed
        (hfits.host.of_eq (by simp [hostKinds]))) ?_
      rintro err _ ⟨herr, rfl⟩
      simp [herr, put_self hfree]

/-- The card is mounted over a heap, and the tables have its places filled. -/
structure Mounted (path : List Char) (i : Nat) (b : CardBlocks) (h : Heap Content)
    (g : Statics) (s : SdMem) : Prop where
  fresh   : b.FreshIn h
  clear   : Clear path i g
  heap    : s.heap = b.atop path h
  globals : s.globals = b.keep path i g

/-- The blocks of a mounted card are in use. -/
structure CardBlocks.InUse (b : CardBlocks) (path : List Char) (h : Heap Content) : Prop where
  card     : h .card b.card = some ()
  basePath : h .basePath b.fat.basePath = some ()
  sdCtx    : h .sdCtx b.fat.sdCtx = some (b.fat.cardCtx b.card)
  impl     : h .impl b.fat.impl = some ()
  cell     : h .fatCtx b.fat.fatCtx = some (b.fat.cell path (some b.fat.win))
  flags    : h .flags b.fat.flags = some ()
  lock     : h .lock b.fat.lock = some ()
  vfsEntry : h .vfsEntry b.fat.vfsEntry = some ()
  volMutex : h .volMutex b.fat.volMutex = some ()
  win      : h .win b.fat.win = some ()

theorem CardBlocks.inUse_atop (b : CardBlocks) (h : Heap Content) :
    b.InUse path (b.atop path h) := by
  constructor <;>
    simp [CardBlocks.atop, MountBlocks.atop, VolumeBlocks.atop, volumeOver, PathBlocks.atop,
      PathBlocks.cell, HostBlocks.atop, CtlrBlocks.atop]

/-- **`esp_vfs_fat_sdcard_unmount`** of the mounted card. -/
theorem unmount_ends {b : CardBlocks} {h : Heap Content} {g : Statics} {x : EspErr}
    (hmounted : Mounted path i b h g s) :
    wp stop (espVfsFatSdcardUnmount path b.card x) (fun err s' => err = espOk ∧
      Rests path i s.globals s'.globals ∧ s'.globals.controller = none ∧
      (s'.heap = h ↔ x = espOk)) s := by
  obtain ⟨hfresh, hclear, hheap, hg⟩ := hmounted
  obtain ⟨heap, globals⟩ := s
  subst hheap hg
  have hcards : (b.keep path i g).sCards = [some b.card, none] := rfl
  have hctx : (b.keep path i g).sCtx = [some b.fat.sdCtx, none] := rfl
  have himpls : (b.keep path i g).sImpls = [some b.fat.impl, none] := rfl
  have hin : b.InUse path (b.atop path h) := b.inUse_atop h
  simp [espVfsFatSdcardUnmount, hctx, scanCards, unmountCardCore, hcards, hin.sdCtx, hin.basePath,
    MountBlocks.cardCtx]
  refine wp_mono (drop_ends
    (c := b.fat.cell path (some b.fat.win)) rfl rfl ?_ ?_ ?_) ?_
  · simp [hin.volMutex]
  · simp [hin.cell]
  · simp [PathBlocks.cell, hin.win]
  rintro _ _ rfl
  simp [ffDiskioUnregister, himpls, volumeGone, PathBlocks.cell, hin.impl, hin.card]
  refine wp_mono (deinit_ends (o := b.host) ?_) ?_
  · refine (hostUp_atop (h := put h .card b.card (some ())) g).of_eq ?_ rfl rfl rfl
    simp [hostKinds, CardBlocks.atop, MountBlocks.atop, VolumeBlocks.atop, volumeOver,
      PathBlocks.atop]
  rintro _ _ rfl
  dsimp only
  refine ⟨?_, ?_⟩
  · rw [after_kind (by decide)]
    simp [hin.card]
  refine wp_mono (unregister_ends (i := i) (b := b.fat.toPathBlocks) ?_) ?_
  · refine pathUp_register hclear.toVacant rfl rfl rfl ⟨none, ?_⟩ ?_ ?_ ?_
    all_goals
      rw [put_kind (by decide), after_kind (by decide)]
      simp [PathBlocks.cell, hin.flags, hin.lock, hin.vfsEntry]
  rintro _ _ ⟨rfl, rfl⟩
  refine ⟨rfl, ?_, rfl, ?_⟩
  · have hvfs : (b.keep path i g).sVfs.set i none = g.sVfs := by
      show (g.sVfs.set i _).set i none = g.sVfs
      rw [List.set_set, hclear.set_none]
    simp only [hvfs]
    exact ⟨⟨⟨hclear.free, hclear.room, hclear.count_after, hclear.other⟩, rfl, ⟨_, rfl⟩, rfl,
      rfl, rfl, rfl⟩, rfl, rfl, rfl⟩
  dsimp only
  by_cases hx : x = espOk
  · refine iff_of_true ?_ hx
    obtain ⟨hfreeCard, ⟨⟨h₁, h₂, h₃, h₄, h₅, h₆⟩, h₇⟩, ⟨⟨h₈, h₉, h₁₀, h₁₁⟩, h₁₂, h₁₃, h₁₄⟩,
      h₁₅, h₁₆⟩ := hfresh
    funext k
    cases k <;> simp [HostBlocks.after, HostBlocks.gone, PathBlocks.gone, CardBlocks.atop,
      MountBlocks.atop, VolumeBlocks.atop, volumeOver, PathBlocks.atop, HostBlocks.atop,
      CtlrBlocks.atop, put_pool, *]
  · refine iff_of_false (ne_of_block hfresh.host.ctlr ?_) hx
    simp [HostBlocks.after, hx, HostBlocks.abandoned, PathBlocks.gone]

end Card

end FatMount
