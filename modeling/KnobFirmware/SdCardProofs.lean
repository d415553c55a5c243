import KnobFirmware.AudioTaskProofs

/-! # The microSD card — the firmware's record of the mount and the driver's own

    `sd_card_mount` and `sd_card_unmount` keep a flag and a card pointer beside
    the FAT driver, which has a mount of its own.  The self-test and the listing
    of the root directory mount the card first.  All four are called by the UI
    task alone, so that a call is one step; the driver and the file functions
    answer with whatever the label says.

    The record follows the driver except in one case.  The driver unmounts and
    frees the card before the last thing that can fail, and then returns that
    error: `sd_card_unmount` takes the error for a card that is still mounted
    and keeps the pointer to the freed one.  `sd_card_mount` clears both
    variables when its driver call fails. -/

namespace SdCard

open EspErr StepMachine
open AudioTask (Guard sdCardMountGuards)

/-! ## The driver -/

/-- The FAT driver: the card it has mounted and the cards it has freed.  A card
    is numbered in the order of allocation, and a mounted card is not freed. -/
structure Driver where
  mounted : Option Nat
  freed   : List Nat
  cards   : Nat
  old     : ∀ c ∈ freed, c < cards
  live    : ∀ c, mounted = some c → c < cards ∧ c ∉ freed

def Driver.boot : Driver where
  mounted := none
  freed := []
  cards := 0
  old := by simp
  live := by simp

/-- `esp_vfs_fat_sdmmc_mount`, with the card that it hands out: it mounts one
    exactly when it returns `ESP_OK`. -/
def Driver.mount (d : Driver) (err : EspErr) : Driver × Option Nat :=
  if err = espOk then
    ({ mounted := some d.cards
       freed := d.freed
       cards := d.cards + 1
       old := fun c hc => Nat.lt_succ_of_lt (d.old c hc)
       live := by
        intro c hc
        obtain rfl : d.cards = c := Option.some.inj hc
        exact ⟨Nat.lt_succ_self _, fun hfreed => Nat.lt_irrefl _ (d.old _ hfreed)⟩ },
      some d.cards)
  else (d, none)

/-- The answer of `esp_vfs_fat_sdcard_unmount`: its result, and for an error
    whether the card was unmounted and freed before. -/
structure UnmountReply where
  err   : EspErr
  freed : Bool
  deriving DecidableEq, Repr

/-- The error that comes after the card has been freed. -/
def UnmountReply.Late (r : UnmountReply) : Prop := r.err ≠ espOk ∧ r.freed = true

instance (r : UnmountReply) : Decidable r.Late := inferInstanceAs (Decidable (_ ∧ _))

/-- The mounted card is unmounted and freed. -/
def Driver.release (d : Driver) (card : Nat) (h : d.mounted = some card) : Driver where
  mounted := none
  freed := card :: d.freed
  cards := d.cards
  old := by
    intro c hc
    rcases List.mem_cons.mp hc with rfl | hc
    · exact (d.live _ h).1
    · exact d.old c hc
  live := by simp

/-- `esp_vfs_fat_sdcard_unmount`.  A card that is not the mounted one is looked
    up in vain, and nothing changes. -/
def Driver.unmount (d : Driver) (card : Nat) (r : UnmountReply) : Driver :=
  if h : d.mounted = some card then
    if r.err = espOk ∨ r.freed = true then d.release card h else d
  else d

/-! ## The file functions -/

inductive OpenMode where
  | wb
  | rb
  deriving DecidableEq, Repr

/-- The calls on files and directories, with what they return. -/
inductive FileOp where
  | fopen (mode : OpenMode) (ok : Bool)
  | fwrite (n : Nat)
  | fread (bytes : List Char)
  | fclose (ok : Bool)
  | remove (ok : Bool)
  | opendir (ok : Bool)
  | readdir (name : Option String)
  | closedir
  deriving DecidableEq, Repr

/-- What the file functions of the self-test return; `content` is what the
    stream opened for reading holds. -/
structure FileReplies where
  created     : Bool
  written     : Nat
  closedWrite : Bool
  reopened    : Bool
  content     : List Char
  closedRead  : Bool
  removed     : Bool
  deriving DecidableEq, Repr

def expected : List Char := "Waveshare ESP32-S3 SDMMC read/write test OK\n".toList

/-- `sizeof(read_buffer)`; `sizeof(expected)` counts the closing NUL. -/
def readBufferSize : Nat := expected.length + 1 + 8

/-- `read_buffer`, zeroed before `fread` fills it. -/
def readBuffer (read : List Char) : List Char :=
  read ++ List.replicate (readBufferSize - read.length) '\x00'

/-- `sd_card_read_write_test` from its first `fopen` on. -/
def writeReadCompare (r : FileReplies) : EspErr × List FileOp :=
  if r.created = false then
    (espFail, [.fopen .wb false])
  else
    let wrote := [.fopen .wb true, .fwrite r.written, .fclose r.closedWrite]
    if r.closedWrite = false then
      (espFail, wrote ++ [.remove r.removed])
    else if r.written ≠ expected.length then
      (espFail, wrote ++ [.remove r.removed])
    else if r.reopened = false then
      (espFail, wrote ++ [.fopen .rb false, .remove r.removed])
    else
      let read := r.content.take (readBufferSize - 1)
      -- a failing `fclose` or `remove` is only logged here
      let ops := wrote ++ [.fopen .rb true, .fread read, .fclose r.closedRead, .remove r.removed]
      if read.length ≠ expected.length ∨ (readBuffer read).take expected.length ≠ expected then
        (espFail, ops)
      else (espOk, ops)

/-- What the directory functions return; `entries` is what `readdir` returns
    before NULL. -/
structure DirReplies where
  opened  : Bool
  entries : List String
  deriving DecidableEq, Repr

/-- The loop over the directory entries. -/
def countEntries : List String → Nat → Nat
  | [], count => count
  | name :: names, count =>
      if name = "." ∨ name = ".." then countEntries names count
      else countEntries names (count + 1)

/-- `sd_card_list_root` from `opendir` on, with the count that it stores. -/
def listEntries (r : DirReplies) : (EspErr × List FileOp) × Nat :=
  if r.opened = false then ((espFail, [.opendir false]), 0)
  else
    ((espOk,
      [.opendir true] ++ r.entries.map (fun name => .readdir (some name)) ++
        [.readdir none, .closedir]),
      countEntries r.entries 0)

/-! ## The calls -/

/-- `sd_card` and `sd_card_mounted`, beside the driver. -/
structure Sd where
  sdCard        : Option Nat
  sdCardMounted : Bool
  driver        : Driver

def bootSd : Sd where
  sdCard := none
  sdCardMounted := false
  driver := .boot

/-- A driver call with the driver as the call finds it, a call on files, and
    the result of the firmware's function. -/
inductive SdEv where
  | mount (d : Driver)
  | unmount (card : Nat) (d : Driver)
  | file (op : FileOp)
  | returned (err : EspErr)

structure Result where
  err    : EspErr
  sd     : Sd
  events : List SdEv

/-- What `sd_card_mount` finds and is told: the audio variables that its guard
    reads and the result of the driver's mount. -/
structure MountReplies where
  audio : AudioTask.Shared
  err   : EspErr

/-- `sd_card_mount`. -/
def sdCardMount (m : MountReplies) (s : Sd) : Result :=
  if sdCardMountGuards.any (Guard.holds m.audio) then ⟨espErrInvalidState, s, []⟩
  else if s.sdCardMounted && s.sdCard.isSome then ⟨espOk, s, []⟩
  else
    let (driver, mountedCard) := s.driver.mount m.err
    if m.err ≠ espOk then ⟨m.err, ⟨none, false, driver⟩, [.mount s.driver]⟩
    else ⟨espOk, ⟨mountedCard, true, driver⟩, [.mount s.driver]⟩

/-- `sd_card_unmount`. -/
def sdCardUnmount (r : UnmountReply) (s : Sd) : Result :=
  match s.sdCardMounted, s.sdCard with
  | true, some card =>
      let driver := s.driver.unmount card r
      if r.err ≠ espOk then
        -- both variables stay as they are
        ⟨r.err, { s with driver := driver }, [.unmount card s.driver]⟩
      else ⟨espOk, ⟨none, false, driver⟩, [.unmount card s.driver]⟩
  | _, _ => ⟨espOk, { s with sdCard := none, sdCardMounted := false }, []⟩

/-- The functions on files mount the card first and give up when that fails. -/
def withCard (m : MountReplies) (s : Sd) (body : EspErr × List FileOp) : Result :=
  let mounted := sdCardMount m s
  if mounted.err ≠ espOk then mounted
  else ⟨body.1, mounted.sd, mounted.events ++ body.2.map .file⟩

/-- `sd_card_read_write_test`. -/
def sdCardReadWriteTest (m : MountReplies) (r : FileReplies) (s : Sd) : Result :=
  withCard m s (writeReadCompare r)

/-- `sd_card_list_root`, with `*entry_count`. -/
def sdCardListRoot (m : MountReplies) (r : DirReplies) (s : Sd) : Result × Nat :=
  (withCard m s (listEntries r).1,
    if (sdCardMount m s).err ≠ espOk then 0 else (listEntries r).2)

/-- The card whose record `sd_card_update_status_label` reads. -/
def statusLabelReads (s : Sd) : Option Nat := if s.sdCardMounted then s.sdCard else none

inductive Call where
  | mount (m : MountReplies)
  | unmount (r : UnmountReply)
  | readWriteTest (m : MountReplies) (r : FileReplies)
  | listRoot (m : MountReplies) (r : DirReplies)

def Call.run (s : Sd) : Call → Result
  | .mount m => sdCardMount m s
  | .unmount r => sdCardUnmount r s
  | .readWriteTest m r => sdCardReadWriteTest m r s
  | .listRoot m r => (sdCardListRoot m r s).1

def sdStep (s : Sd) (call : Call) : Option (Sd × List SdEv) :=
  let r := call.run s
  some (r.sd, r.events ++ [.returned r.err])

/-- The calls in any order, whatever the driver and the file functions return. -/
def sdCalls : Machine Sd Call SdEv where
  start s := s = bootSd
  step := sdStep

/-! ## Coherence -/

/-- What the driver calls must find: no mounted card at a mount, and a card
    that has not been freed at an unmount. -/
def SdEv.Sound : SdEv → Prop
  | .mount d => d.mounted = none
  | .unmount card d => card ∉ d.freed
  | .file _ | .returned _ => True

/-- The record and the driver between two calls, and the driver calls so far. -/
structure Coherent (s : Sd) (tr : List SdEv) : Prop where
  flag   : s.sdCardMounted = s.sdCard.isSome
  card   : s.sdCardMounted = true →
    ∃ card, s.sdCard = some card ∧ s.driver.mounted = some card
  calls  : ∀ e ∈ tr, e.Sound
  failed : ∀ err, tr.getLast? = some (.returned err) → err ≠ espOk →
    s.sdCardMounted = s.driver.mounted.isSome

/-- An unmount of a recorded card that fails, fails with the card still
    mounted. -/
def InTime (s : Sd) : Call → Prop
  | .unmount r => s.sdCardMounted = true → ¬ r.Late
  | _ => True

/-- The record is the driver's. -/
structure InStep (s : Sd) : Prop where
  flag : s.sdCardMounted = s.sdCard.isSome
  card : s.driver.mounted = s.sdCard

section Calls

variable {s : Sd} {m : MountReplies} {r : UnmountReply} {err : EspErr} {card : Nat}
  {tr : List SdEv}

theorem inStep_boot : InStep bootSd := ⟨rfl, rfl⟩

theorem InStep.coherent (h : InStep s) (hcalls : ∀ e ∈ tr, e.Sound) : Coherent s tr where
  flag := h.flag
  card := by
    intro hflag
    obtain ⟨card, hcard⟩ := Option.isSome_iff_exists.mp (h.flag.symm.trans hflag)
    exact ⟨card, hcard, h.card.trans hcard⟩
  calls := hcalls
  failed := by
    intro _ _ _
    rw [h.flag, h.card]

/-- Where the record is the driver's, the status label reads the record of a
    card that is still mounted. -/
theorem InStep.reads_mounted (h : InStep s) (hread : statusLabelReads s = some card) :
    s.driver.mounted = some card ∧ card ∉ s.driver.freed := by
  rw [statusLabelReads] at hread
  split at hread
  · have hmounted := h.card.trans hread
    exact ⟨hmounted, (s.driver.live card hmounted).2⟩
  · cases hread

/-- **`sd_card_mount`** asks the driver only where nothing is mounted, and
    records its answer. -/
theorem InStep.mount (h : InStep s) :
    InStep (sdCardMount m s).sd ∧ ∀ e ∈ (sdCardMount m s).events, e.Sound := by
  rw [sdCardMount]
  split
  · exact ⟨h, by simp⟩
  split
  · exact ⟨h, by simp⟩
  · rename_i _ hno
    have hnone : s.driver.mounted = none := by
      rw [h.card]
      cases hcard : s.sdCard with
      | none => rfl
      | some card => simp [h.flag, hcard] at hno
    by_cases herr : m.err = espOk
    · simp only [Driver.mount, herr, if_pos, ne_eq, not_true_eq_false, if_false]
      exact ⟨⟨rfl, rfl⟩, by simp [SdEv.Sound, hnone]⟩
    · simp only [Driver.mount, herr, if_false, ne_eq, not_false_eq_true, if_true]
      exact ⟨⟨rfl, hnone⟩, by simp [SdEv.Sound, hnone]⟩

/-- A function on files is, for the mount, the `sd_card_mount` it begins with. -/
theorem InStep.withCard (h : InStep s) (body : EspErr × List FileOp) :
    InStep (withCard m s body).sd ∧ ∀ e ∈ (withCard m s body).events, e.Sound := by
  have hmount : InStep (sdCardMount m s).sd ∧ _ := h.mount
  obtain ⟨hsd, hcalls⟩ := hmount
  rw [SdCard.withCard]
  split
  · exact ⟨hsd, hcalls⟩
  · refine ⟨hsd, fun e he => ?_⟩
    rcases List.mem_append.mp he with he | he
    · exact hcalls e he
    · obtain ⟨op, _, rfl⟩ := List.mem_map.mp he
      trivial

/-- The driver is asked to unmount the card it has mounted. -/
theorem InStep.unmount_sound (h : InStep s) : ∀ e ∈ (sdCardUnmount r s).events, e.Sound := by
  intro e he
  rw [sdCardUnmount] at he
  split at he
  · rename_i card hflag hcard
    have hsound : card ∉ s.driver.freed := (s.driver.live card (h.card.trans hcard)).2
    split at he <;> obtain rfl := List.mem_singleton.mp he <;> exact hsound
  · exact absurd he List.not_mem_nil

/-- **`sd_card_unmount`** keeps the record in step, unless the error is late. -/
theorem InStep.unmount (h : InStep s) (htime : s.sdCardMounted = true → ¬ r.Late) :
    InStep (sdCardUnmount r s).sd := by
  rw [sdCardUnmount]
  split
  · rename_i card hflag hcard
    have hmounted : s.driver.mounted = some card := h.card.trans hcard
    by_cases herr : r.err = espOk
    · simp only [Driver.unmount, herr, hmounted, dif_pos, true_or, if_pos, ne_eq,
        not_true_eq_false, if_false]
      exact ⟨rfl, rfl⟩
    · have hkept : r.freed ≠ true := fun hfreed => htime hflag ⟨herr, hfreed⟩
      have hkeeps : ¬ (r.err = espOk ∨ r.freed = true) := by
        rintro (h1 | h1)
        · exact herr h1
        · exact hkept h1
      rw [if_pos herr, Driver.unmount, dif_pos hmounted, if_neg hkeeps]
      exact h
  · rename_i hno
    refine ⟨rfl, ?_⟩
    rw [h.card]
    cases hcard : s.sdCard with
    | none => rfl
    | some card => exact absurd hcard (hno card (by rw [h.flag, hcard]; rfl))

/-- After a late error the flag is set and nothing is mounted. -/
theorem InStep.unmount_late (h : InStep s) (hflag : s.sdCardMounted = true) (hlate : r.Late) :
    (sdCardUnmount r s).sd.sdCardMounted = true ∧
      (sdCardUnmount r s).sd.driver.mounted = none := by
  obtain ⟨card, hcard⟩ := Option.isSome_iff_exists.mp (h.flag.symm.trans hflag)
  have hmounted : s.driver.mounted = some card := h.card.trans hcard
  simp [sdCardUnmount, hflag, hcard, Driver.unmount, hmounted, hlate.1, hlate.2,
    Driver.release]

/-- **One call** in time keeps the record in step and asks the driver soundly. -/
theorem InStep.call {c : Call} (h : InStep s) (htime : InTime s c) :
    InStep (c.run s).sd ∧ ∀ e ∈ (c.run s).events, e.Sound := by
  cases c with
  | mount m => exact h.mount
  | unmount r => exact ⟨h.unmount htime, h.unmount_sound⟩
  | readWriteTest m files => exact h.withCard _
  | listRoot m dir => exact h.withCard _

end Calls

/-! ## The runs -/

/-- **The record of the mount is the driver's exactly while no unmount fails
    after it has freed the card.**  All along a run of the four calls, whatever
    the driver and the file functions answer: the flag and the pointer agree and
    name the card that the driver has mounted, the driver is asked to mount only
    where nothing is mounted and never to unmount a freed card, and a failing
    call leaves the recorded status the driver's; if and only if no unmount of a
    recorded card returns an error after the card has been freed. -/
theorem mount_coherent_iff {ls : List Call} {s : Sd} {tr : List SdEv}
    (h : Run sdCalls bootSd ls s tr) :
    Always sdCalls bootSd Coherent ls ↔ Meets sdCalls bootSd InTime ls := by
  refine always_iff_meets_within (D := fun _ _ => True)
    (P := fun s tr => InStep s ∧ ∀ e ∈ tr, e.Sound) ⟨inStep_boot, by simp⟩ ?_ ?_ ?_ h ?_
  · rintro s tr ⟨hstep, hcalls⟩
    exact hstep.coherent hcalls
  · rintro s tr c s' es ⟨hstep, hcalls⟩ - htime hs
    obtain ⟨rfl, rfl⟩ := Prod.mk.inj (Option.some.inj hs)
    obtain ⟨hstep', hcalls'⟩ := hstep.call htime
    refine ⟨hstep', fun e he => ?_⟩
    rcases List.mem_append.mp he with he | he
    · exact hcalls e he
    rcases List.mem_append.mp he with he | he
    · exact hcalls' e he
    · obtain rfl := List.mem_singleton.mp he
      trivial
  · rintro s tr c s' es ⟨hstep, -⟩ - hs hcoherent
    obtain ⟨rfl, rfl⟩ := Prod.mk.inj (Option.some.inj hs)
    cases c with
    | unmount r =>
        intro hflag hlate
        obtain ⟨hflag', hnone⟩ := hstep.unmount_late hflag hlate
        obtain ⟨card, -, hmounted⟩ := hcoherent.card hflag'
        exact absurd (hmounted.symm.trans hnone) (by simp)
    | _ => trivial
  · intro _ _ _ _ _ _ _
    trivial

/-- A mount, the self-test, an unmount that fails at once and one that works. -/
def cleanCalls : List Call :=
  [.mount ⟨AudioTask.bootShared, espOk⟩,
    .readWriteTest ⟨AudioTask.bootShared, espFail⟩
      ⟨true, expected.length, true, true, expected, true, true⟩,
    .unmount ⟨espErrInvalidArg, false⟩,
    .unmount ⟨espOk, true⟩]

theorem mount_coherent_iff_at :
    ∃ s tr, Run sdCalls bootSd cleanCalls s tr ∧ Meets sdCalls bootSd InTime cleanCalls ∧
      Always sdCalls bootSd Coherent cleanCalls := by
  obtain ⟨s, tr, hexec⟩ : ∃ s tr, exec sdCalls bootSd cleanCalls = some (s, tr) := ⟨_, _, rfl⟩
  have htime : Meets sdCalls bootSd InTime cleanCalls := by
    refine meets_of_forall fun l hl s => ?_
    simp only [cleanCalls, List.mem_cons, List.not_mem_nil, or_false] at hl
    rcases hl with rfl | rfl | rfl | rfl
    · trivial
    · trivial
    · exact fun _ h => absurd h (by decide)
    · exact fun _ h => absurd h (by decide)
  exact ⟨s, tr, run_of_exec hexec, htime, (mount_coherent_iff (run_of_exec hexec)).mpr htime⟩

/-- A mount, an unmount that fails after the card has been freed, and another
    unmount. -/
def lateCalls : List Call :=
  [.mount ⟨AudioTask.bootShared, espOk⟩,
    .unmount ⟨espErrInvalidState, true⟩,
    .unmount ⟨espErrInvalidArg, false⟩]

/-- The flag says mounted where nothing is, and the driver is asked to unmount a
    card that it has freed. -/
theorem not_mount_coherent :
    ∃ s tr, Run sdCalls bootSd lateCalls s tr ∧
      ¬ Always sdCalls bootSd Coherent lateCalls ∧
      s.sdCardMounted = true ∧ s.driver.mounted = none ∧ ∃ e ∈ tr, ¬ e.Sound := by
  obtain ⟨s, tr, hexec, hflag, hnone, e, he, hfreed⟩ :
      ∃ s tr, exec sdCalls bootSd lateCalls = some (s, tr) ∧ s.sdCardMounted = true ∧
        s.driver.mounted = none ∧ ∃ e ∈ tr, ¬ e.Sound := by
    refine ⟨_, _, rfl, rfl, rfl, _, List.mem_cons_of_mem _ (List.mem_cons_of_mem _
      (List.mem_cons_of_mem _ (List.mem_cons_of_mem _ List.mem_cons_self))), ?_⟩
    exact fun hsound => hsound List.mem_cons_self
  have hrun := run_of_exec hexec
  refine ⟨s, tr, hrun, fun hall => ?_, hflag, hnone, e, he, hfreed⟩
  exact hfreed ((hall lateCalls [] s tr (List.append_nil _).symm hrun).calls e he)

end SdCard
