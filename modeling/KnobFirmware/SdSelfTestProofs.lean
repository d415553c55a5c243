import KnobFirmware.SdCardProofs

/-! # The microSD self-test — what its `ESP_OK` says

    `sd_card_read_write_test` writes a file, reads it back, compares and deletes
    it, and its header lists five facts that it confirms.  Four of them are
    behind its result.  The fifth, that the file can be deleted, is not: a
    `remove` that fails is logged and forgotten.

    The streams and the attempts to delete are right on every path. -/

namespace SdSelfTest

open EspErr SdCard

/-- The five facts of the header: the file could be created, written and read
    back, it held what was written and nothing else, and it was deleted. -/
structure FiveFacts (r : FileReplies) : Prop where
  created  : r.created = true
  written  : r.written = expected.length ∧ r.closedWrite = true
  readBack : r.reopened = true
  same     : r.content = expected
  deleted  : r.removed = true

/-- Every stream is opened where none is open, used and closed while it is open,
    and none is left open; `isOpen` is for the stream that is open before. -/
def ClosesEach : Bool → List FileOp → Prop
  | isOpen, [] => isOpen = false
  | isOpen, .fopen _ true :: ops => isOpen = false ∧ ClosesEach true ops
  | isOpen, .fwrite _ :: ops => isOpen = true ∧ ClosesEach isOpen ops
  | isOpen, .fread _ :: ops => isOpen = true ∧ ClosesEach isOpen ops
  | isOpen, .fclose _ :: ops => isOpen = true ∧ ClosesEach false ops
  | isOpen, _ :: ops => ClosesEach isOpen ops

/-- Once the file has been created, a `remove` follows. -/
def RemovalAttempted : List FileOp → Prop
  | [] => True
  | .fopen .wb true :: ops => (∃ ok, .remove ok ∈ ops) ∧ RemovalAttempted ops
  | _ :: ops => RemovalAttempted ops

/-- The calls on files among the events. -/
def fileOps (events : List SdEv) : List FileOp :=
  events.filterMap fun
    | .file op => some op
    | _ => none

/-- The contract of the self-test, for one call. -/
structure Contract (m : MountReplies) (r : FileReplies) (s : Sd) : Prop where
  success : (sdCardReadWriteTest m r s).err = espOk → FiveFacts r
  streams : ClosesEach false (fileOps (sdCardReadWriteTest m r s).events)
  removal : RemovalAttempted (fileOps (sdCardReadWriteTest m r s).events)

/-- The card mounts, and everything up to the comparison goes well. -/
structure Passes (m : MountReplies) (r : FileReplies) (s : Sd) : Prop where
  mounted     : (sdCardMount m s).err = espOk
  created     : r.created = true
  closedWrite : r.closedWrite = true
  written     : r.written = expected.length
  reopened    : r.reopened = true
  content     : r.content = expected

section Comparison

variable {r : FileReplies}

/-- Room for one more byte than expected: a longer file is seen to be longer. -/
theorem expected_lt_readBufferSize : expected.length < readBufferSize - 1 := by
  rw [readBufferSize]
  omega

/-- **The comparison** accepts exactly the expected content: it sees a short read
    by its length, and so does it an extra byte. -/
theorem comparison_iff :
    ((r.content.take (readBufferSize - 1)).length ≠ expected.length ∨
      (readBuffer (r.content.take (readBufferSize - 1))).take expected.length ≠ expected) ↔
      r.content ≠ expected := by
  have hroom := expected_lt_readBufferSize
  constructor
  · intro hdiffers hcontent
    have htake : expected.take (readBufferSize - 1) = expected :=
      List.take_of_length_le (Nat.le_of_lt hroom)
    rw [hcontent, htake] at hdiffers
    rcases hdiffers with hlen | hbytes
    · exact hlen rfl
    · exact hbytes (by rw [readBuffer, List.take_left])
  · intro hne
    by_contra hno
    rw [not_or, not_ne_iff, not_ne_iff] at hno
    obtain ⟨hlen, hbytes⟩ := hno
    rw [← hlen, readBuffer, List.take_left] at hbytes
    rw [List.length_take] at hlen
    have hwhole : r.content.take (readBufferSize - 1) = r.content :=
      List.take_of_length_le (by omega)
    exact hne (hwhole.symm.trans hbytes)

end Comparison

section Body

variable {r : FileReplies}

/-- The result of the test on files, without the `remove`. -/
theorem writeReadCompare_ok :
    (writeReadCompare r).1 = espOk ↔
      r.created = true ∧ r.closedWrite = true ∧ r.written = expected.length ∧
        r.reopened = true ∧ r.content = expected := by
  have hfail : espFail ≠ espOk := by decide
  rw [writeReadCompare]
  by_cases hcreated : r.created = false
  · simp [hcreated, hfail]
  by_cases hclosed : r.closedWrite = false
  · simp [hcreated, hclosed, hfail]
  by_cases hwritten : r.written = expected.length
  · by_cases hreopened : r.reopened = false
    · simp [hcreated, hclosed, hwritten, hreopened, hfail]
    · simp only [comparison_iff]
      by_cases hcontent : r.content = expected
      · simp [hcreated, hclosed, hwritten, hreopened, hcontent]
      · simp [hcreated, hclosed, hwritten, hreopened, hcontent, hfail]
  · simp [hcreated, hclosed, hwritten, hfail]

/-- The calls of the test, by the path that it takes. -/
inductive Path (r : FileReplies) : List FileOp → Prop where
  | notCreated : Path r [.fopen .wb false]
  | notWritten : Path r [.fopen .wb true, .fwrite r.written, .fclose r.closedWrite,
      .remove r.removed]
  | notReopened : Path r [.fopen .wb true, .fwrite r.written, .fclose r.closedWrite,
      .fopen .rb false, .remove r.removed]
  | compared (read : List Char) : Path r [.fopen .wb true, .fwrite r.written,
      .fclose r.closedWrite, .fopen .rb true, .fread read, .fclose r.closedRead,
      .remove r.removed]

theorem writeReadCompare_path : Path r (writeReadCompare r).2 := by
  rw [writeReadCompare]
  split
  · exact .notCreated
  split
  · exact .notWritten
  split
  · exact .notWritten
  split
  · exact .notReopened
  dsimp only
  split <;> exact .compared _

/-- On every path each stream that is opened is closed once. -/
theorem Path.closesEach {ops : List FileOp} (h : Path r ops) : ClosesEach false ops := by
  cases h <;> simp [ClosesEach]

/-- On every path after the file was created its removal is attempted. -/
theorem Path.removalAttempted {ops : List FileOp} (h : Path r ops) : RemovalAttempted ops := by
  cases h <;> simp [RemovalAttempted]

end Body

/-! ## The call -/

section Call

variable {m : MountReplies} {r : FileReplies} {s : Sd}

/-- Mounting the card calls no function on files. -/
theorem fileOps_mount : fileOps (sdCardMount m s).events = [] := by
  rw [sdCardMount]
  split
  · rfl
  split
  · rfl
  dsimp only
  split <;> rfl

theorem fileOps_map (ops : List FileOp) : fileOps (ops.map .file) = ops := by
  rw [fileOps, List.filterMap_map]
  exact List.filterMap_some

/-- The test makes its calls on files when the card is mounted, and none
    otherwise. -/
theorem fileOps_test :
    fileOps (sdCardReadWriteTest m r s).events =
      if (sdCardMount m s).err = espOk then (writeReadCompare r).2 else [] := by
  rw [sdCardReadWriteTest, withCard]
  by_cases hmount : (sdCardMount m s).err = espOk
  · rw [if_neg (not_not_intro hmount), if_pos hmount]
    show fileOps (_ ++ _) = _
    rw [fileOps, List.filterMap_append, ← fileOps, ← fileOps, fileOps_mount, fileOps_map,
      List.nil_append]
  · rw [if_pos hmount, if_neg hmount, fileOps_mount]

/-- **The test returns `ESP_OK`** exactly when everything before the `remove`
    went well. -/
theorem test_ok_iff : (sdCardReadWriteTest m r s).err = espOk ↔ Passes m r s := by
  rw [sdCardReadWriteTest, withCard]
  by_cases hmount : (sdCardMount m s).err = espOk
  · rw [if_neg (not_not_intro hmount)]
    show (writeReadCompare r).1 = espOk ↔ _
    rw [writeReadCompare_ok]
    constructor
    · rintro ⟨hcreated, hclosed, hwritten, hreopened, hcontent⟩
      exact ⟨hmount, hcreated, hclosed, hwritten, hreopened, hcontent⟩
    · intro h
      exact ⟨h.created, h.closedWrite, h.written, h.reopened, h.content⟩
  · rw [if_pos hmount]
    constructor
    · intro hok
      exact absurd hok hmount
    · intro h
      exact h.mounted

theorem Passes.fiveFacts (h : Passes m r s) (hremoved : r.removed = true) : FiveFacts r :=
  ⟨h.created, ⟨h.written, h.closedWrite⟩, h.reopened, h.content, hremoved⟩

/-- **The self-test keeps its contract exactly when the file, once everything
    else has gone well, can be deleted.**  Whatever the state of the card and the
    results of the calls: that `ESP_OK` stands for the five facts, that every
    stream is closed once, and that the file's removal is attempted on every path
    after its creation; if and only if the last `remove` succeeds in the case
    that the card mounts and the file is created, written, closed, read back and
    found equal. -/
theorem self_test_contract_iff (m : MountReplies) (r : FileReplies) (s : Sd) :
    Contract m r s ↔ (Passes m r s → r.removed = true) := by
  constructor
  · intro h hpasses
    exact (h.success (test_ok_iff.mpr hpasses)).deleted
  · intro hremoved
    refine ⟨?_, ?_, ?_⟩
    · intro hok
      have hpasses := test_ok_iff.mp hok
      exact hpasses.fiveFacts (hremoved hpasses)
    · rw [fileOps_test]
      split
      · exact writeReadCompare_path.closesEach
      · rfl
    · rw [fileOps_test]
      split
      · exact writeReadCompare_path.removalAttempted
      · trivial

/-- Every call works but the last: the test returns `ESP_OK` and the file is
    still there. -/
theorem undeleted_not_contract :
    ¬ Contract ⟨AudioTask.bootShared, espOk⟩
      ⟨true, expected.length, true, true, expected, true, false⟩ bootSd := by
  intro h
  have hok : (sdCardReadWriteTest ⟨AudioTask.bootShared, espOk⟩
      ⟨true, expected.length, true, true, expected, true, false⟩ bootSd).err = espOk :=
    test_ok_iff.mpr ⟨rfl, rfl, rfl, rfl, rfl, rfl⟩
  exact absurd (h.success hok).deleted Bool.false_ne_true

end Call

end SdSelfTest
