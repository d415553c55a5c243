import KnobFirmware.HidReportProofs
import KnobFirmware.MediaCommandProofs

/-! # The host's side of the media controller — keys that go down

    `s_media_report_map` tells the host how to read the one byte of report 1.
    A host reads each report that reaches it under that descriptor and compares
    it with the one before: a usage that is set and was not is a key that goes
    down.

    Main results:
    * `buttonsDown_press` — the bit of each key is read as the usage of that
      key and no other;
    * `host_view` — in every run the keys that go down at the host are a
      subsequence of the accepted commands; they are all the pressed ones if
      every release is taken, and all the accepted ones if nothing fails. -/

namespace MediaCommand

open EspErr LossyFifo StepMachine HidReport PrefixCode

/-! ## The descriptor -/

/-- `s_media_report_map`. -/
def sMediaReportMap : List UInt8 :=
  [0x05, 0x0C, 0x09, 0x01, 0xA1, 0x01,
    0x85, UInt8.ofNat mediaReportId,
    0x15, 0x00, 0x25, 0x01, 0x75, 0x01, 0x95, 0x07,
    0x09, 0xB5, 0x09, 0xB6, 0x09, 0xB7, 0x09, 0xCD, 0x09, 0xE2, 0x09, 0xE9, 0x09, 0xEA,
    0x81, 0x02,
    0x75, 0x01, 0x95, 0x01, 0x81, 0x03,
    0xC0]

/-- What a host lays out for the report of the media keys. -/
def mediaSlots : List Slot :=
  slots (fieldsOf (shortItem.read sMediaReportMap).1) .input mediaReportId

/-- The Consumer usage that a key stands for. -/
def usageOf : MediaControlKey → Usage
  | .nextTrack => ⟨0x0C, 0xB5⟩
  | .previousTrack => ⟨0x0C, 0xB6⟩
  | .stop => ⟨0x0C, 0xB7⟩
  | .playPause => ⟨0x0C, 0xCD⟩
  | .mute => ⟨0x0C, 0xE2⟩
  | .volumeUp => ⟨0x0C, 0xE9⟩
  | .volumeDown => ⟨0x0C, 0xEA⟩
  | .other _ => ⟨0, 0⟩

/-- The descriptor is read to its end, and its slots are the seven buttons and
    the padding bit. -/
theorem mediaSlots_eq :
    (shortItem.read sMediaReportMap).2 = [] ∧
      mediaSlots = [MediaControlKey.nextTrack, .previousTrack, .stop, .playPause, .mute,
        .volumeUp, .volumeDown].map (fun k => ⟨some (usageOf k), 1⟩) ++ [⟨none, 1⟩] := by
  decide

theorem mediaSlots_buttons : Buttons mediaSlots := by
  rw [Buttons, mediaSlots_eq.2]
  decide

/-- A key's bit is the payload in which that key's button alone is down. -/
theorem mediaKeyToReportBit_eq_pack (key : MediaControlKey) :
    (mediaKeyToReportBit key).toNat =
      pack mediaSlots (fun u => (decide (u = usageOf key)).toNat) := by
  rw [mediaSlots_eq.2]
  cases key <;> rfl

/-- What the host makes of the byte of a report. -/
def hostKeys (data : UInt8) : List Usage := buttonsDown mediaSlots data.toNat

/-- **The bit of a key is read as the usage of that key.** -/
theorem buttonsDown_press {key : MediaControlKey} (h : mediaKeyToReportBit key ≠ 0) :
    hostKeys (mediaKeyToReportBit key) = [usageOf key] := by
  rw [hostKeys, mediaKeyToReportBit_eq_pack, buttonsDown_pack mediaSlots_buttons,
    mediaSlots_eq.2]
  cases key with
  | other => exact absurd rfl h
  | _ => rfl

theorem buttonsDown_release : hostKeys 0 = [] := by
  rw [hostKeys, mediaSlots_eq.2]
  rfl

/-! ## The host -/

/-- A host: the link that its last report came on, the keys it has down, and
    the keys that went down so far. -/
structure Host where
  conn  : Option Nat
  held  : List Usage
  downs : List Usage
  deriving DecidableEq, Repr

def Host.fresh : Host := ⟨none, [], []⟩

/-- The keys that are down on a link; a link begins with none. -/
def Host.heldOn (h : Host) (conn : Option Nat) : List Usage :=
  if conn = h.conn then h.held else []

/-- A report reaches the host. -/
def Host.receive (h : Host) (r : Report) : Host where
  conn := r.conn
  held := hostKeys r.data
  downs := h.downs ++ (hostKeys r.data).filter (· ∉ h.heldOn r.conn)

/-- The host after the reports that the stack took. -/
def hostAfter (rs : List Report) : Host :=
  (rs.filter (fun r => r.err = espOk)).foldl Host.receive Host.fresh

theorem hostAfter_refused {rs : List Report} {r : Report} (h : r.err ≠ espOk) :
    hostAfter (rs ++ [r]) = hostAfter rs := by
  rw [hostAfter, List.filter_append, List.filter_singleton, decide_eq_false h]
  exact congrArg (List.foldl _ _) (List.append_nil _)

theorem hostAfter_taken {rs : List Report} {r : Report} (h : r.err = espOk) :
    hostAfter (rs ++ [r]) = (hostAfter rs).receive r := by
  rw [hostAfter, List.filter_append, List.filter_singleton, decide_eq_true h]
  exact List.foldl_append

theorem Host.receive_press (h : Host) {r : Report} (hr : r.IsPress) :
    h.receive r = ⟨r.conn, [usageOf r.command.key],
      h.downs ++ [usageOf r.command.key].filter (· ∉ h.heldOn r.conn)⟩ := by
  have hbit : mediaKeyToReportBit r.command.key ≠ 0 := by
    obtain ⟨i, -, hi⟩ := hr.oneBit
    intro hzero
    rw [hr.data, hzero] at hi
    exact absurd hi.symm (Nat.two_pow_pos i).ne'
  rw [Host.receive, hr.data, buttonsDown_press hbit]

theorem Host.receive_release (h : Host) {r : Report} (hr : r.IsRelease) :
    h.receive r = ⟨r.conn, [], h.downs⟩ := by
  rw [Host.receive, hr.data, buttonsDown_release]
  simp

/-! ## The reports that a stream is made of -/

/-- The commands of the successful presses among reports. -/
def pressedOf (rs : List Report) : List Command :=
  (rs.filter (fun r => r.Pressed)).map (·.command)

theorem pressedOf_snoc (rs : List Report) (r : Report) :
    pressedOf (rs ++ [r]) = pressedOf rs ++ if r.Pressed then [r.command] else [] := by
  rw [pressedOf, List.filter_append, List.map_append, List.filter_singleton]
  by_cases h : r.Pressed <;> simp [pressedOf, h]

theorem Report.IsPress.pressed {r : Report} (h : r.IsPress) (hok : r.err = espOk) :
    r.Pressed := by
  refine ⟨fun hzero => ?_, hok⟩
  obtain ⟨i, -, hi⟩ := h.oneBit
  rw [hzero] at hi
  exact absurd hi.symm (Nat.two_pow_pos i).ne'

theorem Report.IsRelease.not_pressed {r : Report} (h : r.IsRelease) : ¬r.Pressed :=
  fun hp => hp.1 h.data

/-- **No key goes down that was not pressed**, whatever is refused. -/
theorem Stream.downs_sublist {rs : List Report} {d : Option Command} (h : Stream rs d) :
    (hostAfter rs).downs.Sublist ((pressedOf rs).map (usageOf ·.key)) := by
  induction h with
  | nil => exact List.Sublist.refl _
  | refused _ hp he ih =>
      rw [hostAfter_refused he, pressedOf_snoc, if_neg (fun h => he h.2), List.append_nil]
      exact ih
  | pressed _ hp he ih =>
      rw [hostAfter_taken he, Host.receive_press _ hp, pressedOf_snoc, if_pos (hp.pressed he),
        List.map_append]
      exact ih.append List.filter_sublist
  | @released rs r c _ hr _ ih =>
      rw [pressedOf_snoc, if_neg hr.not_pressed, List.append_nil]
      by_cases he : r.err = espOk
      · rw [hostAfter_taken he, Host.receive_release _ hr]
        exact ih
      · rw [hostAfter_refused he]
        exact ih

/-- The stack took every release among the reports. -/
def ReleasesTaken (rs : List Report) : Prop := ∀ r ∈ rs, r.IsRelease → r.err = espOk

theorem ReleasesTaken.snoc {rs : List Report} {r : Report} (h : ReleasesTaken (rs ++ [r])) :
    ReleasesTaken rs ∧ (r.IsRelease → r.err = espOk) :=
  ⟨fun x hx => h x (List.mem_append_left _ hx),
    h r (List.mem_append_right _ List.mem_cons_self)⟩

/-- Where the stack took every release, each successful press is a key that
    goes down, and no key is down while the task holds none. -/
theorem Stream.downs_eq {rs : List Report} {d : Option Command} (h : Stream rs d)
    (htaken : ReleasesTaken rs) :
    (hostAfter rs).downs = (pressedOf rs).map (usageOf ·.key) ∧
      (d = none → (hostAfter rs).held = []) := by
  induction h with
  | nil => exact ⟨rfl, fun _ => rfl⟩
  | refused _ hp he ih =>
      rw [hostAfter_refused he, pressedOf_snoc, if_neg (fun h => he h.2), List.append_nil]
      exact ih htaken.snoc.1
  | @pressed rs r _ hp he ih =>
      obtain ⟨hdowns, hheld⟩ := ih htaken.snoc.1
      have hup : (hostAfter rs).heldOn r.conn = [] := by
        rw [Host.heldOn, hheld rfl]
        exact ite_self _
      rw [hostAfter_taken he, Host.receive_press _ hp, pressedOf_snoc, if_pos (hp.pressed he),
        List.map_append, hup, hdowns]
      exact ⟨by simp, fun h => nomatch h⟩
  | @released rs r c _ hr _ ih =>
      obtain ⟨hpre, hok⟩ := htaken.snoc
      rw [hostAfter_taken (hok hr), Host.receive_release _ hr, pressedOf_snoc,
        if_neg hr.not_pressed, List.append_nil]
      exact ⟨(ih hpre).1, fun _ => rfl⟩

/-! ## The host's view of a run -/

theorem releasesTaken_step {s s' : MediaSys} {l : MediaLab} {tr es : List MediaEv}
    (hk : KeysValid s) (hi : ReleasesTaken (reports tr)) (htaken : ReleaseTaken s l)
    (h : Move s l s' es) : ReleasesTaken (reports (tr ++ es)) := by
  rw [reports_append]
  have quiet : reports es = [] → ReleasesTaken (reports tr ++ reports es) := by
    intro hes
    rw [hes, List.append_nil]
    exact hi
  cases h with
  | link | refuse | accept | drop => exact quiet rfl
  | press c r _ hpend _ _ _ =>
      intro x hx hrel
      rcases List.mem_append.mp hx with h1 | h1
      · exact hi x h1 hrel
      · obtain rfl := List.mem_singleton.mp h1
        have hbit : mediaKeyToReportBit c.key ≠ 0 :=
          hk.pending c (hpend ▸ List.mem_cons_self)
        exact absurd hrel.data hbit
  | release c r hl htask _ _ _ =>
      intro x hx hrel
      rcases List.mem_append.mp hx with h1 | h1
      · exact hi x h1 hrel
      · obtain rfl := List.mem_singleton.mp h1
        have hok := htaken c htask
        rwa [hl] at hok

theorem releasesTaken {s₀ s : MediaSys} {ls : List MediaLab} {tr : List MediaEv}
    (h0 : media.start s₀) (h : Run media s₀ ls s tr) (hok : Meets media s₀ ReleaseTaken ls) :
    ReleasesTaken (reports tr) := by
  refine (h.invariant_of_meets (C := ReleaseTaken)
    (P := fun s tr => KeysValid s ∧ ReleasesTaken (reports tr))
    ⟨keysValid_start h0, fun r hr => nomatch hr⟩ ?_ hok).2
  intro s tr l s' es hi hC hs
  exact ⟨keysValid_step hi.1 hs, releasesTaken_step hi.1 hi.2 hC (media_move hs)⟩

/-- Where the stack takes everything it takes the releases. -/
theorem releaseTaken_of_staysUp {s₀ : MediaSys} {ls : List MediaLab}
    (h : Meets media s₀ StaysUp ls) : Meets media s₀ ReleaseTaken ls :=
  fun pre l post s tr hls hrun _ _ => (h pre l post s tr hls hrun).2.2

/-- **The host's view.**  In every run the keys that go down at the host are, in
    order, among the commands that `media_controller_send` accepted, none twice
    and none of another usage.  If the stack takes every release report, they
    are exactly the successful presses, and the host has no key down while the
    task holds none.  If the connection stays up and every report is taken, they
    are all the accepted commands, once none is left on the way. -/
theorem host_view {s₀ s : MediaSys} {ls : List MediaLab} {tr : List MediaEv}
    (h0 : media.start s₀) (h : Run media s₀ ls s tr) :
    (hostAfter (reports tr)).downs.Sublist ((accepted tr).map (usageOf ·.key)) ∧
      (Meets media s₀ ReleaseTaken ls →
        (hostAfter (reports tr)).downs = (pressed tr).map (usageOf ·.key) ∧
          (s.task.down = none → (hostAfter (reports tr)).held = [])) ∧
      (Meets media s₀ StaysUp ls → s.pending = [] →
        (hostAfter (reports tr)).downs = (accepted tr).map (usageOf ·.key)) := by
  have hstream := stream h0 h
  refine ⟨hstream.downs_sublist.trans ((pressed_sublist h0 h).map _), ?_, ?_⟩
  · intro htaken
    exact hstream.downs_eq (releasesTaken h0 h htaken)
  · intro hup hdrained
    have hall := (lossless_of_staysUp h0 h hup).eq_of_drained hdrained
    rw [(hstream.downs_eq (releasesTaken h0 h (releaseTaken_of_staysUp hup))).1]
    exact congrArg _ hall

/-- One key, from the call to the host. -/
theorem host_view_at :
    (hostAfter (reports oneKeyTrace)).downs.Sublist ((accepted oneKeyTrace).map (usageOf ·.key)) ∧
      (hostAfter (reports oneKeyTrace)).held = [] ∧
      (hostAfter (reports oneKeyTrace)).downs = (accepted oneKeyTrace).map (usageOf ·.key) := by
  have hrun : Run media connectedSys oneKey connectedSys oneKeyTrace := run_of_exec rfl
  obtain ⟨hsub, htaken, hup⟩ := host_view connectedSys_start hrun
  have hstays : Meets media connectedSys StaysUp oneKey := meets_of_checks rfl
  exact ⟨hsub, (htaken (releaseTaken_of_staysUp hstays)).2 rfl, hup hstays rfl⟩

end MediaCommand
