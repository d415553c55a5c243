import KnobFirmware.HidReportProofs

/-! # The parser of report maps — `esp_hid_parse_report_map`

    The BLE HID profile parses the report descriptor once more on the device's
    side, to find out which reports there are and how long they are.  Its parser
    is a state machine over the short items (`handle_cmd`), with its state in
    static variables that outlive a call.

    All lengths are 16-bit sums in the source, and so they are here.

    * `handleReport_eq` — what a finished report adds to the table;
    * `handleCmd_inside` — what the state machine does inside a collection, item
      by item;
    * `inStep_items` — the parser and a host that reads the same items agree
      after each of them on what is in force, and the parser's lengths grow by
      what the host sees declared. -/

namespace ReportMap

open PrefixCode HidReport

/-! ## Types -/

def hidRmInput : UInt8 := 0x80
def hidRmOutput : UInt8 := 0x90
def hidRmFeature : UInt8 := 0xB0
def hidRmCollection : UInt8 := 0xA0
def hidRmEndCollection : UInt8 := 0xC0
def hidRmUsagePage : UInt8 := 0x04
def hidRmReportSize : UInt8 := 0x74
def hidRmReportId : UInt8 := 0x84
def hidRmReportCount : UInt8 := 0x94
def hidRmUsage : UInt8 := 0x08

def hidUsagePageGenericDesktop : UInt16 := 0x01
def hidUsageKeyboard : UInt16 := 0x06
def hidUsageMouse : UInt16 := 0x02
def hidUsageJoystick : UInt16 := 0x04
def hidUsageGamepad : UInt16 := 0x05
def hidUsagePageConsumerDevice : UInt16 := 0x0C
def hidUsageConsumerControl : UInt16 := 0x01

/-- `esp_hid_usage_t`. -/
inductive EspHidUsage where
  | generic
  | keyboard
  | mouse
  | joystick
  | gamepad
  | cControl
  | vendor
  deriving DecidableEq, Repr

/-- The enumerator's value, a bit of the usage mask. -/
def EspHidUsage.bit : EspHidUsage → UInt8
  | .generic => 0
  | .keyboard => 1
  | .mouse => 2
  | .joystick => 4
  | .gamepad => 8
  | .cControl => 32
  | .vendor => 64

/-- `ESP_HID_PROTOCOL_MODE_*`. -/
inductive ProtocolMode where
  | boot
  | report
  deriving DecidableEq, Repr

/-- `esp_hid_report_item_t`; the kinds are the `ESP_HID_REPORT_TYPE_*`. -/
structure ReportItem where
  usage        : EspHidUsage
  reportId     : UInt8
  reportType   : Kind
  protocolMode : ProtocolMode
  valueLen     : UInt16
  deriving DecidableEq, Repr

/-- `temp_hid_report_map_t`, whose array has room for 64 reports. -/
structure TempMap where
  usageMask : UInt8
  reports   : List ReportItem
  fits      : reports.length ≤ 64
  deriving DecidableEq, Repr

def TempMap.cleared : TempMap := ⟨0, [], Nat.zero_le 64⟩

/-- `hid_report_params_t`. -/
structure ReportParams where
  usagePage      : UInt16
  usage          : UInt16
  innerUsagePage : UInt16
  innerUsage     : UInt16
  reportId       : UInt8
  inputLen       : UInt16
  outputLen      : UInt16
  featureLen     : UInt16
  deriving DecidableEq, Repr

def ReportParams.cleared : ReportParams := ⟨0, 0, 0, 0, 0, 0, 0, 0⟩

/-- `s_parse_step_t`. -/
inductive ParseStep where
  | waitUsagePage
  | waitUsage
  | waitCollectionApplication
  | waitEndCollection
  deriving DecidableEq, Repr

/-- The static variables of the parser. -/
structure Parser where
  step            : ParseStep
  collectionDepth : UInt8
  params          : ReportParams
  reportSize      : UInt16
  reportCount     : UInt16
  newMap          : Bool
  tempMap         : Option TempMap
  deriving DecidableEq, Repr

/-- What the allocations of one call return: how many of the commands can be
    allocated, and whether the temporary map, the map and its reports can. -/
structure Heap where
  cmds    : Nat
  tempMap : Bool
  out     : Bool
  reports : Bool
  deriving DecidableEq, Repr

/-! ## The table -/

/-- `add_report`. -/
def addReport (map : TempMap) (item : ReportItem) : Option TempMap :=
  if h : map.reports.length < 64 then
    some ⟨map.usageMask, map.reports ++ [item], by rw [List.length_append]; exact h⟩
  else
    none

/-- The reports that `handle_report` adds, up to the first that does not fit. -/
def addReports : TempMap → List ReportItem → TempMap × Bool
  | map, [] => (map, true)
  | map, item :: items =>
      match addReport map item with
      | none => (map, false)
      | some map' => addReports map' items

/-- What `handle_report` takes the collection for. -/
def usageOfReport (report : ReportParams) : EspHidUsage :=
  if report.usagePage = hidUsagePageGenericDesktop ∧ report.usage = hidUsageKeyboard then
    .keyboard
  else if report.usagePage = hidUsagePageGenericDesktop ∧ report.usage = hidUsageMouse then
    .mouse
  else if report.usagePage = hidUsagePageGenericDesktop then
    if report.usage = hidUsageJoystick then .joystick
    else if report.usage = hidUsageGamepad then .gamepad
    else .generic
  else if report.usagePage = hidUsagePageConsumerDevice ∧
      report.usage = hidUsageConsumerControl then
    .cControl
  else if 0xFF ≤ report.usagePage then
    .vendor
  else
    .generic

/-- The items that `handle_report` makes, in order. -/
def reportItems (report : ReportParams) : List ReportItem :=
  let item (kind : Kind) (mode : ProtocolMode) (len : UInt16) : ReportItem :=
    ⟨usageOfReport report, report.reportId, kind, mode, len⟩
  match usageOfReport report with
  | .keyboard => List.flatten
      [if 0 < report.inputLen then
        [item .input .report (report.inputLen / 8), item .input .boot 8] else [],
       if 0 < report.outputLen then
        [item .output .report (report.outputLen / 8), item .output .boot 1] else []]
  | .mouse =>
      if 0 < report.inputLen then
        [item .input .report (report.inputLen / 8), item .input .boot 3] else []
  | _ => List.flatten
      [if 0 < report.inputLen then [item .input .report (report.inputLen / 8)] else [],
       if 0 < report.outputLen then [item .output .report (report.outputLen / 8)] else [],
       if 0 < report.featureLen then [item .feature .report (report.featureLen / 8)] else []]

/-- `handle_report`. -/
def handleReport (heap : Heap) (report : ReportParams) (first : Bool)
    (temp : Option TempMap) : Option TempMap × Bool :=
  let go (map : TempMap) : Option TempMap × Bool :=
    let map := if first then TempMap.cleared else map
    let r := addReports { map with usageMask := map.usageMask ||| (usageOfReport report).bit }
      (reportItems report)
    (some r.1, r.2)
  match temp with
  | none => if heap.tempMap then go TempMap.cleared else (none, false)
  | some map => go map

/-! ## The state machine -/

/-- The three lengths amount to full bytes. -/
def ReportParams.whole (p : ReportParams) : Bool :=
  p.inputLen &&& 7 = 0 ∧ p.outputLen &&& 7 = 0 ∧ p.featureLen &&& 7 = 0

/-- A Report ID item inside a collection: the report of another id ends here. -/
def handleReportId (heap : Heap) (p : Parser) (value : Nat) : Parser × Bool :=
  let setId (p : Parser) : Parser × Bool :=
    ({ p with params := { p.params with reportId := UInt8.ofNat value } }, true)
  if p.params.reportId ≠ 0 ∧ p.params.reportId.toNat ≠ value then
    if p.params.whole then
      match handleReport heap p.params p.newMap p.tempMap with
      | (temp, false) => ({ p with tempMap := temp, step := .waitUsagePage }, false)
      | (temp, true) =>
          setId { p with
            tempMap := temp
            newMap := false
            params := { p.params with
              inputLen := 0
              outputLen := 0
              featureLen := 0
              usage := p.params.innerUsage
              usagePage := p.params.innerUsagePage } }
    else
      setId p
  else
    setId p

/-- An End Collection item: with the outermost collection its last report ends. -/
def handleEndCollection (heap : Heap) (p : Parser) : Parser × Bool :=
  let p := { p with collectionDepth := p.collectionDepth - 1 }
  if p.collectionDepth = 0 then
    if p.params.whole then
      match handleReport heap p.params p.newMap p.tempMap with
      | (temp, false) => ({ p with tempMap := temp, step := .waitUsagePage }, false)
      | (temp, true) => ({ p with tempMap := temp, newMap := false, step := .waitUsagePage }, true)
    else
      ({ p with step := .waitUsagePage }, true)
  else
    (p, true)

/-- `handle_cmd`. -/
def handleCmd (heap : Heap) (p : Parser) (cmd : ShortItem) : Parser × Bool :=
  match p.step with
  | .waitUsagePage =>
      if cmd.cmd ≠ hidRmUsagePage then (p, false)
      else
        ({ p with
          reportSize := 0
          reportCount := 0
          params := { ReportParams.cleared with usagePage := UInt16.ofNat cmd.value }
          step := .waitUsage }, true)
  | .waitUsage =>
      if cmd.cmd ≠ hidRmUsage then ({ p with step := .waitUsagePage }, false)
      else
        ({ p with
          params := { p.params with usage := UInt16.ofNat cmd.value }
          step := .waitCollectionApplication }, true)
  | .waitCollectionApplication =>
      if cmd.cmd ≠ hidRmCollection then ({ p with step := .waitUsagePage }, false)
      else if cmd.value ≠ 1 then ({ p with step := .waitUsagePage }, false)
      else
        ({ p with
          params := { p.params with reportId := 0 }
          collectionDepth := 1
          step := .waitEndCollection }, true)
  | .waitEndCollection =>
      if cmd.cmd = hidRmReportId then
        handleReportId heap p cmd.value
      else if cmd.cmd = hidRmUsagePage then
        ({ p with params := { p.params with innerUsagePage := UInt16.ofNat cmd.value } }, true)
      else if cmd.cmd = hidRmUsage then
        ({ p with params := { p.params with innerUsage := UInt16.ofNat cmd.value } }, true)
      else if cmd.cmd = hidRmReportSize then
        ({ p with reportSize := UInt16.ofNat cmd.value }, true)
      else if cmd.cmd = hidRmReportCount then
        ({ p with reportCount := UInt16.ofNat cmd.value }, true)
      else if cmd.cmd = hidRmInput then
        ({ p with params :=
          { p.params with inputLen := p.params.inputLen + p.reportSize * p.reportCount } }, true)
      else if cmd.cmd = hidRmOutput then
        ({ p with params :=
          { p.params with outputLen := p.params.outputLen + p.reportSize * p.reportCount } }, true)
      else if cmd.cmd = hidRmFeature then
        ({ p with params :=
          { p.params with
            featureLen := p.params.featureLen + p.reportSize * p.reportCount } }, true)
      else if cmd.cmd = hidRmCollection then
        ({ p with collectionDepth := p.collectionDepth + 1 }, true)
      else if cmd.cmd = hidRmEndCollection then
        handleEndCollection heap p
      else
        (p, true)

/-- `esp_hid_report_map_t`. -/
structure EspReportMap where
  usage      : EspHidUsage
  appearance : UInt16
  reports    : List ReportItem
  deriving DecidableEq, Repr

/-- The dominant usage of a map and its appearance. -/
def dominant (mask : UInt8) : EspHidUsage × UInt16 :=
  if mask &&& EspHidUsage.keyboard.bit ≠ 0 then (.keyboard, 0x03C1)
  else if mask &&& EspHidUsage.mouse.bit ≠ 0 then (.mouse, 0x03C2)
  else if mask &&& EspHidUsage.joystick.bit ≠ 0 then (.joystick, 0x03C3)
  else if mask &&& EspHidUsage.gamepad.bit ≠ 0 then (.gamepad, 0x03C4)
  else if mask &&& EspHidUsage.cControl.bit ≠ 0 then (.cControl, 0x03C1)
  else (.generic, 0x03C0)

/-- What a call comes to: a map, a null pointer, or a read through one. -/
inductive Parsed where
  | map (m : EspReportMap)
  | null
  | fault
  deriving DecidableEq, Repr

/-- `esp_hid_parse_report_map`; `parse_cmd` is `shortItem.take`.  For an empty table
    the array of reports is asked for with `calloc(1, 0)`, which is a null pointer
    in this system. -/
def espHidParseReportMap (heap : Heap) (p : Parser) (hidRm : List UInt8) : Parser × Parsed :=
  match shortItem.loop (handleCmd heap) heap.cmds { p with newMap := true } hidRm with
  | (p, .rejected) => (p, .null)
  | (p, .cut) => (p, .null)
  | (p, .finished) =>
      if heap.out then
        match p.tempMap with
        | none => (p, .fault)
        | some map =>
            if heap.reports ∧ map.reports ≠ [] then
              ({ p with tempMap := none },
                .map ⟨(dominant map.usageMask).1, (dominant map.usageMask).2, map.reports⟩)
            else
              ({ p with tempMap := none }, .null)
      else
        ({ p with tempMap := none }, .null)

/-! ## Lengths -/

/-- The length that is kept for a kind of report. -/
def ReportParams.len (p : ReportParams) : Kind → UInt16
  | .input => p.inputLen
  | .output => p.outputLen
  | .feature => p.featureLen

theorem and_seven_eq_zero {x : UInt16} : x &&& 7 = 0 ↔ x.toNat % 8 = 0 := by
  rw [← UInt16.toNat_inj, UInt16.toNat_and]
  show x.toNat &&& (2 ^ 3 - 1) = 0 ↔ _
  rw [Nat.and_two_pow_sub_one_eq_mod]

theorem whole_iff {p : ReportParams} : p.whole = true ↔ ∀ k, (p.len k).toNat % 8 = 0 := by
  rw [ReportParams.whole, decide_eq_true_iff, and_seven_eq_zero, and_seven_eq_zero,
    and_seven_eq_zero]
  constructor
  · rintro ⟨hin, hout, hfeature⟩ k
    cases k with
    | input => exact hin
    | output => exact hout
    | feature => exact hfeature
  · intro h
    exact ⟨h .input, h .output, h .feature⟩

theorem toNat_ofNat_mod_eight (n : Nat) : (UInt16.ofNat n).toNat % 8 = n % 8 := by
  rw [UInt16.toNat_ofNat']
  omega

/-! ## What a table says -/

/-- A line of the table: id, type, and length in bytes. -/
def ReportItem.entry (r : ReportItem) : Nat × Kind × Nat :=
  (r.reportId.toNat, r.reportType, r.valueLen.toNat)

/-- The lines of one report, by what its fields amount to. -/
def entriesOf (fs : List Field) (id : Nat) : List (Nat × Kind × Nat) :=
  [Kind.input, .output, .feature].filterMap fun k =>
    if 0 < bits fs k id then some (id, k, bits fs k id / 8) else none

/-- What the table of a parser says so far. -/
structure TableIs (p : Parser) (done : List (Nat × Kind × Nat)) : Prop where
  fresh : p.newMap = true → done = []
  lines : p.newMap = false → ∃ m, p.tempMap = some m ∧ m.reports.map ReportItem.entry = done ∧
    ∀ r ∈ m.reports, r.protocolMode = .report

theorem TableIs.congr {p p' : Parser} {done : List (Nat × Kind × Nat)} (h : TableIs p done)
    (hnew : p'.newMap = p.newMap) (htemp : p'.tempMap = p.tempMap) : TableIs p' done :=
  ⟨fun hn => h.fresh (hnew ▸ hn), fun hn => htemp ▸ h.lines (hnew ▸ hn)⟩

theorem addReports_eq {items : List ReportItem} (map : TempMap)
    (h : map.reports.length + items.length ≤ 64) :
    ∃ map', addReports map items = (map', true) ∧ map'.reports = map.reports ++ items ∧
      map'.usageMask = map.usageMask := by
  induction items generalizing map with
  | nil => exact ⟨map, rfl, (List.append_nil _).symm, rfl⟩
  | cons item items ih =>
      rw [List.length_cons] at h
      have hroom : map.reports.length < 64 := by omega
      rw [addReports, addReport, dif_pos hroom]
      obtain ⟨map', hadd, hreports, hmask⟩ :=
        ih ⟨map.usageMask, map.reports ++ [item], by simp; omega⟩ (by simp; omega)
      refine ⟨map', hadd, ?_, hmask⟩
      rw [hreports, List.append_assoc]
      rfl

/-- Off the Generic Desktop page a report is neither a keyboard's nor a mouse's. -/
theorem usageOfReport_of_page {report : ReportParams}
    (h : report.usagePage ≠ hidUsagePageGenericDesktop) :
    usageOfReport report ≠ .keyboard ∧ usageOfReport report ≠ .mouse := by
  rw [usageOfReport, if_neg (fun hc => h hc.1), if_neg (fun hc => h hc.1), if_neg h]
  split
  · exact ⟨nofun, nofun⟩
  · split <;> exact ⟨nofun, nofun⟩

/-- The items of such a report are one for each kind that has a length. -/
theorem reportItems_eq {report : ReportParams}
    (h : report.usagePage ≠ hidUsagePageGenericDesktop) :
    reportItems report = [Kind.input, .output, .feature].filterMap fun k =>
      if 0 < report.len k then
        some ⟨usageOfReport report, report.reportId, k, .report, report.len k / 8⟩
      else none := by
  obtain ⟨hkeyboard, hmouse⟩ := usageOfReport_of_page h
  rw [reportItems]
  split
  · exact absurd ‹_› hkeyboard
  · exact absurd ‹_› hmouse
  · by_cases hin : 0 < report.inputLen <;> by_cases hout : 0 < report.outputLen <;>
      by_cases hfeature : 0 < report.featureLen <;>
      simp [ReportParams.len, hin, hout, hfeature]

/-- The parameters stand for the report `id` of the fields. -/
structure Stands (report : ReportParams) (fs : List Field) (id : Nat) : Prop where
  page     : report.usagePage ≠ hidUsagePageGenericDesktop
  reportId : report.reportId.toNat = id
  len      : ∀ k, report.len k = UInt16.ofNat (bits fs k id)

theorem entries_reportItems {report : ReportParams} {fs : List Field} {id : Nat}
    (h : Stands report fs id) (hsmall : ∀ k, bits fs k id < 65536) :
    (reportItems report).map ReportItem.entry = entriesOf fs id ∧
      ∀ r ∈ reportItems report, r.protocolMode = .report := by
  have hnat : ∀ k, (report.len k).toNat = bits fs k id := by
    intro k
    rw [h.len k, UInt16.toNat_ofNat']
    exact Nat.mod_eq_of_lt (hsmall k)
  rw [reportItems_eq h.page]
  constructor
  · rw [List.map_filterMap, entriesOf]
    refine List.filterMap_congr fun k _ => ?_
    have hpos : 0 < report.len k ↔ 0 < bits fs k id := by
      rw [UInt16.lt_iff_toNat_lt, hnat k]
      rfl
    by_cases hk : 0 < bits fs k id
    · rw [if_pos hk, if_pos (hpos.mpr hk), Option.map_some, ReportItem.entry, h.reportId,
        UInt16.toNat_div, hnat k]
      rfl
    · rw [if_neg hk, if_neg (fun hc => hk (hpos.mp hc))]
      rfl
  · intro r hr
    obtain ⟨k, -, hk⟩ := List.mem_filterMap.mp hr
    split at hk
    · obtain rfl := Option.some.inj hk
      rfl
    · exact nomatch hk

/-- **A finished report adds its lines to the table.** -/
theorem handleReport_eq {heap : Heap} {p : Parser} {fs : List Field} {id : Nat}
    {done : List (Nat × Kind × Nat)} (hheap : heap.tempMap = true)
    (h : Stands p.params fs id) (hsmall : ∀ k, bits fs k id < 65536) (ht : TableIs p done)
    (hfit : (done ++ entriesOf fs id).length ≤ 64) :
    ∃ m, handleReport heap p.params p.newMap p.tempMap = (some m, true) ∧
      m.reports.map ReportItem.entry = done ++ entriesOf fs id ∧
      ∀ r ∈ m.reports, r.protocolMode = .report := by
  obtain ⟨hentries, hmode⟩ := entries_reportItems h hsmall
  rw [List.length_append, ← hentries, List.length_map] at hfit
  -- the map that the items are added to holds the lines so far
  have hadd : ∀ map : TempMap, map.reports.map ReportItem.entry = done →
      (∀ r ∈ map.reports, r.protocolMode = .report) →
      ∃ m, addReports { map with
          usageMask := map.usageMask ||| (usageOfReport p.params).bit } (reportItems p.params) =
            (m, true) ∧
        m.reports.map ReportItem.entry = done ++ entriesOf fs id ∧
        ∀ r ∈ m.reports, r.protocolMode = .report := by
    intro map hlines hmap
    rw [← hlines, List.length_map] at hfit
    obtain ⟨m, hm, hreports, -⟩ := addReports_eq { map with
      usageMask := map.usageMask ||| (usageOfReport p.params).bit } hfit
    refine ⟨m, hm, ?_, ?_⟩
    · rw [hreports, List.map_append, hlines, hentries]
    · intro r hr
      rw [hreports] at hr
      exact (List.mem_append.mp hr).elim (hmap r) (hmode r)
  cases hnew : p.newMap with
  | true =>
      obtain ⟨m, hm, hlines⟩ := hadd TempMap.cleared (ht.fresh hnew).symm (fun r hr => nomatch hr)
      refine ⟨m, ?_, hlines⟩
      cases p.tempMap with
      | none => simp only [handleReport, hheap, if_true, hm]
      | some map => simp only [handleReport, if_true, hm]
  | false =>
      obtain ⟨map, htemp, hdone, hmap⟩ := ht.lines hnew
      obtain ⟨m, hm, hlines⟩ := hadd map hdone hmap
      refine ⟨m, ?_, hlines⟩
      simp only [handleReport, htemp, Bool.false_eq_true, if_false, hm]

/-! ## One item inside a collection -/

/-- A main item adds to the length of its kind. -/
def ReportParams.addLen (p : ReportParams) (n : UInt16) : Kind → ReportParams
  | .input => { p with inputLen := p.inputLen + n }
  | .output => { p with outputLen := p.outputLen + n }
  | .feature => { p with featureLen := p.featureLen + n }

theorem ReportParams.len_addLen (p : ReportParams) (n : UInt16) (k k' : Kind) :
    (p.addLen n k).len k' = if k = k' then p.len k' + n else p.len k' := by
  cases k <;> cases k' <;> rfl

/-- What `handle_cmd` does inside a collection, item by item. -/
theorem handleCmd_inside {heap : Heap} {p : Parser} {it : ShortItem}
    (h : p.step = .waitEndCollection) :
    handleCmd heap p it =
      match it.tag with
      | .main k =>
          ({ p with params := p.params.addLen (p.reportSize * p.reportCount) k }, true)
      | .collection => ({ p with collectionDepth := p.collectionDepth + 1 }, true)
      | .endCollection => handleEndCollection heap p
      | .usagePage =>
          ({ p with params := { p.params with innerUsagePage := UInt16.ofNat it.value } }, true)
      | .reportSize => ({ p with reportSize := UInt16.ofNat it.value }, true)
      | .reportId => handleReportId heap p it.value
      | .reportCount => ({ p with reportCount := UInt16.ofNat it.value }, true)
      | .usage =>
          ({ p with params := { p.params with innerUsage := UInt16.ofNat it.value } }, true)
      | _ => (p, true) := by
  obtain ⟨step, depth, params, size, count, newMap, temp⟩ := p
  obtain rfl : step = .waitEndCollection := h
  rw [handleCmd, ShortItem.tag]
  generalize it.cmd = c
  -- a command that the parser knows, or one of those it passes over
  by_cases h0 : c = 0x84
  · subst c; rfl
  by_cases h1 : c = 0x04
  · subst c; rfl
  by_cases h2 : c = 0x08
  · subst c; rfl
  by_cases h3 : c = 0x74
  · subst c; rfl
  by_cases h4 : c = 0x94
  · subst c; rfl
  by_cases h5 : c = 0x80
  · subst c; rfl
  by_cases h6 : c = 0x90
  · subst c; rfl
  by_cases h7 : c = 0xB0
  · subst c; rfl
  by_cases h8 : c = 0xA0
  · subst c; rfl
  by_cases h9 : c = 0xC0
  · subst c; rfl
  have hpass : tagOf c = .push ∨ tagOf c = .pop ∨ tagOf c = .usageMinimum ∨
      tagOf c = .usageMaximum ∨ tagOf c = .ignored := by
    simp only [tagOf, h0, h1, h2, h3, h4, h5, h6, h7, h8, h9, if_false]
    split_ifs <;> simp
  simp only [hidRmReportId, hidRmUsagePage, hidRmUsage, hidRmReportSize, hidRmReportCount,
    hidRmInput, hidRmOutput, hidRmFeature, hidRmCollection, hidRmEndCollection, h0, h1, h2, h3,
    h4, h5, h6, h7, h8, h9, if_false]
  rcases hpass with ht | ht | ht | ht | ht <;> rw [ht]

/-! ## The parser and the host in step -/

/-- An item that stays within one report: no new id, and no global values put away
    or taken back. -/
structure Plain (it : ShortItem) : Prop where
  reportId : it.tag ≠ .reportId
  push     : it.tag ≠ .push
  pop      : it.tag ≠ .pop

instance (it : ShortItem) : Decidable (Plain it) :=
  decidable_of_iff (it.tag ≠ .reportId ∧ it.tag ≠ .push ∧ it.tag ≠ .pop)
    ⟨fun h => ⟨h.1, h.2.1, h.2.2⟩, fun h => ⟨h.1, h.2, h.3⟩⟩

/-- An item that does not turn to the Generic Desktop page. -/
def OffDesktop (it : ShortItem) : Prop :=
  it.tag = .usagePage → UInt16.ofNat it.value ≠ hidUsagePageGenericDesktop

instance (it : ShortItem) : Decidable (OffDesktop it) :=
  inferInstanceAs (Decidable (it.tag = .usagePage → _))

theorem Plain.reportId_read {it : ShortItem} (h : Plain it) (r : Reader) :
    (r.read it).globals.reportId = r.globals.reportId := by
  rw [Reader.read]
  cases htag : it.tag with
  | reportId => exact absurd htag h.reportId
  | push => exact absurd htag h.push
  | pop => exact absurd htag h.pop
  | _ => rfl

theorem reportId_readAll {its : List ShortItem} (h : ∀ it ∈ its, Plain it) (r : Reader) :
    (r.readAll its).globals.reportId = r.globals.reportId := by
  induction its generalizing r with
  | nil => rfl
  | cons it its ih =>
      rw [Reader.readAll_cons, ih (fun x hx => h x (List.mem_cons_of_mem it hx)),
        (h it List.mem_cons_self).reportId_read]

/-- Items of one report declare fields of that report only. -/
theorem reportId_declaresAll {its : List ShortItem} (h : ∀ it ∈ its, Plain it) (r : Reader) :
    ∀ f ∈ r.declaresAll its, f.reportId = r.globals.reportId := by
  induction its generalizing r with
  | nil =>
      intro f hf
      cases hf
  | cons it its ih =>
      intro f hf
      rcases List.mem_append.mp hf with hone | hrest
      · rw [Reader.declares] at hone
        split at hone
        · obtain rfl := List.mem_singleton.mp hone
          rfl
        · cases hone
      · rw [ih (fun x hx => h x (List.mem_cons_of_mem it hx)) _ f hrest,
          (h it List.mem_cons_self).reportId_read]

/-- The depth of the collections after an item, within what eight bits hold and
    inside the outermost one. -/
def depthStep (d : Nat) : Tag → Option Nat
  | .collection => if d < 255 then some (d + 1) else none
  | .endCollection => if 1 < d then some (d - 1) else none
  | _ => some d

def depthAfter : Nat → List ShortItem → Option Nat
  | d, [] => some d
  | d, it :: its => (depthStep d it.tag).bind (depthAfter · its)

theorem depthAfter_append {d d' : Nat} {its its' : List ShortItem}
    (h : depthAfter d (its ++ its') = some d') :
    ∃ d₁, depthAfter d its = some d₁ ∧ depthAfter d₁ its' = some d' := by
  induction its generalizing d with
  | nil => exact ⟨d, rfl, h⟩
  | cons it its ih =>
      obtain ⟨d₁, hd₁, hrest⟩ := Option.bind_eq_some_iff.mp h
      obtain ⟨d₂, hd₂, hlast⟩ := ih hrest
      exact ⟨d₂, Option.bind_eq_some_iff.mpr ⟨d₁, hd₁, hd₂⟩, hlast⟩

/-- The parser, inside a collection, and a host agree on the values in force and
    on the current id. -/
structure InStep (p : Parser) (r : Reader) (d : Nat) : Prop where
  step     : p.step = .waitEndCollection
  depth    : p.collectionDepth.toNat = d
  size     : p.reportSize = UInt16.ofNat r.globals.reportSize
  count    : p.reportCount = UInt16.ofNat r.globals.reportCount
  reportId : p.params.reportId.toNat = r.globals.reportId

/-- What going through the items of one report, which declare `new`, does to the
    report and to the table. -/
structure Passes (p p' : Parser) (its : List ShortItem) (new : List Field) : Prop where
  len     : ∀ k, p'.params.len k = p.params.len k + UInt16.ofNat (kindBits new k)
  page    : p'.params.usagePage = p.params.usagePage
  inner   : (∀ it ∈ its, OffDesktop it) →
    p.params.innerUsagePage ≠ hidUsagePageGenericDesktop →
    p'.params.innerUsagePage ≠ hidUsagePageGenericDesktop
  newMap  : p'.newMap = p.newMap
  tempMap : p'.tempMap = p.tempMap

/-- An item that declares nothing leaves the lengths. -/
theorem Passes.of_len_eq {p p' : Parser} {its : List ShortItem}
    (hlen : ∀ k, p'.params.len k = p.params.len k)
    (hpage : p'.params.usagePage = p.params.usagePage)
    (hinner : (∀ it ∈ its, OffDesktop it) →
      p.params.innerUsagePage ≠ hidUsagePageGenericDesktop →
      p'.params.innerUsagePage ≠ hidUsagePageGenericDesktop)
    (hnew : p'.newMap = p.newMap) (htemp : p'.tempMap = p.tempMap) : Passes p p' its [] where
  len k := (hlen k).trans (UInt16.add_zero _).symm
  page := hpage
  inner := hinner
  newMap := hnew
  tempMap := htemp

theorem Passes.append {p p₁ p' : Parser} {its its' : List ShortItem} {new new' : List Field}
    (h : Passes p p₁ its new) (h' : Passes p₁ p' its' new') :
    Passes p p' (its ++ its') (new ++ new') where
  len k := by
    rw [h'.len k, h.len k, kindBits_append, UInt16.ofNat_add, UInt16.add_assoc]
  page := h'.page.trans h.page
  inner hoff hpage := h'.inner (fun it hit => hoff it (List.mem_append_right _ hit))
    (h.inner (fun it hit => hoff it (List.mem_append_left _ hit)) hpage)
  newMap := h'.newMap.trans h.newMap
  tempMap := h'.tempMap.trans h.tempMap

/-- A main item declares for its kind what it adds to the length. -/
theorem len_main {p : Parser} {r : Reader} {d : Nat} (hi : InStep p r d) (k : Kind) (flags : Nat)
    (k' : Kind) :
    (p.params.addLen (p.reportSize * p.reportCount) k).len k' =
      p.params.len k' + UInt16.ofNat (kindBits [r.field k flags] k') := by
  rw [ReportParams.len_addLen, kindBits_singleton]
  by_cases hk : k = k'
  · rw [if_pos hk, if_pos (show (r.field k flags).kind = k' from hk), hi.size, hi.count]
    exact congrArg _ (UInt16.ofNat_mul _ _).symm
  · rw [if_neg hk, if_neg (show (r.field k flags).kind ≠ k' from hk)]
    exact (UInt16.add_zero _).symm

theorem inStep_item (heap : Heap) {p : Parser} {r : Reader} {d d' : Nat} {it : ShortItem}
    (hi : InStep p r d) (hplain : Plain it) (hd : depthStep d it.tag = some d') :
    ∃ p', handleCmd heap p it = (p', true) ∧ InStep p' (r.read it) d' ∧
      Passes p p' [it] (r.declares it) := by
  have hmain := len_main hi
  rw [handleCmd_inside hi.step, Reader.read, Reader.declares]
  obtain ⟨hstep, hdepth, hsize, hcount, hid⟩ := hi
  cases htag : it.tag with
  | main k =>
      rw [htag] at hd
      obtain rfl := Option.some.inj hd
      refine ⟨_, rfl, ⟨hstep, hdepth, hsize, hcount, ?_⟩, hmain k it.value, ?_, fun _ h => ?_,
        rfl, rfl⟩
      · cases k <;> exact hid
      · cases k <;> rfl
      · cases k <;> exact h
  | collection =>
      rw [htag, depthStep] at hd
      split at hd
      case isFalse => cases hd
      case isTrue hlt =>
        obtain rfl := Option.some.inj hd
        refine ⟨_, rfl, ⟨hstep, ?_, hsize, hcount, hid⟩,
          .of_len_eq (fun _ => rfl) rfl (fun _ h => h) rfl rfl⟩
        show (p.collectionDepth + 1).toNat = d + 1
        rw [UInt8.toNat_add, hdepth]
        exact Nat.mod_eq_of_lt (show d + 1 < 256 by omega)
  | endCollection =>
      rw [htag, depthStep] at hd
      split at hd
      case isFalse => cases hd
      case isTrue hlt =>
        obtain rfl := Option.some.inj hd
        have hbound := p.collectionDepth.toNat_lt
        have hdown : (p.collectionDepth - 1).toNat = d - 1 := by
          rw [UInt8.toNat_sub_of_le _ _ (by rw [UInt8.le_iff_toNat_le, hdepth]; exact hlt.le),
            hdepth]
          rfl
        have hne : p.collectionDepth - 1 ≠ 0 := by
          intro hzero
          rw [hzero] at hdown
          have : (0 : UInt8).toNat = 0 := rfl
          omega
        refine ⟨{ p with collectionDepth := p.collectionDepth - 1 }, ?_,
          ⟨hstep, hdown, hsize, hcount, hid⟩,
          .of_len_eq (fun _ => rfl) rfl (fun _ h => h) rfl rfl⟩
        show handleEndCollection heap p = _
        simp only [handleEndCollection, hne, if_false]
  | usagePage =>
      rw [htag] at hd
      obtain rfl := Option.some.inj hd
      exact ⟨_, rfl, ⟨hstep, hdepth, hsize, hcount, hid⟩, .of_len_eq (fun k => by cases k <;> rfl)
        rfl (fun hoff _ => hoff it List.mem_cons_self htag) rfl rfl⟩
  | reportSize =>
      rw [htag] at hd
      obtain rfl := Option.some.inj hd
      exact ⟨_, rfl, ⟨hstep, hdepth, rfl, hcount, hid⟩,
        .of_len_eq (fun _ => rfl) rfl (fun _ h => h) rfl rfl⟩
  | reportId => exact absurd htag hplain.reportId
  | reportCount =>
      rw [htag] at hd
      obtain rfl := Option.some.inj hd
      exact ⟨_, rfl, ⟨hstep, hdepth, hsize, rfl, hid⟩,
        .of_len_eq (fun _ => rfl) rfl (fun _ h => h) rfl rfl⟩
  | push => exact absurd htag hplain.push
  | pop => exact absurd htag hplain.pop
  | usage =>
      rw [htag] at hd
      obtain rfl := Option.some.inj hd
      exact ⟨_, rfl, ⟨hstep, hdepth, hsize, hcount, hid⟩, .of_len_eq (fun k => by cases k <;> rfl)
        rfl (fun _ h => h) rfl rfl⟩
  | usageMinimum | usageMaximum | ignored =>
      rw [htag] at hd
      obtain rfl := Option.some.inj hd
      exact ⟨_, rfl, ⟨hstep, hdepth, hsize, hcount, hid⟩,
        .of_len_eq (fun _ => rfl) rfl (fun _ h => h) rfl rfl⟩

/-- The items of one report, by induction on them. -/
theorem inStep_items (heap : Heap) {its : List ShortItem} {p : Parser} {r : Reader} {d d' : Nat}
    (hi : InStep p r d) (hplain : ∀ it ∈ its, Plain it) (hd : depthAfter d its = some d') :
    ∃ p', Code.handleAll (handleCmd heap) p its = (p', true) ∧ InStep p' (r.readAll its) d' ∧
      Passes p p' its (r.declaresAll its) := by
  induction its generalizing p r d with
  | nil =>
      obtain rfl := Option.some.inj hd
      exact ⟨p, rfl, hi, .of_len_eq (fun _ => rfl) rfl (fun _ h => h) rfl rfl⟩
  | cons it its ih =>
      obtain ⟨d₁, hd₁, hrest⟩ := Option.bind_eq_some_iff.mp hd
      obtain ⟨p₁, hp₁, hi₁, hpass₁⟩ :=
        inStep_item heap hi (hplain it List.mem_cons_self) hd₁
      obtain ⟨p', hp', hi', hpass'⟩ :=
        ih hi₁ (fun x hx => hplain x (List.mem_cons_of_mem it hx)) hrest
      exact ⟨p', (Code.handleAll_cons_true hp₁).trans hp', hi', hpass₁.append hpass'⟩

/-! ## A new id, and the end of the collection -/

/-- A report ends at another id, and what it amounts to goes to the table if it is
    whole bytes. -/
theorem handleCmd_reportId (heap : Heap) {p : Parser} {it : ShortItem}
    (h : p.step = .waitEndCollection) (htag : it.tag = .reportId) :
    handleCmd heap p it =
      if p.params.reportId ≠ 0 ∧ p.params.reportId.toNat ≠ it.value ∧ p.params.whole = true then
        match handleReport heap p.params p.newMap p.tempMap with
        | (temp, false) => ({ p with tempMap := temp, step := .waitUsagePage }, false)
        | (temp, true) =>
            ({ p with
              tempMap := temp
              newMap := false
              params := { p.params with
                inputLen := 0
                outputLen := 0
                featureLen := 0
                usage := p.params.innerUsage
                usagePage := p.params.innerUsagePage
                reportId := UInt8.ofNat it.value } }, true)
      else
        ({ p with params := { p.params with reportId := UInt8.ofNat it.value } }, true) := by
  rw [handleCmd_inside h]
  simp only [htag, handleReportId]
  by_cases hother : p.params.reportId ≠ 0 ∧ p.params.reportId.toNat ≠ it.value
  · by_cases hwhole : p.params.whole = true
    · rw [if_pos hother, if_pos hwhole, if_pos ⟨hother.1, hother.2, hwhole⟩]
    · rw [if_pos hother, if_neg hwhole, if_neg (fun hc => hwhole hc.2.2)]
  · rw [if_neg hother, if_neg (fun hc => hother ⟨hc.1, hc.2.1⟩)]

/-- The end of the outermost collection ends the last report. -/
theorem handleCmd_end (heap : Heap) {p : Parser} {it : ShortItem}
    (h : p.step = .waitEndCollection) (htag : it.tag = .endCollection)
    (hdepth : p.collectionDepth.toNat = 1) :
    handleCmd heap p it =
      if p.params.whole then
        match handleReport heap p.params p.newMap p.tempMap with
        | (temp, false) =>
            ({ p with collectionDepth := 0, tempMap := temp, step := .waitUsagePage }, false)
        | (temp, true) =>
            ({ p with
              collectionDepth := 0, tempMap := temp, newMap := false,
              step := .waitUsagePage }, true)
      else
        ({ p with collectionDepth := 0, step := .waitUsagePage }, true) := by
  have hone : p.collectionDepth = 1 := UInt8.toNat_inj.mp hdepth
  rw [handleCmd_inside h]
  simp only [htag, handleEndCollection, hone]
  rfl

/-- With memory for it, or with one at hand, a finished report leaves a table. -/
theorem handleReport_isSome (heap : Heap) (report : ReportParams) (first : Bool)
    (temp : Option TempMap) (h : heap.tempMap = true ∨ temp.isSome) :
    (handleReport heap report first temp).1.isSome := by
  cases temp with
  | some map => rfl
  | none =>
      rcases h with h | h
      · simp only [handleReport, h, if_true, Option.isSome_some]
      · cases h

end ReportMap
