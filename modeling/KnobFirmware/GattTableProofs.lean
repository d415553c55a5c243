import KnobFirmware.RecordTableProofs
import KnobFirmware.ReportMapProofs
import Mathlib.Data.List.Induction

/-! # The attribute table of the HID service — `create_hid_db` and its handles

    For each report map the driver fills one block with the attributes of the HID
    service and hands it to the stack, which answers with a handle for every
    attribute.  `create_hid_db` has counted the attributes before it allocates;
    each report keeps the place of its value in a `uint8_t`, and
    `link_report_handles` turns the places into handles.  From then on a write or
    a read finds its report by handle.

    1. `hid_db_filled` — the count is right: the block is never left, and the
       stack is given no cell that was not written.
    2. `routed_iff` — the handles lead back to the reports they were made for,
       unless memory that was never written stands in the way: a report that is
       not an input report has no `ccc_handle` of its own, and the search compares
       it all the same.
    3. `routed_iff_narrow` — and unless a place does not fit in the `uint8_t`.
    4. `input_set_after` — after any writes a report is sent or not by the last
       value that its client configuration was given. -/

namespace GattTable

open RecordTable HidReport ReportMap

/-! ## The code -/

/-- The UUIDs of the attributes. -/
inductive AttrUuid where
  | primaryService
  | includeService
  | characterDeclaration
  | clientConfig
  | hidInfo
  | hidControlPoint
  | hidProtoMode
  | hidReportMap
  | extRptRef
  | hidReport
  | rptRef
  | bootKbInput
  | bootKbOutput
  | bootMouseInput
  deriving DecidableEq, Repr

/-- What an attribute's value points to. -/
inductive AttrValue where
  | null
  | hidService
  | inclService
  | charProp (bits : UInt8)
  | hidInfo
  | protocol
  | reportMap
  | batLevelUuid
  /-- the id and the type of a report, which follow each other in it -/
  | reportRef (reportId : UInt8) (reportType : Kind)
  deriving DecidableEq, Repr

/-- `esp_gatts_attr_db_t`. -/
structure Attr where
  uuid      : AttrUuid
  perm      : UInt16
  maxLength : Nat
  length    : Nat
  value     : AttrValue
  deriving DecidableEq, Repr

def permRead : UInt16 := (1 : UInt16) <<< 0
def permReadEncrypted : UInt16 := (1 : UInt16) <<< 1
def permWrite : UInt16 := (1 : UInt16) <<< 4
def permWriteEncrypted : UInt16 := (1 : UInt16) <<< 5

def propRead : UInt8 := (1 : UInt8) <<< 1
def propWriteNr : UInt8 := (1 : UInt8) <<< 2
def propWrite : UInt8 := (1 : UInt8) <<< 3
def propNotify : UInt8 := (1 : UInt8) <<< 4

/-- `HIDD_LE_REPORT_MAP_MAX_LEN`. -/
def hiddLeReportMapMaxLen : Nat := 512

/-- `HIDD_LE_BOOT_REPORT_MAX_LEN`. -/
def hiddLeBootReportMaxLen : Nat := 8

/-- `sizeof(esp_gatts_incl_svc_desc_t)`. -/
def inclSvcDescSize : Nat := 6

/-- `hidd_report_item_t`.  `ble_hid_init_config` allocates it and writes the
    fields of `item`; the others hold what the memory held. -/
structure HiddReportItem where
  item      : ReportItem
  index     : UInt8
  handle    : UInt16
  cccHandle : UInt16
  ccc       : UInt16
  deriving DecidableEq, Repr

/-- A characteristic declaration. -/
def declaration (props : UInt8) : Attr :=
  ⟨.characterDeclaration, permRead, 1, 1, .charProp props⟩

/-- The attributes `HIDD_LE_IDX_SVC` to `HIDD_LE_IDX_REPORT_MAP_EXT_REP_REF`, in the
    order of the enumeration. -/
def serviceAttrs (reportMapLen : Nat) : List Attr :=
  [⟨.primaryService, permReadEncrypted, 2, 2, .hidService⟩,
    ⟨.includeService, permRead, inclSvcDescSize, inclSvcDescSize, .inclService⟩,
    declaration propRead,
    ⟨.hidInfo, permRead, 4, 4, .hidInfo⟩,
    declaration propWriteNr,
    ⟨.hidControlPoint, permRead ||| permWrite, 1, 0, .null⟩,
    declaration (propWriteNr ||| propRead),
    ⟨.hidProtoMode, permRead ||| permWrite, 1, 1, .protocol⟩,
    declaration propRead,
    ⟨.hidReportMap, permRead, hiddLeReportMapMaxLen, reportMapLen, .reportMap⟩,
    ⟨.extRptRef, permRead, 2, 2, .batLevelUuid⟩]

/-- `HIDD_LE_IDX_NB`. -/
def hiddLeIdxNb : Nat := 11

/-- The attributes that one round of the loop adds.  Each branch adds a
    declaration, then notes the index, then adds the value and what follows it. -/
def reportAttrs (r : ReportItem) : List Attr :=
  match r.protocolMode with
  | .report =>
      let reference : Attr := ⟨.rptRef, permRead, 2, 2, .reportRef r.reportId r.reportType⟩
      match r.reportType with
      | .input =>
          [declaration (propRead ||| propNotify),
            ⟨.hidReport, permRead, r.valueLen.toNat, 0, .null⟩,
            ⟨.clientConfig, permRead ||| permWriteEncrypted, 2, 0, .null⟩, reference]
      | .output =>
          [declaration (propWrite ||| propWriteNr ||| propRead),
            ⟨.hidReport, permRead ||| permWrite, r.valueLen.toNat, 0, .null⟩, reference]
      | .feature =>
          [declaration (propWrite ||| propRead),
            ⟨.hidReport, permRead ||| permWrite, r.valueLen.toNat, 0, .null⟩, reference]
  | .boot =>
      match r.reportType with
      | .input =>
          [declaration (propRead ||| propNotify),
            ⟨if r.usage = .keyboard then .bootKbInput else .bootMouseInput, permRead,
              hiddLeBootReportMaxLen, 0, .null⟩,
            ⟨.clientConfig, permRead ||| permWrite, 2, 0, .null⟩]
      | .output | .feature =>
          [declaration (propWrite ||| propWriteNr ||| propRead),
            ⟨.bootKbOutput, permRead ||| permWrite, hiddLeBootReportMaxLen, 0, .null⟩]

/-- What one report adds to `report_attr_len`. -/
def reportAttrLen (r : ReportItem) : Nat :=
  (if r.reportType = .input then 3 else 2) + if r.protocolMode = .report then 1 else 0

/-- The loop over the reports: the block, the index, and the reports with their
    places. -/
def addReports (db : List (Option Attr)) (index : Nat) :
    List HiddReportItem → Option (List (Option Attr) × Nat × List HiddReportItem)
  | [] => some (db, index, [])
  | r :: rest =>
      (putAll db index (reportAttrs r.item)).bind fun db =>
        (addReports db (index + (reportAttrs r.item).length) rest).map fun out =>
          (out.1, out.2.1, { r with index := UInt8.ofNat (index + 1) } :: out.2.2)

/-- What `create_hid_db` hands on: nothing if `malloc` fails, else the block, the
    number of attributes, and the reports. -/
inductive Created where
  | noMem
  | table (db : List (Option Attr)) (count : Nat) (reports : List HiddReportItem)
  deriving DecidableEq, Repr

/-- `create_hid_db`; `none` is a write outside the block. -/
def createHidDb (malloc : Bool) (devicesLen reportMapLen : Nat) (reports : List HiddReportItem) :
    Option Created :=
  let reportAttrLen := (reports.map fun r => reportAttrLen r.item).sum
  if malloc then
    (putAll (List.replicate (hiddLeIdxNb + reportAttrLen + devicesLen * 3) none) 0
      (serviceAttrs reportMapLen)).bind fun db =>
        (addReports db hiddLeIdxNb reports).map fun out => .table out.1 out.2.1 out.2.2
  else some .noMem

/-- `link_report_handles`. -/
def linkReportHandles (reports : List HiddReportItem) (handles : Nat → UInt16) :
    List HiddReportItem :=
  reports.map fun rpt =>
    { rpt with
      handle := handles rpt.index.toNat
      cccHandle :=
        if rpt.item.reportType = .input then handles (rpt.index.toNat + 1) else rpt.cccHandle }

/-- The comparison of `get_report_by_handle`. -/
def answersTo (handle : UInt16) (rpt : HiddReportItem) : Bool :=
  rpt.handle = handle || rpt.cccHandle = handle

/-- `get_report_by_handle`: the report's device and its place there. -/
def getReportByHandle (devices : List (List HiddReportItem)) (handle : UInt16) :
    Option (Nat × Nat) :=
  findAt (answersTo handle) devices

/-- `get_report_by_id_and_type`. -/
def getReportByIdAndType (devices : List (List HiddReportItem)) (reportId : UInt8)
    (reportType : Kind) : Option (Nat × Nat) :=
  findAt (fun rpt => rpt.item.reportId = reportId && rpt.item.reportType = reportType &&
    rpt.item.protocolMode = .report) devices

/-- `HIDD_LE_IDX_HID_CTNL_PT_VAL` and `HIDD_LE_IDX_PROTO_MODE_VAL`. -/
def hiddLeIdxHidCtnlPtVal : Nat := 5
def hiddLeIdxProtoModeVal : Nat := 7

/-- The handles of a device map that are no report's. -/
structure ServiceHandles where
  hidControlHandle  : UInt16
  hidProtocolHandle : UInt16
  deriving DecidableEq, Repr

/-- `esp_ble_hidd_dev_t`, as far as a write goes: the device maps' service handles
    and their reports, the control point and the protocol mode. -/
structure BleHiddDev where
  services : List ServiceHandles
  devices  : List (List HiddReportItem)
  control  : UInt8
  protocol : UInt8
  deriving DecidableEq, Repr

/-- A write, as `hid_event_handler` takes it: the device map that its interface
    belongs to, the handle, and the first byte of the value. -/
structure HandleWrite where
  deviceIndex : Nat
  handle      : UInt16
  value       : UInt8
  deriving DecidableEq, Repr

/-- The report branch of `ESP_GATTS_WRITE_EVT`.  A write to another attribute of a
    report is posted to the application and changes no report. -/
def writeReport (devices : List (List HiddReportItem)) (w : HandleWrite) :
    List (List HiddReportItem) :=
  match getReportByHandle devices w.handle with
  | none => devices
  | some place =>
      modifyAt place (fun map =>
        if w.handle = map.cccHandle then { map with ccc := w.value.toUInt16 } else map) devices

/-- `ESP_GATTS_WRITE_EVT`, as far as it changes the device: the control point and
    the protocol mode of the device map come first.  Of an interface without a
    device map `gatts_event_handler` passes nothing on. -/
def gattsWrite (dev : BleHiddDev) (w : HandleWrite) : BleHiddDev :=
  match dev.services[w.deviceIndex]? with
  | none => dev
  | some map =>
      if w.handle = map.hidControlHandle then { dev with control := w.value }
      else if w.handle = map.hidProtocolHandle then { dev with protocol := w.value }
      else { dev with devices := writeReport dev.devices w }

/-- `esp_ble_hidd_dev_input_set`, as far as the call of
    `esp_ble_gatts_send_indicate`: the handle it sends to and whether it asks for
    a confirmation. -/
def espBleHiddDevInputSet (connected : Bool) (devices : List (List HiddReportItem))
    (index : Nat) (reportId : UInt8) : Option (UInt16 × Bool) :=
  if connected = false then none
  else if devices.length ≤ index then none
  else
    match getReportByIdAndType devices reportId .input with
    | none => none
    | some place =>
        match itemAt devices place with
        | none => none
        | some rpt => if rpt.ccc ≠ 0 then some (rpt.handle, decide (rpt.ccc &&& 2 ≠ 0)) else none

/-! ## The block -/

section Block

variable {reports : List HiddReportItem} {db : List (Option Attr)} {as : List Attr}

/-- Both counts of the attributes of a report agree. -/
theorem reportAttrs_length (r : ReportItem) : (reportAttrs r).length = reportAttrLen r := by
  obtain ⟨usage, reportId, reportType, protocolMode, valueLen⟩ := r
  cases protocolMode <;> cases reportType <;> rfl

/-- The attributes of all reports. -/
def allAttrs (reports : List HiddReportItem) : List Attr :=
  reports.flatMap fun r => reportAttrs r.item

theorem allAttrs_length :
    (allAttrs reports).length = (reports.map fun r => reportAttrLen r.item).sum := by
  induction reports with
  | nil => rfl
  | cons r rest ih =>
      rw [allAttrs, List.flatMap_cons, List.length_append, reportAttrs_length, List.map_cons,
        List.sum_cons]
      exact congrArg (reportAttrLen r.item + ·) ih

/-- The reports with the places of their values, the first record beginning at
    `base`. -/
def indexed (base : Nat) : List HiddReportItem → List HiddReportItem
  | [] => []
  | r :: rest =>
      { r with index := UInt8.ofNat (base + 1) } :: indexed (base + reportAttrLen r.item) rest

/-- The loop fills the block in order and notes each place. -/
theorem addReports_written (as : List Attr) (spare : Nat) :
    addReports (written as ((allAttrs reports).length + spare)) as.length reports =
      some (written (as ++ allAttrs reports) spare, as.length + (allAttrs reports).length,
        indexed as.length reports) := by
  induction reports generalizing as with
  | nil => simp [addReports, allAttrs, indexed]
  | cons r rest ih =>
      have hsplit : allAttrs (r :: rest) = reportAttrs r.item ++ allAttrs rest := rfl
      have hfill := putAll_written as (reportAttrs r.item) ((allAttrs rest).length + spare)
      have hrest := ih (as ++ reportAttrs r.item)
      rw [List.length_append] at hrest
      rw [addReports, hsplit, List.length_append, Nat.add_assoc, hfill, Option.bind_some, hrest,
        Option.map_some, indexed, List.append_assoc, reportAttrs_length, Nat.add_assoc]

/-- **The count is right.**  For all reports and any number of devices,
    `create_hid_db` stays inside the block it has allocated, writes every cell that
    it hands to the stack, and notes for each report the place of its value, as far
    as eight bits keep it. -/
theorem hid_db_filled (devicesLen reportMapLen : Nat) (reports : List HiddReportItem) :
    createHidDb true devicesLen reportMapLen reports =
      some (.table
        (written (serviceAttrs reportMapLen ++ allAttrs reports) (devicesLen * 3))
        (serviceAttrs reportMapLen ++ allAttrs reports).length
        (indexed hiddLeIdxNb reports)) := by
  have hservice : (serviceAttrs reportMapLen).length = hiddLeIdxNb := rfl
  have hfresh : List.replicate (hiddLeIdxNb + (allAttrs reports).length + devicesLen * 3) none =
      written ([] : List Attr)
        ((serviceAttrs reportMapLen).length + ((allAttrs reports).length + devicesLen * 3)) := by
    rw [hservice, ← Nat.add_assoc]
    rfl
  have hfirst := putAll_written ([] : List Attr) (serviceAttrs reportMapLen)
    ((allAttrs reports).length + devicesLen * 3)
  have hloop := @addReports_written reports (serviceAttrs reportMapLen) (devicesLen * 3)
  rw [createHidDb]
  simp only [if_true]
  rw [← allAttrs_length, hfresh]
  show (putAll _ ([] : List Attr).length _).bind _ = _
  rw [hfirst, Option.bind_some, List.nil_append, ← hservice, hloop, Option.map_some,
    List.length_append]

end Block

/-! ## The handles -/

/-- The number of attributes of a report. -/
def HiddReportItem.size (r : HiddReportItem) : Nat := reportAttrLen r.item

/-- The place of the value of the `i`-th report. -/
def valuePos (reports : List HiddReportItem) (i : Nat) : Nat :=
  offset HiddReportItem.size hiddLeIdxNb reports i + 1

/-- A device map before its table is made: the reports as allocated, and the
    handles that the stack will answer. -/
structure Device where
  reports : List HiddReportItem
  handles : Nat → UInt16

/-- The number of attributes of a device map. -/
def Device.count (d : Device) : Nat := hiddLeIdxNb + (allAttrs d.reports).length

/-- `create_hid_db` and, on its answer, `link_report_handles`. -/
def Device.register (devicesLen reportMapLen : Nat) (d : Device) : List HiddReportItem :=
  match createHidDb true devicesLen reportMapLen d.reports with
  | some (.table _ _ reports) => linkReportHandles reports d.handles
  | _ => d.reports

/-- All device maps, registered. -/
def registered (devs : List Device) (reportMapLen : Nat) : List (List HiddReportItem) :=
  devs.map (Device.register devs.length reportMapLen)

/-- The stack gives every attribute a handle of its own. -/
def UniqueHandles (devs : List Device) : Prop :=
  ∀ (k : Nat) (d : Device) a (k' : Nat) (d' : Device) a', devs[k]? = some d → devs[k']? = some d' →
    a < d.count → a' < d'.count → d.handles a = d'.handles a' → k = k' ∧ a = a'

/-- `r` is the report at `place`, in the device map `d`. -/
def ReportAt (devs : List Device) (place : Nat × Nat) (d : Device) (r : HiddReportItem) : Prop :=
  devs[place.1]? = some d ∧ d.reports[place.2]? = some r

/-- `a` is the value of the report at `place`, or its client configuration. -/
def AttrAt (devs : List Device) (place : Nat × Nat) (d : Device) (a : Nat) : Prop :=
  ∃ r, ReportAt devs place d r ∧
    (a = valuePos d.reports place.2 ∨
      r.item.reportType = .input ∧ a = valuePos d.reports place.2 + 1)

/-- Every handle leads back to its report. -/
def Routed (devs : List Device) (reportMapLen : Nat) : Prop :=
  ∀ place d a, AttrAt devs place d a →
    getReportByHandle (registered devs reportMapLen) (d.handles a) = some place

/-- Every place fits in the `uint8_t` that keeps it. -/
def Narrow (devs : List Device) : Prop :=
  ∀ place d r, ReportAt devs place d r → valuePos d.reports place.2 < 256

/-- What the `ccc_handle` of a report without one holds is not the handle of a
    report that is searched later. -/
def NotInTheWay (devs : List Device) : Prop :=
  ∀ place d r place' d' a, ReportAt devs place d r → r.item.reportType ≠ .input →
    AttrAt devs place' d' a → Before place place' → r.cccHandle ≠ d'.handles a

/-- It is no handle of an attribute at all. -/
def NoHandle (devs : List Device) : Prop :=
  ∀ place d r (k : Nat) (d' : Device) a, ReportAt devs place d r → r.item.reportType ≠ .input →
    devs[k]? = some d' → a < d'.count → r.cccHandle ≠ d'.handles a

section Handles

variable {devs : List Device} {reportMapLen : Nat} {place place' : Nat × Nat} {d d' : Device}
  {r r' x : HiddReportItem} {a a' : Nat}

theorem indexed_getElem (base : Nat) (reports : List HiddReportItem) (i : Nat) :
    (indexed base reports)[i]? =
      reports[i]?.map fun r =>
        { r with index := UInt8.ofNat (offset HiddReportItem.size base reports i + 1) } := by
  induction reports generalizing base i with
  | nil => simp [indexed]
  | cons r rest ih =>
      cases i with
      | zero => simp [indexed, offset]
      | succ i =>
          have hshift : offset HiddReportItem.size (base + reportAttrLen r.item) rest i =
              offset HiddReportItem.size base (r :: rest) (i + 1) := by
            rw [offset, offset, List.take_succ_cons, List.map_cons, List.sum_cons, Nat.add_assoc]
            rfl
          rw [indexed, List.getElem?_cons_succ, ih, hshift, List.getElem?_cons_succ]

/-- A report after its registration. -/
def Device.report (d : Device) (i : Nat) (r : HiddReportItem) : HiddReportItem :=
  let index := UInt8.ofNat (valuePos d.reports i)
  { r with
    index := index
    handle := d.handles index.toNat
    cccHandle :=
      if r.item.reportType = .input then d.handles (index.toNat + 1) else r.cccHandle }

theorem register_getElem (n : Nat) (d : Device) (i : Nat) :
    (d.register n reportMapLen)[i]? = d.reports[i]?.map (d.report i) := by
  rw [Device.register, hid_db_filled]
  show (linkReportHandles (indexed hiddLeIdxNb d.reports) d.handles)[i]? = _
  rw [linkReportHandles, List.getElem?_map, indexed_getElem, Option.map_map]
  rfl

/-- What the search sees at a place. -/
theorem itemAt_registered :
    itemAt (registered devs reportMapLen) place = some x ↔
      ∃ d r, ReportAt devs place d r ∧ x = d.report place.2 r := by
  rw [itemAt, registered, List.getElem?_map]
  constructor
  · intro h
    obtain ⟨reports, hreports, hitem⟩ := Option.bind_eq_some_iff.mp h
    obtain ⟨d, hd, rfl⟩ := Option.map_eq_some_iff.mp hreports
    rw [register_getElem] at hitem
    obtain ⟨r, hr, rfl⟩ := Option.map_eq_some_iff.mp hitem
    exact ⟨d, r, ⟨hd, hr⟩, rfl⟩
  · rintro ⟨d, r, ⟨hd, hr⟩, rfl⟩
    rw [hd, Option.map_some, Option.bind_some, register_getElem, hr]
    rfl

theorem ReportAt.unique (h : ReportAt devs place d r) (h' : ReportAt devs place d' r') :
    d = d' ∧ r = r' := by
  obtain ⟨hd, hr⟩ := h
  obtain ⟨hd', hr'⟩ := h'
  obtain rfl := Option.some.inj (hd.symm.trans hd')
  exact ⟨rfl, Option.some.inj (hr.symm.trans hr')⟩

/-- A report has a declaration and a value, and an input report a client
    configuration after them. -/
theorem size_bounds (r : HiddReportItem) :
    2 ≤ r.size ∧ (r.item.reportType = .input → 3 ≤ r.size) := by
  rw [HiddReportItem.size, reportAttrLen]
  constructor
  · split <;> omega
  · intro hinput
    rw [if_pos hinput]
    omega

theorem place_lt_count (h : ReportAt devs place d r) (ha : a < r.size) :
    offset HiddReportItem.size hiddLeIdxNb d.reports place.2 + a < d.count := by
  have hend := @offset_end _ HiddReportItem.size hiddLeIdxNb place.2 d.reports r h.2
  rw [Device.count, allAttrs_length]
  exact Nat.lt_of_lt_of_le (Nat.add_lt_add_left ha _) hend

/-- An attribute of a report as a place in its record. -/
theorem AttrAt.inRecord (h : AttrAt devs place d a) :
    ∃ r b, ReportAt devs place d r ∧ b < r.size ∧
      a = offset HiddReportItem.size hiddLeIdxNb d.reports place.2 + b := by
  obtain ⟨r, hat, rfl | ⟨hinput, rfl⟩⟩ := h
  · exact ⟨r, 1, hat, (size_bounds r).1, rfl⟩
  · exact ⟨r, 2, hat, (size_bounds r).2 hinput, rfl⟩

theorem AttrAt.lt_count (h : AttrAt devs place d a) : a < d.count := by
  obtain ⟨r, b, hat, hb, rfl⟩ := h.inRecord
  exact place_lt_count hat hb

/-- Attributes of reports with one handle are of one report. -/
theorem AttrAt.place_eq (hu : UniqueHandles devs) (h : AttrAt devs place d a)
    (h' : AttrAt devs place' d' a') (heq : d.handles a = d'.handles a') : place = place' := by
  obtain ⟨r, b, hat, hb, hab⟩ := h.inRecord
  obtain ⟨r', b', hat', hb', hab'⟩ := h'.inRecord
  obtain ⟨hk, ha⟩ := hu _ d a _ d' a' hat.1 hat'.1 h.lt_count h'.lt_count heq
  obtain rfl : d = d' := by
    have hd := hat.1
    rw [hk] at hd
    exact Option.some.inj (hd.symm.trans hat'.1)
  have hi : place.2 = place'.2 :=
    offset_inj hat.2 hat'.2 hb hb' (hab.symm.trans (ha.trans hab'))
  exact Prod.ext hk hi

/-- A place that fits is kept. -/
theorem toNat_valuePos {i : Nat} (h : valuePos d.reports i < 256) :
    (UInt8.ofNat (valuePos d.reports i)).toNat = valuePos d.reports i := by
  rw [UInt8.toNat_ofNat']
  exact Nat.mod_eq_of_lt h

/-- `ESP_GATT_ATTR_HANDLE_MAX`, the most attributes that
    `esp_ble_gatts_create_attr_tab` takes. -/
def espGattAttrHandleMax : Nat := 100

/-- Tables that the stack takes have no place that is lost. -/
theorem narrow_of_accepted (h : ∀ d ∈ devs, d.count ≤ espGattAttrHandleMax) : Narrow devs := by
  intro place d r hat
  have hattr : AttrAt devs place d (valuePos d.reports place.2) := ⟨r, hat, .inl rfl⟩
  have hcount : valuePos d.reports place.2 < d.count := hattr.lt_count
  have hmax : d.count ≤ 100 := h d (List.mem_of_getElem? hat.1)
  omega

/-- A report answers to its own handles. -/
theorem answers_own (hn : Narrow devs) (hat : ReportAt devs place d r)
    (h : AttrAt devs place d a) : answersTo (d.handles a) (d.report place.2 r) = true := by
  have hindex := @toNat_valuePos d place.2 (hn place d r hat)
  obtain ⟨r', hat', rfl | ⟨hinput, rfl⟩⟩ := h
  · simp [answersTo, Device.report, hindex]
  · obtain ⟨-, rfl⟩ := hat.unique hat'
    simp [answersTo, Device.report, hindex, hinput]

/-- Another report answers to a handle only by what its memory held. -/
theorem answers_other (hu : UniqueHandles devs) (hn : Narrow devs)
    (hat : ReportAt devs place d r) (h : AttrAt devs place' d' a) (hne : place ≠ place') :
    answersTo (d'.handles a) (d.report place.2 r) = true ↔
      r.item.reportType ≠ .input ∧ r.cccHandle = d'.handles a := by
  have hindex := @toNat_valuePos d place.2 (hn place d r hat)
  have hvalue : ¬ d.handles (valuePos d.reports place.2) = d'.handles a := by
    intro heq
    exact hne (AttrAt.place_eq hu ⟨r, hat, .inl rfl⟩ h heq)
  by_cases hinput : r.item.reportType = .input
  · have hccc : ¬ d.handles (valuePos d.reports place.2 + 1) = d'.handles a := by
      intro heq
      exact hne (AttrAt.place_eq hu ⟨r, hat, .inr ⟨hinput, rfl⟩⟩ h heq)
    simp [answersTo, Device.report, hindex, hinput, hvalue, hccc]
  · simp [answersTo, Device.report, hindex, hinput, hvalue]

/-- **The handles lead back to their reports unless stale memory is in the way.**
    For any device maps whose places fit and any distinct handles: every value and
    every client configuration is found at its own report, if and only if no
    report without a client configuration holds, where its `ccc_handle` would be,
    the handle of a report that is searched after it. -/
theorem routed_iff (hu : UniqueHandles devs) (hn : Narrow devs) :
    Routed devs reportMapLen ↔ NotInTheWay devs := by
  constructor
  · intro h place d r place' d' a hat hinput hattr hbefore hstale
    obtain ⟨-, hfirst⟩ := findAt_eq_some_iff.mp (h place' d' a hattr)
    have hne : place ≠ place' := by
      rintro rfl
      rcases hbefore with hlt | ⟨-, hlt⟩ <;> exact Nat.lt_irrefl _ hlt
    have hsees := hfirst place hbefore _ (itemAt_registered.mpr ⟨d, r, hat, rfl⟩)
    rw [(answers_other hu hn hat hattr hne).mpr ⟨hinput, hstale⟩] at hsees
    cases hsees
  · intro h place d a hattr
    obtain ⟨r, hat, -⟩ := id hattr
    refine findAt_eq_some_iff.mpr ⟨⟨d.report place.2 r, itemAt_registered.mpr ⟨d, r, hat, rfl⟩,
      answers_own hn hat hattr⟩, ?_⟩
    intro place' hbefore x hx
    obtain ⟨d', r', hat', rfl⟩ := itemAt_registered.mp hx
    have hne : place' ≠ place := by
      rintro rfl
      rcases hbefore with hlt | ⟨-, hlt⟩ <;> exact Nat.lt_irrefl _ hlt
    by_contra hsees
    rw [Bool.not_eq_false] at hsees
    obtain ⟨hinput, hstale⟩ := (answers_other hu hn hat' hattr hne).mp hsees
    exact h place' d' r' place d a hat' hinput hattr hbefore hstale

/-- Memory that is no handle at all is in nobody's way. -/
theorem NoHandle.notInTheWay (h : NoHandle devs) : NotInTheWay devs := by
  intro place d r place' d' a hat hinput hattr _
  obtain ⟨_, hat', -⟩ := id hattr
  exact h place d r _ d' a hat hinput hat'.1 hattr.lt_count

/-- **And unless a place is lost.**  Where no stale memory holds a handle, the
    handles lead back to their reports if and only if every place is below 256.
    The stack of this system gives handles to no table that is wider
    (`narrow_of_accepted`). -/
theorem routed_iff_narrow (hu : UniqueHandles devs) (hclean : NoHandle devs) :
    Routed devs reportMapLen ↔ Narrow devs := by
  constructor
  · intro h place d r hat
    by_contra hwide
    rw [Nat.not_lt] at hwide
    have hattr : AttrAt devs place d (valuePos d.reports place.2) := ⟨r, hat, .inl rfl⟩
    have hcount := hattr.lt_count
    obtain ⟨⟨x, hx, hsees⟩, -⟩ := findAt_eq_some_iff.mp (h place d _ hattr)
    obtain ⟨d', r', hat', rfl⟩ := itemAt_registered.mp hx
    obtain ⟨rfl, rfl⟩ := hat.unique hat'
    -- the place that was kept is another one
    have hindex : (UInt8.ofNat (valuePos d.reports place.2)).toNat =
        valuePos d.reports place.2 % 256 := UInt8.toNat_ofNat'
    have hvalue : ¬ d.handles (valuePos d.reports place.2 % 256) =
        d.handles (valuePos d.reports place.2) := by
      intro heq
      obtain ⟨-, hsame⟩ := hu _ d _ _ d _ hat.1 hat.1 (by omega) hcount heq
      omega
    by_cases hinput : r.item.reportType = .input
    · have hccc : ¬ d.handles (valuePos d.reports place.2 % 256 + 1) =
          d.handles (valuePos d.reports place.2) := by
        intro heq
        obtain ⟨-, hsame⟩ := hu _ d _ _ d _ hat.1 hat.1 (by omega) hcount heq
        omega
      simp [answersTo, Device.report, hindex, hinput, hvalue, hccc] at hsees
    · have hstale := hclean place d r _ d _ hat hinput hat.1 hcount
      simp [answersTo, Device.report, hindex, hinput, hvalue, hstale] at hsees
  · intro hn
    exact (routed_iff hu hn).mpr hclean.notInTheWay

/-! ### Tables of one device map -/

/-- The handles from 40 on. -/
def consecutive (a : Nat) : UInt16 := UInt16.ofNat (40 + a)

theorem unique_consecutive {reports : List HiddReportItem}
    (h : Device.count ⟨reports, consecutive⟩ ≤ 60000) :
    UniqueHandles [⟨reports, consecutive⟩] := by
  intro k d a k' d' a' hd hd' ha ha' heq
  obtain ⟨rfl, rfl⟩ : k = 0 ∧ d = ⟨reports, consecutive⟩ := by
    cases k with
    | zero => exact ⟨rfl, (Option.some.inj hd).symm⟩
    | succ k => cases hd
  obtain ⟨rfl, rfl⟩ : k' = 0 ∧ d' = ⟨reports, consecutive⟩ := by
    cases k' with
    | zero => exact ⟨rfl, (Option.some.inj hd').symm⟩
    | succ k' => cases hd'
  have hnat := congrArg UInt16.toNat heq
  simp only [consecutive, UInt16.toNat_ofNat'] at hnat
  exact ⟨rfl, by omega⟩

theorem mem_of_reportAt {d₀ : Device} (h : ReportAt [d₀] place d r) :
    d = d₀ ∧ r ∈ d₀.reports := by
  obtain ⟨hd, hr⟩ := h
  obtain rfl := List.mem_singleton.mp (List.mem_of_getElem? hd)
  exact ⟨rfl, List.mem_of_getElem? hr⟩

/-- The report that `s_media_report_map` declares, `memory` being what the
    allocated memory held. -/
def mediaReport (memory : UInt16) : HiddReportItem :=
  ⟨⟨.cControl, 1, .input, .report, 1⟩, 0, memory, memory, memory⟩

/-- The device map of the media controller. -/
def mediaDevice : Device := ⟨[mediaReport 0], consecutive⟩

/-- An output report before an input report, with `memory` where the output report
    has no `ccc_handle`. -/
def pairDevice (memory : UInt16) : Device :=
  ⟨[⟨⟨.generic, 2, .output, .report, 1⟩, 0, 0, memory, 0⟩, mediaReport 0], consecutive⟩

/-- The place of the last of 63 input reports is 260. -/
def wideDevice : Device := ⟨List.replicate 63 (mediaReport 0), consecutive⟩

theorem pair_noHandle : NoHandle [pairDevice 0] := by
  intro place d r k d' a hat hinput hd' ha
  obtain ⟨-, hr⟩ := mem_of_reportAt hat
  obtain rfl := List.mem_singleton.mp (List.mem_of_getElem? hd')
  have hcount : (pairDevice 0).count = 18 := rfl
  have hzero : r.cccHandle = 0 := by
    rcases List.mem_cons.mp hr with rfl | hr
    · rfl
    · obtain rfl := List.mem_singleton.mp hr
      exact absurd rfl hinput
  rw [hzero]
  intro heq
  have hnat := congrArg UInt16.toNat heq
  simp only [pairDevice, consecutive, UInt16.toNat_ofNat', UInt16.toNat_zero] at hnat
  omega

theorem pair_narrow (memory : UInt16) : Narrow [pairDevice memory] := by
  refine narrow_of_accepted fun d hd => ?_
  obtain rfl := List.mem_singleton.mp hd
  exact (by decide : 18 ≤ 100)

/-- With nothing in the memory the handles lead back; with the handle of the input
    report's value there they do not. -/
theorem routed_iff_pair : Routed [pairDevice 0] 39 ∧ ¬ Routed [pairDevice 55] 39 := by
  constructor
  · exact (routed_iff (unique_consecutive (by decide)) (pair_narrow 0)).mpr
      pair_noHandle.notInTheWay
  · intro h
    refine (routed_iff (unique_consecutive (by decide)) (pair_narrow 55)).mp h (0, 0) _ _ (0, 1)
      (pairDevice 55) 15 ⟨rfl, rfl⟩ nofun ⟨_, ⟨rfl, rfl⟩, .inl rfl⟩
      (.inr ⟨rfl, Nat.zero_lt_one⟩) rfl

/-- A table of 63 input reports loses the place of the last one. -/
theorem routed_iff_narrow_wide : Routed [pairDevice 0] 39 ∧ ¬ Routed [wideDevice] 39 := by
  constructor
  · exact (routed_iff_narrow (unique_consecutive (by decide)) pair_noHandle).mpr (pair_narrow 0)
  · have hclean : NoHandle [wideDevice] := by
      intro place d r k d' a hat hinput
      obtain ⟨-, hr⟩ := mem_of_reportAt hat
      obtain rfl := (List.mem_replicate.mp hr).2
      exact absurd rfl hinput
    intro h
    have hplace := (routed_iff_narrow (unique_consecutive (by decide +kernel)) hclean).mp h (0, 62)
      wideDevice (mediaReport 0) ⟨rfl, by decide⟩
    exact absurd hplace (by decide)

end Handles

/-! ## Writes and reports -/

/-- The value that writes leave in a client configuration with handle `handle`. -/
def lastWritten (handle : UInt16) (before : UInt16) (writes : List HandleWrite) : UInt16 :=
  writes.foldl (fun v w => if w.handle = handle then w.value.toUInt16 else v) before

def espHidControlExitSuspend : UInt8 := 1
def espHidProtocolModeReport : UInt8 := 1

/-- The service handles of a device map, as `ESP_GATTS_CREAT_ATTR_TAB_EVT` keeps
    them. -/
def Device.services (d : Device) : ServiceHandles :=
  ⟨d.handles hiddLeIdxHidCtnlPtVal, d.handles hiddLeIdxProtoModeVal⟩

/-- The device when all tables are made. -/
def started (devs : List Device) (reportMapLen : Nat) : BleHiddDev :=
  ⟨devs.map Device.services, registered devs reportMapLen, espHidControlExitSuspend,
    espHidProtocolModeReport⟩

/-- What the device is after writes: of the reports only client configurations have
    changed, and that of an input report holds what was written to it last. -/
structure AfterWrites (devs : List Device) (reportMapLen : Nat) (writes : List HandleWrite)
    (dev : BleHiddDev) : Prop where
  services : dev.services = devs.map Device.services
  length   : dev.devices.length = devs.length
  same     : ∀ a, (itemAt dev.devices a).map (fun rpt => { rpt with ccc := 0 }) =
    (itemAt (registered devs reportMapLen) a).map fun rpt => { rpt with ccc := 0 }
  input    : ∀ place d r, ReportAt devs place d r → r.item.reportType = .input →
    itemAt dev.devices place = some { d.report place.2 r with
      ccc := lastWritten (d.report place.2 r).cccHandle r.ccc writes }

section Writes

variable {devs : List Device} {reportMapLen : Nat} {place : Nat × Nat} {d : Device}
  {r : HiddReportItem} {writes : List HandleWrite} {dev : BleHiddDev}

/-- The searches look at no client configuration. -/
theorem search_congr {p : HiddReportItem → Bool} (hp : ∀ rpt, p { rpt with ccc := 0 } = p rpt)
    (h : AfterWrites devs reportMapLen writes dev) :
    findAt p dev.devices = findAt p (registered devs reportMapLen) := by
  have hkey : p = p ∘ fun rpt => { rpt with ccc := 0 } := funext fun rpt => (hp rpt).symm
  rw [hkey]
  exact findAt_congr h.same

/-- The handle of the client configuration of an input report. -/
theorem cccHandle_report (hn : Narrow devs) (hat : ReportAt devs place d r)
    (hinput : r.item.reportType = .input) :
    (d.report place.2 r).cccHandle = d.handles (valuePos d.reports place.2 + 1) := by
  have hindex := @toNat_valuePos d place.2 (hn place d r hat)
  simp [Device.report, hindex, hinput]

/-- It is the handle of no attribute of a service. -/
theorem cccHandle_ne_service (hu : UniqueHandles devs) (hn : Narrow devs)
    (hat : ReportAt devs place d r) (hinput : r.item.reportType = .input) {k : Nat} {d' : Device}
    {a : Nat} (hd' : devs[k]? = some d') (ha : a < hiddLeIdxNb) :
    d'.handles a ≠ (d.report place.2 r).cccHandle := by
  have hattr : AttrAt devs place d (valuePos d.reports place.2 + 1) :=
    ⟨r, hat, .inr ⟨hinput, rfl⟩⟩
  have hcount : a < d'.count := Nat.lt_of_lt_of_le ha (Nat.le_add_right _ _)
  rw [cccHandle_report hn hat hinput]
  intro heq
  obtain ⟨-, hplace⟩ := hu k d' a _ d _ hd' hat.1 hcount hattr.lt_count heq
  rw [hplace, valuePos, offset] at ha
  omega

theorem lastWritten_append (handle before : UInt16) (writes : List HandleWrite)
    (w : HandleWrite) : lastWritten handle before (writes ++ [w]) =
      if w.handle = handle then w.value.toUInt16 else lastWritten handle before writes := by
  rw [lastWritten, List.foldl_append]
  rfl

/-- A write to a service's attribute is a write to no client configuration. -/
theorem AfterWrites.service {dev' : BleHiddDev} {w : HandleWrite}
    (h : AfterWrites devs reportMapLen writes dev)
    (hother : ∀ place d r, ReportAt devs place d r → r.item.reportType = .input →
      w.handle ≠ (d.report place.2 r).cccHandle)
    (hservices : dev'.services = dev.services) (hdevices : dev'.devices = dev.devices) :
    AfterWrites devs reportMapLen (writes ++ [w]) dev' where
  services := hservices.trans h.services
  length := hdevices ▸ h.length
  same a := hdevices ▸ h.same a
  input place d r hat hinput := by
    rw [hdevices, lastWritten_append, if_neg (hother place d r hat hinput)]
    exact h.input place d r hat hinput

/-- A write that reaches the reports changes the client configuration that it is
    meant for, and no other. -/
theorem AfterWrites.report (hn : Narrow devs) (hr : Routed devs reportMapLen) (w : HandleWrite)
    (h : AfterWrites devs reportMapLen writes dev) :
    AfterWrites devs reportMapLen (writes ++ [w])
      { dev with devices := writeReport dev.devices w } := by
  have hfind : getReportByHandle dev.devices w.handle =
      getReportByHandle (registered devs reportMapLen) w.handle := by
    exact search_congr (fun _ => rfl) h
  constructor
  · exact h.services
  · show (writeReport dev.devices w).length = _
    rw [← h.length, writeReport]
    split
    · rfl
    · rw [modifyAt, List.length_modify]
  · intro a
    rw [← h.same a, writeReport]
    cases getReportByHandle dev.devices w.handle with
    | none => rfl
    | some found =>
        simp only
        rw [itemAt_modifyAt]
        split
        · cases itemAt dev.devices a with
          | none => rfl
          | some rpt =>
              rw [Option.map_some, Option.map_some, Option.map_some]
              split <;> rfl
        · rfl
  · intro place d r hat hinput
    have hbefore := h.input place d r hat hinput
    have hhandle := cccHandle_report hn hat hinput
    rw [lastWritten_append]
    by_cases hmeant : w.handle = (d.report place.2 r).cccHandle
    · -- the handle leads to this report
      have hfound : getReportByHandle dev.devices w.handle = some place := by
        rw [hfind, hmeant, hhandle]
        exact hr place d _ ⟨r, hat, .inr ⟨hinput, rfl⟩⟩
      rw [if_pos hmeant, writeReport, hfound]
      simp only
      rw [itemAt_modifyAt, if_pos rfl, hbefore, Option.map_some, if_pos hmeant]
    · rw [if_neg hmeant, writeReport]
      cases getReportByHandle dev.devices w.handle with
      | none => exact hbefore
      | some found =>
          simp only
          rw [itemAt_modifyAt, hbefore]
          split
          · rw [Option.map_some, if_neg hmeant]
          · rfl

/-- **One write.** -/
theorem afterWrites_step (hu : UniqueHandles devs) (hn : Narrow devs)
    (hr : Routed devs reportMapLen) (w : HandleWrite) (hw : w.deviceIndex < devs.length)
    (h : AfterWrites devs reportMapLen writes dev) :
    AfterWrites devs reportMapLen (writes ++ [w]) (gattsWrite dev w) := by
  obtain ⟨d₀, hd₀⟩ : ∃ d₀, devs[w.deviceIndex]? = some d₀ := ⟨_, List.getElem?_eq_getElem hw⟩
  have hmap : dev.services[w.deviceIndex]? = some d₀.services := by
    rw [h.services, List.getElem?_map, hd₀, Option.map_some]
  rw [gattsWrite, hmap]
  simp only
  split
  case isTrue hcontrol =>
    refine h.service (fun place d r hat hinput => ?_) rfl rfl
    rw [hcontrol]
    exact cccHandle_ne_service hu hn hat hinput hd₀ (by decide)
  case isFalse =>
    split
    case isTrue hprotocol =>
      refine h.service (fun place d r hat hinput => ?_) rfl rfl
      rw [hprotocol]
      exact cccHandle_ne_service hu hn hat hinput hd₀ (by decide)
    case isFalse => exact h.report hn hr w

/-- All writes. -/
theorem afterWrites (hu : UniqueHandles devs) (hn : Narrow devs) (hr : Routed devs reportMapLen)
    (writes : List HandleWrite) (hw : ∀ w ∈ writes, w.deviceIndex < devs.length) :
    AfterWrites devs reportMapLen writes (writes.foldl gattsWrite (started devs reportMapLen)) := by
  induction writes using List.reverseRecOn with
  | nil =>
      refine ⟨rfl, List.length_map _, fun _ => rfl, ?_⟩
      intro place d r hat _
      exact itemAt_registered.mpr ⟨d, r, hat, rfl⟩
  | append_singleton writes w ih =>
      rw [List.foldl_append]
      exact afterWrites_step hu hn hr w (hw w (by simp))
        (ih fun x hx => hw x (List.mem_append_left _ hx))

/-- **The last write to its client configuration decides whether a report goes
    out.**  Where the handles are distinct and lead back to their reports, after
    any writes through the interfaces of the device maps, for the first input
    report with an id: connected, `esp_ble_hidd_dev_input_set` sends to the handle
    of its value if and only if the last value written to its client configuration
    (what the allocated memory held, if there was no write) is not zero, and asks
    for a confirmation if that value says so. -/
theorem input_set_after (hu : UniqueHandles devs) (hn : Narrow devs)
    (hr : Routed devs reportMapLen) (hat : ReportAt devs place d r)
    (hfirst : getReportByIdAndType (registered devs reportMapLen) r.item.reportId .input =
      some place) (writes : List HandleWrite)
    (hw : ∀ w ∈ writes, w.deviceIndex < devs.length) (index : Nat) (hindex : index < devs.length) :
    espBleHiddDevInputSet true (writes.foldl gattsWrite (started devs reportMapLen)).devices index
        r.item.reportId =
      if lastWritten (d.handles (valuePos d.reports place.2 + 1)) r.ccc writes ≠ 0 then
        some (d.handles (valuePos d.reports place.2),
          decide (lastWritten (d.handles (valuePos d.reports place.2 + 1)) r.ccc writes &&& 2 ≠ 0))
      else none := by
  have hafter := afterWrites hu hn hr writes hw
  obtain ⟨⟨x, hx, hmatch⟩, -⟩ := findAt_eq_some_iff.mp hfirst
  obtain ⟨d', r', hat', rfl⟩ := itemAt_registered.mp hx
  obtain ⟨rfl, rfl⟩ := hat.unique hat'
  have hinput : r.item.reportType = .input := by
    simp only [Device.report, Bool.and_eq_true, decide_eq_true_eq] at hmatch
    exact of_decide_eq_true hmatch.1.2
  have hlen : ¬ (writes.foldl gattsWrite (started devs reportMapLen)).devices.length ≤ index := by
    rw [hafter.length]
    omega
  have hsearch : getReportByIdAndType (writes.foldl gattsWrite (started devs reportMapLen)).devices
      r.item.reportId .input = some place := by
    rw [← hfirst]
    exact search_congr (fun _ => rfl) hafter
  have hvalue : (d.report place.2 r).handle = d.handles (valuePos d.reports place.2) := by
    have hindex := @toNat_valuePos d place.2 (hn place d r hat)
    simp [Device.report, hindex]
  rw [espBleHiddDevInputSet, if_neg (by simp), if_neg hlen, hsearch]
  simp only
  rw [hafter.input place d r hat hinput, cccHandle_report hn hat hinput]
  simp only [hvalue]

theorem media_routed : Routed [mediaDevice] 39 := by
  intro place d a hattr
  obtain ⟨r, ⟨hd, hr⟩, ha⟩ := hattr
  obtain ⟨k, i⟩ := place
  cases k with
  | succ k => cases hd
  | zero =>
      obtain rfl := Option.some.inj hd
      cases i with
      | succ i => cases hr
      | zero => rcases ha with rfl | ⟨-, rfl⟩ <;> decide

/-- A host that asks for notifications of the media report gets them; a write to the
    control point in between changes nothing. -/
theorem input_set_after_media :
    espBleHiddDevInputSet true
        ([⟨0, 53, 1⟩, ⟨0, 45, 0⟩].foldl gattsWrite (started [mediaDevice] 39)).devices 0 1 =
      some (52, false) := by
  have hnarrow : Narrow [mediaDevice] := narrow_of_accepted (by decide)
  exact input_set_after (unique_consecutive (by decide)) hnarrow media_routed
    (show ReportAt [mediaDevice] (0, 0) mediaDevice (mediaReport 0) from ⟨rfl, rfl⟩) (by decide)
    [⟨0, 53, 1⟩, ⟨0, 45, 0⟩] (by decide) 0 (by decide)

end Writes

end GattTable
