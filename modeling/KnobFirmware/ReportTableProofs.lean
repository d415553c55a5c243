import KnobFirmware.HostViewProofs
import KnobFirmware.ReportMapProofs

/-! # The table of reports — the parser against a host's reading

    A descriptor of one application collection (`Application`) is a sequence of
    sections, each under a report id.  The parser closes a report when the id
    changes and when the collection ends, if what has been declared since it
    closed one is whole bytes; a host sums up the fields of an id over the whole
    descriptor.

    Main results:
    * `Between.waits` — after every call on such a descriptor the parser waits for
      the next one, whatever the call came to;
    * `faults_iff` — exactly when the parser goes through a null pointer: nowhere
      where a report ends are the declared bits whole bytes;
    * `report_map_correct` — where each id has one place and its reports are whole
      bytes, the table is the one that a host reads off the same descriptor,
      report by report, type by type and in bytes. -/

namespace ReportMap

open PrefixCode HidReport

/-! ## Reports and collections -/

/-- The part of a collection under one report id. -/
structure Section where
  lead  : ShortItem
  items : List ShortItem
  isId  : lead.cmd = hidRmReportId
  small : 0 < lead.value ∧ lead.value < 256
  plain : ∀ it ∈ items, Plain it

def Section.id (s : Section) : Nat := s.lead.value

def Section.all (s : Section) : List ShortItem := s.lead :: s.items

theorem Section.lead_tag (s : Section) : s.lead.tag = .reportId := by
  rw [ShortItem.tag, s.isId]
  rfl

theorem Section.read_lead (s : Section) (r : Reader) :
    r.read s.lead = { r with globals := { r.globals with reportId := s.id } } := by
  simp only [Reader.read, s.lead_tag]
  rfl

theorem Section.depthAfter_all (s : Section) (d : Nat) :
    depthAfter d s.all = depthAfter d s.items := by
  rw [all, depthAfter, s.lead_tag]
  rfl

/-- A section adds nothing to the reports of other ids. -/
theorem bits_section (s : Section) (r : Reader) {k : Kind} {i : Nat} (h : i ≠ s.id) :
    bits (r.readAll s.all).fields k i = bits r.fields k i := by
  have hids := reportId_declaresAll s.plain (r.read s.lead)
  rw [s.read_lead] at hids
  rw [Section.all, Reader.readAll_cons, s.read_lead, Reader.fields_readAll, bits_append,
    bits_of_other (fun f hf hc => h (hc.symm.trans (hids f hf))), Nat.add_zero]

theorem bits_sections (secs : List Section) (r : Reader) {k : Kind} {i : Nat}
    (h : i ∉ secs.map Section.id) :
    bits (r.readAll (secs.flatMap Section.all)).fields k i = bits r.fields k i := by
  induction secs generalizing r with
  | nil => rfl
  | cons s secs ih =>
      rw [List.map_cons, List.mem_cons, not_or] at h
      rw [List.flatMap_cons, Reader.readAll_append, ih _ h.2, bits_section s r h.1]

/-- A report descriptor of one application collection with report ids, every
    field after the first of them. -/
structure Application where
  page     : ShortItem
  usage    : ShortItem
  opening  : ShortItem
  preamble : List ShortItem
  sections : List Section
  closing  : ShortItem
  isPage    : page.cmd = hidRmUsagePage
  isUsage   : usage.cmd = hidRmUsage
  isOpening : opening.cmd = hidRmCollection ∧ opening.value = 1
  isClosing : closing.cmd = hidRmEndCollection
  quiet     : ∀ it ∈ preamble, Plain it ∧ ∀ k, it.tag ≠ .main k
  nonempty  : sections ≠ []
  nested    : depthAfter 1 (preamble ++ sections.flatMap Section.all) = some 1

def Application.header (a : Application) : List ShortItem := [a.page, a.usage, a.opening]

def Application.items (a : Application) : List ShortItem :=
  a.header ++ (a.preamble ++ (a.sections.flatMap Section.all ++ [a.closing]))

theorem Application.closing_tag (a : Application) : a.closing.tag = .endCollection := by
  rw [ShortItem.tag, a.isClosing]
  rfl

/-- The host at the opening of the collection. -/
def Application.opened (a : Application) : Reader := Reader.start.readAll a.header

/-- The host after the first sections. -/
def Application.upTo (a : Application) (before : List Section) : Reader :=
  (a.opened.readAll a.preamble).readAll (before.flatMap Section.all)

theorem Application.opened_eq (a : Application) :
    a.opened.fields = [] ∧ a.opened.globals = ⟨a.page.value, 0, 0, 0⟩ := by
  have hpage : a.page.tag = .usagePage := by rw [ShortItem.tag, a.isPage]; rfl
  have husage : a.usage.tag = .usage := by rw [ShortItem.tag, a.isUsage]; rfl
  have hopening : a.opening.tag = .collection := by rw [ShortItem.tag, a.isOpening.1]; rfl
  simp only [opened, header, Reader.readAll_cons, Reader.readAll_nil, Reader.read, hpage, husage,
    hopening]
  exact ⟨rfl, rfl⟩

/-- Before the first id nothing has been declared. -/
theorem Application.upTo_nil (a : Application) :
    (a.upTo []).fields = [] ∧ (a.upTo []).globals.reportId = 0 := by
  obtain ⟨hfields, hglobals⟩ := a.opened_eq
  constructor
  · have hnone : ∀ (its : List ShortItem) (r : Reader),
        (∀ it ∈ its, Plain it ∧ ∀ k, it.tag ≠ .main k) → r.declaresAll its = [] := by
      intro its
      induction its with
      | nil => exact fun r _ => rfl
      | cons it its ih =>
          intro r h
          have hit : r.declares it = [] := by
            rw [Reader.declares]
            split
            · exact absurd ‹_› ((h it List.mem_cons_self).2 _)
            · rfl
          rw [Reader.declaresAll, hit, ih _ (fun x hx => h x (List.mem_cons_of_mem it hx))]
          rfl
    show (a.opened.readAll a.preamble).fields = []
    rw [Reader.fields_readAll, hfields, hnone _ _ a.quiet]
    rfl
  · show (a.opened.readAll a.preamble).globals.reportId = 0
    rw [reportId_readAll (fun it hit => (a.quiet it hit).1), hglobals]

/-- The closing item declares nothing. -/
theorem Application.fields_eq (a : Application) :
    fieldsOf a.items = (a.upTo a.sections).fields := by
  show (Reader.start.readAll (a.header ++ _)).fields = _
  rw [Reader.readAll_append, Reader.readAll_append, Reader.readAll_append, Reader.readAll_cons,
    Reader.readAll_nil]
  simp only [Reader.read, a.closing_tag]
  rfl

/-- An item with one byte of data. -/
def oneByte (cmd b : UInt8) (h : cmd.toNat % 4 = 0) : ShortItem :=
  ⟨cmd, [b], h, ⟨rfl, (by decide : 1 < 4)⟩⟩

/-- The seven buttons of the media controller. -/
def mediaButtons : List ShortItem :=
  [oneByte 0x14 0x00 rfl, oneByte 0x24 0x01 rfl, oneByte 0x74 0x01 rfl, oneByte 0x94 0x07 rfl,
    oneByte 0x08 0xB5 rfl, oneByte 0x08 0xB6 rfl, oneByte 0x08 0xB7 rfl, oneByte 0x08 0xCD rfl,
    oneByte 0x08 0xE2 rfl, oneByte 0x08 0xE9 rfl, oneByte 0x08 0xEA rfl, oneByte 0x80 0x02 rfl]

def mediaPadding : List ShortItem :=
  [oneByte 0x74 0x01 rfl, oneByte 0x94 0x01 rfl, oneByte 0x80 0x03 rfl]

/-- The items of a report, under its id. -/
def sectionOf (id : UInt8) (its : List ShortItem) (hid : id ≠ 0) (h : ∀ it ∈ its, Plain it) :
    Section where
  lead := oneByte hidRmReportId id rfl
  items := its
  isId := rfl
  small := by
    have hpos : id.toNat ≠ 0 := fun hz => hid (UInt8.toNat_inj.mp hz)
    have hlt := id.toNat_lt
    show 0 < id.toNat + 256 * 0 ∧ id.toNat + 256 * 0 < 256
    omega
  plain := h

/-- The media controller's collection around the sections of its reports. -/
def mediaApplication (secs : List Section) (hne : secs ≠ [])
    (hd : depthAfter 1 (secs.flatMap Section.all) = some 1) : Application where
  page := oneByte hidRmUsagePage 0x0C rfl
  usage := oneByte hidRmUsage 0x01 rfl
  opening := oneByte hidRmCollection 0x01 rfl
  preamble := []
  sections := secs
  closing := ⟨hidRmEndCollection, [], by decide, by decide⟩
  isPage := rfl
  isUsage := rfl
  isOpening := ⟨rfl, rfl⟩
  isClosing := rfl
  quiet := nofun
  nonempty := hne
  nested := hd

/-! ## A call -/

/-- Memory for all that a call allocates. -/
structure Heap.Ample (heap : Heap) (hidRm : List UInt8) : Prop where
  cmds    : hidRm.length ≤ heap.cmds
  tempMap : heap.tempMap = true
  out     : heap.out = true
  reports : heap.reports = true

theorem parse_rejected {heap : Heap} {p p' : Parser} {its : List ShortItem}
    (hcmds : (shortItem.emitAll its).length ≤ heap.cmds)
    (h : Code.handleAll (handleCmd heap) { p with newMap := true } its = (p', false)) :
    espHidParseReportMap heap p (shortItem.emitAll its) = (p', .null) := by
  rw [espHidParseReportMap, shortItem.loop_emitAll hcmds, h]

theorem parse_finished {heap : Heap} {p p' : Parser} {its : List ShortItem}
    (hheap : heap.Ample (shortItem.emitAll its))
    (h : Code.handleAll (handleCmd heap) { p with newMap := true } its = (p', true)) :
    (espHidParseReportMap heap p (shortItem.emitAll its)).2 =
      match p'.tempMap with
      | none => .fault
      | some map =>
          if map.reports ≠ [] then
            .map ⟨(dominant map.usageMask).1, (dominant map.usageMask).2, map.reports⟩
          else .null := by
  rw [espHidParseReportMap, shortItem.loop_emitAll hheap.cmds, h]
  simp only [hheap.out, hheap.reports, if_true, true_and]
  cases p'.tempMap with
  | none => rfl
  | some map =>
      by_cases hne : map.reports ≠ []
      · simp only [if_pos hne]
      · simp only [if_neg hne]

/-- Only the items move the state machine. -/
theorem step_parse {heap : Heap} (p : Parser) {its : List ShortItem}
    (hcmds : (shortItem.emitAll its).length ≤ heap.cmds) :
    (espHidParseReportMap heap p (shortItem.emitAll its)).1.step =
      (Code.handleAll (handleCmd heap) { p with newMap := true } its).1.step := by
  rw [espHidParseReportMap, shortItem.loop_emitAll hcmds]
  rcases Code.handleAll (handleCmd heap) { p with newMap := true } its with ⟨p', ok⟩
  cases ok with
  | false => rfl
  | true =>
      obtain ⟨step, depth, params, size, count, newMap, temp⟩ := p'
      cases heap.out <;> cases temp with
      | none => rfl
      | some map => simp only [Bool.false_eq_true, if_false, if_true] <;> split <;> rfl

/-- The parser is in step with the host at the opening of the collection. -/
theorem inStep_opened (heap : Heap) (a : Application) {p : Parser}
    (hp : p.step = .waitUsagePage) :
    ∃ p', Code.handleAll (handleCmd heap) p a.header = (p', true) ∧ InStep p' a.opened 1 ∧
      (∀ k, p'.params.len k = 0) ∧ p'.params.usagePage = UInt16.ofNat a.page.value ∧
      p'.params.innerUsagePage = 0 ∧ p'.newMap = p.newMap ∧ p'.tempMap = p.tempMap := by
  obtain ⟨-, hglobals⟩ := a.opened_eq
  obtain ⟨step, depth, params, size, count, newMap, temp⟩ := p
  obtain rfl : step = .waitUsagePage := hp
  refine ⟨⟨.waitEndCollection, 1, { ReportParams.cleared with
      usagePage := UInt16.ofNat a.page.value, usage := UInt16.ofNat a.usage.value }, 0, 0, newMap,
      temp⟩, ?_, ⟨rfl, rfl, by rw [hglobals]; rfl, by rw [hglobals]; rfl, by rw [hglobals]; rfl⟩,
    fun k => by cases k <;> rfl, rfl, rfl, rfl, rfl⟩
  simp only [Application.header, Code.handleAll, handleCmd, a.isPage, a.isUsage, a.isOpening.1,
    a.isOpening.2, ne_eq, not_true_eq_false, if_false]
  rfl

/-- Up to the first id: nothing has been declared, and the table has not been
    touched. -/
theorem inStep_preamble (heap : Heap) (a : Application) {p : Parser}
    (hp : p.step = .waitUsagePage) :
    ∃ p' d, Code.handleAll (handleCmd heap) p (a.header ++ a.preamble) = (p', true) ∧
      InStep p' (a.upTo []) d ∧ depthAfter d (a.sections.flatMap Section.all) = some 1 ∧
      (∀ k, p'.params.len k = 0) ∧ p'.params.usagePage = UInt16.ofNat a.page.value ∧
      ((∀ it ∈ a.preamble, OffDesktop it) →
        p'.params.innerUsagePage ≠ hidUsagePageGenericDesktop) ∧
      p'.newMap = p.newMap ∧ p'.tempMap = p.tempMap := by
  obtain ⟨p₁, hp₁, hi₁, hlen₁, hpage₁, hinner₁, hnew₁, htemp₁⟩ := inStep_opened heap a hp
  obtain ⟨d, hd, hrest⟩ := depthAfter_append a.nested
  obtain ⟨p₂, hp₂, hi₂, hpass⟩ := inStep_items heap hi₁ (fun it hit => (a.quiet it hit).1) hd
  have hnone : a.opened.declaresAll a.preamble = [] := by
    have hfields := a.upTo_nil.1
    rw [show (a.upTo []).fields = (a.opened.readAll a.preamble).fields from rfl,
      Reader.fields_readAll, a.opened_eq.1] at hfields
    exact hfields
  refine ⟨p₂, d, (Code.handleAll_append _ _ hp₁).trans hp₂, hi₂, hrest, fun k => ?_,
    hpass.page.trans hpage₁, fun hoff => ?_, hpass.newMap.trans hnew₁, hpass.tempMap.trans htemp₁⟩
  · rw [hpass.len k, hlen₁ k, hnone]
    rfl
  · exact hpass.inner hoff (hinner₁ ▸ by decide)

/-! ## Calls one after the other -/

theorem InStep.lead {p p' : Parser} {r : Reader} {d : Nat} (hi : InStep p r d) (s : Section)
    (hstep : p'.step = p.step) (hdepth : p'.collectionDepth = p.collectionDepth)
    (hsize : p'.reportSize = p.reportSize) (hcount : p'.reportCount = p.reportCount)
    (hid : p'.params.reportId = UInt8.ofNat s.lead.value) : InStep p' (r.read s.lead) d := by
  rw [s.read_lead]
  refine ⟨hstep.trans hi.step, hdepth ▸ hi.depth, hsize.trans hi.size, hcount.trans hi.count, ?_⟩
  rw [hid, UInt8.toNat_ofNat']
  exact Nat.mod_eq_of_lt s.small.2

/-- A new id leaves the parser inside the collection, or at its start. -/
theorem inStep_lead (heap : Heap) {p : Parser} {r : Reader} {d : Nat} (hi : InStep p r d)
    (s : Section) :
    (∃ p', handleCmd heap p s.lead = (p', true) ∧ InStep p' (r.read s.lead) d) ∨
      ∃ p', handleCmd heap p s.lead = (p', false) ∧ p'.step = .waitUsagePage := by
  rw [handleCmd_reportId heap hi.step s.lead_tag]
  split
  · rcases handleReport heap p.params p.newMap p.tempMap with ⟨temp, ok⟩
    cases ok with
    | false => exact .inr ⟨_, rfl, rfl⟩
    | true => exact .inl ⟨_, rfl, hi.lead s rfl rfl rfl rfl rfl⟩
  · exact .inl ⟨_, rfl, hi.lead s rfl rfl rfl rfl rfl⟩

/-- The sections, one after the other, by induction on them. -/
theorem inStep_sections (heap : Heap) {secs : List Section} {p : Parser} {r : Reader} {d d' : Nat}
    (hi : InStep p r d) (hd : depthAfter d (secs.flatMap Section.all) = some d') :
    (∃ p', Code.handleAll (handleCmd heap) p (secs.flatMap Section.all) = (p', true) ∧
        InStep p' (r.readAll (secs.flatMap Section.all)) d') ∨
      ∃ p', Code.handleAll (handleCmd heap) p (secs.flatMap Section.all) = (p', false) ∧
        p'.step = .waitUsagePage := by
  induction secs generalizing p r d with
  | nil =>
      obtain rfl := Option.some.inj hd
      exact .inl ⟨p, rfl, hi⟩
  | cons s secs ih =>
      rw [List.flatMap_cons] at hd ⊢
      obtain ⟨d₁, hd₁, hrest⟩ := depthAfter_append hd
      rw [s.depthAfter_all] at hd₁
      rcases inStep_lead heap hi s with ⟨p₁, hp₁, hi₁⟩ | ⟨p₁, hp₁, hwait⟩
      · obtain ⟨p₂, hp₂, hi₂, -⟩ := inStep_items heap hi₁ s.plain hd₁
        have hall : Code.handleAll (handleCmd heap) p s.all = (p₂, true) :=
          (Code.handleAll_cons_true hp₁).trans hp₂
        rw [Code.handleAll_append _ _ hall, Reader.readAll_append]
        exact ih hi₂ hrest
      · exact .inr ⟨p₁, Code.handleAll_append_false _ _ (Code.handleAll_cons_false hp₁), hwait⟩

/-- After every call on the descriptor of a collection the parser waits for the
    next one. -/
theorem waits_after (a : Application) {heap : Heap} {p : Parser} (hp : p.step = .waitUsagePage)
    (hcmds : (shortItem.emitAll a.items).length ≤ heap.cmds) :
    (espHidParseReportMap heap p (shortItem.emitAll a.items)).1.step = .waitUsagePage := by
  obtain ⟨p₁, d, hp₁, hi₁, hd, -⟩ :=
    @inStep_preamble heap a { p with newMap := true } hp
  rw [step_parse p hcmds, Application.items, ← List.append_assoc, Code.handleAll_append _ _ hp₁]
  rcases inStep_sections heap hi₁ hd with ⟨p₂, hp₂, hi₂⟩ | ⟨p₂, hp₂, hwait⟩
  · rw [Code.handleAll_append _ _ hp₂]
    have hlast : (handleCmd heap p₂ a.closing).1.step = .waitUsagePage := by
      rw [handleCmd_end heap hi₂.step a.closing_tag hi₂.depth]
      split
      · rcases handleReport heap p₂.params p₂.newMap p₂.tempMap with ⟨temp, ok⟩
        cases ok <;> rfl
      · rfl
    rcases hc : handleCmd heap p₂ a.closing with ⟨p₃, ok⟩
    rw [hc] at hlast
    cases ok with
    | false =>
        rw [Code.handleAll_cons_false hc]
        exact hlast
    | true =>
        rw [Code.handleAll_cons_true hc]
        exact hlast
  · rw [Code.handleAll_append_false _ _ hp₂]
    exact hwait

/-- The static variables at the start. -/
def initialParser : Parser :=
  ⟨.waitUsagePage, 0, ReportParams.cleared, 0, 0, false, none⟩

/-- What calls, each on the descriptor of a collection, can leave in the static
    variables: whatever their reports are, and whatever the calls return, the
    short items could be allocated and no call went through a null pointer. -/
inductive Between : Parser → Prop where
  | start : Between initialParser
  | call {p : Parser} (a : Application) (heap : Heap) (hp : Between p)
      (hcmds : (shortItem.emitAll a.items).length ≤ heap.cmds)
      (hok : (espHidParseReportMap heap p (shortItem.emitAll a.items)).2 ≠ .fault) :
      Between (espHidParseReportMap heap p (shortItem.emitAll a.items)).1

/-- **Between two calls the parser waits for a usage page.** -/
theorem Between.waits {p : Parser} (h : Between p) : p.step = .waitUsagePage := by
  induction h with
  | start => rfl
  | call a heap hp hcmds hok ih => exact waits_after a ih hcmds

/-! ## Reports that are not whole bytes -/

/-- What ends a report after some sections: another id, or the end of the
    collection. -/
def EndsReport (r : Reader) : List Section → Prop
  | [] => True
  | s :: _ => r.globals.reportId ≠ 0 ∧ r.globals.reportId ≠ s.id

theorem isSome_handleReportId (heap : Heap) (p : Parser) (value : Nat) (h : p.tempMap.isSome) :
    (handleReportId heap p value).1.tempMap.isSome := by
  have hreport := handleReport_isSome heap p.params p.newMap p.tempMap (.inr h)
  simp only [handleReportId]
  split
  · split
    · generalize handleReport heap p.params p.newMap p.tempMap = report at hreport ⊢
      obtain ⟨temp, ok⟩ := report
      cases ok <;> exact hreport
    · exact h
  · exact h

theorem isSome_handleEndCollection (heap : Heap) (p : Parser) (h : p.tempMap.isSome) :
    (handleEndCollection heap p).1.tempMap.isSome := by
  have hreport := handleReport_isSome heap p.params p.newMap p.tempMap (.inr h)
  simp only [handleEndCollection]
  split
  · split
    · generalize handleReport heap p.params p.newMap p.tempMap = report at hreport ⊢
      obtain ⟨temp, ok⟩ := report
      cases ok <;> exact hreport
    · exact h
  · exact h

/-- Once there is a table no item takes it away. -/
theorem isSome_handleCmd (heap : Heap) (p : Parser) (it : ShortItem) (h : p.tempMap.isSome) :
    (handleCmd heap p it).1.tempMap.isSome := by
  cases hstep : p.step with
  | waitUsagePage =>
      simp only [handleCmd, hstep]
      split <;> exact h
  | waitUsage =>
      simp only [handleCmd, hstep]
      split <;> exact h
  | waitCollectionApplication =>
      simp only [handleCmd, hstep]
      split
      · exact h
      · split <;> exact h
  | waitEndCollection =>
      rw [handleCmd_inside hstep]
      cases it.tag with
      | reportId => exact isSome_handleReportId heap p it.value h
      | endCollection => exact isSome_handleEndCollection heap p h
      | _ => exact h

/-- An item that makes a table leaves one to the end. -/
theorem isSome_handleAll {heap : Heap} {p : Parser} {it : ShortItem}
    (h : (handleCmd heap p it).1.tempMap.isSome) (its : List ShortItem) :
    (Code.handleAll (handleCmd heap) p (it :: its)).1.tempMap.isSome :=
  Code.handleAll_cons_keeps (P := fun p : Parser => p.tempMap.isSome) (isSome_handleCmd heap) h its

/-- With memory for it, a report that a new id ends leaves a table. -/
theorem isSome_new_id {heap : Heap} {p : Parser} {it : ShortItem} (hheap : heap.tempMap = true)
    (hstep : p.step = .waitEndCollection) (htag : it.tag = .reportId)
    (hends : p.params.reportId ≠ 0 ∧ p.params.reportId.toNat ≠ it.value)
    (hw : p.params.whole = true) : (handleCmd heap p it).1.tempMap.isSome := by
  have hreport := handleReport_isSome heap p.params p.newMap p.tempMap (.inl hheap)
  rw [handleCmd_reportId heap hstep htag, if_pos ⟨hends.1, hends.2, hw⟩]
  generalize handleReport heap p.params p.newMap p.tempMap = report at hreport ⊢
  obtain ⟨temp, ok⟩ := report
  cases ok <;> exact hreport

/-- So does one that the end of the collection ends. -/
theorem isSome_end {heap : Heap} {p : Parser} {it : ShortItem} (hheap : heap.tempMap = true)
    (hstep : p.step = .waitEndCollection) (htag : it.tag = .endCollection)
    (hdepth : p.collectionDepth.toNat = 1) (hw : p.params.whole = true) :
    (handleCmd heap p it).1.tempMap.isSome := by
  have hreport := handleReport_isSome heap p.params p.newMap p.tempMap (.inl hheap)
  rw [handleCmd_end heap hstep htag hdepth, if_pos hw]
  generalize handleReport heap p.params p.newMap p.tempMap = report at hreport ⊢
  obtain ⟨temp, ok⟩ := report
  cases ok <;> exact hreport

/-- In a list taken apart after its first element something holds of every split
    if it holds of the first and of all later ones. -/
theorem forall_split_cons {α : Type} {P : List α → List α → Prop} {x : α} {xs : List α} :
    (∀ before after, x :: xs = before ++ after → P before after) ↔
      P [] (x :: xs) ∧ ∀ before after, xs = before ++ after → P (x :: before) after := by
  constructor
  · intro h
    exact ⟨h [] _ rfl, fun before after hs => h (x :: before) after (congrArg (x :: ·) hs)⟩
  · rintro ⟨hnil, hcons⟩ before after hs
    cases before with
    | nil => exact (show x :: xs = after from hs) ▸ hnil
    | cons y before =>
        obtain ⟨rfl, hrest⟩ := List.cons.inj hs
        exact hcons before after hrest

/-- The lengths are those of all that has been declared, and there is no table:
    no report has been closed. -/
structure Unclosed (p : Parser) (r : Reader) : Prop where
  len     : ∀ k, p.params.len k = UInt16.ofNat (kindBits r.fields k)
  tempMap : p.tempMap = none

theorem Unclosed.whole_iff {p : Parser} {r : Reader} (h : Unclosed p r) :
    p.params.whole = true ↔ ∀ k, kindBits r.fields k % 8 = 0 := by
  rw [ReportMap.whole_iff]
  refine forall_congr' fun k => ?_
  rw [h.len k, toNat_ofNat_mod_eight]

/-- The sections and the closing item, by induction on the sections: the items are
    all handled and leave no table exactly when no report ends in whole bytes. -/
theorem unclosed_sections {heap : Heap} (hheap : heap.tempMap = true) (a : Application)
    {secs : List Section} {p : Parser} {r : Reader} {d : Nat} (hi : InStep p r d)
    (hu : Unclosed p r) (hd : depthAfter d (secs.flatMap Section.all) = some 1) :
    (∃ p', Code.handleAll (handleCmd heap) p (secs.flatMap Section.all ++ [a.closing]) =
        (p', true) ∧ p'.tempMap = none) ↔
      ∀ before after, secs = before ++ after →
        EndsReport (r.readAll (before.flatMap Section.all)) after →
          ∃ k, kindBits (r.readAll (before.flatMap Section.all)).fields k % 8 ≠ 0 := by
  induction secs generalizing p r d with
  | nil =>
      obtain rfl := Option.some.inj hd
      have hsplit : (∀ before after, ([] : List Section) = before ++ after →
          EndsReport (r.readAll (before.flatMap Section.all)) after →
            ∃ k, kindBits (r.readAll (before.flatMap Section.all)).fields k % 8 ≠ 0) ↔
          ¬ p.params.whole = true := by
        rw [hu.whole_iff, not_forall]
        constructor
        · intro h
          exact h [] [] rfl trivial
        · intro h before after hs _
          obtain ⟨rfl, rfl⟩ := List.append_eq_nil_iff.mp hs.symm
          exact h
      rw [hsplit, List.flatMap_nil, List.nil_append]
      by_cases hw : p.params.whole = true
      · -- the last report is closed
        refine iff_of_false ?_ (fun h => h hw)
        rintro ⟨p', hp', hnone⟩
        have hmade := isSome_end hheap hi.step a.closing_tag hi.depth hw
        have hkeep := isSome_handleAll hmade []
        rw [hp', hnone] at hkeep
        cases hkeep
      · have hend := handleCmd_end heap hi.step a.closing_tag hi.depth
        rw [if_neg hw] at hend
        exact iff_of_true ⟨_, Code.handleAll_cons_true hend, hu.tempMap⟩ hw
  | cons s secs ih =>
      rw [forall_split_cons, List.flatMap_cons, List.append_assoc]
      rw [List.flatMap_cons] at hd
      obtain ⟨d₁, hd₁, hrest⟩ := depthAfter_append hd
      rw [s.depthAfter_all] at hd₁
      have hother : (p.params.reportId ≠ 0 ∧ p.params.reportId.toNat ≠ s.lead.value) ↔
          EndsReport r (s :: secs) := by
        rw [EndsReport, ← hi.reportId, ne_eq, ne_eq, ← UInt8.toNat_inj]
        rfl
      by_cases hclose : EndsReport r (s :: secs) ∧ p.params.whole = true
      · -- the report before the section is closed
        refine iff_of_false ?_ fun h => ?_
        · rintro ⟨p', hp', hnone⟩
          have hmade := isSome_new_id hheap hi.step s.lead_tag (hother.mpr hclose.1) hclose.2
          have hkeep := isSome_handleAll hmade
            (s.items ++ (secs.flatMap Section.all ++ [a.closing]))
          rw [Section.all, List.cons_append] at hp'
          rw [hp', hnone] at hkeep
          cases hkeep
        · obtain ⟨k, hk⟩ := h.1 hclose.1
          exact hk (hu.whole_iff.mp hclose.2 k)
      · -- it is not: the lengths go on growing
        have hlead := handleCmd_reportId heap hi.step s.lead_tag
        rw [if_neg (fun hc => hclose ⟨hother.mp ⟨hc.1, hc.2.1⟩, hc.2.2⟩)] at hlead
        have hi₁ : InStep { p with params := { p.params with
            reportId := UInt8.ofNat s.lead.value } } (r.read s.lead) d :=
          hi.lead s rfl rfl rfl rfl rfl
        obtain ⟨p₂, hp₂, hi₂, hpass⟩ := inStep_items heap hi₁ s.plain hd₁
        have hu₂ : Unclosed p₂ (r.readAll s.all) := by
          refine ⟨fun k => ?_, hpass.tempMap.trans hu.tempMap⟩
          have hnew : (r.readAll s.all).fields =
              r.fields ++ (r.read s.lead).declaresAll s.items := by
            rw [Section.all, Reader.readAll_cons, Reader.fields_readAll, s.read_lead]
          have hsame : ({ p.params with reportId := UInt8.ofNat s.lead.value } : ReportParams).len k
              = p.params.len k := by cases k <;> rfl
          rw [hnew, kindBits_append, UInt16.ofNat_add, hpass.len k, hsame, hu.len k]
        have hall : Code.handleAll (handleCmd heap) p s.all = (p₂, true) :=
          (Code.handleAll_cons_true hlead).trans hp₂
        rw [Code.handleAll_append _ _ hall, ih hi₂ hu₂ hrest]
        simp only [List.flatMap_cons, Reader.readAll_append]
        refine (and_iff_right fun hends => ?_).symm
        refine not_forall.mp fun hw => hclose ⟨hends, hu.whole_iff.mpr hw⟩

/-- **Reports that are not whole bytes.**  The parser logs such a report as an error
    and goes on.  After any calls on descriptors of collections, and with memory
    for everything: the next one goes through a null pointer exactly when no table
    is left over and at no place where a report ends the bits declared so far are
    whole bytes for all three types. -/
theorem faults_iff (a : Application) {heap : Heap} {p : Parser} (hp : Between p)
    (hheap : heap.Ample (shortItem.emitAll a.items)) :
    (espHidParseReportMap heap p (shortItem.emitAll a.items)).2 = .fault ↔
      p.tempMap = none ∧ ∀ before after, a.sections = before ++ after →
        EndsReport (a.upTo before) after → ∃ k, kindBits (a.upTo before).fields k % 8 ≠ 0 := by
  obtain ⟨p₁, d, hp₁, hi₁, hd, hlen, -, -, -, htemp⟩ :=
    @inStep_preamble heap a { p with newMap := true } hp.waits
  have hitems : Code.handleAll (handleCmd heap) { p with newMap := true } a.items =
      Code.handleAll (handleCmd heap) p₁ (a.sections.flatMap Section.all ++ [a.closing]) := by
    rw [Application.items, ← List.append_assoc, Code.handleAll_append _ _ hp₁]
  -- the call faults when all items are handled and there is no table
  have hfault : (espHidParseReportMap heap p (shortItem.emitAll a.items)).2 = .fault ↔
      ∃ p', Code.handleAll (handleCmd heap) p₁ (a.sections.flatMap Section.all ++ [a.closing]) =
        (p', true) ∧ p'.tempMap = none := by
    rcases hall : Code.handleAll (handleCmd heap) { p with newMap := true } a.items with ⟨p₂, ok⟩
    rw [← hitems, hall]
    cases ok with
    | false =>
        rw [parse_rejected hheap.cmds hall]
        exact iff_of_false (by simp) (by simp)
    | true =>
        rw [parse_finished hheap hall]
        cases htable : p₂.tempMap with
        | none => exact iff_of_true rfl ⟨p₂, rfl, htable⟩
        | some map =>
            refine iff_of_false ?_ ?_
            · simp only
              split <;> simp
            · rintro ⟨p', hp', hnone⟩
              obtain ⟨rfl, -⟩ := Prod.mk.inj hp'
              rw [htable] at hnone
              cases hnone
  rw [hfault]
  by_cases hnone : p.tempMap = none
  · have hu : Unclosed p₁ (a.upTo []) := by
      refine ⟨fun k => ?_, htemp.trans hnone⟩
      rw [hlen k, a.upTo_nil.1]
      rfl
    rw [unclosed_sections hheap.tempMap a hi₁ hu hd]
    exact (and_iff_right hnone).symm
  · refine iff_of_false ?_ (fun h => hnone h.1)
    rintro ⟨p', hp', hnone'⟩
    have hkeep := Code.handleAll_keeps (P := fun p : Parser => p.tempMap.isSome)
      (isSome_handleCmd heap) (s := p₁) (by rw [htemp]; exact Option.isSome_iff_ne_none.mpr hnone)
      (a.sections.flatMap Section.all ++ [a.closing])
    rw [hp', hnone'] at hkeep
    cases hkeep

/-- The media controller's descriptor without its padding bit. -/
def unpaddedReport : Application :=
  mediaApplication [sectionOf 1 mediaButtons (by decide) (by decide)] (List.cons_ne_nil _ _)
    (by decide)

/-- Two reports, of seven bits and of one. -/
def splitReport : Application :=
  mediaApplication [sectionOf 1 mediaButtons (by decide) (by decide),
    sectionOf 2 mediaPadding (by decide) (by decide)] (List.cons_ne_nil _ _) (by decide)

/-- Without its padding bit the descriptor would stop the device.  With the bit as a
    report of its own it would not, since where the collection ends eight bits
    have been declared. -/
theorem faults_iff_unpadded :
    (espHidParseReportMap ⟨64, true, true, true⟩ initialParser
      (shortItem.emitAll unpaddedReport.items)).2 = .fault ∧
    (espHidParseReportMap ⟨64, true, true, true⟩ initialParser
      (shortItem.emitAll splitReport.items)).2 ≠ .fault := by
  constructor
  · refine (faults_iff unpaddedReport .start ⟨by decide, rfl, rfl, rfl⟩).mpr ⟨rfl, ?_⟩
    rw [show unpaddedReport.sections = [_] from rfl, forall_split_cons]
    refine ⟨fun h => absurd rfl h.1, fun before after hs _ => ⟨.input, ?_⟩⟩
    obtain ⟨rfl, rfl⟩ := List.append_eq_nil_iff.mp hs.symm
    decide
  · intro hfault
    obtain ⟨-, h⟩ := (faults_iff splitReport .start ⟨by decide, rfl, rfl, rfl⟩).mp hfault
    obtain ⟨k, hk⟩ := h splitReport.sections [] (List.append_nil _).symm trivial
    cases k <;> revert hk <;> decide

/-! ## The table of a collection -/

/-- Every kind of a report is a number of whole bytes that fits its counter. -/
structure WholeBytes (fs : List Field) (id : Nat) : Prop where
  whole : ∀ k, bits fs k id % 8 = 0
  small : ∀ k, bits fs k id < 65536

theorem WholeBytes.whole_eq {fs : List Field} {id : Nat} {report : ReportParams}
    (h : WholeBytes fs id) (hs : Stands report fs id) : report.whole = true := by
  refine whole_iff.mpr fun k => ?_
  rw [hs.len k, toNat_ofNat_mod_eight]
  exact h.whole k

/-- The parameters stand for the report that is open, the table for those before. -/
structure Tracks (p : Parser) (r : Reader) (done : List (Nat × Kind × Nat)) : Prop where
  stands : Stands p.params r.fields r.globals.reportId
  inner  : p.params.innerUsagePage ≠ hidUsagePageGenericDesktop
  table  : TableIs p done

/-- Items of the open report keep this up. -/
theorem Tracks.passes {p p' : Parser} {r : Reader} {d : Nat} {done : List (Nat × Kind × Nat)}
    {its : List ShortItem} (h : Tracks p r done) (hi : InStep p' (r.readAll its) d)
    (hpass : Passes p p' its (r.declaresAll its)) (hplain : ∀ it ∈ its, Plain it)
    (hoff : ∀ it ∈ its, OffDesktop it) : Tracks p' (r.readAll its) done where
  stands := by
    refine ⟨hpass.page ▸ h.stands.page, hi.reportId, fun k => ?_⟩
    rw [reportId_readAll hplain, Reader.fields_readAll, bits_append,
      bits_eq_kindBits (reportId_declaresAll hplain r), UInt16.ofNat_add, hpass.len k,
      h.stands.len k]
  inner := hpass.inner hoff h.inner
  table := h.table.congr hpass.newMap hpass.tempMap

/-- Nothing has been declared for an id. -/
def Untouched (r : Reader) (i : Nat) : Prop := ∀ k, bits r.fields k i = 0

/-- The parameters after a new id, with the lengths at zero. -/
theorem stands_new_id {report : ReportParams} {fs : List Field} {value : Nat}
    (hpage : report.usagePage ≠ hidUsagePageGenericDesktop) (hsmall : value < 256)
    (hnone : ∀ k, bits fs k value = 0) (hzero : ∀ k, report.len k = 0) :
    Stands { report with reportId := UInt8.ofNat value } fs value where
  page := hpage
  reportId := by
    show (UInt8.ofNat value).toNat = value
    rw [UInt8.toNat_ofNat']
    exact Nat.mod_eq_of_lt hsmall
  len := by
    intro k
    rw [hnone k]
    exact (show _ = report.len k by cases k <;> rfl).trans (hzero k)

/-- **A new id ends the report before it.** -/
theorem tracks_lead {heap : Heap} {p : Parser} {r : Reader} {d : Nat}
    {done : List (Nat × Kind × Nat)} (s : Section) (hheap : heap.tempMap = true)
    (hi : InStep p r d) (ht : Tracks p r done) (hid : r.globals.reportId ≠ 0)
    (hnew : r.globals.reportId ≠ s.id) (hbytes : WholeBytes r.fields r.globals.reportId)
    (hnone : Untouched r s.id)
    (hfit : (done ++ entriesOf r.fields r.globals.reportId).length ≤ 64) :
    ∃ p', handleCmd heap p s.lead = (p', true) ∧ InStep p' (r.read s.lead) d ∧
      Tracks p' (r.read s.lead) (done ++ entriesOf r.fields r.globals.reportId) := by
  obtain ⟨m, hm, hlines⟩ := handleReport_eq hheap ht.stands hbytes.small ht.table hfit
  have hends : p.params.reportId ≠ 0 ∧ p.params.reportId.toNat ≠ s.lead.value := by
    rw [hi.reportId]
    refine ⟨fun hzero => hid ?_, hnew⟩
    rw [← hi.reportId, hzero]
    rfl
  have hcmd := handleCmd_reportId heap hi.step s.lead_tag
  rw [if_pos ⟨hends.1, hends.2, hbytes.whole_eq ht.stands⟩, hm] at hcmd
  refine ⟨_, hcmd, hi.lead s rfl rfl rfl rfl rfl, ?_⟩
  have hstands := @stands_new_id { p.params with
    inputLen := 0
    outputLen := 0
    featureLen := 0
    usage := p.params.innerUsage
    usagePage := p.params.innerUsagePage } r.fields s.id ht.inner s.small.2 hnone
      (fun k => by cases k <;> rfl)
  rw [s.read_lead]
  exact ⟨hstands, ht.inner, ⟨fun h => (Bool.false_ne_true h).elim, fun _ => ⟨m, rfl, hlines⟩⟩⟩

/-- A section under its id. -/
theorem tracks_section (heap : Heap) (s : Section) {p p₁ : Parser} {r : Reader} {d d₁ : Nat}
    {done : List (Nat × Kind × Nat)} (hoff : ∀ it ∈ s.items, OffDesktop it)
    (hd : depthAfter d s.all = some d₁) (hp₁ : handleCmd heap p s.lead = (p₁, true))
    (hi₁ : InStep p₁ (r.read s.lead) d) (ht₁ : Tracks p₁ (r.read s.lead) done) :
    ∃ p₂, Code.handleAll (handleCmd heap) p s.all = (p₂, true) ∧ InStep p₂ (r.readAll s.all) d₁ ∧
      Tracks p₂ (r.readAll s.all) done ∧ (r.readAll s.all).globals.reportId = s.id := by
  rw [s.depthAfter_all] at hd
  obtain ⟨p₂, hp₂, hi₂, hpass⟩ := inStep_items heap hi₁ s.plain hd
  refine ⟨p₂, (Code.handleAll_cons_true hp₁).trans hp₂, hi₂,
    ht₁.passes hi₂ hpass s.plain hoff, ?_⟩
  rw [Section.all, Reader.readAll_cons, reportId_readAll s.plain, s.read_lead]

/-- The reports of a collection, one section after the other.  The report of the
    last id is still open at the end. -/
theorem tracks_sections {heap : Heap} (hheap : heap.tempMap = true) {secs : List Section}
    {p : Parser} {r : Reader} {d d' id : Nat} {done : List (Nat × Kind × Nat)}
    {fs : List Field} (hfs : (r.readAll (secs.flatMap Section.all)).fields = fs)
    (hi : InStep p r d) (ht : Tracks p r done) (hcur : r.globals.reportId = id) (hid : id ≠ 0)
    (hdistinct : (id :: secs.map Section.id).Nodup)
    (hoff : ∀ s ∈ secs, ∀ it ∈ s.items, OffDesktop it)
    (hnone : ∀ i ∈ secs.map Section.id, Untouched r i)
    (hbytes : ∀ i ∈ id :: secs.map Section.id, WholeBytes fs i)
    (hfit : (done ++ (id :: secs.map Section.id).flatMap (entriesOf fs)).length ≤ 64)
    (hd : depthAfter d (secs.flatMap Section.all) = some d') :
    ∃ p' done', Code.handleAll (handleCmd heap) p (secs.flatMap Section.all) = (p', true) ∧
      InStep p' (r.readAll (secs.flatMap Section.all)) d' ∧
      Tracks p' (r.readAll (secs.flatMap Section.all)) done' ∧
      (r.readAll (secs.flatMap Section.all)).globals.reportId ∈ id :: secs.map Section.id ∧
      done' ++ entriesOf fs (r.readAll (secs.flatMap Section.all)).globals.reportId =
        done ++ (id :: secs.map Section.id).flatMap (entriesOf fs) := by
  induction secs generalizing p r d id done with
  | nil =>
      obtain rfl := Option.some.inj hd
      refine ⟨p, done, rfl, hi, ht, ?_, ?_⟩
      · exact List.mem_singleton.mpr hcur
      · show done ++ entriesOf fs r.globals.reportId = _
        rw [hcur]
        simp
  | cons s secs ih =>
      rw [List.map_cons] at hdistinct hnone hbytes hfit ⊢
      obtain ⟨hnot, hrest⟩ := List.nodup_cons.mp hdistinct
      have hne : id ≠ s.id := fun h => hnot (h ▸ List.mem_cons_self)
      -- what is declared for the open report stays as it is
      have hsame : ∀ k, bits r.fields k id = bits fs k id := by
        intro k
        rw [← hfs]
        exact (bits_sections (s :: secs) r hnot).symm
      have hentries : entriesOf r.fields id = entriesOf fs id := by
        rw [entriesOf, entriesOf]
        exact List.filterMap_congr fun k _ => by rw [hsame k]
      have hopen : WholeBytes r.fields id :=
        ⟨fun k => hsame k ▸ (hbytes id List.mem_cons_self).whole k,
          fun k => hsame k ▸ (hbytes id List.mem_cons_self).small k⟩
      rw [List.flatMap_cons, ← List.append_assoc] at hfit
      have hfit₁ : (done ++ entriesOf r.fields id).length ≤ 64 := by
        rw [hentries]
        rw [List.length_append] at hfit
        omega
      obtain ⟨p₁, hp₁, hi₁, ht₁⟩ := tracks_lead s hheap hi ht (hcur ▸ hid) (hcur ▸ hne)
        (hcur ▸ hopen) (hnone s.id List.mem_cons_self) (hcur ▸ hfit₁)
      rw [hcur, hentries] at ht₁
      -- the items of the section, then the sections after it
      rw [List.flatMap_cons] at hd hfs ⊢
      obtain ⟨d₂, hd₂, hdrest⟩ := depthAfter_append hd
      obtain ⟨p₂, hp₂, hi₂, ht₂, hcur₂⟩ := tracks_section heap s
        (hoff s List.mem_cons_self) hd₂ hp₁ hi₁ ht₁
      rw [Reader.readAll_append] at hfs ⊢
      have hnone₂ : ∀ i ∈ secs.map Section.id, Untouched (r.readAll s.all) i := by
        intro i hmem k
        have hi : i ≠ s.id := fun h => (List.nodup_cons.mp hrest).1 (h ▸ hmem)
        rw [bits_section s r hi]
        exact hnone i (List.mem_cons_of_mem _ hmem) k
      obtain ⟨p', done', hp', hi', ht', hlast, hdone'⟩ :=
        ih hfs hi₂ ht₂ hcur₂ s.small.1.ne' hrest (fun x hx => hoff x (List.mem_cons_of_mem s hx))
          hnone₂ (fun i hmem => hbytes i (List.mem_cons_of_mem _ hmem)) hfit hdrest
      refine ⟨p', done', ?_, hi', ht', List.mem_cons_of_mem _ hlast, ?_⟩
      · rw [Code.handleAll_append _ _ hp₂]
        exact hp'
      · rw [hdone', List.append_assoc, ← List.flatMap_cons]

def Application.ids (a : Application) : List Nat := a.sections.map Section.id

/-- The table that a host reads off the descriptor. -/
def Application.table (a : Application) : List (Nat × Kind × Nat) :=
  a.ids.flatMap (entriesOf (fieldsOf a.items))

/-- What the parser asks of a descriptor: no turn to the Generic Desktop page, one
    place for each id, and reports of whole bytes that fit their counters and the
    table. -/
structure Application.Regular (a : Application) : Prop where
  page     : UInt16.ofNat a.page.value ≠ hidUsagePageGenericDesktop
  preamble : ∀ it ∈ a.preamble, OffDesktop it
  sections : ∀ s ∈ a.sections, ∀ it ∈ s.items, OffDesktop it
  distinct : a.ids.Nodup
  bytes    : ∀ i ∈ a.ids, WholeBytes (fieldsOf a.items) i
  fits     : a.table.length ≤ 64

/-- The first id ends no report. -/
theorem tracks_first_lead (heap : Heap) (a : Application) (s : Section) {p : Parser} {d : Nat}
    (hi : InStep p (a.upTo []) d) (hlen : ∀ k, p.params.len k = 0)
    (hpage : p.params.usagePage ≠ hidUsagePageGenericDesktop)
    (hinner : p.params.innerUsagePage ≠ hidUsagePageGenericDesktop) (hnew : p.newMap = true) :
    ∃ p', handleCmd heap p s.lead = (p', true) ∧ InStep p' ((a.upTo []).read s.lead) d ∧
      Tracks p' ((a.upTo []).read s.lead) [] := by
  obtain ⟨hempty, hzero⟩ := a.upTo_nil
  have hz : p.params.reportId = 0 := UInt8.toNat_inj.mp (hi.reportId.trans hzero)
  have hcmd := handleCmd_reportId heap hi.step s.lead_tag
  rw [if_neg (fun h => h.1 hz)] at hcmd
  refine ⟨_, hcmd, hi.lead s rfl rfl rfl rfl rfl, ?_⟩
  rw [s.read_lead]
  refine ⟨stands_new_id hpage s.small.2 (fun k => ?_) hlen, hinner,
    fun _ => rfl, fun h => absurd (h.symm.trans hnew) Bool.false_ne_true⟩
  rw [hempty]
  rfl

/-- Up to the closing item: the report of the last id is open. -/
theorem tracks_body {heap : Heap} (hheap : heap.tempMap = true) (a : Application) {p : Parser}
    (hp : p.step = .waitUsagePage) (hnew : p.newMap = true) (ha : a.Regular) :
    ∃ p' done, Code.handleAll (handleCmd heap) p
        (a.header ++ a.preamble ++ a.sections.flatMap Section.all) = (p', true) ∧
      InStep p' (a.upTo a.sections) 1 ∧ Tracks p' (a.upTo a.sections) done ∧
      (a.upTo a.sections).globals.reportId ∈ a.ids ∧
      done ++ entriesOf (fieldsOf a.items) (a.upTo a.sections).globals.reportId = a.table := by
  obtain ⟨p₁, d, hp₁, hi₁, hd, hlen, hpage, hinner, hnew₁, -⟩ := inStep_preamble heap a hp
  obtain ⟨s, secs, hsecs⟩ := List.exists_cons_of_ne_nil a.nonempty
  obtain ⟨p₂, hp₂, hi₂, ht₂⟩ := tracks_first_lead heap a s hi₁ hlen (hpage ▸ ha.page)
    (hinner ha.preamble) (hnew₁.trans hnew)
  have hfields := a.fields_eq
  obtain ⟨-, -, hoff, hdistinct, hbytes, hfit⟩ := ha
  rw [Application.ids] at hdistinct hbytes ⊢
  rw [Application.table, Application.ids] at hfit ⊢
  rw [hsecs] at hd hdistinct hbytes hfit hfields hoff ⊢
  rw [List.flatMap_cons] at hd ⊢
  obtain ⟨d₃, hd₃, hrest⟩ := depthAfter_append hd
  obtain ⟨p₃, hp₃, hi₃, ht₃, hcur⟩ := tracks_section heap s (hoff s List.mem_cons_self) hd₃ hp₂
    hi₂ ht₂
  have hup : a.upTo (s :: secs) =
      ((a.upTo []).readAll s.all).readAll (secs.flatMap Section.all) := by
    show (a.upTo []).readAll ((s :: secs).flatMap Section.all) = _
    rw [List.flatMap_cons, Reader.readAll_append]
  rw [hup] at hfields ⊢
  have hnone : ∀ i ∈ secs.map Section.id, Untouched ((a.upTo []).readAll s.all) i := by
    intro i hmem k
    have hne : i ≠ s.id := fun h => (List.nodup_cons.mp hdistinct).1 (h ▸ hmem)
    rw [bits_section s _ hne, a.upTo_nil.1]
    rfl
  obtain ⟨p', done, hp', hi', ht', hlast, hdone⟩ := tracks_sections hheap hfields.symm hi₃ ht₃ hcur
    s.small.1.ne' hdistinct (fun x hx => hoff x (List.mem_cons_of_mem s hx)) hnone hbytes hfit hrest
  refine ⟨p', done, ?_, hi', ht', hlast, hdone⟩
  rw [Code.handleAll_append _ _ hp₁, Code.handleAll_append _ _ hp₃]
  exact hp'

/-- **The parser's table is the host's.**  After any calls on descriptors of
    collections, and with memory for everything, for every regular descriptor: if
    it declares no report the parser returns a null pointer, as a list of no
    reports cannot be allocated; else it returns a map, whose reports are the ones
    that a host reads off the descriptor, in order, with their ids, their types and
    their lengths in bytes, and all are reports of the report protocol. -/
theorem report_map_correct (a : Application) {heap : Heap} {p : Parser} (hp : Between p)
    (hheap : heap.Ample (shortItem.emitAll a.items)) (ha : a.Regular) :
    (a.table = [] →
      (espHidParseReportMap heap p (shortItem.emitAll a.items)).2 = .null) ∧
    (a.table ≠ [] →
      ∃ m, (espHidParseReportMap heap p (shortItem.emitAll a.items)).2 = .map m ∧
        m.reports.map ReportItem.entry = a.table ∧
        ∀ r ∈ m.reports, r.protocolMode = .report) := by
  obtain ⟨p₁, done, hp₁, hi₁, ht₁, hlast, hdone⟩ :=
    @tracks_body heap hheap.tempMap a { p with newMap := true } hp.waits rfl ha
  have hfields := a.fields_eq
  have hopen : WholeBytes (a.upTo a.sections).fields (a.upTo a.sections).globals.reportId :=
    hfields ▸ ha.bytes _ hlast
  have hroom : (done ++ entriesOf (a.upTo a.sections).fields
      (a.upTo a.sections).globals.reportId).length ≤ 64 := by
    rw [← hfields, hdone]
    exact ha.fits
  obtain ⟨m, hm, hlines, hmode⟩ :=
    handleReport_eq hheap.tempMap ht₁.stands hopen.small ht₁.table hroom
  rw [← hfields, hdone] at hlines
  -- all items are handled, and the closing one ends the last report
  have hall : Code.handleAll (handleCmd heap) { p with newMap := true } a.items =
      ({ p₁ with
        collectionDepth := 0, tempMap := some m, newMap := false, step := .waitUsagePage },
        true) := by
    rw [Application.items, ← List.append_assoc, ← List.append_assoc,
      Code.handleAll_append _ _ hp₁]
    refine Code.handleAll_cons_true ?_
    rw [handleCmd_end heap hi₁.step a.closing_tag hi₁.depth, hopen.whole_eq ht₁.stands,
      if_pos rfl, hm]
  have hcall := parse_finished hheap hall
  simp only at hcall
  have hempty : m.reports = [] ↔ a.table = [] := by
    rw [← hlines, List.map_eq_nil_iff]
  constructor
  · intro hnone
    rw [hcall, if_neg (not_not.mpr (hempty.mpr hnone))]
  · intro hsome
    rw [hcall, if_pos (fun h => hsome (hempty.mp h))]
    exact ⟨_, rfl, hlines, hmode⟩

/-- The descriptor of the media controller. -/
def mediaReport : Application :=
  mediaApplication [sectionOf 1 (mediaButtons ++ mediaPadding) (by decide) (by decide)]
    (List.cons_ne_nil _ _) (by decide)

theorem mediaReport_items : shortItem.emitAll mediaReport.items = MediaCommand.sMediaReportMap := by
  decide

theorem mediaReport_regular : mediaReport.Regular where
  page := by decide
  preamble := nofun
  sections := by decide
  distinct := by decide
  bytes := by
    intro i hi
    obtain rfl := List.mem_singleton.mp hi
    exact ⟨fun k => by cases k <;> decide, fun k => by cases k <;> decide⟩
  fits := by decide

/-- The media controller has one report: an input report, id 1, of one byte.  So
    says also the table that is made after a call which found no memory for it. -/
theorem report_map_correct_media :
    ∃ m, (espHidParseReportMap ⟨64, true, true, true⟩
        (espHidParseReportMap ⟨64, false, true, true⟩ initialParser
          MediaCommand.sMediaReportMap).1 MediaCommand.sMediaReportMap).2 = .map m ∧
      m.reports.map ReportItem.entry = [(1, .input, 1)] ∧
      ∀ r ∈ m.reports, r.protocolMode = .report := by
  have htable : mediaReport.table = [(1, .input, 1)] := by decide
  rw [← mediaReport_items, ← htable]
  exact (report_map_correct mediaReport
    (.call mediaReport ⟨64, false, true, true⟩ .start (by decide) (by decide))
    ⟨by decide, rfl, rfl, rfl⟩ mediaReport_regular).2 (by decide)

end ReportMap
