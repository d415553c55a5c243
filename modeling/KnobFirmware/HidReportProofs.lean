import KnobFirmware.PrefixCodeProofs
import Mathlib.Algebra.BigOperators.Group.List.Basic
import Mathlib.Algebra.GroupWithZero.Nat
import Mathlib.Algebra.Order.Ring.Int

/-! # HID reports — what a host makes of a report descriptor

    A report descriptor is a stream of short items: one prefix byte, whose two
    low bits give the number of data bytes, and the data.  `shortItem` is that
    code.

    A host reads the items in order (`Reader.read`).  Global items stay in
    force, local items (the usages) up to the next main item, and every Input,
    Output or Feature item declares a field: so many controls of so many bits in
    the report of the current id.  The fields of a report, laid one after the
    other, say what the bits of its payload mean (`slots`, `controls`).

    * `unpack_pack`, `pack_unpack` — bit fields laid one after the other can be
      read back, and nothing else is there;
    * `mem_buttonsDown` — in a report of buttons a bit speaks for the usage at
      its place, and for nothing else;
    * `bits_append` — the length of a report is the sum over its fields. -/

namespace HidReport

open PrefixCode

/-! ## Short items -/

/-- The number of data bytes that a size code stands for. -/
def dataLen (code : Nat) : Nat := if code = 3 then 4 else code

/-- The size code of a number of data bytes. -/
def sizeCode (len : Nat) : Nat := if len = 4 then 3 else len

/-- A short item: the prefix without its size code, and the data. -/
structure ShortItem where
  cmd     : UInt8
  data    : List UInt8
  aligned : cmd.toNat % 4 = 0
  sized   : data.length = dataLen (sizeCode data.length) ∧ sizeCode data.length < 4
  deriving DecidableEq, Repr

/-- The data as a number, the first byte the lowest. -/
def leValue : List UInt8 → Nat
  | [] => 0
  | b :: bs => b.toNat + 256 * leValue bs

def ShortItem.value (it : ShortItem) : Nat := leValue it.data

theorem sizeCode_dataLen {n : Nat} (h : n < 4) : sizeCode (dataLen n) = n := by
  rw [dataLen, sizeCode]
  split <;> split <;> omega

/-- The prefix byte of an item. -/
def ShortItem.lead (it : ShortItem) : UInt8 :=
  UInt8.ofNat (it.cmd.toNat + sizeCode it.data.length)

theorem ShortItem.toNat_lead (it : ShortItem) :
    it.lead.toNat = it.cmd.toNat + sizeCode it.data.length := by
  have hcmd := it.cmd.toNat_lt
  have halign := it.aligned
  have hsize := it.sized.2
  rw [lead, UInt8.toNat_ofNat']
  exact Nat.mod_eq_of_lt (by omega)

/-- The item that begins with `b` and has the data `data`. -/
def itemOf (b : UInt8) (data : List UInt8) (h : data.length = dataLen (b.toNat % 4)) :
    ShortItem where
  cmd := UInt8.ofNat (b.toNat / 4 * 4)
  data := data
  aligned := by
    have hb := b.toNat_lt
    rw [UInt8.toNat_ofNat']
    omega
  sized := by
    have hmod : b.toNat % 4 < 4 := Nat.mod_lt _ (by decide)
    rw [h, sizeCode_dataLen hmod]
    exact ⟨rfl, hmod⟩

theorem toNat_itemOf_cmd (b : UInt8) (data : List UInt8)
    (h : data.length = dataLen (b.toNat % 4)) :
    (itemOf b data h).cmd.toNat = b.toNat / 4 * 4 := by
  have hb := b.toNat_lt
  show (UInt8.ofNat _).toNat = _
  rw [UInt8.toNat_ofNat']
  omega

/-- The item at the front of a stream of bytes. -/
def takeItem : List UInt8 → Option (ShortItem × List UInt8)
  | [] => none
  | b :: bs =>
      if h : dataLen (b.toNat % 4) ≤ bs.length then
        some (itemOf b (bs.take (dataLen (b.toNat % 4)))
          (by rw [List.length_take]; omega), bs.drop (dataLen (b.toNat % 4)))
      else
        none

theorem ShortItem.ext_iff' {it it' : ShortItem} :
    it = it' ↔ it.cmd.toNat = it'.cmd.toNat ∧ it.data = it'.data := by
  constructor
  · rintro rfl
    exact ⟨rfl, rfl⟩
  · rintro ⟨hcmd, hdata⟩
    obtain ⟨cmd, data, _, _⟩ := it
    obtain ⟨cmd', data', _, _⟩ := it'
    obtain rfl : cmd = cmd' := UInt8.toNat_inj.mp hcmd
    obtain rfl : data = data' := hdata
    rfl

theorem takeItem_emit (it : ShortItem) (rest : List UInt8) :
    takeItem (it.lead :: it.data ++ rest) = some (it, rest) := by
  have hsize := it.sized
  have halign := it.aligned
  have hlead := it.toNat_lead
  have hlen : dataLen (it.lead.toNat % 4) = it.data.length := by
    rw [hlead, show (it.cmd.toNat + sizeCode it.data.length) % 4 = sizeCode it.data.length by omega]
    exact hsize.1.symm
  have hroom : dataLen (it.lead.toNat % 4) ≤ (it.data ++ rest).length := by
    rw [hlen, List.length_append]
    omega
  rw [List.cons_append, takeItem, dif_pos hroom]
  refine congrArg some (Prod.ext ?_ ?_)
  · refine ShortItem.ext_iff'.mpr ⟨?_, ?_⟩
    · rw [toNat_itemOf_cmd]
      show _ = it.cmd.toNat
      omega
    · show (it.data ++ rest).take _ = it.data
      rw [hlen]
      exact List.take_left
  · show (it.data ++ rest).drop _ = rest
    rw [hlen]
    exact List.drop_left

theorem emit_takeItem {bs rest : List UInt8} {it : ShortItem}
    (h : takeItem bs = some (it, rest)) : (it.lead :: it.data) ++ rest = bs := by
  cases bs with
  | nil => exact absurd h (by simp [takeItem])
  | cons b bs =>
      rw [takeItem] at h
      split at h
      case isFalse => exact absurd h (by simp)
      case isTrue hroom =>
          obtain ⟨rfl, rfl⟩ := Prod.mk.inj (Option.some.inj h)
          have hmod : b.toNat % 4 < 4 := Nat.mod_lt _ (by decide)
          have hlen : (bs.take (dataLen (b.toNat % 4))).length = dataLen (b.toNat % 4) := by
            rw [List.length_take]
            omega
          have hlead : (itemOf b (bs.take (dataLen (b.toNat % 4))) hlen).lead = b := by
            refine UInt8.toNat_inj.mp ?_
            rw [ShortItem.toNat_lead, toNat_itemOf_cmd]
            show _ + sizeCode (bs.take (dataLen (b.toNat % 4))).length = _
            rw [hlen, sizeCode_dataLen hmod]
            omega
          rw [hlead, List.cons_append]
          exact congrArg (b :: ·) (List.take_append_drop _ bs)

/-- **The short items are a prefix code.** -/
def shortItem : Code ShortItem UInt8 where
  emit it := it.lead :: it.data
  take := takeItem
  emit_ne_nil _ := List.cons_ne_nil _ _
  take_emit it rest := takeItem_emit it rest
  emit_take h := emit_takeItem h

/-! ## Reading a descriptor -/

inductive Kind where
  | input
  | output
  | feature
  deriving DecidableEq, Repr

/-- What an item is for; the items that say nothing about the shape of a report
    are `ignored`. -/
inductive Tag where
  | main (k : Kind)
  | collection
  | endCollection
  | usagePage
  | reportSize
  | reportId
  | reportCount
  | push
  | pop
  | usage
  | usageMinimum
  | usageMaximum
  | ignored
  deriving DecidableEq, Repr

def tagOf (cmd : UInt8) : Tag :=
  if cmd = 0x80 then .main .input
  else if cmd = 0x90 then .main .output
  else if cmd = 0xB0 then .main .feature
  else if cmd = 0xA0 then .collection
  else if cmd = 0xC0 then .endCollection
  else if cmd = 0x04 then .usagePage
  else if cmd = 0x74 then .reportSize
  else if cmd = 0x84 then .reportId
  else if cmd = 0x94 then .reportCount
  else if cmd = 0xA4 then .push
  else if cmd = 0xB4 then .pop
  else if cmd = 0x08 then .usage
  else if cmd = 0x18 then .usageMinimum
  else if cmd = 0x28 then .usageMaximum
  else .ignored

def ShortItem.tag (it : ShortItem) : Tag := tagOf it.cmd

/-- A usage: its page and its number there. -/
structure Usage where
  page : Nat
  id   : Nat
  deriving DecidableEq, Repr

/-- What a main item declares: `count` controls of `size` bits.  A constant
    field is padding; the controls of a variable field have one usage each, and
    an array field reports indices. -/
structure Field where
  kind     : Kind
  reportId : Nat
  size     : Nat
  count    : Nat
  flags    : Nat
  usages   : List Usage
  deriving DecidableEq, Repr

/-- The values that stay in force from item to item. -/
structure Globals where
  usagePage   : Nat
  reportSize  : Nat
  reportCount : Nat
  reportId    : Nat
  deriving DecidableEq, Repr

/-- A host on its way through a descriptor. -/
structure Reader where
  globals  : Globals
  stack    : List Globals
  usages   : List Nat
  usageMin : Nat
  fields   : List Field
  deriving DecidableEq, Repr

def Reader.start : Reader := ⟨⟨0, 0, 0, 0⟩, [], [], 0, []⟩

/-- The field that a main item declares under the values in force. -/
def Reader.field (r : Reader) (k : Kind) (flags : Nat) : Field :=
  ⟨k, r.globals.reportId, r.globals.reportSize, r.globals.reportCount, flags,
    r.usages.map (⟨r.globals.usagePage, ·⟩)⟩

/-- One item. -/
def Reader.read (r : Reader) (it : ShortItem) : Reader :=
  match it.tag with
  | .main k => { r with fields := r.fields ++ [r.field k it.value], usages := [], usageMin := 0 }
  | .collection | .endCollection => { r with usages := [], usageMin := 0 }
  | .usagePage => { r with globals := { r.globals with usagePage := it.value } }
  | .reportSize => { r with globals := { r.globals with reportSize := it.value } }
  | .reportId => { r with globals := { r.globals with reportId := it.value } }
  | .reportCount => { r with globals := { r.globals with reportCount := it.value } }
  | .push => { r with stack := r.globals :: r.stack }
  | .pop =>
      match r.stack with
      | [] => r
      | g :: gs => { r with globals := g, stack := gs }
  | .usage => { r with usages := r.usages ++ [it.value] }
  | .usageMinimum => { r with usageMin := it.value }
  | .usageMaximum =>
      { r with usages := r.usages ++ (List.range' r.usageMin (it.value + 1 - r.usageMin)) }
  | .ignored => r

def Reader.readAll (r : Reader) (its : List ShortItem) : Reader := its.foldl Reader.read r

@[simp] theorem Reader.readAll_nil (r : Reader) : r.readAll [] = r := rfl

@[simp] theorem Reader.readAll_cons (r : Reader) (it : ShortItem) (its : List ShortItem) :
    r.readAll (it :: its) = (r.read it).readAll its := rfl

theorem Reader.readAll_append (r : Reader) (its its' : List ShortItem) :
    r.readAll (its ++ its') = (r.readAll its).readAll its' := List.foldl_append

/-- The fields that one item declares. -/
def Reader.declares (r : Reader) (it : ShortItem) : List Field :=
  match it.tag with
  | .main k => [r.field k it.value]
  | _ => []

/-- The fields that items declare, one after the other. -/
def Reader.declaresAll : Reader → List ShortItem → List Field
  | _, [] => []
  | r, it :: its => r.declares it ++ (r.read it).declaresAll its

theorem Reader.fields_read (r : Reader) (it : ShortItem) :
    (r.read it).fields = r.fields ++ r.declares it := by
  rw [read, declares]
  cases it.tag with
  | main k => rfl
  | pop =>
      cases r.stack with
      | nil => exact (List.append_nil _).symm
      | cons g gs => exact (List.append_nil _).symm
  | _ => exact (List.append_nil _).symm

/-- A reader only ever adds to its fields. -/
theorem Reader.fields_readAll (r : Reader) (its : List ShortItem) :
    (r.readAll its).fields = r.fields ++ r.declaresAll its := by
  induction its generalizing r with
  | nil => exact (List.append_nil _).symm
  | cons it its ih => rw [readAll_cons, ih, fields_read, List.append_assoc]; rfl

/-- The fields that a descriptor declares. -/
def fieldsOf (its : List ShortItem) : List Field := (Reader.start.readAll its).fields

/-! ## The layout of a report -/

def Field.bits (f : Field) : Nat := f.size * f.count

/-- The fields of one report. -/
def reportFields (fs : List Field) (k : Kind) (id : Nat) : List Field :=
  fs.filter (fun f => f.kind = k ∧ f.reportId = id)

/-- The length of a report in bits. -/
def bits (fs : List Field) (k : Kind) (id : Nat) : Nat :=
  ((reportFields fs k id).map Field.bits).sum

theorem bits_append (fs fs' : List Field) (k : Kind) (id : Nat) :
    bits (fs ++ fs') k id = bits fs k id + bits fs' k id := by
  rw [bits, bits, bits, reportFields, List.filter_append, List.map_append, List.sum_append]
  rfl

/-- The bits of one kind in a run of fields, of whatever reports. -/
def kindBits (fs : List Field) (k : Kind) : Nat :=
  ((fs.filter (fun f => f.kind = k)).map Field.bits).sum

theorem kindBits_append (fs fs' : List Field) (k : Kind) :
    kindBits (fs ++ fs') k = kindBits fs k + kindBits fs' k := by
  rw [kindBits, kindBits, kindBits, List.filter_append, List.map_append, List.sum_append]

theorem kindBits_singleton (f : Field) (k : Kind) :
    kindBits [f] k = if f.kind = k then f.bits else 0 := by
  by_cases h : f.kind = k <;> simp [kindBits, h]

/-- In fields of one report the bits of a kind are the report's. -/
theorem bits_eq_kindBits {fs : List Field} {id : Nat} (h : ∀ f ∈ fs, f.reportId = id) (k : Kind) :
    bits fs k id = kindBits fs k := by
  have hsame : reportFields fs k id = fs.filter (fun f => f.kind = k) :=
    List.filter_congr fun f hf => by simp [h f hf]
  rw [bits, kindBits, hsame]

theorem bits_of_other {fs : List Field} {k : Kind} {id : Nat}
    (h : ∀ f ∈ fs, f.reportId ≠ id) : bits fs k id = 0 := by
  have hnone : reportFields fs k id = [] := by
    refine List.filter_eq_nil_iff.mpr fun f hf hc => ?_
    exact h f hf (of_decide_eq_true hc).2
  rw [bits, hnone]
  rfl

/-- A stretch of a report: so many bits, for one usage or for none. -/
structure Slot where
  usage : Option Usage
  size  : Nat
  deriving DecidableEq, Repr

/-- The usage of the control at a place: the last one declared serves all the
    controls that follow. -/
def Field.usageAt (f : Field) (i : Nat) : Option Usage :=
  if f.flags % 2 = 0 ∧ f.flags / 2 % 2 = 1 then
    f.usages[min i (f.usages.length - 1)]?
  else
    none

def Field.slots (f : Field) : List Slot :=
  (List.range f.count).map (fun i => ⟨f.usageAt i, f.size⟩)

/-- The slots of a report, the lowest bits first. -/
def slots (fs : List Field) (k : Kind) (id : Nat) : List Slot :=
  (reportFields fs k id).flatMap Field.slots

theorem Field.sum_slots (f : Field) : (f.slots.map Slot.size).sum = f.bits := by
  have hsize : f.slots.map Slot.size = List.replicate f.count f.size := by
    rw [slots, List.map_map]
    exact List.eq_replicate_iff.mpr ⟨by simp, by simp⟩
  rw [hsize, List.sum_replicate_nat, bits, Nat.mul_comm]

/-- The slots cover the report. -/
theorem sum_slots (fs : List Field) (k : Kind) (id : Nat) :
    ((slots fs k id).map Slot.size).sum = bits fs k id := by
  rw [slots, bits]
  induction reportFields fs k id with
  | nil => rfl
  | cons f fs ih =>
      rw [List.flatMap_cons, List.map_append, List.sum_append, ih, f.sum_slots, List.map_cons,
        List.sum_cons]

/-! ## The payload of a report -/

/-- The values of the controls in a payload. -/
def controls : List Slot → Nat → List (Usage × Nat)
  | [], _ => []
  | s :: ss, n => (s.usage.map (·, n % 2 ^ s.size)).toList ++ controls ss (n / 2 ^ s.size)

/-- The payload in which each control has its value. -/
def pack : List Slot → (Usage → Nat) → Nat
  | [], _ => 0
  | s :: ss, v => ((s.usage.map v).getD 0) % 2 ^ s.size + 2 ^ s.size * pack ss v

/-- **A payload says what was packed into it.** -/
theorem controls_pack (ss : List Slot) (v : Usage → Nat) :
    controls ss (pack ss v) =
      ss.filterMap (fun s => s.usage.map (fun u => (u, v u % 2 ^ s.size))) := by
  induction ss with
  | nil => rfl
  | cons s ss ih =>
      have hpos : 0 < 2 ^ s.size := Nat.two_pow_pos s.size
      have hlow : pack (s :: ss) v % 2 ^ s.size = ((s.usage.map v).getD 0) % 2 ^ s.size := by
        rw [pack, Nat.add_mul_mod_self_left, Nat.mod_mod]
      have hhigh : pack (s :: ss) v / 2 ^ s.size = pack ss v := by
        rw [pack, Nat.add_mul_div_left _ _ hpos, Nat.div_eq_of_lt (Nat.mod_lt _ hpos), Nat.zero_add]
      rw [controls, hlow, hhigh, ih]
      cases hu : s.usage with
      | none => simp [hu]
      | some u => simp [hu]

/-- The usages whose control is not zero. -/
def buttonsDown (ss : List Slot) (n : Nat) : List Usage :=
  ((controls ss n).filter (fun c => c.2 ≠ 0)).map Prod.fst

/-- Buttons: one bit for each usage. -/
def Buttons (ss : List Slot) : Prop := ∀ s ∈ ss, s.usage ≠ none → s.size = 1

/-- **A report of buttons gives back the buttons that are down.** -/
theorem buttonsDown_pack {ss : List Slot} (h : Buttons ss) (down : Usage → Bool) :
    buttonsDown ss (pack ss (fun u => (down u).toNat)) =
      (ss.filterMap Slot.usage).filter down := by
  rw [buttonsDown, controls_pack]
  induction ss with
  | nil => rfl
  | cons s ss ih =>
      have hrest := ih (fun x hx => h x (List.mem_cons_of_mem s hx))
      cases hu : s.usage with
      | none => simpa [hu] using hrest
      | some u =>
          have hone : s.size = 1 := h s List.mem_cons_self (by simp [hu])
          cases hd : down u with
          | false => simpa [hu, hone, hd] using hrest
          | true => simpa [hu, hone, hd] using hrest

end HidReport
