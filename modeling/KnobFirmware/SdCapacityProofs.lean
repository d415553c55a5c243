import KnobFirmware.SdCardProofs
import Mathlib.Algebra.Group.Nat.Defs
import Mathlib.Algebra.Ring.Int.Defs

/-! # The capacity on the SD page

    The driver decodes a card's CSD register into `sdmmc_csd_t`.  A card of
    version 2.0 gives its size as `C_SIZE`, in units of 512 KiB, and the driver
    keeps the number of sectors in an `int`.  `sd_card_update_status_label`
    computes in 64 bits from there on, and its comment says that large SDXC
    cards cannot overflow; but the cast that begins the computation extends the
    sign of that `int`.

    Up to `2 ^ 31 - 1` sectors the label shows the card's capacity.  From 1 TiB
    on the sectors do not fit the `int`, and the label shows a number that is
    never the right one (`capacity_shown_iff`). -/

namespace SdCapacity

open EspErr SdCard

/-! ## The CSD register -/

def espErrNotSupported : EspErr := 0x106

/-- `sdmmc_response_t`. -/
abbrev Response := Fin 4 → UInt32

/-- `MMC_RSP_BITS`; the fields that are read end within the response. -/
def mmcRspBits (src : Response) (start len : Nat) : UInt32 :=
  let mask : UInt32 :=
    if len % 32 = 0 then 0xFFFFFFFF else 0xFFFFFFFF >>> UInt32.ofNat (32 - len % 32)
  let word := start / 32
  let shift := start % 32
  let right := src (Fin.ofNat 4 word) >>> UInt32.ofNat shift
  let left :=
    if len + shift ≤ 32 then 0
    else src (Fin.ofNat 4 (word + 1)) <<< UInt32.ofNat ((32 - shift) % 32)
  (left ||| right) &&& mask

/-- `sdmmc_csd_t`. -/
structure Csd where
  csdVer           : Int32
  mmcVer           : Int32
  capacity         : Int32
  sectorSize       : Int32
  readBlockLen     : Int32
  cardCommandClass : Int32
  trSpeed          : Int32
  deriving DecidableEq, Repr

/-- `SD_CSD_V2_CAPACITY` and `SD_CSD_V2_BL_LEN`. -/
def sdCsdV2 (response : Response) : Int32 × Int32 :=
  (((mmcRspBits response 48 22 + 1) <<< 10).toInt32, 0x9)

/-- `SD_CSD_CAPACITY` and `SD_CSD_READ_BL_LEN`. -/
def sdCsdV1 (response : Response) : Int32 × Int32 :=
  (((mmcRspBits response 62 12 + 1) <<< (mmcRspBits response 47 3 + 2)).toInt32,
    (mmcRspBits response 80 4).toInt32)

/-- The speed that `TRAN_SPEED` stands for. -/
def trSpeed (speed : UInt32) : Int32 :=
  if speed = 0x5a then 50000000
  else if speed = 0xb then 100000000
  else if speed = 0x2b then 200000000
  else 25000000

/-- `sdmmc_decode_csd` from its `switch` on, with the capacity and the block
    length of the version. -/
def decodeBlocks (response : Response) (csdVer : Int32) (read : Int32 × Int32) (out : Csd) : Csd :=
  let readBlSize := (1 : Int32) <<< read.2
  let sectorSize := min readBlSize 512
  { out with
    csdVer := csdVer
    capacity := if sectorSize < readBlSize then read.1 * (readBlSize / sectorSize) else read.1
    sectorSize := sectorSize
    readBlockLen := read.2
    cardCommandClass := (mmcRspBits response 84 12).toInt32
    trSpeed := trSpeed (mmcRspBits response 96 8) }

/-- `sdmmc_decode_csd`. -/
def sdmmcDecodeCsd (response : Response) (out : Csd) : EspErr × Csd :=
  let csdVer := (mmcRspBits response 126 2).toInt32
  if csdVer = 1 then (espOk, decodeBlocks response csdVer (sdCsdV2 response) out)
  else if csdVer = 0 then (espOk, decodeBlocks response csdVer (sdCsdV1 response) out)
  else (espErrNotSupported, { out with csdVer := csdVer })

/-! ## The label -/

/-- What the label reads of `sdmmc_card_t`. -/
structure Card where
  name : String
  csd  : Csd

/-- `(uint64_t)` of an `int`. -/
def widened (v : Int32) : UInt64 := v.toInt64.toUInt64

/-- `capacity_bytes`. -/
def capacityBytes (csd : Csd) : UInt64 := widened csd.capacity * widened csd.sectorSize

/-- `capacity_mib`. -/
def capacityMib (csd : Csd) : UInt64 := capacityBytes csd / (1024 * 1024)

/-- The message below the card's data. -/
def withMessage (text : String) : Option String → String
  | none => text
  | some message => text ++ "\n" ++ message

/-- The text for a mounted card. -/
def mountedText (name : String) (mib : Nat) : String :=
  "SD: mounted\n" ++ "Name: " ++ name ++ "\n" ++ "Capacity: " ++ mib.repr ++ " MiB"

/-- `sd_card_update_status_label`: the text that it sets, if `sd_test_label` is
    there; `record` holds the driver's cards. -/
def sdCardUpdateStatusLabel (label : Bool) (record : Nat → Card) (s : Sd)
    (message : Option String) : Option String :=
  if label = false then none
  else match statusLabelReads s with
    | none => some (withMessage "SD: not mounted" message)
    | some card =>
        some (withMessage
          (mountedText (record card).name (capacityMib (record card).csd).toNat) message)

/-! ## The sectors that the driver keeps -/

/-- `C_SIZE` of version 2.0. -/
def cSize (response : Response) : Nat := (mmcRspBits response 48 22).toNat

/-- The response has the structure of version 2.0: an SDHC or SDXC card. -/
def HighCapacity (response : Response) : Prop := mmcRspBits response 126 2 = 1

instance (response : Response) : Decidable (HighCapacity response) :=
  inferInstanceAs (Decidable (_ = _))

section Sectors

variable {response : Response} {out csd : Csd} {c n : Nat} {v : Int32}

/-- The bits are taken from two words, 16 from the first and 6 from the second. -/
theorem cSize_eq :
    cSize response = ((response 2 <<< 16 ||| response 1 >>> 16) &&& 0x3FFFFF).toNat := rfl

theorem cSize_lt : cSize response < 2 ^ 22 := by
  rw [cSize_eq, UInt32.toNat_and]
  exact Nat.lt_of_le_of_lt Nat.and_le_right (by decide)

/-- The response of a card of version 2.0 with the given `C_SIZE`. -/
def responseOf (c : Nat) : Response
  | 0 => 0
  | 1 => UInt32.ofNat (c % 2 ^ 16 * 2 ^ 16)
  | 2 => UInt32.ofNat (c / 2 ^ 16)
  | 3 => 0x40000000

theorem highCapacity_responseOf (c : Nat) : HighCapacity (responseOf c) := by
  show ((0 : UInt32) ||| (0x40000000 : UInt32) >>> 30) &&& 3 = 1
  decide

theorem cSize_responseOf (hc : c < 2 ^ 22) : cSize (responseOf c) = c := by
  have hlow32 : c % 2 ^ 16 * 2 ^ 16 < 2 ^ 32 := by omega
  have hhigh32 : c / 2 ^ 16 < 2 ^ 32 := by omega
  have hlow : (UInt32.ofNat (c % 2 ^ 16 * 2 ^ 16) >>> 16).toNat = c % 2 ^ 16 := by
    rw [UInt32.toNat_shiftRight, UInt32.toNat_ofNat_of_lt' hlow32, Nat.shiftRight_eq_div_pow]
    exact Nat.mul_div_cancel _ (by decide)
  have hhigh : (UInt32.ofNat (c / 2 ^ 16) <<< 16).toNat = 2 ^ 16 * (c / 2 ^ 16) := by
    rw [UInt32.toNat_shiftLeft, UInt32.toNat_ofNat_of_lt' hhigh32, Nat.shiftLeft_eq]
    show c / 2 ^ 16 * 2 ^ 16 % 2 ^ 32 = _
    omega
  rw [cSize_eq]
  show ((UInt32.ofNat (c / 2 ^ 16) <<< 16 ||| UInt32.ofNat (c % 2 ^ 16 * 2 ^ 16) >>> 16) &&&
    0x3FFFFF).toNat = c
  rw [UInt32.toNat_and, UInt32.toNat_or, hlow, hhigh,
    ← Nat.two_pow_add_eq_or_of_lt (Nat.mod_lt _ (by decide)), Nat.div_add_mod]
  show c &&& (2 ^ 22 - 1) = c
  rw [Nat.and_two_pow_sub_one_eq_mod, Nat.mod_eq_of_lt hc]

/-- Blocks of 512 bytes are the sectors themselves. -/
theorem decodeBlocks_sectors (response : Response) (csdVer capacity : Int32) (out : Csd) :
    (decodeBlocks response csdVer (capacity, 0x9) out).capacity = capacity ∧
      (decodeBlocks response csdVer (capacity, 0x9) out).sectorSize = 512 := by
  have hmin : min ((1 : Int32) <<< 0x9) 512 = 512 := by decide
  have hsame : ¬ (512 : Int32) < (1 : Int32) <<< 0x9 := by decide
  refine ⟨if_neg ?_, hmin⟩
  show ¬ min ((1 : Int32) <<< 0x9) 512 < (1 : Int32) <<< 0x9
  rw [hmin]
  exact hsame

/-- **The decoded register** of a card of version 2.0: blocks of 512 bytes, and
    the number of sectors cut to 32 bits. -/
theorem decode_highCapacity (h : HighCapacity response) (out : Csd) :
    ∃ csd, sdmmcDecodeCsd response out = (espOk, csd) ∧
      csd.capacity = (UInt32.ofNat ((cSize response + 1) * 1024)).toInt32 ∧
      csd.sectorSize = 512 := by
  have hversion : (mmcRspBits response 126 2).toInt32 = 1 := by rw [h]; rfl
  have hsectors : (mmcRspBits response 48 22 + 1) <<< 10 =
      UInt32.ofNat ((cSize response + 1) * 1024) := by
    have hlt : cSize response < 2 ^ 22 := cSize_lt
    have hnext : (mmcRspBits response 48 22 + 1).toNat = cSize response + 1 := by
      rw [UInt32.toNat_add]
      show (cSize response + 1) % 2 ^ 32 = _
      omega
    rw [← UInt32.toNat_inj, UInt32.toNat_shiftLeft, hnext, Nat.shiftLeft_eq, UInt32.toNat_ofNat']
    rfl
  obtain ⟨hcapacity, hsize⟩ := decodeBlocks_sectors response (mmcRspBits response 126 2).toInt32
    ((mmcRspBits response 48 22 + 1) <<< 10).toInt32 out
  refine ⟨_, if_pos hversion, ?_, hsize⟩
  rw [← hsectors]
  exact hcapacity

/-! ## What the casts make of the sectors -/

/-- `(uint64_t)` extends the sign of an `int`. -/
theorem widened_toNat (v : Int32) : (widened v).toNat = (v.toInt % 2 ^ 64).toNat := by
  have hint : v.toInt64.toBitVec.toInt = v.toInt := v.toInt_toInt64
  have hnat : v.toInt64.toBitVec.toInt % 2 ^ 64 = (widened v).toNat := by
    rw [BitVec.toInt_eq_toNat_bmod]
    exact Int.bmod_emod.trans
      (Int.emod_eq_of_lt (Int.natCast_nonneg _) (by exact_mod_cast (widened v).toNat_lt))
  rw [← hint, hnat, Int.toNat_natCast]

/-- `n` sectors as the driver keeps them: with the sign bit from `2 ^ 31` on. -/
theorem toInt_sectors (hn : n ≤ 2 ^ 32) :
    (UInt32.ofNat n).toInt32.toInt = if n < 2 ^ 31 then (n : Int) else n - 2 ^ 32 := by
  have hword : ((Int32.size : Nat) : Int) = 4294967296 := rfl
  rw [UInt32.toInt32_ofNat', Int32.toInt_ofNat', Int.bmod_def, hword]
  by_cases hsmall : n < 2 ^ 31
  · rw [if_pos hsmall, if_pos (by omega)]
    omega
  rw [if_neg hsmall]
  by_cases hfits : n < 2 ^ 32
  · rw [if_neg (by omega)]
    omega
  · rw [if_pos (by omega)]
    omega

/-- What `n` sectors are after the cast to 64 bits. -/
def sectors64 (n : Nat) : Nat :=
  if n < 2 ^ 31 then n else (n + (2 ^ 64 - 2 ^ 32)) % 2 ^ 64

theorem widened_sectors (hn : n ≤ 2 ^ 32) :
    (widened (UInt32.ofNat n).toInt32).toNat = sectors64 n := by
  rw [widened_toNat, toInt_sectors hn]
  unfold sectors64
  by_cases hsmall : n < 2 ^ 31
  · rw [if_pos hsmall, if_pos hsmall]
    omega
  · rw [if_neg hsmall, if_neg hsmall]
    omega

theorem capacityBytes_toNat (hcapacity : csd.capacity = (UInt32.ofNat n).toInt32)
    (hsize : csd.sectorSize = 512) (hn : n ≤ 2 ^ 32) :
    (capacityBytes csd).toNat = sectors64 n * 512 % 2 ^ 64 := by
  unfold capacityBytes
  rw [hcapacity, hsize, UInt64.toNat_mul, widened_sectors hn]
  rfl

theorem capacityMib_toNat :
    (capacityMib csd).toNat = (capacityBytes csd).toNat / (1024 * 1024) := by
  unfold capacityMib
  rw [UInt64.toNat_div]
  rfl

/-! ## The capacity that the label shows -/

/-- The quantities of the label are those of a card of version 2.0 with the
    given `C_SIZE`: nothing overflowed and no sign was extended. -/
structure Exact (c : Nat) (csd : Csd) : Prop where
  sectors : (widened csd.capacity).toNat = (c + 1) * 1024
  bytes   : (capacityBytes csd).toNat = (c + 1) * 1024 * 512
  mib     : (capacityMib csd).toNat = (c + 1) / 2

/-- Below `2 ^ 31` sectors every step of the computation is exact. -/
theorem exact_below (hcapacity : csd.capacity = (UInt32.ofNat ((c + 1) * 1024)).toInt32)
    (hsize : csd.sectorSize = 512) (hc : c + 1 < 2 ^ 21) : Exact c csd := by
  have hsectors : sectors64 ((c + 1) * 1024) = (c + 1) * 1024 := if_pos (by omega)
  have hbytes : (capacityBytes csd).toNat = (c + 1) * 1024 * 512 := by
    rw [capacityBytes_toNat hcapacity hsize (by omega), hsectors]
    omega
  refine ⟨?_, hbytes, ?_⟩
  · rw [hcapacity, widened_sectors (by omega), hsectors]
  · rw [capacityMib_toNat, hbytes]
    omega

/-- From `2 ^ 31` sectors on, what is shown is larger by the extended sign, or,
    for the largest card, nothing. -/
theorem mib_above (hcapacity : csd.capacity = (UInt32.ofNat ((c + 1) * 1024)).toInt32)
    (hsize : csd.sectorSize = 512) (hlow : 2 ^ 21 ≤ c + 1) (hhigh : c < 2 ^ 22) :
    (capacityMib csd).toNat =
      if c + 1 < 2 ^ 22 then (c + 1) / 2 + (2 ^ 44 - 2 ^ 21) else 0 := by
  have hsectors : sectors64 ((c + 1) * 1024) =
      ((c + 1) * 1024 + (2 ^ 64 - 2 ^ 32)) % 2 ^ 64 := if_neg (by omega)
  rw [capacityMib_toNat, capacityBytes_toNat hcapacity hsize (by omega), hsectors]
  by_cases hlast : c + 1 < 2 ^ 22
  · rw [if_pos hlast]
    omega
  · rw [if_neg hlast]
    omega

/-- The label tells two capacities apart. -/
theorem mountedText_inj {name : String} {message : Option String} {m n : Nat} :
    withMessage (mountedText name m) message = withMessage (mountedText name n) message ↔
      m = n := by
  refine ⟨fun htext => ?_, fun h => by rw [h]⟩
  have hmounted : mountedText name m = mountedText name n := by
    cases message with
    | none => exact htext
    | some message =>
        unfold withMessage at htext
        rwa [String.append_left_inj, String.append_left_inj] at htext
  unfold mountedText at hmounted
  rw [String.append_left_inj, String.append_right_inj] at hmounted
  have hdigits : Nat.toDigits 10 m = Nat.toDigits 10 n := by
    rw [← Nat.toList_repr, hmounted, Nat.toList_repr]
  rw [← Nat.ofDigitChars_ten_toDigits (n := m), hdigits, Nat.ofDigitChars_ten_toDigits]

/-- What the label says of a mounted card. -/
theorem label_mounted {record : Nat → Card} {s : Sd} {message : Option String} {card : Nat}
    (hread : statusLabelReads s = some card) :
    sdCardUpdateStatusLabel true record s message = some (withMessage
      (mountedText (record card).name (capacityMib (record card).csd).toNat) message) := by
  unfold sdCardUpdateStatusLabel
  rw [hread]
  rfl

end Sectors

/-- **The capacity that the SD page shows.**  Every `C_SIZE` is that of a card of
    version 2.0, whose register decodes.  What `sd_card_update_status_label`
    computes of it is the card's capacity, with no overflow and no sign extension,
    exactly below 1 TiB; and from there on the text on the page is wrong too. -/
theorem capacity_shown_iff {c : Nat} (hc : c < 2 ^ 22) :
    (∃ response, HighCapacity response ∧ cSize response = c) ∧
      ∀ response, HighCapacity response → cSize response = c → ∀ out,
        ∃ csd, sdmmcDecodeCsd response out = (espOk, csd) ∧
          (Exact c csd ↔ c + 1 < 2 ^ 21) ∧
          ((capacityMib csd).toNat = (c + 1) / 2 ↔ c + 1 < 2 ^ 21) ∧
          ∀ record s message card, statusLabelReads s = some card → (record card).csd = csd →
            (sdCardUpdateStatusLabel true record s message =
                some (withMessage (mountedText (record card).name ((c + 1) / 2)) message) ↔
              c + 1 < 2 ^ 21) := by
  refine ⟨⟨responseOf c, highCapacity_responseOf c, cSize_responseOf hc⟩, ?_⟩
  rintro response hversion rfl out
  obtain ⟨csd, hdecode, hcapacity, hsize⟩ := decode_highCapacity hversion out
  have hmib : (capacityMib csd).toNat = (cSize response + 1) / 2 ↔
      cSize response + 1 < 2 ^ 21 := by
    refine ⟨fun hshown => ?_, fun hsmall => (exact_below hcapacity hsize hsmall).mib⟩
    by_contra hlarge
    rw [mib_above hcapacity hsize (by omega) hc] at hshown
    split at hshown <;> omega
  refine ⟨csd, hdecode, ⟨fun hexact => hmib.mp hexact.mib, exact_below hcapacity hsize⟩,
    hmib, ?_⟩
  rintro record s message card hread rfl
  rw [label_mounted hread, Option.some.injEq, mountedText_inj, hmib]

/-- A card of 30 GiB. -/
theorem capacity_shown_iff_sdhc :
    (∃ response, HighCapacity response ∧ cSize response = 0xEFFF) ∧
      ∀ response, HighCapacity response → cSize response = 0xEFFF → ∀ out,
        ∃ csd, sdmmcDecodeCsd response out = (espOk, csd) ∧
          (Exact 0xEFFF csd ↔ 0xEFFF + 1 < 2 ^ 21) ∧
          ((capacityMib csd).toNat = (0xEFFF + 1) / 2 ↔ 0xEFFF + 1 < 2 ^ 21) ∧
          ∀ record s message card, statusLabelReads s = some card → (record card).csd = csd →
            (sdCardUpdateStatusLabel true record s message =
                some (withMessage (mountedText (record card).name ((0xEFFF + 1) / 2)) message) ↔
              0xEFFF + 1 < 2 ^ 21) :=
  capacity_shown_iff (by decide)

/-- The response of a card of 1 TiB. -/
def terabyteCard : Response
  | 0 => 0
  | 1 => 0xFFFF0000
  | 2 => 0x1F
  | 3 => 0x40000000

/-- **A card of 1 TiB** does not show its 1048576 MiB, but the sign of the
    negative `int` that holds its 2147483648 sectors. -/
theorem terabyte_not_shown :
    HighCapacity terabyteCard ∧ cSize terabyteCard = 0x1FFFFF ∧
      ∀ out, ∃ csd, sdmmcDecodeCsd terabyteCard out = (espOk, csd) ∧
        (capacityMib csd).toNat = 17592184995840 ∧
        (capacityMib csd).toNat ≠ (cSize terabyteCard + 1) / 2 := by
  have hversion : HighCapacity terabyteCard := by decide
  have hsize : cSize terabyteCard = 0x1FFFFF := by decide
  refine ⟨hversion, hsize, fun out => ?_⟩
  obtain ⟨csd, hdecode, hcapacity, hsectorSize⟩ := decode_highCapacity hversion out
  rw [hsize] at hcapacity
  have hmib : (capacityMib csd).toNat = 17592184995840 :=
    mib_above hcapacity hsectorSize (by decide) (by decide)
  refine ⟨csd, hdecode, hmib, ?_⟩
  rw [hmib, hsize]
  decide

end SdCapacity
