import KnobFirmware.BatteryAdcProofs
import KnobFirmware.CheckedIntProofs
import KnobFirmware.PiecewiseLinearProofs
import Mathlib.Algebra.Order.BigOperators.Group.List
import Mathlib.Data.Rat.Floor

/-! # From ADC readings to the battery bar

    `battery_adc_read` averages eight readings and scales them twice;
    `battery_adc_ui_timer_cb` turns the voltage into a percentage by a table of
    nine points.  All of it is integer arithmetic with truncating divisions, and
    is given here in checked operations.

    `battery_percent_from_mv` refines the piecewise linear function through the
    points of its table (`batteryPercentFromMv_eq`), from which its bounds, its
    order and its values on and between the points follow.  `battery_pipeline`
    compares two measurements along the whole way. -/

namespace BatteryPipeline

open BatteryAdc CheckedInt EspErr PiecewiseLinear

/-! ## `battery_percent_from_mv` -/

/-- `point_t`. -/
structure PointT where
  mv  : Int
  pct : Int
  deriving DecidableEq, Repr

def curve : List PointT :=
  [⟨3300, 0⟩, ⟨3450, 10⟩, ⟨3600, 20⟩, ⟨3700, 40⟩, ⟨3800, 60⟩, ⟨3900, 75⟩, ⟨4000, 85⟩,
    ⟨4100, 95⟩, ⟨4200, 100⟩]

theorem curve_ne_nil : curve ≠ [] := List.cons_ne_nil _ _

/-- The percentage between two neighbours in the table. -/
def pctBetween (p q : PointT) (mv : Int) : Option Int := do
  let spanMv ← int32.check (q.mv - p.mv)
  let intoMv ← int32.check (mv - p.mv)
  let spanPct ← int32.check (q.pct - p.pct)
  let scaled ← int32.check (intoMv * spanPct)
  let quotient ← int32.div scaled spanMv
  int32.check (p.pct + quotient)

/-- The loop over the table, `p` the point before the ones that are left.  It
    returns from within (`some`) or ends (`none`). -/
def pctLoop (mv : Int) (p : PointT) : List PointT → Option (Option Int)
  | [] => some none
  | q :: rest =>
      if mv ≤ q.mv then (pctBetween p q mv).map some else pctLoop mv q rest

/-- `battery_percent_from_mv`. -/
def batteryPercentFromMv (mv : Int) : Option Int :=
  if mv ≤ (curve.head curve_ne_nil).mv then some 0
  else if mv ≥ (curve.getLast curve_ne_nil).mv then some 100
  else
    match pctLoop mv (curve.head curve_ne_nil) curve.tail with
    | none => none
    | some (some pct) => some pct
    | some none => some 0

/-! ## The measurement -/

/-- The average of the readings of one measurement. -/
def averageRaw (readings : List Int) : Option Int := do
  let rawSum ← readings.foldlM (fun rawSum raw => int64.check (rawSum + raw)) 0
  let raw ← int64.div rawSum batteryAdcMultisamples
  int32.check raw

/-- `pin_mv` where no calibration is used. -/
def approximatePinMv (raw : Int) : Option Int := do
  let scaled ← int32.check (raw * 3300)
  int32.div scaled 4095

/-- `rail_mv`. -/
def railMv (pinMv : Int) : Option Int := do
  let scaled ← int32.check (pinMv * batteryDividerNumerator)
  int32.div scaled batteryDividerDenominator

/-- What `battery_adc_read` stores after these readings without calibration. -/
def uncalibratedSample (readings : List Int) : Option Sample := do
  let raw ← averageRaw readings
  let pinMv ← approximatePinMv raw
  let railMv ← railMv pinMv
  return { raw := raw, pinMv := pinMv, railMv := railMv, calibrated := false }

/-! ## The page -/

/-- What `battery_adc_ui_timer_cb` shows. -/
structure BatteryPage where
  status : String
  detail : String
  bar    : Int
  deriving DecidableEq, Repr

/-- `%03d` of a number that is not negative. -/
def threeDigits (n : Int) : String :=
  String.ofList (List.replicate (3 - (toString n).length) '0') ++ toString n

/-- `"%d.%03d V"` of a voltage in millivolts, with the sign of the rest dropped. -/
def volts (mv : Int) : Option String := do
  let whole ← int32.div mv 1000
  let frac ← int32.check (mv.tmod 1000)
  let frac ← if frac < 0 then int32.check (-frac) else some frac
  return toString whole ++ "." ++ threeDigits frac ++ " V"

/-- `battery_adc_ui_timer_cb` on a sample that is ready. -/
def batteryAdcUiTimerCbReady (s : Sample) : Option BatteryPage := do
  let rail ← volts s.railMv
  let pin ← volts s.pinMv
  let detail := "Raw " ++ toString s.raw ++ "\nGPIO1 " ++ pin ++ "\n" ++
    if s.calibrated then "Calibrated" else "Approximate"
  if s.railMv ≤ 4350 then
    let percent ← batteryPercentFromMv s.railMv
    return { status := "System " ++ rail ++ "\nBattery est. " ++ toString percent ++ "%",
             detail := detail, bar := percent }
  else
    return { status := "System " ++ rail ++ "\nUSB / external power likely",
             detail := detail, bar := 100 }

/-! ## The table is piecewise linear -/

/-- A point of the table as one of the plane. -/
def PointT.toPoint (p : PointT) : Point ℚ := ⟨p.mv, p.pct⟩

/-- The curve that the percentages are read off. -/
def percentCurve (mv : ℚ) : ℚ := value (curve.map PointT.toPoint) mv

/-- A point whose products stay far below 2^31. -/
def PointT.Small (p : PointT) : Prop := 0 ≤ p.mv ∧ p.mv ≤ 10000 ∧ 0 ≤ p.pct ∧ p.pct ≤ 100

instance (p : PointT) : Decidable p.Small := inferInstanceAs (Decidable (_ ∧ _ ∧ _ ∧ _))

section Table

variable {p q : PointT} {ps rest : List PointT} {mv : Int}

theorem below_iff : Below p.toPoint q.toPoint ↔ p.mv < q.mv ∧ p.pct ≤ q.pct :=
  and_congr Int.cast_lt Int.cast_le

theorem rising_curve : Rising (curve.map PointT.toPoint) := by
  have hpoints : curve.Pairwise fun p q => p.mv < q.mv ∧ p.pct ≤ q.pct := by decide
  exact List.pairwise_map.mpr (hpoints.imp below_iff.mpr)

theorem small_curve : ∀ p ∈ curve, p.Small := by decide

/-- **One segment.**  No intermediate value overflows and the divisor is not 0. -/
theorem pctBetween_eq (hp : p.Small) (hq : q.Small) (h : Below p.toPoint q.toPoint)
    (hlo : p.mv ≤ mv) (hhi : mv ≤ q.mv) :
    pctBetween p q mv = some ⌊line p.toPoint q.toPoint (mv : ℚ)⌋ := by
  obtain ⟨hmv, hpct⟩ := below_iff.mp h
  obtain ⟨hp₁, hp₂, hp₃, hp₄⟩ := hp
  obtain ⟨hq₁, hq₂, hq₃, hq₄⟩ := hq
  have hwidth : q.mv - p.mv ≠ 0 := by omega
  have hinto : 0 ≤ mv - p.mv := by omega
  have hheight : 0 ≤ q.pct - p.pct := by omega
  have hscaled : 0 ≤ (mv - p.mv) * (q.pct - p.pct) := Int.mul_nonneg hinto hheight
  have hscaled' : (mv - p.mv) * (q.pct - p.pct) ≤ 10000 * 100 :=
    Int.mul_le_mul (by omega) (by omega) hheight (by omega)
  have hfloor : ⌊line p.toPoint q.toPoint (mv : ℚ)⌋ =
      p.pct + (mv - p.mv) * (q.pct - p.pct) / (q.mv - p.mv) := floor_line (Int.le_of_lt hmv)
  rw [hfloor, pctBetween]
  generalize hprod : (mv - p.mv) * (q.pct - p.pct) = scaled at hscaled hscaled'
  have hquot : 0 ≤ scaled / (q.mv - p.mv) := Int.ediv_nonneg hscaled (by omega)
  have hquot' : scaled / (q.mv - p.mv) ≤ scaled := Int.ediv_le_self _ hscaled
  have htdiv : scaled.tdiv (q.mv - p.mv) = scaled / (q.mv - p.mv) :=
    Int.tdiv_eq_ediv_of_nonneg hscaled
  have h1 : int32.check (q.mv - p.mv) = some (q.mv - p.mv) :=
    check_of_fits (int32_fits.mpr (by omega))
  have h2 : int32.check (mv - p.mv) = some (mv - p.mv) :=
    check_of_fits (int32_fits.mpr (by omega))
  have h3 : int32.check (q.pct - p.pct) = some (q.pct - p.pct) :=
    check_of_fits (int32_fits.mpr (by omega))
  have h4 : int32.check scaled = some scaled := check_of_fits (int32_fits.mpr (by omega))
  have h5 : int32.div scaled (q.mv - p.mv) = some (scaled / (q.mv - p.mv)) := by
    rw [← htdiv]
    exact div_of_fits hwidth (int32_fits.mpr (by omega))
  have h6 : int32.check (p.pct + scaled / (q.mv - p.mv)) =
      some (p.pct + scaled / (q.mv - p.mv)) := check_of_fits (int32_fits.mpr (by omega))
  rw [h1, Option.bind_eq_bind, Option.bind_some, h2, Option.bind_some, h3, Option.bind_some,
    hprod, h4, Option.bind_some, h5]
  exact h6

/-- **The loop returns from within**, with the floor of the curve, when it is
    entered between the first and the last point. -/
theorem pctLoop_eq (hrising : Rising ((p :: ps).map PointT.toPoint))
    (hsmall : ∀ q ∈ p :: ps, q.Small) (hlo : p.mv ≤ mv) (hhi : ∃ q ∈ ps, mv ≤ q.mv) :
    pctLoop mv p ps = some (some ⌊value ((p :: ps).map PointT.toPoint) (mv : ℚ)⌋) := by
  induction ps generalizing p with
  | nil =>
      obtain ⟨q, hq, -⟩ := hhi
      exact absurd hq List.not_mem_nil
  | cons q rest ih =>
      have hbelow : Below p.toPoint q.toPoint := hrising.head
      rw [pctLoop]
      by_cases hq : mv ≤ q.mv
      · have hvalue : value ((p :: q :: rest).map PointT.toPoint) (mv : ℚ) =
            line p.toPoint q.toPoint (mv : ℚ) :=
          value_segment (Int.cast_le.mpr hlo) (Int.cast_le.mpr hq)
        rw [if_pos hq, hvalue, pctBetween_eq (hsmall p (by simp)) (hsmall q (by simp)) hbelow
          hlo hq]
        rfl
      · have hpast : q.mv ≤ mv := by omega
        have hvalue : value ((p :: q :: rest).map PointT.toPoint) (mv : ℚ) =
            value ((q :: rest).map PointT.toPoint) (mv : ℚ) :=
          value_past hbelow (Int.cast_le.mpr hpast)
        have hlater : ∃ r ∈ rest, mv ≤ r.mv := by
          obtain ⟨r, hr, hmv⟩ := hhi
          rcases List.mem_cons.mp hr with rfl | hmem
          · exact absurd hmv hq
          · exact ⟨r, hmem, hmv⟩
        rw [if_neg hq, hvalue]
        exact ih hrising.tail (fun r hr => hsmall r (List.mem_cons_of_mem p hr)) hpast hlater

end Table

/-- **The percentage is the floor of the curve**, for every voltage. -/
theorem batteryPercentFromMv_eq (mv : Int) :
    batteryPercentFromMv mv = some ⌊percentCurve mv⌋ := by
  rw [batteryPercentFromMv]
  by_cases hlow : mv ≤ (curve.head curve_ne_nil).mv
  · have hvalue : percentCurve mv = ((0 : Int) : ℚ) := value_of_le (Int.cast_le.mpr hlow)
    rw [if_pos hlow, hvalue, Int.floor_intCast]
  · rw [if_neg hlow]
    by_cases hhigh : mv ≥ (curve.getLast curve_ne_nil).mv
    · have hsplit : curve.map PointT.toPoint =
          curve.dropLast.map PointT.toPoint ++ [(curve.getLast curve_ne_nil).toPoint] := rfl
      have hvalue : percentCurve mv = ((100 : Int) : ℚ) := by
        rw [percentCurve, hsplit]
        exact value_of_ge (hsplit ▸ rising_curve) (Int.cast_le.mpr hhigh)
      rw [if_pos hhigh, hvalue, Int.floor_intCast]
    · have hinside : mv ≤ (curve.getLast curve_ne_nil).mv := by omega
      have hloop : pctLoop mv (curve.head curve_ne_nil) curve.tail =
          some (some ⌊percentCurve mv⌋) :=
        pctLoop_eq rising_curve small_curve (by omega)
          ⟨curve.getLast curve_ne_nil, by decide, hinside⟩
      rw [if_neg hhigh, hloop]

theorem percent_mono {mv mv' : Int} (h : mv ≤ mv') :
    ⌊percentCurve mv⌋ ≤ ⌊percentCurve mv'⌋ :=
  Int.floor_le_floor (value_mono rising_curve (Int.cast_le.mpr h))

theorem percent_bounds (mv : Int) : 0 ≤ ⌊percentCurve mv⌋ ∧ ⌊percentCurve mv⌋ ≤ 100 := by
  have hsplit : curve.map PointT.toPoint =
      curve.dropLast.map PointT.toPoint ++ [(curve.getLast curve_ne_nil).toPoint] := rfl
  have hlow : ((0 : Int) : ℚ) ≤ percentCurve mv := head_le_value rising_curve
  have hhigh : percentCurve mv ≤ ((100 : Int) : ℚ) := by
    rw [percentCurve, hsplit]
    exact value_le_last (hsplit ▸ rising_curve)
  constructor
  · exact Int.le_floor.mpr hlow
  · calc ⌊percentCurve mv⌋ ≤ ⌊((100 : Int) : ℚ)⌋ := Int.floor_le_floor hhigh
      _ = 100 := Int.floor_intCast 100

/-- What `battery_percent_from_mv` computes. -/
structure PercentLaw : Prop where
  bounds : ∀ mv, ∃ pct, batteryPercentFromMv mv = some pct ∧ 0 ≤ pct ∧ pct ≤ 100
  mono : ∀ mv mv' pct pct', mv ≤ mv' → batteryPercentFromMv mv = some pct →
    batteryPercentFromMv mv' = some pct' → pct ≤ pct'
  points : ∀ p ∈ curve, batteryPercentFromMv p.mv = some p.pct
  /-- Between neighbours it is the linear interpolation, floored. -/
  between : ∀ pre p q post, curve = pre ++ p :: q :: post → q.mv - p.mv ≠ 0 ∧
    ∀ mv, p.mv ≤ mv → mv ≤ q.mv → batteryPercentFromMv mv =
      some ⌊(p.pct : ℚ) + ((mv : ℚ) - p.mv) * (q.pct - p.pct) / (q.mv - p.mv)⌋
  /-- Where the loop is entered it returns from within. -/
  returns : ∀ mv, (curve.head curve_ne_nil).mv < mv → mv < (curve.getLast curve_ne_nil).mv →
    ∃ pct, pctLoop mv (curve.head curve_ne_nil) curve.tail = some (some pct)

theorem percentLaw : PercentLaw where
  bounds := fun mv => ⟨_, batteryPercentFromMv_eq mv, percent_bounds mv⟩
  mono := by
    intro mv mv' pct pct' hle h h'
    obtain rfl := Option.some.inj ((batteryPercentFromMv_eq mv).symm.trans h)
    obtain rfl := Option.some.inj ((batteryPercentFromMv_eq mv').symm.trans h')
    exact percent_mono hle
  points := by
    intro p hp
    have hvalue : percentCurve p.mv = (p.pct : ℚ) :=
      value_point rising_curve (List.mem_map_of_mem hp)
    rw [batteryPercentFromMv_eq, hvalue, Int.floor_intCast]
  between := by
    intro pre p q post hcurve
    have hmap : curve.map PointT.toPoint =
        pre.map PointT.toPoint ++ p.toPoint :: q.toPoint :: post.map PointT.toPoint := by
      rw [hcurve, List.map_append]
      rfl
    have hrising : Rising (pre.map PointT.toPoint ++
        p.toPoint :: q.toPoint :: post.map PointT.toPoint) := hmap ▸ rising_curve
    have hbelow : Below p.toPoint q.toPoint :=
      Rising.head (List.pairwise_append.mp hrising).2.1
    refine ⟨?_, fun mv hlo hhi => ?_⟩
    · have hlt : p.mv < q.mv := (below_iff.mp hbelow).1
      omega
    · have hvalue : percentCurve mv = line p.toPoint q.toPoint (mv : ℚ) := by
        rw [percentCurve, hmap]
        exact value_between hrising (Int.cast_le.mpr hlo) (Int.cast_le.mpr hhi)
      rw [batteryPercentFromMv_eq, hvalue]
      rfl
  returns := by
    intro mv hlo hhi
    exact ⟨_, pctLoop_eq rising_curve small_curve (Int.le_of_lt hlo)
      ⟨curve.getLast curve_ne_nil, by decide, Int.le_of_lt hhi⟩⟩

/-! ## The measurement does not overflow -/

/-- What the ADC delivers: twelve bits. -/
def TwelveBits (raw : Int) : Prop := 0 ≤ raw ∧ raw ≤ 4095

/-- The sample that comes of a sum of eight readings. -/
def sampleOf (rawSum : Int) : Sample where
  raw := rawSum / 8
  pinMv := rawSum / 8 * 3300 / 4095
  railMv := rawSum / 8 * 3300 / 4095 * 2

section Measurement

variable {readings : List Int} {rawSum : Int}

theorem sum_twelveBits (h : ∀ raw ∈ readings, TwelveBits raw) :
    0 ≤ readings.sum ∧ readings.sum ≤ readings.length * 4095 := by
  induction readings with
  | nil => exact ⟨Int.le_refl 0, Int.le_refl 0⟩
  | cons raw rest ih =>
      have hraw : TwelveBits raw := h raw List.mem_cons_self
      have hrest := ih fun x hx => h x (List.mem_cons_of_mem raw hx)
      obtain ⟨hlo, hhi⟩ := hraw
      rw [List.sum_cons, List.length_cons]
      push_cast
      omega

theorem averageRaw_eq (hlen : readings.length = batteryAdcMultisamples)
    (h : ∀ raw ∈ readings, TwelveBits raw) : averageRaw readings = some (readings.sum / 8) := by
  have hloop : readings.foldlM (fun rawSum raw => int64.check (rawSum + raw)) 0 =
      some readings.sum := by
    refine foldlM_eq_some (F := List.sum) ?_
    intro done raw rest hsplit
    have hdone : ∀ x ∈ done ++ [raw], TwelveBits x := fun x hx => h x (by
      rw [hsplit, List.append_cons]
      exact List.mem_append_left rest hx)
    have hbounds := sum_twelveBits hdone
    have hshort : (done ++ [raw]).length ≤ readings.length := by simp [hsplit]
    have hsum : done.sum + raw = (done ++ [raw]).sum := by simp
    rw [hlen] at hshort
    have hsmall : (done ++ [raw]).length ≤ 8 := hshort
    rw [hsum]
    exact check_of_fits (int64_fits.mpr (by omega))
  have hbounds := sum_twelveBits h
  rw [hlen] at hbounds
  have hhi : readings.sum ≤ 8 * 4095 := hbounds.2
  have htdiv : readings.sum.tdiv batteryAdcMultisamples = readings.sum / 8 :=
    Int.tdiv_eq_ediv_of_nonneg hbounds.1
  have hdiv : int64.div readings.sum batteryAdcMultisamples = some (readings.sum / 8) := by
    rw [← htdiv]
    exact div_of_fits (by decide) (int64_fits.mpr (by omega))
  have hcast : int32.check (readings.sum / 8) = some (readings.sum / 8) :=
    check_of_fits (int32_fits.mpr (by omega))
  rw [averageRaw, hloop, Option.bind_eq_bind, Option.bind_some, hdiv, Option.bind_some, hcast]

/-- **No step of a measurement overflows.** -/
theorem uncalibratedSample_eq (hlen : readings.length = batteryAdcMultisamples)
    (h : ∀ raw ∈ readings, TwelveBits raw) :
    uncalibratedSample readings = some (sampleOf readings.sum) := by
  have hbounds := sum_twelveBits h
  rw [hlen] at hbounds
  have hlo : 0 ≤ readings.sum := hbounds.1
  have hhi : readings.sum ≤ 8 * 4095 := hbounds.2
  have hpin : approximatePinMv (readings.sum / 8) = some (readings.sum / 8 * 3300 / 4095) := by
    have hscaled : 0 ≤ readings.sum / 8 * 3300 := by omega
    rw [approximatePinMv, check_of_fits (int32_fits.mpr (by omega)), Option.bind_eq_bind,
      Option.bind_some, ← Int.tdiv_eq_ediv_of_nonneg hscaled]
    refine div_of_fits (by decide) ?_
    rw [Int.tdiv_eq_ediv_of_nonneg hscaled, int32_fits]
    omega
  have hrail : railMv (readings.sum / 8 * 3300 / 4095) =
      some (readings.sum / 8 * 3300 / 4095 * 2) := by
    rw [railMv, batteryDividerNumerator, batteryDividerDenominator,
      check_of_fits (int32_fits.mpr (by omega)), Option.bind_eq_bind, Option.bind_some,
      div_of_fits (by decide) (by rw [Int.tdiv_one, int32_fits]; omega), Int.tdiv_one]
  rw [uncalibratedSample, averageRaw_eq hlen h, Option.bind_eq_bind, Option.bind_some, hpin,
    Option.bind_some, hrail]
  rfl

end Measurement

/-! ## The readings of `battery_adc_read` -/

/-- The values read. -/
def readingsOf (r : AdcReply) : List Int :=
  (List.range' 0 batteryAdcMultisamples).map fun i => (r.read i).2

/-- A measurement that succeeds without calibration: the driver is ready, every
    read delivers twelve bits, and no calibrated conversion is made or it fails. -/
structure Uncalibrated (adc : Adc) (r : AdcReply) : Prop where
  ready : (batteryAdcInit adc r).1 = espOk
  reads : ∀ i < batteryAdcMultisamples, (r.read i).1 = espOk ∧ TwelveBits (r.read i).2
  path  : ¬ ((batteryAdcInit adc r).2.calibrated = true ∧
    (batteryAdcInit adc r).2.caliHandle = true ∧ r.rawToVoltage.1 = espOk)

section Readings

variable {adc : Adc} {r : AdcReply}

theorem rawSum_eq {read : Nat → EspErr × Int} {i n : Nat} {sum : Int}
    (h : ∀ k ∈ List.range' i n, (read k).1 = espOk) :
    rawSum read i n sum = .ok (sum + ((List.range' i n).map fun k => (read k).2).sum) := by
  induction n generalizing i sum with
  | zero => exact congrArg Except.ok (Int.add_zero sum).symm
  | succ n ih =>
      have hi : (read i).1 = espOk := h i List.mem_cons_self
      have hrest := @ih (i + 1) (sum + (read i).2) fun k hk => h k (List.mem_cons_of_mem i hk)
      rw [rawSum, if_neg (not_not_intro hi), hrest, List.range'_succ, List.map_cons,
        List.sum_cons, Int.add_assoc]

theorem twelveBits_readings (h : Uncalibrated adc r) :
    ∀ raw ∈ readingsOf r, TwelveBits raw := by
  intro raw hraw
  obtain ⟨i, hi, rfl⟩ := List.mem_map.mp hraw
  exact (h.reads i (by simpa using hi)).2

/-- `battery_adc_read` stores what the checked arithmetic yields. -/
theorem batteryAdcRead_eq (h : Uncalibrated adc r) :
    (batteryAdcRead adc r).1 = .ok (sampleOf (readingsOf r).sum) := by
  have hreads : ∀ k ∈ List.range' 0 batteryAdcMultisamples, (r.read k).1 = espOk := by
    intro k hk
    exact (h.reads k (by simpa using hk)).1
  have hsum : rawSum r.read 0 batteryAdcMultisamples 0 = .ok (readingsOf r).sum := by
    rw [rawSum_eq hreads, Int.zero_add]
    rfl
  have hlo : 0 ≤ (readingsOf r).sum := (sum_twelveBits (twelveBits_readings h)).1
  have hraw : (readingsOf r).sum.tdiv batteryAdcMultisamples = (readingsOf r).sum / 8 :=
    Int.tdiv_eq_ediv_of_nonneg hlo
  have hpin : ((readingsOf r).sum / 8 * 3300).tdiv 4095 = (readingsOf r).sum / 8 * 3300 / 4095 :=
    Int.tdiv_eq_ediv_of_nonneg (by omega)
  rw [batteryAdcRead]
  dsimp only
  rw [if_neg (not_not_intro h.ready), hsum]
  dsimp only
  rw [hraw, pinVoltage, if_neg h.path, hpin, batteryDividerNumerator, batteryDividerDenominator,
    Int.tdiv_one]
  rfl

end Readings

/-! ## The bar -/

/-- What the bar shows for a voltage. -/
def barLevel (railMv : Int) : Int := if railMv ≤ 4350 then ⌊percentCurve railMv⌋ else 100

theorem barLevel_mono {railMv railMv' : Int} (h : railMv ≤ railMv') :
    barLevel railMv ≤ barLevel railMv' := by
  rw [barLevel, barLevel]
  by_cases hhigh : railMv' ≤ 4350
  · rw [if_pos hhigh, if_pos (h.trans hhigh)]
    exact percent_mono h
  · rw [if_neg hhigh]
    split
    · exact (percent_bounds railMv).2
    · exact Int.le_refl 100

theorem volts_some {mv : Int} (hlo : 0 ≤ mv) (hhi : mv ≤ 10000) : ∃ text, volts mv = some text := by
  have hwhole : mv.tdiv 1000 = mv / 1000 := Int.tdiv_eq_ediv_of_nonneg hlo
  have hfrac : mv.tmod 1000 = mv % 1000 := Int.tmod_eq_emod_of_nonneg hlo
  have hnotneg : ¬ mv % 1000 < 0 := by omega
  rw [volts, div_of_fits (by decide) (by rw [hwhole, int32_fits]; omega), hfrac,
    check_of_fits (int32_fits.mpr (by omega)), Option.bind_eq_bind, Option.bind_some,
    Option.bind_some, if_neg hnotneg]
  exact ⟨_, rfl⟩

/-- Every measurement is shown, with the level of its voltage. -/
theorem page_bar {s : Sample} (hpin : 0 ≤ s.pinMv ∧ s.pinMv ≤ 10000)
    (hrail : 0 ≤ s.railMv ∧ s.railMv ≤ 10000) :
    ∃ page, batteryAdcUiTimerCbReady s = some page ∧ page.bar = barLevel s.railMv := by
  obtain ⟨rail, hrailText⟩ := volts_some hrail.1 hrail.2
  obtain ⟨pin, hpinText⟩ := volts_some hpin.1 hpin.2
  rw [batteryAdcUiTimerCbReady, hrailText, hpinText, Option.bind_eq_bind, Option.bind_some,
    Option.bind_some, barLevel]
  dsimp only
  by_cases hlow : s.railMv ≤ 4350
  · rw [if_pos hlow, if_pos hlow, batteryPercentFromMv_eq]
    exact ⟨_, rfl, rfl⟩
  · rw [if_neg hlow, if_neg hlow]
    exact ⟨_, rfl, rfl⟩

/-! ## Two measurements -/

/-- A measurement and what is shown of it: the sample that `battery_adc_read`
    stores, in arithmetic that does not overflow, and the bar. -/
def Measures (adc : Adc) (r : AdcReply) (s : Sample) (bar : Int) : Prop :=
  (batteryAdcRead adc r).1 = .ok s ∧ uncalibratedSample (readingsOf r) = some s ∧
    ∃ page, batteryAdcUiTimerCbReady s = some page ∧ page.bar = bar

theorem measures {adc : Adc} {r : AdcReply} (h : Uncalibrated adc r) :
    Measures adc r (sampleOf (readingsOf r).sum)
      (barLevel (sampleOf (readingsOf r).sum).railMv) := by
  have hlen : (readingsOf r).length = batteryAdcMultisamples := by simp [readingsOf]
  have hbits : ∀ raw ∈ readingsOf r, TwelveBits raw := twelveBits_readings h
  obtain ⟨hlo, hhi⟩ := sum_twelveBits hbits
  rw [hlen] at hhi
  have hhi' : (readingsOf r).sum ≤ 8 * 4095 := hhi
  refine ⟨batteryAdcRead_eq h, uncalibratedSample_eq hlen hbits, page_bar ?_ ?_⟩
  · show 0 ≤ (readingsOf r).sum / 8 * 3300 / 4095 ∧ (readingsOf r).sum / 8 * 3300 / 4095 ≤ 10000
    omega
  · show 0 ≤ (readingsOf r).sum / 8 * 3300 / 4095 * 2 ∧
      (readingsOf r).sum / 8 * 3300 / 4095 * 2 ≤ 10000
    omega

theorem sampleOf_mono {m n : Int} (h : m ≤ n) :
    (sampleOf m).raw ≤ (sampleOf n).raw ∧ (sampleOf m).pinMv ≤ (sampleOf n).pinMv ∧
      (sampleOf m).railMv ≤ (sampleOf n).railMv := by
  have hraw : m / 8 ≤ n / 8 := Int.ediv_le_ediv (by decide) h
  have hpin : m / 8 * 3300 / 4095 ≤ n / 8 * 3300 / 4095 :=
    Int.ediv_le_ediv (by decide) (Int.mul_le_mul_of_nonneg_right hraw (by decide))
  exact ⟨hraw, hpin, Int.mul_le_mul_of_nonneg_right hpin (by decide)⟩

/-- **The battery pipeline.**  `battery_percent_from_mv` obeys its law, and of two
    measurements without calibration, the one with the higher readings stores and
    shows the higher values; nothing overflows on the way. -/
theorem battery_pipeline {adc₁ adc₂ : Adc} {r₁ r₂ : AdcReply} (h₁ : Uncalibrated adc₁ r₁)
    (h₂ : Uncalibrated adc₂ r₂)
    (hle : ∀ i < batteryAdcMultisamples, (r₁.read i).2 ≤ (r₂.read i).2) :
    PercentLaw ∧ ∃ s₁ s₂ bar₁ bar₂, Measures adc₁ r₁ s₁ bar₁ ∧ Measures adc₂ r₂ s₂ bar₂ ∧
      s₁.raw ≤ s₂.raw ∧ s₁.pinMv ≤ s₂.pinMv ∧ s₁.railMv ≤ s₂.railMv ∧ bar₁ ≤ bar₂ := by
  have hsum : (readingsOf r₁).sum ≤ (readingsOf r₂).sum :=
    List.sum_le_sum fun i hi => hle i (by simpa using hi)
  obtain ⟨hraw, hpin, hrail⟩ := sampleOf_mono hsum
  exact ⟨percentLaw, _, _, _, _, measures h₁, measures h₂, hraw, hpin, hrail,
    barLevel_mono hrail⟩

/-- Two measurements in the middle of the range. -/
theorem battery_pipeline_at :
    PercentLaw ∧ ∃ s₁ s₂ bar₁ bar₂,
      Measures {} { createScheme := espFail, read := fun _ => (espOk, 2300) } s₁ bar₁ ∧
      Measures {} { createScheme := espFail, read := fun i => (espOk, 2400 + i) } s₂ bar₂ ∧
      s₁.raw ≤ s₂.raw ∧ s₁.pinMv ≤ s₂.pinMv ∧ s₁.railMv ≤ s₂.railMv ∧ bar₁ ≤ bar₂ := by
  have hbits : ∀ i < batteryAdcMultisamples, (i : Int) < 8 := by
    intro i hi
    exact Int.ofNat_lt.mpr hi
  have hlow : TwelveBits 2300 := ⟨by decide, by decide⟩
  refine battery_pipeline ⟨rfl, fun i _ => ⟨rfl, hlow⟩, by decide⟩
    ⟨rfl, fun i hi => ⟨rfl, ?_⟩, by decide⟩ fun i hi => ?_
  · have hi8 : (i : Int) < 8 := hbits i hi
    show 0 ≤ 2400 + (i : Int) ∧ 2400 + (i : Int) ≤ 4095
    omega
  · show (2300 : Int) ≤ 2400 + (i : Int)
    omega

end BatteryPipeline
