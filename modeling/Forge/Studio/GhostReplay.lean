import Forge.Contract.Model
import Forge.Data.Bisect
import Forge.Data.Except
import Forge.Json.Tree
import Mathlib.Algebra.Order.Field.Basic
import Mathlib.Algebra.Order.Field.Rat
import Mathlib.Data.List.Chain
import Mathlib.Tactic.FieldSimp
import Mathlib.Tactic.Linarith
import Mathlib.Tactic.Ring

/-!
# Playing the ghost overlay

The studio gets the overlay of a crash report as an unknown value, validates it (`parseGhostReplay`), and then
shows the positions at any time between its points (`seekGhostReplay`): the index by seconds is searched first, and
then the points between two of its entries.

The **key result** is `seek_parsed`: in every overlay that the parser accepts, and for every time, the two searches
find the last point that is not later, and the positions are those on the line to the next point; at the time of a
point they are its own.

Numbers are exact; a number that is not finite is `none`. `hypot` is `Math.hypot`.
-/

namespace Forge.Studio

open Contract (Arr3)

/-! ### Values -/

/-- A scalar of JavaScript. -/
inductive ExactScalar where
  | undefined
  | null
  | bool (b : Bool)
  | number (x : Option ℚ)
  | string (s : String)
deriving DecidableEq

/-- A value that has not been looked at. -/
abbrev Unknown := Tree String ExactScalar

/-- The property `name` of an object. -/
def property (name : String) (members : List (String × Unknown)) : Unknown :=
  (members.lookup name).getD (.leaf .undefined)

def ghostOverlayFrame : String := "forge-y-up-rh-m"
def ghostMaxDurationS : ℚ := 600
def ghostMaxRenderPoints : ℕ := 6001

def ghostPointLayout : List String :=
  ["timeS", "actualXM", "actualYM", "actualZM", "predictedXM", "predictedYM", "predictedZM", "divergenceM"]

/-- `record` -/
def record (value : Unknown) (label : String) : Except String (List (String × Unknown)) :=
  match value with
  | .object members => .ok members
  | _ => .error s!"{label} must be an object"

/-- `finiteNumber` -/
def finiteNumber (value : Unknown) (label : String) (minimum maximum : ℚ) : Except String ℚ :=
  match value with
  | .leaf (.number (some x)) =>
    if x < minimum ∨ maximum < x then .error s!"ghost overlay {label} is outside the supported bound" else .ok x
  | _ => .error s!"ghost overlay {label} is outside the supported bound"

/-- `integer`, where the minimum is not negative. -/
def integer (value : Unknown) (label : String) (minimum maximum : ℕ) : Except String ℕ := do
  let parsed ← finiteNumber value label minimum maximum
  if parsed.den ≠ 1 then .error s!"ghost overlay {label} must be an integer" else .ok parsed.num.toNat

/-- `actual === expected` -/
def isExactly (actual : Unknown) (expected : ExactScalar) : Bool :=
  match actual with
  | .leaf a => a = expected
  | _ => false

/-- `requireExact` -/
def requireExact (actual : Unknown) (expected : ExactScalar) (label : String) : Except String Unit :=
  if isExactly actual expected then .ok () else .error s!"ghost overlay {label} is unsupported"

/-- `requireStringArray` -/
def requireStringArray (actual : Unknown) (expected : List String) (label : String) : Except String Unit :=
  match actual with
  | .array items =>
    if items.length = expected.length ∧ (items.zip expected).all fun e => isExactly e.1 (.string e.2) then .ok ()
    else .error s!"ghost overlay {label} is unsupported"
  | _ => .error s!"ghost overlay {label} is unsupported"

/-- `if (c) throw new Error(message)` -/
def reject (c : Prop) [Decidable c] (message : String) : Except String Unit :=
  if c then .error message else .ok ()

/-! ### The parsed overlay -/

structure GhostPoint where
  timeS : ℚ
  actual : Arr3 ℚ
  predicted : Arr3 ℚ
  divergenceM : ℚ

inductive SourceMaturity where
  | controlledSynthetic
  | unverified

inductive DivergenceStatus where
  | tracking
  | diverged
  | missing
deriving DecidableEq

structure GhostDivergence where
  sampleCount : ℕ
  maxM : Option ℚ
  rmsM : Option ℚ
  warnM : ℚ
  status : DivergenceStatus

/-- What the parser returns, without the fields that it sets to constants. -/
structure GhostReplay where
  sourceMaturity : SourceMaturity
  sourceSampleCount : ℕ
  sourceSampleRateHz : ℚ
  startS : ℚ
  endS : ℚ
  durationS : ℚ
  renderRateHz : ℚ
  points : List GhostPoint
  /-- A time, and the last point that is not later. -/
  seekIndex : List (ℚ × ℕ)
  divergence : GhostDivergence

section

variable (hypot : ℚ → ℚ → ℚ → ℚ)

/-- `parsePoint` -/
def parsePoint (value : Unknown) (index : ℕ) : Except String GhostPoint :=
  match value with
  | .array items => do
    if items.length ≠ ghostPointLayout.length then .error s!"ghost overlay point {index} has the wrong layout"
    else
      let point ← items.zipIdx.mapM fun e => finiteNumber e.1 s!"points[{index}][{e.2}]"
        (if e.2 = 0 then 0 else -10 ^ 6) (if e.2 = 0 then 10 ^ 12 else 10 ^ 6)
      match point with
      | [timeS, ax, ay, az, px, py, pz, divergenceM] =>
        if divergenceM < 0 then .error s!"ghost overlay point {index} has negative divergence"
        else if 2 / 10 ^ 5 < |hypot (ax - px) (ay - py) (az - pz) - divergenceM| then
          .error s!"ghost overlay point {index} divergence is inconsistent"
        else .ok { timeS, actual := ⟨ax, ay, az⟩, predicted := ⟨px, py, pz⟩, divergenceM }
      | _ => .error s!"ghost overlay point {index} has the wrong layout"
  | _ => .error s!"ghost overlay point {index} has the wrong layout"

/-- The point `index` of `points`, not later than `timeS` while the next one is. -/
def precedes (points : List GhostPoint) (timeS : ℚ) (index : ℕ) : Bool :=
  (points[index]?).any (·.timeS ≤ timeS) && !(points[index + 1]?).any (·.timeS ≤ timeS)

/-- The time of the first point. -/
def startOf (points : List GhostPoint) : ℚ := (points.head?.map GhostPoint.timeS).getD 0

/-- The time of the last point. -/
def endOf (points : List GhostPoint) : ℚ := (points.getLast?.map GhostPoint.timeS).getD 0

/-- `parseSeekEntry` -/
def parseSeekEntry (points : List GhostPoint) (value : Unknown) (index : ℕ) : Except String (ℚ × ℕ) :=
  match value with
  | .array [time, point] => do
    let timeS ← finiteNumber time s!"seekIndex[{index}][0]" (startOf points) (endOf points)
    let pointIndex ← integer point s!"seekIndex[{index}][1]" 0 (points.length - 1)
    if precedes points timeS pointIndex then .ok (timeS, pointIndex)
    else .error s!"ghost overlay seekIndex entry {index} does not address the preceding point"
  | _ => .error s!"ghost overlay seekIndex entry {index} has the wrong layout"

/-- `nullable` of `parseDivergence` -/
def nullable (value : Unknown) (label : String) : Except String (Option ℚ) :=
  if isExactly value .null then .ok none else some <$> finiteNumber value label 0 (10 ^ 6)

def parseStatus (value : Unknown) : Except String DivergenceStatus :=
  if isExactly value (.string "tracking") then .ok .tracking
  else if isExactly value (.string "diverged") then .ok .diverged
  else if isExactly value (.string "missing") then .ok .missing
  else .error "ghost divergence status is unsupported"

def parseMaturity (value : Unknown) : Except String SourceMaturity :=
  if isExactly value (.string "controlled-synthetic") then .ok .controlledSynthetic
  else if isExactly value (.string "unverified") then .ok .unverified
  else .error "ghost overlay sourceMaturity is unsupported"

/-- `parseDivergence` -/
def parseDivergence (value : Unknown) : Except String GhostDivergence := do
  let source ← record value "ghost divergence"
  let status ← parseStatus (property "status" source)
  let sampleCount ← integer (property "sampleCount" source) "divergence.sampleCount" 0 100000
  let maxM ← nullable (property "maxM" source) "divergence.maxM"
  let rmsM ← nullable (property "rmsM" source) "divergence.rmsM"
  let warnM ← finiteNumber (property "warnM" source) "divergence.warnM" 0 (10 ^ 6)
  if (if status = .missing then maxM ≠ none ∨ rmsM ≠ none else maxM = none ∨ rmsM = none) then
    .error "ghost divergence values do not match status"
  else
    match maxM, rmsM with
    | some max, some rms =>
      if max + 1 / 10 ^ 6 < rms then .error "ghost divergence RMS exceeds its maximum"
      else if (status = .diverged ∧ max < warnM) ∨ (status = .tracking ∧ warnM ≤ max) then
        .error "ghost divergence status does not match its threshold"
      else .ok { sampleCount, maxM, rmsM, warnM, status }
    | _, _ => .ok { sampleCount, maxM, rmsM, warnM, status }

/-- The first point whose time is not after that of the point before it: the loop over the points. -/
def increasing : List GhostPoint → Bool
  | a :: b :: rest => a.timeS < b.timeS && increasing (b :: rest)
  | _ => true

/-- The loop over the entries of the index. -/
def checkIndex : List (ℚ × ℕ) → Except String Unit
  | a :: b :: rest =>
    if b.1 ≤ a.1 ∨ b.2 < a.2 then .error "ghost overlay seekIndex must be monotonic"
    else if 1000001 / 10 ^ 6 < b.1 - a.1 then .error "ghost overlay seekIndex spacing exceeds one second"
    else checkIndex (b :: rest)
  | _ => .ok ()

/-- The values of an array with a length from 2 to `maximum`. -/
def boundedArray (value : Unknown) (maximum : ℕ) (label : String) : Except String (List Unknown) :=
  match value with
  | .array items =>
    if items.length < 2 ∨ maximum < items.length then
      .error s!"ghost overlay {label} outside the supported bound"
    else .ok items
  | _ => .error s!"ghost overlay {label} outside the supported bound"

/-- `parseGhostReplay` -/
def parseGhostReplay (value : Unknown) : Except String GhostReplay := do
  let source ← record value "ghost overlay"
  requireExact (property "schemaVersion" source) (.string "forge-ghost-overlay/1.0.0") "schemaVersion"
  requireExact (property "enabled" source) (.bool true) "enabled"
  requireExact (property "frame" source) (.string ghostOverlayFrame) "frame"
  requireExact (property "divergenceMetric" source) (.string "position-rmse") "divergenceMetric"
  requireStringArray (property "pointLayout" source) ghostPointLayout "pointLayout"
  let sourceMaturity ← parseMaturity (property "sourceMaturity" source)
  requireExact (property "deviceIdentityVerified" source) (.bool false) "deviceIdentityVerified"
  requireExact (property "recordedDeviceVerified" source) (.bool false) "recordedDeviceVerified"
  requireExact (property "fieldSessionVerified" source) (.bool false) "fieldSessionVerified"
  let startS ← finiteNumber (property "startS" source) "startS" 0 (10 ^ 12)
  let endS ← finiteNumber (property "endS" source) "endS" startS (startS + ghostMaxDurationS)
  let durationS ← finiteNumber (property "durationS" source) "durationS" 0 ghostMaxDurationS
  reject (1 / 10 ^ 6 < |endS - startS - durationS|) "ghost overlay duration does not match its time bounds"
  let sourceSampleCount ← integer (property "sourceSampleCount" source) "sourceSampleCount" 2 100000
  let sourceSampleRateHz ← finiteNumber (property "sourceSampleRateHz" source) "sourceSampleRateHz" 0 10000
  let renderRateHz ← finiteNumber (property "renderRateHz" source) "renderRateHz" 0 1000
  requireExact (property "maxRenderPointCount" source) (.number (some ghostMaxRenderPoints)) "maxRenderPointCount"
  let items ← boundedArray (property "points" source) ghostMaxRenderPoints "points are"
  requireExact (property "renderPointCount" source) (.number (some items.length)) "renderPointCount"
  let points ← items.zipIdx.mapM fun e => parsePoint hypot e.1 e.2
  reject (points.head?.map GhostPoint.timeS ≠ some startS ∨ points.getLast?.map GhostPoint.timeS ≠ some endS)
    "ghost overlay endpoints do not match its time bounds"
  reject (!increasing points) "ghost overlay point time must be strictly increasing"
  reject (sourceSampleCount < points.length) "ghost overlay cannot contain more render points than source samples"
  reject (1 / 10 ^ 6 < |(if 0 < durationS then ((points.length : ℚ) - 1) / durationS else 0) - renderRateHz|)
    "ghost overlay renderRateHz does not match its point/time bounds"
  let entries ← boundedArray (property "seekIndex" source) 602 "seekIndex is"
  let seekIndex ← entries.zipIdx.mapM fun e => parseSeekEntry points e.1 e.2
  reject (seekIndex.head?.map Prod.fst ≠ some startS ∨ seekIndex.getLast?.map Prod.fst ≠ some endS)
    "ghost overlay seekIndex does not span the trace"
  checkIndex seekIndex
  let divergence ← parseDivergence (property "divergence" source)
  return { sourceMaturity, sourceSampleCount, sourceSampleRateHz, startS, endS, durationS, renderRateHz, points
           seekIndex, divergence }

end

/-! ### Seeking -/

structure GhostFrame where
  timeS : ℚ
  actualPositionM : Arr3 ℚ
  predictedPositionM : Arr3 ℚ
  divergenceM : ℚ
  beforePoint : ℕ
  afterPoint : ℕ

/-- `mix` -/
def mix (left right ratio : ℚ) : ℚ := left + (right - left) * ratio

/-- `mix` of two positions -/
def mixAll (left right : Arr3 ℚ) (ratio : ℚ) : Arr3 ℚ :=
  ⟨mix left.x right.x ratio, mix left.y right.y ratio, mix left.z right.z ratio⟩

/-- The position of the frame between two points. -/
def frameBetween (timeS : ℚ) (before after : ℕ) (left right : GhostPoint) : GhostFrame :=
  let span := right.timeS - left.timeS
  let ratio := if 0 < span then (timeS - left.timeS) / span else 0
  { timeS, actualPositionM := mixAll left.actual right.actual ratio
    predictedPositionM := mixAll left.predicted right.predicted ratio
    divergenceM := mix left.divergenceM right.divergenceM ratio, beforePoint := before, afterPoint := after }

/-- Where the search among the points ends: at the point that the index gives for the next second, or at the last. -/
def highPoint (replay : GhostReplay) (indexLow : ℕ) : ℕ :=
  min (replay.points.length - 1) (match replay.seekIndex[indexLow + 1]? with
    | some entry => entry.2 + 1
    | none => replay.points.length - 1)

/-- `seekGhostReplay`; reading a property of what lies outside of an array is an error. -/
def seekGhostReplay (replay : GhostReplay) (requestedTimeS : ℚ) : Option GhostFrame := do
  let timeS := min replay.endS (max replay.startS requestedTimeS)
  let indexLow := bisectLast (fun i => (replay.seekIndex[i]?).any (·.1 ≤ timeS)) 0 (replay.seekIndex.length - 1)
  let (_, pointLow) ← replay.seekIndex[indexLow]?
  let before := bisectLast (fun i => (replay.points[i]?).any (·.timeS ≤ timeS)) pointLow (highPoint replay indexLow)
  let after := min (replay.points.length - 1) (before + 1)
  let left ← replay.points[before]?
  let right ← replay.points[after]?
  return frameBetween timeS before after left right

/-! ### What the parser accepts -/

theorem reject_eq_ok {c : Prop} [Decidable c] {message : String} : reject c message = .ok () ↔ ¬ c := by
  unfold reject
  by_cases h : c <;> simp [h]

theorem pairwise_of_increasing {points : List GhostPoint} (h : increasing points = true) :
    points.Pairwise fun a b => a.timeS < b.timeS := by
  rw [← List.isChain_iff_pairwise]
  induction points with
  | nil => exact .nil
  | cons a rest ih =>
    cases rest with
    | nil => exact .singleton a
    | cons b rest =>
      simp only [increasing, Bool.and_eq_true, decide_eq_true_eq] at h
      exact .cons_cons h.1 (ih h.2)

theorem pairwise_of_checkIndex {index : List (ℚ × ℕ)} (h : checkIndex index = .ok ()) :
    index.Pairwise fun a b => a.1 < b.1 := by
  rw [← List.isChain_iff_pairwise]
  induction index with
  | nil => exact .nil
  | cons a rest ih =>
    cases rest with
    | nil => exact .singleton a
    | cons b rest =>
      rw [checkIndex, ite_error_eq_ok, ite_error_eq_ok] at h
      obtain ⟨horder, -, hrest⟩ := h
      exact .cons_cons (not_le.mp fun hle => horder (.inl hle)) (ih hrest)

/-- What the parser has established of an overlay. -/
structure GhostReplay.Valid (replay : GhostReplay) : Prop where
  first : replay.points.head?.map GhostPoint.timeS = some replay.startS
  last : replay.points.getLast?.map GhostPoint.timeS = some replay.endS
  increasing : replay.points.Pairwise fun a b => a.timeS < b.timeS
  indexFirst : replay.seekIndex.head?.map Prod.fst = some replay.startS
  indexIncreasing : replay.seekIndex.Pairwise fun a b => a.1 < b.1
  entries : ∀ e ∈ replay.seekIndex, precedes replay.points e.1 e.2

theorem precedes_of_parseSeekEntry {points : List GhostPoint} {value : Unknown} {index : ℕ} {e : ℚ × ℕ}
    (h : parseSeekEntry points value index = .ok e) : precedes points e.1 e.2 := by
  unfold parseSeekEntry at h
  split at h
  · obtain ⟨timeS, -, h⟩ := bind_eq_ok.mp h
    obtain ⟨pointIndex, -, h⟩ := bind_eq_ok.mp h
    split at h
    · rw [← Except.ok.inj h]
      assumption
    · cases h
  · cases h

/-- **The parser accepts valid overlays only.** -/
theorem valid_of_parse {hypot : ℚ → ℚ → ℚ → ℚ} {value : Unknown} {replay : GhostReplay}
    (h : parseGhostReplay hypot value = .ok replay) : replay.Valid := by
  unfold parseGhostReplay at h
  obtain ⟨source, -, h⟩ := bind_eq_ok.mp h
  -- the constant fields
  iterate 5 replace h := (check_eq_ok.mp h).2
  obtain ⟨sourceMaturity, -, h⟩ := bind_eq_ok.mp h
  iterate 3 replace h := (check_eq_ok.mp h).2
  obtain ⟨startS, -, h⟩ := bind_eq_ok.mp h
  obtain ⟨endS, -, h⟩ := bind_eq_ok.mp h
  obtain ⟨durationS, -, h⟩ := bind_eq_ok.mp h
  replace h := (check_eq_ok.mp h).2
  obtain ⟨sourceSampleCount, -, h⟩ := bind_eq_ok.mp h
  obtain ⟨sourceSampleRateHz, -, h⟩ := bind_eq_ok.mp h
  obtain ⟨renderRateHz, -, h⟩ := bind_eq_ok.mp h
  replace h := (check_eq_ok.mp h).2
  -- the points
  obtain ⟨items, -, h⟩ := bind_eq_ok.mp h
  replace h := (check_eq_ok.mp h).2
  obtain ⟨points, -, h⟩ := bind_eq_ok.mp h
  obtain ⟨hends, h⟩ := check_eq_ok.mp h
  obtain ⟨hincreasing, h⟩ := check_eq_ok.mp h
  iterate 2 replace h := (check_eq_ok.mp h).2
  -- the index
  obtain ⟨entries, -, h⟩ := bind_eq_ok.mp h
  obtain ⟨seekIndex, hentries, h⟩ := bind_eq_ok.mp h
  obtain ⟨hspan, h⟩ := check_eq_ok.mp h
  obtain ⟨hindex, h⟩ := check_eq_ok.mp h
  obtain ⟨divergence, -, h⟩ := bind_eq_ok.mp h
  obtain rfl := pure_eq_ok.mp h
  rw [reject_eq_ok, not_or, not_not, not_not] at hends hspan
  rw [reject_eq_ok] at hincreasing
  exact { first := hends.1
          last := hends.2
          increasing := pairwise_of_increasing (by simpa using hincreasing)
          indexFirst := hspan.1
          indexIncreasing := pairwise_of_checkIndex hindex
          entries := forall_mem_of_mapM_eq_ok precedes_of_parseSeekEntry hentries }

/-! ### What seeking finds -/

/-- A frame of `replay` for the time `requestedTimeS`: on the line from the last point that is not later to the next
one, and on the last point when there is no next one. -/
structure Interpolates (replay : GhostReplay) (requestedTimeS : ℚ) (frame : GhostFrame) : Prop where
  time : frame.timeS = min replay.endS (max replay.startS requestedTimeS)
  position : ∃ left right ratio, replay.points[frame.beforePoint]? = some left ∧
    replay.points[frame.afterPoint]? = some right ∧ 0 ≤ ratio ∧ ratio < 1 ∧
    frame.timeS = mix left.timeS right.timeS ratio ∧
    frame.actualPositionM = mixAll left.actual right.actual ratio ∧
    frame.predictedPositionM = mixAll left.predicted right.predicted ratio ∧
    frame.divergenceM = mix left.divergenceM right.divergenceM ratio
  last : ∀ (i : ℕ) p, replay.points[i]? = some p → (p.timeS ≤ frame.timeS ↔ i ≤ frame.beforePoint)
  after : frame.afterPoint = min (replay.points.length - 1) (frame.beforePoint + 1)

theorem any_iff {α : Type} {l : List α} {i : ℕ} {p : α → Bool} :
    (l[i]?).any p = true ↔ ∃ a, l[i]? = some a ∧ p a = true := by
  cases l[i]? <;> simp

/-- Later places of a list have later times. -/
theorem time_lt {α : Type} {time : α → ℚ} {l : List α} (h : l.Pairwise fun a b => time a < time b) {i j : ℕ} {a b : α}
    (hij : i < j) (ha : l[i]? = some a) (hb : l[j]? = some b) : time a < time b := by
  obtain ⟨hi, rfl⟩ := List.getElem?_eq_some_iff.mp ha
  obtain ⟨hj, rfl⟩ := List.getElem?_eq_some_iff.mp hb
  exact List.pairwise_iff_getElem.mp h i j hi hj hij

/-- Before a place that is reached at `t` all are. -/
theorem reached_mono {α : Type} {time : α → ℚ} {l : List α} (h : l.Pairwise fun a b => time a < time b) {t : ℚ}
    {i j : ℕ} (hij : i ≤ j) (hj : (l[j]?).any (time · ≤ t) = true) : (l[i]?).any (time · ≤ t) = true := by
  rcases hij.lt_or_eq with hij | rfl
  · obtain ⟨b, hb, hle⟩ := any_iff.mp hj
    have hi : i < l.length := hij.trans (List.getElem?_eq_some_iff.mp hb).1
    have ha : l[i]? = some l[i] := List.getElem?_eq_getElem hi
    exact any_iff.mpr ⟨_, ha, decide_eq_true ((time_lt h hij ha hb).le.trans (of_decide_eq_true hle))⟩
  · exact hj

/-- The first point is not later than the last. -/
theorem GhostReplay.Valid.start_le_end {replay : GhostReplay} (h : replay.Valid) : replay.startS ≤ replay.endS := by
  obtain ⟨first, hfirst, hstart⟩ := Option.map_eq_some_iff.mp h.first
  obtain ⟨last, hlast, hend⟩ := Option.map_eq_some_iff.mp h.last
  rw [List.head?_eq_getElem?] at hfirst
  rw [List.getLast?_eq_getElem?] at hlast
  rw [← hstart, ← hend]
  rcases Nat.eq_zero_or_pos (replay.points.length - 1) with hzero | hpos
  · rw [hzero, hfirst] at hlast
    rw [Option.some.inj hlast]
  · exact (time_lt h.increasing hpos hfirst hlast).le

/-- What an entry of the index says of the points. -/
theorem precedes_iff {points : List GhostPoint} {timeS : ℚ} {index : ℕ} : precedes points timeS index = true ↔
    (∃ p, points[index]? = some p ∧ p.timeS ≤ timeS) ∧ ∀ p, points[index + 1]? = some p → timeS < p.timeS := by
  unfold precedes
  rw [Bool.and_eq_true, any_iff, Bool.not_eq_true', ← Bool.not_eq_true, any_iff]
  simp

/-- The frame on the line between two points. -/
theorem interpolates_frameBetween {left right : GhostPoint} {timeS : ℚ} (before after : ℕ)
    (hleft : left.timeS ≤ timeS) (hright : timeS < right.timeS ∨ (right = left ∧ timeS = left.timeS)) :
    ∃ ratio, 0 ≤ ratio ∧ ratio < 1 ∧ timeS = mix left.timeS right.timeS ratio ∧
      (frameBetween timeS before after left right).actualPositionM = mixAll left.actual right.actual ratio ∧
      (frameBetween timeS before after left right).predictedPositionM = mixAll left.predicted right.predicted ratio ∧
      (frameBetween timeS before after left right).divergenceM = mix left.divergenceM right.divergenceM ratio := by
  rcases hright with hright | ⟨rfl, rfl⟩
  · have hspan : 0 < right.timeS - left.timeS := by linarith
    refine ⟨(timeS - left.timeS) / (right.timeS - left.timeS), div_nonneg (by linarith) hspan.le, ?_, ?_, ?_⟩
    · rw [div_lt_one hspan]
      linarith
    · unfold mix
      field_simp
      ring
    · simp only [frameBetween, if_pos hspan]
      exact ⟨trivial, trivial, trivial⟩
  · refine ⟨0, le_refl _, zero_lt_one, by simp [mix], ?_⟩
    simp [frameBetween]

/-- The points past the end of the search are later than `timeS`. -/
theorem GhostReplay.Valid.later_of_highPoint {replay : GhostReplay} (h : replay.Valid) {timeS : ℚ} {indexLow : ℕ}
    (hnext : ∀ e, replay.seekIndex[indexLow + 1]? = some e → timeS < e.1) {i : ℕ} (hi : highPoint replay indexLow < i)
    {p : GhostPoint} (hp : replay.points[i]? = some p) : timeS < p.timeS := by
  have hlt : i < replay.points.length := (List.getElem?_eq_some_iff.mp hp).1
  unfold highPoint at hi
  cases hentry : replay.seekIndex[indexLow + 1]? with
  | none =>
    simp only [hentry] at hi
    omega
  | some e =>
    simp only [hentry] at hi
    have hafter : e.2 + 1 < i := by omega
    obtain ⟨-, hlater⟩ := precedes_iff.mp (h.entries e (List.mem_of_getElem? hentry))
    have hq : replay.points[e.2 + 1]? = some replay.points[e.2 + 1] := List.getElem?_eq_getElem (by omega)
    exact (hnext e hentry).trans ((hlater _ hq).trans (time_lt h.increasing hafter hq hp))

@[simp] theorem mixAll_zero (left right : Arr3 ℚ) : mixAll left right 0 = left := by simp [mixAll, mix]

@[simp] theorem mixAll_self (left : Arr3 ℚ) (ratio : ℚ) : mixAll left left ratio = left := by simp [mixAll, mix]

/-- The point of an entry of the index is within the search that begins with it. -/
theorem GhostReplay.Valid.le_highPoint {replay : GhostReplay} (h : replay.Valid) {indexLow : ℕ} {e : ℚ × ℕ}
    (he : replay.seekIndex[indexLow]? = some e) : e.2 ≤ highPoint replay indexLow := by
  obtain ⟨⟨low, hlow, hlowTime⟩, -⟩ := precedes_iff.mp (h.entries e (List.mem_of_getElem? he))
  have hlt : e.2 < replay.points.length := (List.getElem?_eq_some_iff.mp hlow).1
  by_contra hgt
  have hend : replay.points.length - 1 ≠ highPoint replay indexLow := by omega
  cases hentry : replay.seekIndex[indexLow + 1]? with
  | none => simp [highPoint, hentry] at hend
  | some next =>
    have htimes : e.1 < next.1 := time_lt h.indexIncreasing (Nat.lt_succ_self _) he hentry
    have hlater : low.timeS < low.timeS := h.later_of_highPoint
      (fun e' he' => by rw [hentry, Option.some.injEq] at he'; rw [← he']; exact hlowTime.trans_lt htimes)
      (not_le.mp hgt) hlow
    exact absurd hlater (lt_irrefl _)

/-- **Seeking interpolates** in every valid overlay. -/
theorem GhostReplay.Valid.seek {replay : GhostReplay} (h : replay.Valid) (requestedTimeS : ℚ) :
    ∃ frame, seekGhostReplay replay requestedTimeS = some frame ∧ Interpolates replay requestedTimeS frame := by
  obtain ⟨timeS, htime⟩ : ∃ t, t = min replay.endS (max replay.startS requestedTimeS) := ⟨_, rfl⟩
  have hstart : replay.startS ≤ timeS := htime ▸ le_min h.start_le_end (le_max_left _ _)
  have hend : timeS ≤ replay.endS := htime ▸ min_le_left _ _
  -- the search in the index
  obtain ⟨first, hfirst, hfirstTime⟩ := Option.map_eq_some_iff.mp h.indexFirst
  rw [List.head?_eq_getElem?] at hfirst
  obtain ⟨indexLow, hindexLow⟩ :
    ∃ i, i = bisectLast (fun i => (replay.seekIndex[i]?).any (·.1 ≤ timeS)) 0 (replay.seekIndex.length - 1) := ⟨_, rfl⟩
  obtain ⟨-, -, hreached, hnext⟩ := hindexLow ▸ bisectLast_spec (Nat.zero_le (replay.seekIndex.length - 1))
    (any_iff.mpr ⟨first, hfirst, decide_eq_true (hfirstTime.le.trans hstart)⟩)
    fun i j hij _ hj => reached_mono h.indexIncreasing hij hj
  obtain ⟨entry, hentry, hentryTime⟩ := any_iff.mp hreached
  have hlater : ∀ e, replay.seekIndex[indexLow + 1]? = some e → timeS < e.1 := fun e he => by
    have hlt := (List.getElem?_eq_some_iff.mp he).1
    have hfalse := hnext (indexLow + 1) (Nat.lt_succ_self _) (by omega)
    simpa [he] using hfalse
  -- the search among the points
  obtain ⟨⟨low, hlow, hlowTime⟩, -⟩ := precedes_iff.mp (h.entries entry (List.mem_of_getElem? hentry))
  obtain ⟨before, hbefore⟩ : ∃ i, i = bisectLast (fun i => (replay.points[i]?).any (·.timeS ≤ timeS)) entry.2
    (highPoint replay indexLow) := ⟨_, rfl⟩
  obtain ⟨-, -, hleft, hpast⟩ := hbefore ▸ bisectLast_spec (h.le_highPoint hentry)
    (any_iff.mpr ⟨low, hlow, decide_eq_true (hlowTime.trans (of_decide_eq_true hentryTime))⟩)
    fun i j hij _ hj => reached_mono h.increasing hij hj
  obtain ⟨left, hleft, hleftTime⟩ := any_iff.mp hleft
  have hlt : before < replay.points.length := (List.getElem?_eq_some_iff.mp hleft).1
  have hlast : ∀ (i : ℕ) p, replay.points[i]? = some p → (p.timeS ≤ timeS ↔ i ≤ before) := fun i p hp => by
    refine ⟨fun hle => ?_, fun hle => ?_⟩
    · by_contra hgt
      by_cases hin : i ≤ highPoint replay indexLow
      · have hfalse := hpast i (not_le.mp hgt) hin
        simp only [hp, Option.any_some, decide_eq_false_iff_not] at hfalse
        exact hfalse hle
      · exact absurd (h.later_of_highPoint hlater (not_le.mp hin) hp) (not_lt.mpr hle)
    · have hmono := reached_mono h.increasing hle (any_iff.mpr ⟨left, hleft, hleftTime⟩)
      simpa [hp] using hmono
  -- the next point
  have hright : replay.points[min (replay.points.length - 1) (before + 1)]? =
      some replay.points[min (replay.points.length - 1) (before + 1)] := List.getElem?_eq_getElem (by omega)
  obtain ⟨right, hrightEq⟩ : ∃ p, p = replay.points[min (replay.points.length - 1) (before + 1)] := ⟨_, rfl⟩
  rw [← hrightEq] at hright
  have hbetween : timeS < right.timeS ∨ (right = left ∧ timeS = left.timeS) := by
    by_cases hnone : before + 1 < replay.points.length
    · left
      refine not_le.mp fun hle => ?_
      have hle := (hlast _ _ hright).mp hle
      omega
    · right
      have hsame : min (replay.points.length - 1) (before + 1) = before := by omega
      rw [hsame, hleft] at hright
      refine ⟨(Option.some.inj hright).symm, le_antisymm ?_ (of_decide_eq_true hleftTime)⟩
      obtain ⟨last, hlastPoint, hlastTime⟩ := Option.map_eq_some_iff.mp h.last
      rw [List.getLast?_eq_getElem?, show replay.points.length - 1 = before by omega, hleft] at hlastPoint
      rw [Option.some.inj hlastPoint, hlastTime]
      exact hend
  refine ⟨frameBetween timeS before (min (replay.points.length - 1) (before + 1)) left right, ?_, ?_⟩
  · unfold seekGhostReplay
    simp only [← htime, ← hindexLow, hentry, Option.bind_eq_bind, Option.bind_some, ← hbefore, hleft, hright]
    rfl
  · obtain ⟨ratio, hratio⟩ := interpolates_frameBetween before (min (replay.points.length - 1) (before + 1))
      (of_decide_eq_true hleftTime) hbetween
    exact { time := htime
            position := ⟨left, right, ratio, hleft, hright, hratio⟩
            last := hlast
            after := rfl }

/-- The times of the points lie between those of the first and the last. -/
theorem GhostReplay.Valid.clamp_time {replay : GhostReplay} (h : replay.Valid) {i : ℕ} {p : GhostPoint}
    (hp : replay.points[i]? = some p) : min replay.endS (max replay.startS p.timeS) = p.timeS := by
  obtain ⟨first, hfirst, hstart⟩ := Option.map_eq_some_iff.mp h.first
  obtain ⟨last, hlast, hend⟩ := Option.map_eq_some_iff.mp h.last
  rw [List.head?_eq_getElem?] at hfirst
  rw [List.getLast?_eq_getElem?] at hlast
  have hlt : i < replay.points.length := (List.getElem?_eq_some_iff.mp hp).1
  have hge : replay.startS ≤ p.timeS := by
    rw [← hstart]
    rcases Nat.eq_zero_or_pos i with rfl | hpos
    · rw [hfirst] at hp
      rw [Option.some.inj hp]
    · exact (time_lt h.increasing hpos hfirst hp).le
  have hle : p.timeS ≤ replay.endS := by
    rw [← hend]
    rcases (Nat.le_sub_one_of_lt hlt).lt_or_eq with hi | rfl
    · exact (time_lt h.increasing hi hp hlast).le
    · rw [hp] at hlast
      rw [Option.some.inj hlast]
  rw [max_eq_right hge, min_eq_right hle]

/-- At the time of a point a frame is that point. -/
theorem Interpolates.at_point {replay : GhostReplay} (h : replay.Valid) {i : ℕ} {p : GhostPoint}
    (hp : replay.points[i]? = some p) {frame : GhostFrame} (hframe : Interpolates replay p.timeS frame) :
    frame.timeS = p.timeS ∧ frame.actualPositionM = p.actual ∧ frame.predictedPositionM = p.predicted ∧
      frame.divergenceM = p.divergenceM := by
  have htime : frame.timeS = p.timeS := hframe.time.trans (h.clamp_time hp)
  obtain ⟨left, right, ratio, hleft, hright, -, -, hmix, hactual, hpredicted, hdivergence⟩ := hframe.position
  have hle : i ≤ frame.beforePoint := (hframe.last i p hp).mp htime.ge
  obtain rfl : left = p := by
    rcases hle.lt_or_eq with hlt | rfl
    · have hbefore := (hframe.last _ left hleft).mpr (le_refl _)
      exact absurd (time_lt h.increasing hlt hp hleft) (not_lt.mpr (hbefore.trans htime.le))
    · exact Option.some.inj (hleft.symm.trans hp)
  rw [htime, mix] at hmix
  rcases mul_eq_zero.mp (show (right.timeS - left.timeS) * ratio = 0 by linarith) with hspan | rfl
  · obtain rfl : right = left := by
      rcases Nat.lt_or_ge frame.beforePoint frame.afterPoint with hlt | hge
      · have hlt := time_lt h.increasing hlt hleft hright
        linarith
      · have hin : frame.beforePoint < replay.points.length := (List.getElem?_eq_some_iff.mp hleft).1
        have hafter := hframe.after
        rw [show frame.afterPoint = frame.beforePoint by omega] at hright
        exact Option.some.inj (hright.symm.trans hleft)
    refine ⟨htime, ?_, ?_, ?_⟩
    · rw [hactual, mixAll_self]
    · rw [hpredicted, mixAll_self]
    · rw [hdivergence, mix, sub_self, zero_mul, add_zero]
  · refine ⟨htime, ?_, ?_, ?_⟩
    · rw [hactual, mixAll_zero]
    · rw [hpredicted, mixAll_zero]
    · rw [hdivergence, mix, mul_zero, add_zero]

/-- **Key result.** An overlay that the parser accepts can be sought at every time, with the positions on the line
between the points around it; at the time of a point they are its own. -/
theorem seek_parsed {hypot : ℚ → ℚ → ℚ → ℚ} {value : Unknown} {replay : GhostReplay}
    (h : parseGhostReplay hypot value = .ok replay) :
    (∀ requestedTimeS, ∃ frame, seekGhostReplay replay requestedTimeS = some frame ∧
      Interpolates replay requestedTimeS frame) ∧
    ∀ p ∈ replay.points, ∃ frame, seekGhostReplay replay p.timeS = some frame ∧ frame.timeS = p.timeS ∧
      frame.actualPositionM = p.actual ∧ frame.predictedPositionM = p.predicted ∧
      frame.divergenceM = p.divergenceM := by
  have hvalid := valid_of_parse h
  refine ⟨hvalid.seek, fun p hp => ?_⟩
  obtain ⟨i, hi⟩ := List.mem_iff_getElem?.mp hp
  obtain ⟨frame, hseek, hframe⟩ := hvalid.seek p.timeS
  exact ⟨frame, hseek, hframe.at_point hvalid hi⟩

/-! ### A short overlay -/

def number (x : ℚ) : Unknown := .leaf (.number (some x))

def text (s : String) : Unknown := .leaf (.string s)

/-- A point on a straight flight that was predicted well. -/
def straightPoint (timeS : ℚ) : Unknown := .array ([timeS, timeS, 1, 0, timeS, 1, 0, 0].map number)

/-- One second and a half of that flight. -/
def straightOverlay : Unknown :=
  .object [("schemaVersion", text "forge-ghost-overlay/1.0.0"), ("enabled", .leaf (.bool true)),
    ("frame", text ghostOverlayFrame), ("divergenceMetric", text "position-rmse"),
    ("pointLayout", .array (ghostPointLayout.map text)), ("sourceMaturity", text "unverified"),
    ("deviceIdentityVerified", .leaf (.bool false)), ("recordedDeviceVerified", .leaf (.bool false)),
    ("fieldSessionVerified", .leaf (.bool false)), ("startS", number 10), ("endS", number (23 / 2)),
    ("durationS", number (3 / 2)), ("sourceSampleCount", number 3), ("sourceSampleRateHz", number 2),
    ("renderRateHz", number (4 / 3)), ("maxRenderPointCount", number 6001), ("renderPointCount", number 3),
    ("points", .array [straightPoint 10, straightPoint (43 / 4), straightPoint (23 / 2)]),
    ("seekIndex", .array [.array [number 10, number 0], .array [number 11, number 1],
      .array [number (23 / 2), number 2]]),
    ("divergence", .object [("sampleCount", number 3), ("maxM", number 0), ("rmsM", number 0),
      ("warnM", number (1 / 2)), ("status", text "tracking")])]

/-- `Math.hypot` along an axis. -/
def axisHypot (x y z : ℚ) : ℚ := |x| + |y| + |z|

/-- It is accepted, and can be sought. -/
theorem straightOverlay_sought : ∃ replay, parseGhostReplay axisHypot straightOverlay = .ok replay ∧
    (∀ requestedTimeS, ∃ frame, seekGhostReplay replay requestedTimeS = some frame ∧
      Interpolates replay requestedTimeS frame) ∧
    ∀ p ∈ replay.points, ∃ frame, seekGhostReplay replay p.timeS = some frame ∧ frame.timeS = p.timeS ∧
      frame.actualPositionM = p.actual ∧ frame.predictedPositionM = p.predicted ∧
      frame.divergenceM = p.divergenceM := by
  have hok : (parseGhostReplay axisHypot straightOverlay).isOk = true := by decide +kernel
  cases h : parseGhostReplay axisHypot straightOverlay with
  | error message => simp [h, Except.isOk, Except.toBool] at hok
  | ok replay => exact ⟨replay, rfl, seek_parsed h⟩

end Forge.Studio
