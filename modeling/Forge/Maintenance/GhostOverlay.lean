import Forge.Contract.Model
import Forge.Data.Except
import Forge.Data.RoundEven
import Forge.Json.Tree
import Mathlib.Algebra.Order.Field.Rat
import Mathlib.Data.List.Sort
import Mathlib.Data.Rat.Floor
import Mathlib.Tactic.IntervalCases
import Mathlib.Tactic.Linarith

/-!
# The ghost overlay of a crash report

The samples of a flight, each with the position that was recorded and the one that was predicted, are validated,
thinned out to a bounded number of points, and indexed by whole seconds (`maintenance.py`). Numbers are exact, and
times are printed with six decimals.

The points are as they should be; the index compares printed times with times that are not rounded.
**`spans_iff`**: the overlay is right exactly for the samples that are `Aligned`.
-/

namespace Forge.Maintenance

open Contract (Arr3)

/-! ### Payloads -/

/-- What `float` returns: an exact number, or an infinity or a NaN. -/
inductive PyFloat where
  | finite (x : ℚ)
  | nonFinite

inductive PyScalar where
  | null
  | bool (b : Bool)
  | number (x : PyFloat)
  | text (s : String)

/-- A value of a job's payload. -/
abbrev Payload := Tree String PyScalar

/-- `dict.get(name, default)` -/
def get (name : String) (default : Payload) (members : List (String × Payload)) : Payload :=
  (members.lookup name).getD default

/-- What the interpreter computes: `float` of a text, where it has a value, and `math.sqrt`. -/
structure PyMath where
  floatOfText : String → Option PyFloat
  sqrt : ℚ → ℚ

def ghostMaxDurationS : ℚ := 600
def ghostMaxSourceSamples : ℕ := 100000
def ghostMaxRenderPoints : ℕ := 6001

/-- A sample whose time and acceleration were validated, with the members that it came with. -/
structure CrashSample where
  members : List (String × Payload)
  t : ℚ
  accelG : ℚ

section

variable (math : PyMath)

/-- `float(value)`, where it does not raise. -/
def toFloat : Payload → Option PyFloat
  | .leaf (.bool b) => some (.finite (if b then 1 else 0))
  | .leaf (.number x) => some x
  | .leaf (.text s) => math.floatOfText s
  | _ => none

def isBool : Payload → Bool
  | .leaf (.bool _) => true
  | _ => false

/-- `_bounded_finite` -/
def boundedFinite (value : Payload) (label : String) (minimum maximum : ℚ) : Except String ℚ :=
  if isBool value then .error s!"maintenance.crash-forensics {label} must be finite"
  else
    match toFloat math value with
    | none => .error s!"maintenance.crash-forensics {label} must be finite"
    | some .nonFinite => .error s!"maintenance.crash-forensics {label} is out of range"
    | some (.finite number) =>
      if number < minimum ∨ maximum < number then .error s!"maintenance.crash-forensics {label} is out of range"
      else .ok number

/-- The loop of `_validated_crash_samples`, from an index on, after a sample at `previousT`. -/
def validateSamples : ℕ → Option ℚ → List Payload → Except String (List CrashSample)
  | _, _, [] => .ok []
  | index, previousT, .object members :: rest => do
    let t ← boundedFinite math (get "t" (.leaf .null) members) s!"samples[{index}].t" 0 (10 ^ 12)
    let accelG ← boundedFinite math (get "accelG" (.leaf (.number (.finite 0))) members) s!"samples[{index}].accelG"
      0 1000
    if previousT.any (t ≤ ·) then .error "maintenance.crash-forensics sample time must be strictly increasing"
    else
      let samples ← validateSamples (index + 1) (some t) rest
      return { members, t, accelG } :: samples
  | index, _, _ :: _ => .error s!"maintenance.crash-forensics sample {index} must be an object"

/-- The time of the first sample. -/
def startOf (samples : List CrashSample) : ℚ := (samples.head?.map CrashSample.t).getD 0

/-- The time of the last sample. -/
def endOf (samples : List CrashSample) : ℚ := (samples.getLast?.map CrashSample.t).getD 0

/-- `_validated_crash_samples` -/
def validatedCrashSamples : Payload → Except String (List CrashSample)
  | .array (value :: values) => do
    if ghostMaxSourceSamples < (value :: values).length then
      .error "maintenance.crash-forensics sample count exceeds limit"
    else
      let samples ← validateSamples math 0 none (value :: values)
      if ghostMaxDurationS + 1 / 10 ^ 9 < endOf samples - startOf samples then
        .error "maintenance.crash-forensics duration exceeds 600 seconds"
      else return samples
  | _ => .error "maintenance.crash-forensics requires samples"

/-! ### Positions -/

/-- A coordinate that is a finite number of moderate size. -/
def coordinate (value : Payload) : Option ℚ :=
  match toFloat math value with
  | some (.finite x) => if |x| ≤ 10 ^ 6 then some x else none
  | _ => none

/-- `_finite_position` of a list with at least three items; other lists are not asked for one. -/
def finitePosition : List Payload → Option (Arr3 ℚ)
  | a :: b :: c :: _ =>
    if [a, b, c].any isBool then none
    else do
      let x ← coordinate math a
      let y ← coordinate math b
      let z ← coordinate math c
      return ⟨x, y, z⟩
  | _ => none

/-- The truth of a value. -/
def truthy : Payload → Bool
  | .leaf .null => false
  | .leaf (.bool b) => b
  | .leaf (.number .nonFinite) => true
  | .leaf (.number (.finite x)) => x ≠ 0
  | .leaf (.text s) => s ≠ ""
  | .array ts => !ts.isEmpty
  | .object ms => !ms.isEmpty

/-- `left or right` -/
def orElse (left right : Payload) : Payload := if truthy left then left else right

/-- The position that a value holds, in a list or in an object around one. -/
def positionIn : Payload → Option (Arr3 ℚ)
  | .array items => finitePosition math items
  | .object members =>
    match orElse (get "positionM" (.leaf .null) members) (get "xyz" (.leaf .null) members) with
    | .array items => finitePosition math items
    | _ => none
  | .leaf _ => none

/-- `_position` -/
def position (sample : CrashSample) (keys : List String) : Option (Arr3 ℚ) :=
  keys.findSome? fun key => positionIn math (get key (.leaf .null) sample.members)

def actualPosition (sample : CrashSample) : Option (Arr3 ℚ) :=
  position math sample ["positionM", "actualPositionM", "actual"]

def predictedPosition (sample : CrashSample) : Option (Arr3 ℚ) :=
  position math sample ["ghostPositionM", "predictedPositionM", "ghost"]

/-! ### Points -/

/-- A sample with both positions; and, printed, a point of the overlay. -/
structure GhostPoint where
  timeS : ℚ
  actualM : Arr3 ℚ
  predictedM : Arr3 ℚ
  divergenceM : ℚ
deriving DecidableEq

/-- The sample with its positions, where it has both. -/
def pair (sample : CrashSample) : Option GhostPoint := do
  let actual ← actualPosition math sample
  let predicted ← predictedPosition math sample
  return {
    timeS := sample.t
    actualM := actual
    predictedM := predicted
    divergenceM := math.sqrt ((actual.x - predicted.x) ^ 2 + (actual.y - predicted.y) ^ 2 +
      (actual.z - predicted.z) ^ 2) }

/-- Six decimals. -/
def round6 (x : ℚ) : ℚ := roundTo 6 x

def roundArr3 (a : Arr3 ℚ) : Arr3 ℚ := ⟨round6 a.x, round6 a.y, round6 a.z⟩

/-- A point as it is printed. -/
def rendered (p : GhostPoint) : GhostPoint where
  timeS := round6 p.timeS
  actualM := roundArr3 p.actualM
  predictedM := roundArr3 p.predictedM
  divergenceM := round6 p.divergenceM

/-- The distance between two samples that are drawn. -/
def stride (count : ℕ) : ℕ := max 1 ⌈((count - 1 : ℕ) : ℚ) / (ghostMaxRenderPoints - 1 : ℕ)⌉₊

/-- `list(range(0, count, stride))` -/
def everyStride (count stride : ℕ) : List ℕ := List.range' 0 ((count + stride - 1) / stride) stride

/-- The indices of the samples that are drawn: every `stride`-th, and the last one. -/
def drawnIndices (count : ℕ) : List ℕ :=
  let indices := everyStride count (stride count)
  if indices.getLast? = some (count - 1) then indices else indices ++ [count - 1]

/-- `_decimate_ghost_points` -/
def decimateGhostPoints (paired : List GhostPoint) : List GhostPoint :=
  if paired.isEmpty then []
  else (drawnIndices paired.length).filterMap fun index => paired[index]?.map rendered

/-! ### The seek index -/

/-- The inner loop: step over the points up to a time. -/
def advance (target : ℚ) : ℕ → List GhostPoint → ℕ
  | pointIndex, [] => pointIndex
  | pointIndex, next :: rest => if next.timeS ≤ target then advance target (pointIndex + 1) rest else pointIndex

/-- The outer loop over the whole seconds. -/
def seekEntries (points : List GhostPoint) (startS : ℚ) : ℕ → List ℕ → List (ℚ × ℕ)
  | _, [] => []
  | pointIndex, offset :: offsets =>
    let target := startS + offset
    let pointIndex := advance target pointIndex (points.drop (pointIndex + 1))
    (round6 target, pointIndex) :: seekEntries points startS pointIndex offsets

/-- `_ghost_seek_index` -/
def ghostSeekIndex (points : List GhostPoint) (startS endS : ℚ) : List (ℚ × ℕ) :=
  let wholeSeconds := ⌊endS - startS⌋
  let index := seekEntries points startS 0 (List.range (wholeSeconds + 1).toNat)
  if index.getLast?.all fun entry => entry.1 < endS then index ++ [(round6 endS, points.length - 1)] else index

/-! ### The overlay -/

/-- What is computed for the overlay. -/
structure GhostOverlay where
  enabled : Bool
  disabledReason : Option String
  sourceSampleCount : ℕ
  sourceSampleRateHz : ℚ
  startS : ℚ
  endS : ℚ
  durationS : ℚ
  renderPointCount : ℕ
  renderRateHz : ℚ
  points : List GhostPoint
  seekIndex : List (ℚ × ℕ)

/-- `_ghost_overlay` -/
def ghostOverlay (samples : List CrashSample) : GhostOverlay :=
  let startS := startOf samples
  let endS := endOf samples
  let durationS := endS - startS
  let paired := samples.filterMap (pair math)
  let complete := paired.length = samples.length
  let points := if complete then decimateGhostPoints paired else []
  let enabled := complete ∧ 2 ≤ points.length
  { enabled
    disabledReason := if enabled then none else some "complete position pairs are required"
    sourceSampleCount := samples.length
    sourceSampleRateHz := round6 (if 0 < durationS then (samples.length - 1) / durationS else 0)
    startS := round6 startS
    endS := round6 endS
    durationS := round6 durationS
    renderPointCount := points.length
    renderRateHz := round6 (if 1 < points.length ∧ 0 < durationS then (points.length - 1) / durationS else 0)
    points
    seekIndex := if points.isEmpty then [] else ghostSeekIndex points startS endS }

end

/-! ### What is drawn -/

/-- A sample is drawn when its index is a multiple of the stride, or the last one. -/
def Drawn (count i : ℕ) : Prop := stride count ∣ i ∨ i = count - 1

theorem stride_pos (count : ℕ) : 0 < stride count := lt_of_lt_of_le Nat.one_pos (le_max_left _ _)

/-- The stride is long enough for the bound on the points. -/
theorem le_stride_mul (count : ℕ) : count - 1 ≤ stride count * (ghostMaxRenderPoints - 1) := by
  have hceil : ((count - 1 : ℕ) : ℚ) / (ghostMaxRenderPoints - 1 : ℕ) ≤ stride count :=
    (Nat.le_ceil _).trans (Nat.cast_le.mpr (le_max_right _ _))
  rw [div_le_iff₀ (by norm_num [ghostMaxRenderPoints])] at hceil
  exact_mod_cast hceil

theorem mem_everyStride {count step i : ℕ} (hstep : 0 < step) : i ∈ everyStride count step ↔ i < count ∧ step ∣ i := by
  rw [everyStride, List.mem_range']
  constructor
  · rintro ⟨j, hj, rfl⟩
    rw [Nat.lt_iff_add_one_le, Nat.le_div_iff_mul_le hstep, Nat.add_mul, Nat.one_mul, Nat.mul_comm] at hj
    refine ⟨by omega, ?_⟩
    rw [Nat.zero_add]
    exact Nat.dvd_mul_right step j
  · rintro ⟨hi, j, rfl⟩
    refine ⟨j, ?_, (Nat.zero_add _).symm⟩
    rw [Nat.lt_iff_add_one_le, Nat.le_div_iff_mul_le hstep, Nat.add_mul, Nat.one_mul, Nat.mul_comm]
    omega

theorem pairwise_everyStride {count step : ℕ} (hstep : 0 < step) : (everyStride count step).Pairwise (· < ·) :=
  List.pairwise_lt_range' step hstep

theorem length_everyStride {count step : ℕ} (hcount : 0 < count) (hstep : 0 < step) :
    (everyStride count step).length = (count - 1) / step + 1 := by
  rw [everyStride, List.length_range', show count + step - 1 = count - 1 + step by omega, Nat.add_div_right _ hstep]

/-- The last sample is reached when the stride divides its index. -/
theorem getLast?_everyStride {count step : ℕ} (hcount : 0 < count) (hstep : 0 < step) (hdvd : step ∣ count - 1) :
    (everyStride count step).getLast? = some (count - 1) := by
  have hlen := length_everyStride hcount hstep
  rw [everyStride, List.length_range'] at hlen
  rw [everyStride, hlen, List.range'_concat, List.getLast?_concat, Nat.zero_add, Nat.mul_div_cancel' hdvd]

theorem getLast?_drawnIndices (count : ℕ) : (drawnIndices count).getLast? = some (count - 1) := by
  rw [drawnIndices]
  split
  · assumption
  · exact List.getLast?_concat

theorem mem_drawnIndices {count i : ℕ} (hcount : 0 < count) : i ∈ drawnIndices count ↔ i < count ∧ Drawn count i := by
  have hmem : i ∈ everyStride count (stride count) ↔ i < count ∧ stride count ∣ i := mem_everyStride (stride_pos count)
  rw [drawnIndices, Drawn]
  split
  · next hlast =>
    have hin : count - 1 ∈ everyStride count (stride count) := List.mem_of_getLast? hlast
    constructor
    · intro hi
      exact ⟨(hmem.mp hi).1, .inl (hmem.mp hi).2⟩
    · rintro ⟨hi, hdvd | rfl⟩
      · exact hmem.mpr ⟨hi, hdvd⟩
      · exact hin
  · rw [List.mem_append, hmem, List.mem_singleton]
    constructor
    · rintro (⟨hi, hdvd⟩ | rfl)
      · exact ⟨hi, .inl hdvd⟩
      · exact ⟨by omega, .inr rfl⟩
    · rintro ⟨hi, hdvd | hlast⟩
      · exact .inl ⟨hi, hdvd⟩
      · exact .inr hlast

theorem pairwise_drawnIndices {count : ℕ} (hcount : 0 < count) : (drawnIndices count).Pairwise (· < ·) := by
  have hsorted : (everyStride count (stride count)).Pairwise (· < ·) := pairwise_everyStride (stride_pos count)
  rw [drawnIndices]
  split
  · exact hsorted
  · next hlast =>
    refine List.pairwise_append.mpr ⟨hsorted, List.pairwise_singleton _ _, fun i hi j hj => ?_⟩
    rw [List.mem_singleton] at hj
    subst hj
    obtain ⟨hlt, hdvd⟩ := (mem_everyStride (stride_pos count)).mp hi
    refine lt_of_le_of_ne (by omega) fun heq => hlast ?_
    exact getLast?_everyStride hcount (stride_pos count) (heq ▸ hdvd)

theorem length_drawnIndices {count : ℕ} (hcount : 0 < count) : (drawnIndices count).length ≤ ghostMaxRenderPoints := by
  have hbound := le_stride_mul count
  have hlen := length_everyStride hcount (stride_pos count)
  have hdiv : (count - 1) / stride count ≤ ghostMaxRenderPoints - 1 := Nat.div_le_of_le_mul hbound
  have hmax : ghostMaxRenderPoints - 1 + 1 = ghostMaxRenderPoints := rfl
  rw [drawnIndices]
  split
  · omega
  · next hlast =>
    rw [List.length_append, List.length_singleton]
    have hne : (count - 1) / stride count ≠ ghostMaxRenderPoints - 1 := by
      refine fun heq => hlast (getLast?_everyStride hcount (stride_pos count) ⟨ghostMaxRenderPoints - 1, ?_⟩)
      have hle := Nat.mul_div_le (count - 1) (stride count)
      rw [heq] at hle
      exact le_antisymm hbound hle
    omega

theorem exists_drawnIndices_eq_cons {count : ℕ} (hcount : 0 < count) :
    ∃ rest, drawnIndices count = 0 :: rest ∧ ∀ i, i ∈ rest ↔ 0 < i ∧ i < count ∧ Drawn count i := by
  have hmem (i : ℕ) := mem_drawnIndices (i := i) hcount
  have hsorted := pairwise_drawnIndices hcount
  have hzero : 0 ∈ drawnIndices count := (hmem 0).mpr ⟨hcount, .inl (dvd_zero _)⟩
  cases hdrawn : drawnIndices count with
  | nil =>
    rw [hdrawn] at hzero
    cases hzero
  | cons j rest =>
    rw [hdrawn] at hzero hsorted hmem
    obtain ⟨hlt, -⟩ := List.pairwise_cons.mp hsorted
    obtain rfl : j = 0 := by
      rcases List.mem_cons.mp hzero with h | h
      · exact h.symm
      · exact absurd (hlt 0 h) (Nat.not_lt_zero j)
    refine ⟨rest, rfl, fun i => ⟨fun hi => ⟨hlt i hi, (hmem i).mp (List.mem_cons_of_mem _ hi)⟩, ?_⟩⟩
    rintro ⟨hpos, hi⟩
    exact (List.mem_cons.mp ((hmem i).mpr hi)).resolve_left hpos.ne'

/-! ### The points -/

theorem filterMap_range_getElem? {α β : Type} (f : α → β) (l : List α) :
    ((List.range l.length).filterMap fun i => l[i]?.map f) = l.map f := by
  induction l with
  | nil => rfl
  | cons a l ih =>
    rw [List.length_cons, List.range_succ_eq_map, List.filterMap_cons, List.filterMap_map, List.map_cons, ← ih]
    rfl

theorem length_pos_of_cons (first : GhostPoint) (others : List GhostPoint) : 0 < (first :: others).length :=
  Nat.succ_pos _

theorem decimate_sublist (paired : List GhostPoint) : (decimateGhostPoints paired).Sublist (paired.map rendered) := by
  cases paired with
  | nil => exact List.nil_sublist _
  | cons first others =>
    have hcount := length_pos_of_cons first others
    rw [← filterMap_range_getElem?]
    refine List.Sublist.filterMap _ ?_
    refine List.sublist_of_subperm_of_pairwise (r := (· < ·)) ?_ (pairwise_drawnIndices hcount) List.pairwise_lt_range
    refine List.Nodup.subperm ((pairwise_drawnIndices hcount).imp ne_of_lt) fun i hi => ?_
    exact List.mem_range.mpr ((mem_drawnIndices hcount).mp hi).1

theorem length_decimate (paired : List GhostPoint) : (decimateGhostPoints paired).length ≤ ghostMaxRenderPoints := by
  cases paired with
  | nil => exact Nat.zero_le _
  | cons first others =>
    exact (List.length_filterMap_le _ _).trans (length_drawnIndices (length_pos_of_cons first others))

theorem getLast?_decimate (paired : List GhostPoint) :
    (decimateGhostPoints paired).getLast? = (paired.map rendered).getLast? := by
  cases paired with
  | nil => rfl
  | cons first others =>
    obtain ⟨initial, hsplit⟩ := List.getLast?_eq_some_iff.mp (getLast?_drawnIndices (first :: others).length)
    have hlast : (first :: others)[(first :: others).length - 1]? = some ((first :: others).getLast (by simp)) := by
      rw [← List.getLast?_eq_getElem?, List.getLast?_eq_some_getLast]
    rw [decimateGhostPoints, hsplit, List.isEmpty_cons, if_neg Bool.false_ne_true, List.filterMap_append,
      List.filterMap_cons_some (by rw [hlast, Option.map_some]), List.filterMap_nil, List.getLast?_concat,
      List.getLast?_map, List.getLast?_eq_some_getLast, Option.map_some]

/-- The points are the first sample and the later ones that are drawn. -/
theorem exists_decimate_eq_cons (first : GhostPoint) (others : List GhostPoint) :
    ∃ tail, decimateGhostPoints (first :: others) = rendered first :: tail ∧
      ∀ p, p ∈ tail ↔ ∃ i q, 0 < i ∧ (first :: others)[i]? = some q ∧ Drawn (first :: others).length i ∧
        rendered q = p := by
  obtain ⟨rest, hdrawn, hrest⟩ := exists_drawnIndices_eq_cons (length_pos_of_cons first others)
  refine ⟨rest.filterMap fun i => (first :: others)[i]?.map rendered, ?_, fun p => ?_⟩
  · rw [decimateGhostPoints, hdrawn, List.isEmpty_cons, if_neg Bool.false_ne_true, List.filterMap_cons_some]
    rfl
  · simp only [List.mem_filterMap, hrest, Option.map_eq_some_iff]
    constructor
    · rintro ⟨i, ⟨hpos, -, hi⟩, q, hq, rfl⟩
      exact ⟨i, q, hpos, hq, hi, rfl⟩
    · rintro ⟨i, q, hpos, hq, hi, rfl⟩
      exact ⟨i, ⟨hpos, (List.getElem?_eq_some_iff.mp hq).1, hi⟩, q, hq, rfl⟩

/-! ### The loop over the seconds -/

/-- The times of the points do not decrease. -/
def Ordered (points : List GhostPoint) : Prop := points.Pairwise fun p q => p.timeS ≤ q.timeS

/-- The point at `i` is the last one whose time is at most `t`. -/
def LastUpTo (points : List GhostPoint) (t : ℚ) (i : ℕ) : Prop :=
  (∃ p, points[i]? = some p ∧ p.timeS ≤ t) ∧ ∀ j p, i < j → points[j]? = some p → t < p.timeS

/-- The loop did not step too far: each point up to `i` is the first one or is not after the target. -/
def Behind (points : List GhostPoint) (target : ℚ) (i : ℕ) : Prop :=
  i < points.length ∧ ∀ j p, points[j]? = some p → j ≤ i → j = 0 ∨ p.timeS ≤ target

/-- The loop stepped over these points exactly. -/
def Passed (points : List GhostPoint) (target : ℚ) (i : ℕ) : Prop :=
  i < points.length ∧ ∀ j p, points[j]? = some p → (j ≤ i ↔ j = 0 ∨ p.timeS ≤ target)

variable {points : List GhostPoint} {target target' : ℚ} {i i' j j' : ℕ} {p q : GhostPoint}

theorem Ordered.le (hordered : Ordered points) (hp : points[j]? = some p) (hq : points[j']? = some q) (h : j ≤ j') :
    p.timeS ≤ q.timeS := by
  obtain ⟨hj, rfl⟩ := List.getElem?_eq_some_iff.mp hp
  obtain ⟨hj', rfl⟩ := List.getElem?_eq_some_iff.mp hq
  rcases h.lt_or_eq with hlt | rfl
  · exact List.pairwise_iff_getElem.mp hordered j j' hj hj' hlt
  · exact le_rfl

theorem Passed.unique (h : Passed points target i) (h' : Passed points target i') : i = i' := by
  have hi := List.getElem?_eq_getElem h.1
  have hi' := List.getElem?_eq_getElem h'.1
  exact le_antisymm ((h'.2 i _ hi).mpr ((h.2 i _ hi).mp le_rfl)) ((h.2 i' _ hi').mpr ((h'.2 i' _ hi').mp le_rfl))

/-- What was passed at an earlier target is behind a later one. -/
theorem Passed.behind (h : Passed points target i) (hle : target ≤ target') : Behind points target' i :=
  ⟨h.1, fun j p hp hj => ((h.2 j p hp).mp hj).imp_right fun ht => ht.trans hle⟩

theorem behind_zero (hne : 0 < points.length) (target : ℚ) : Behind points target 0 :=
  ⟨hne, fun _ _ _ hj => .inl (Nat.le_zero.mp hj)⟩

/-- The inner loop, started behind its target, passes exactly the points up to it. -/
theorem advance_spec (hordered : Ordered points) {rest : List GhostPoint} (hrest : points.drop (i + 1) = rest)
    (h : Behind points target i) : Passed points target (advance target i rest) := by
  induction rest generalizing i with
  | nil =>
    rw [List.drop_eq_nil_iff] at hrest
    refine ⟨h.1, fun j p hp => ⟨h.2 j p hp, fun _ => ?_⟩⟩
    have hj := (List.getElem?_eq_some_iff.mp hp).1
    rw [advance]
    omega
  | cons next rest ih =>
    have hnext : points[i + 1]? = some next := by
      rw [← Nat.add_zero (i + 1), ← List.getElem?_drop, hrest]
      rfl
    have hlen := (List.getElem?_eq_some_iff.mp hnext).1
    rw [advance]
    split
    · next hle =>
      refine ih (by rw [← List.tail_drop, hrest, List.tail_cons]) ⟨hlen, fun j p hp hj => ?_⟩
      rcases Nat.le_succ_iff.mp hj with hj | rfl
      · exact h.2 j p hp hj
      · rw [hnext] at hp
        cases hp
        exact .inr hle
    · next hgt =>
      refine ⟨h.1, fun j p hp => ⟨h.2 j p hp, ?_⟩⟩
      rintro (rfl | hle)
      · exact Nat.zero_le i
      · by_contra hj
        exact hgt ((hordered.le hnext hp (by omega)).trans hle)

/-- Where a loop that starts at the first point ends. -/
def located (points : List GhostPoint) (target : ℚ) : ℕ := advance target 0 (points.drop 1)

theorem passed_located (hordered : Ordered points) (hne : 0 < points.length) (target : ℚ) :
    Passed points target (located points target) :=
  advance_spec hordered rfl (behind_zero hne target)

/-- **The loop that goes on** where it stopped finds what a loop from the start would find. -/
theorem seekEntries_eq (hordered : Ordered points) (startS : ℚ) {offsets : List ℕ} (hoffsets : offsets.Pairwise (· ≤ ·))
    (h : ∀ k ∈ offsets, Behind points (startS + k) i) :
    seekEntries points startS i offsets =
      offsets.map fun k : ℕ => (round6 (startS + k), located points (startS + k)) := by
  induction offsets generalizing i with
  | nil => rfl
  | cons k offsets ih =>
    obtain ⟨hk, htail⟩ := List.pairwise_cons.mp hoffsets
    have hbehind := h k List.mem_cons_self
    have hpassed := advance_spec hordered rfl hbehind
    have hsame := hpassed.unique (passed_located hordered (Nat.zero_lt_of_lt hbehind.1) _)
    rw [seekEntries, List.map_cons, ih htail fun k' hk' => hpassed.behind ?_, hsame]
    exact add_le_add_right (Nat.cast_le.mpr (hk k' hk')) startS

/-! ### Rounded times -/

theorem round6_mono : Monotone round6 := roundTo_mono

theorem round6_add (x : ℚ) (k : ℕ) : round6 (x + k) = round6 x + k := roundTo_add_natCast (by decide) x k

@[simp] theorem round6_round6 (x : ℚ) : round6 (round6 x) = round6 x := roundTo_roundTo x

/-- An entry is right when no later point is printed with the entry's time but was taken for later. -/
theorem lastUpTo_iff {first : GhostPoint} {tail : List GhostPoint} {x : ℚ} {k : ℕ}
    (hfirst : first.timeS = round6 x) (hprinted : ∀ p ∈ tail, round6 p.timeS = p.timeS)
    (h : Passed (first :: tail) (x + k) i) :
    LastUpTo (first :: tail) (round6 (x + k)) i ↔ x < round6 x → ∀ p ∈ tail, p.timeS ≠ round6 (x + k) := by
  have hmem {j : ℕ} {p : GhostPoint} (hp : (first :: tail)[j]? = some p) (hj : j ≠ 0) : p ∈ tail := by
    obtain ⟨j, rfl⟩ := Nat.exists_eq_succ_of_ne_zero hj
    exact List.mem_of_getElem? hp
  have hup : (x + k : ℚ) < round6 (x + k) ↔ x < round6 x := by rw [round6_add, add_lt_add_iff_right]
  constructor
  · rintro ⟨-, hlater⟩ hlt p hp heq
    obtain ⟨j, hj⟩ := List.mem_iff_getElem?.mp hp
    have hj' : (first :: tail)[j + 1]? = some p := hj
    have hle : j + 1 ≤ i := by
      by_contra hgt
      exact absurd heq.le (not_le.mpr (hlater (j + 1) p (not_le.mp hgt) hj'))
    have hreached := ((h.2 (j + 1) p hj').mp hle).resolve_left (Nat.succ_ne_zero j)
    rw [heq] at hreached
    exact absurd (hup.mpr hlt) (not_lt.mpr hreached)
  · intro hnone
    have hi := List.getElem?_eq_getElem h.1
    refine ⟨⟨_, hi, ?_⟩, fun j p hj hp => ?_⟩
    · by_cases h0 : i = 0
      · subst h0
        rw [List.getElem_cons_zero, hfirst]
        exact round6_mono (le_add_of_nonneg_right (Nat.cast_nonneg k))
      · rw [← hprinted _ (hmem hi h0)]
        exact round6_mono (((h.2 i _ hi).mp le_rfl).resolve_left h0)
    · have h0 : j ≠ 0 := Nat.ne_zero_of_lt hj
      by_contra hle
      rw [not_lt, ← hprinted p (hmem hp h0)] at hle
      have hlate : ¬ p.timeS ≤ x + k := fun hle' => absurd ((h.2 j p hp).mpr (.inr hle')) (not_le.mpr hj)
      rcases lt_or_ge x (round6 x) with hlt | hge
      · refine hlate ?_
        rw [← hprinted p (hmem hp h0)]
        refine (roundTo_le_iff_lt (hup.mpr hlt) _).mpr (lt_of_le_of_ne hle ?_)
        change round6 p.timeS ≠ _
        rw [hprinted p (hmem hp h0)]
        exact hnone hlt p (hmem hp h0)
      · refine hlate ?_
        rw [← hprinted p (hmem hp h0)]
        refine (roundTo_le_iff_le ?_ _).mpr hle
        exact not_lt.mp (mt hup.mp (not_lt.mpr hge))

/-! ### Validated samples -/

theorem validateSamples_sorted (math : PyMath) {index : ℕ} {previousT : Option ℚ} {values : List Payload}
    {samples : List CrashSample} (h : validateSamples math index previousT values = .ok samples) :
    samples.Pairwise (fun s s' => s.t < s'.t) ∧ (∀ t ∈ previousT, ∀ s ∈ samples, t < s.t) ∧
      samples.length = values.length := by
  induction values generalizing index previousT samples with
  | nil =>
    obtain rfl : samples = [] := by simpa [validateSamples] using h.symm
    simp
  | cons value values ih =>
    cases value with
    | leaf _ => cases h
    | array _ => cases h
    | object members =>
      rw [validateSamples] at h
      obtain ⟨t, -, h⟩ := bind_eq_ok.mp h
      obtain ⟨accelG, -, h⟩ := bind_eq_ok.mp h
      split at h
      · cases h
      next hprevious =>
        obtain ⟨rest, hrest, h⟩ := bind_eq_ok.mp h
        obtain rfl := pure_eq_ok.mp h
        obtain ⟨hsorted, hafter, hlen⟩ := ih hrest
        have hlater (s : CrashSample) (hs : s ∈ rest) : t < s.t := hafter t rfl s hs
        refine ⟨List.pairwise_cons.mpr ⟨hlater, hsorted⟩, fun t' ht' s hs => ?_, congrArg (· + 1) hlen⟩
        have htt' : t' < t := by
          obtain rfl := Option.mem_def.mp ht'
          simpa using hprevious
        rcases List.mem_cons.mp hs with rfl | hs
        · exact htt'
        · exact htt'.trans (hlater s hs)

/-- Accepted samples are one or more, in strictly increasing order of time. -/
theorem validatedCrashSamples_sorted {math : PyMath} {value : Payload} {samples : List CrashSample}
    (h : validatedCrashSamples math value = .ok samples) :
    samples ≠ [] ∧ samples.Pairwise fun s s' => s.t < s'.t := by
  match value, h with
  | .array (value :: values), h =>
    rw [validatedCrashSamples] at h
    split at h
    · cases h
    obtain ⟨samples', hsamples, h⟩ := bind_eq_ok.mp h
    split at h
    · cases h
    obtain rfl := pure_eq_ok.mp h
    obtain ⟨hsorted, -, hlen⟩ := validateSamples_sorted math hsamples
    refine ⟨List.ne_nil_of_length_pos ?_, hsorted⟩
    rw [hlen]
    exact Nat.succ_pos _

/-- Both positions of the sample are there. -/
def Paired (math : PyMath) (sample : CrashSample) : Prop :=
  (actualPosition math sample).isSome ∧ (predictedPosition math sample).isSome

theorem Paired.pair {math : PyMath} {sample : CrashSample} (h : Paired math sample) :
    ∃ p, pair math sample = some p ∧ p.timeS = sample.t := by
  obtain ⟨actual, hactual⟩ := Option.isSome_iff_exists.mp h.1
  obtain ⟨predicted, hpredicted⟩ := Option.isSome_iff_exists.mp h.2
  rw [Maintenance.pair, hactual, hpredicted]
  exact ⟨_, rfl, rfl⟩

/-- Samples with both positions all become points, at their times. -/
theorem map_timeS_pairs {math : PyMath} {samples : List CrashSample} (h : ∀ s ∈ samples, Paired math s) :
    (samples.filterMap (pair math)).map GhostPoint.timeS = samples.map CrashSample.t := by
  induction samples with
  | nil => rfl
  | cons s samples ih =>
    obtain ⟨hs, htail⟩ := List.forall_mem_cons.mp h
    obtain ⟨p, hp, ht⟩ := hs.pair
    rw [List.filterMap_cons_some hp, List.map_cons, List.map_cons, ih htail, ht]

/-! ### The index -/

/-- The index is as its reader needs it: each entry has the last point up to its time, the times increase, and the
last entry has the end of the recording and the last point. -/
structure SeekRight (points : List GhostPoint) (endS : ℚ) (index : List (ℚ × ℕ)) : Prop where
  entries : ∀ e ∈ index, LastUpTo points e.1 e.2
  increasing : (index.map Prod.fst).Pairwise (· < ·)
  covers : ∃ e, index.getLast? = some e ∧ e.1 = round6 endS ∧ e.2 + 1 = points.length

/-- The entries of the whole seconds from the start on. -/
def secondEntries (points : List GhostPoint) (startS : ℚ) (wholeSeconds : ℕ) : List (ℚ × ℕ) :=
  (List.range (wholeSeconds + 1)).map fun k : ℕ => (round6 (startS + k), located points (startS + k))

theorem getLast?_secondEntries (points : List GhostPoint) (startS : ℚ) (wholeSeconds : ℕ) :
    (secondEntries points startS wholeSeconds).getLast? =
      some (round6 (startS + wholeSeconds), located points (startS + wholeSeconds)) := by
  rw [secondEntries, List.range_succ, List.map_append, List.map_singleton, List.getLast?_concat]

theorem pairwise_secondEntries (points : List GhostPoint) (startS : ℚ) (wholeSeconds : ℕ) :
    ((secondEntries points startS wholeSeconds).map Prod.fst).Pairwise (· < ·) := by
  rw [secondEntries, List.map_map, List.pairwise_map]
  refine List.pairwise_lt_range.imp fun {k k'} hlt => ?_
  change round6 (startS + k) < round6 (startS + k')
  rw [round6_add, round6_add, add_lt_add_iff_left, Nat.cast_lt]
  exact hlt

theorem mem_secondEntries {startS : ℚ} {wholeSeconds : ℕ} {e : ℚ × ℕ} :
    e ∈ secondEntries points startS wholeSeconds ↔
      ∃ k ≤ wholeSeconds, e = (round6 (startS + k), located points (startS + k)) := by
  simp only [secondEntries, List.mem_map, List.mem_range, Nat.lt_succ_iff, eq_comm]

/-- The whole seconds of a recording are a number of seconds, and no further one fits. -/
theorem exists_wholeSeconds {startS endS : ℚ} (hle : startS ≤ endS) :
    ∃ w : ℕ, ⌊endS - startS⌋ = w ∧ ∀ k : ℕ, startS + k ≤ endS ↔ k ≤ w := by
  obtain ⟨w, hw⟩ := Int.eq_ofNat_of_zero_le (Int.floor_nonneg.mpr (sub_nonneg.mpr hle))
  refine ⟨w, hw, fun k => ?_⟩
  have hfloor : ((k : ℤ) : ℚ) ≤ endS - startS ↔ (k : ℤ) ≤ ⌊endS - startS⌋ := Int.le_floor.symm
  rw [hw, Int.cast_natCast, le_sub_iff_add_le'] at hfloor
  rw [hfloor]
  exact Int.ofNat_le

theorem ghostSeekIndex_eq (hordered : Ordered points) (hne : 0 < points.length) {startS endS : ℚ} {w : ℕ}
    (hw : ⌊endS - startS⌋ = w) :
    ghostSeekIndex points startS endS = secondEntries points startS w ++
      (if round6 (startS + w) < endS then [(round6 endS, points.length - 1)] else []) := by
  have hoffsets : (List.range (w + 1)).Pairwise (· ≤ ·) := List.pairwise_lt_range.imp le_of_lt
  have hentries := seekEntries_eq hordered startS hoffsets fun k _ => behind_zero hne _
  have hlast := getLast?_secondEntries points startS w
  rw [secondEntries] at hlast ⊢
  rw [ghostSeekIndex, hw, show ((w : ℤ) + 1).toNat = w + 1 from rfl, hentries, hlast]
  simp only [Option.all_some, decide_eq_true_eq]
  split
  · rfl
  · rw [List.append_nil]

/-- **The index is right** exactly when no later point is printed with a whole second that was rounded up, and the
end is not printed as a whole second that was rounded down. -/
theorem seekRight_iff {first : GhostPoint} {tail : List GhostPoint} (hordered : Ordered (first :: tail))
    {startS endS : ℚ} (hle : startS ≤ endS) (hfirst : first.timeS = round6 startS)
    (hprinted : ∀ p ∈ tail, round6 p.timeS = p.timeS)
    (hlast : ∃ p, (first :: tail).getLast? = some p ∧ p.timeS = round6 endS) :
    SeekRight (first :: tail) endS (ghostSeekIndex (first :: tail) startS endS) ↔
      (∀ k : ℕ, startS + k ≤ endS → startS < round6 startS → ∀ p ∈ tail, p.timeS ≠ round6 (startS + k)) ∧
        ∀ k : ℕ, startS + k ≤ endS → round6 endS = round6 (startS + k) → endS ≤ round6 endS := by
  have hne := length_pos_of_cons first tail
  obtain ⟨w, hw, hfits⟩ := exists_wholeSeconds hle
  have hright (k : ℕ) := lastUpTo_iff hfirst hprinted (passed_located hordered hne (startS + k))
  have hend : round6 (startS + w) ≤ round6 endS := round6_mono ((hfits w).mpr le_rfl)
  rw [ghostSeekIndex_eq hordered hne hw]
  constructor
  · rintro ⟨hentries, hincreasing, -⟩
    refine ⟨fun k hk => ?_, fun k hk heq => ?_⟩
    · refine (hright k).mp (hentries _ (List.mem_append_left _ (mem_secondEntries.mpr ⟨k, (hfits k).mp hk, rfl⟩)))
    · by_contra hlt
      rw [not_le] at hlt
      obtain rfl : k = w := by
        refine le_antisymm ((hfits k).mp hk) ?_
        rw [heq, round6_add, round6_add, add_le_add_iff_left, Nat.cast_le] at hend
        exact hend
      rw [if_pos (heq ▸ hlt), List.map_append, List.pairwise_append] at hincreasing
      refine absurd (hincreasing.2.2 (round6 (startS + k)) ?_ (round6 endS) (by simp)) (not_lt.mpr heq.le)
      exact List.mem_map_of_mem (f := Prod.fst) (mem_secondEntries.mpr ⟨k, le_rfl, rfl⟩)
  · rintro ⟨hpoints, hfinish⟩
    obtain ⟨last, hlast, htime⟩ := hlast
    rw [List.getLast?_eq_getElem?] at hlast
    have hentries (e : ℚ × ℕ) (he : e ∈ secondEntries (first :: tail) startS w) :
        LastUpTo (first :: tail) e.1 e.2 := by
      obtain ⟨k, hk, rfl⟩ := mem_secondEntries.mp he
      exact (hright k).mpr (hpoints k ((hfits k).mpr hk))
    by_cases hshort : round6 (startS + w) < endS
    · have hlater : round6 (startS + w) < round6 endS := by
        refine lt_of_le_of_ne hend fun heq => ?_
        exact absurd (hfinish w ((hfits w).mpr le_rfl) heq.symm) (not_le.mpr (heq ▸ hshort))
      rw [if_pos hshort]
      refine ⟨fun e he => ?_, ?_, ⟨_, List.getLast?_concat, rfl, Nat.sub_add_cancel hne⟩⟩
      · rcases List.mem_append.mp he with he | he
        · exact hentries e he
        · obtain rfl := List.mem_singleton.mp he
          refine ⟨⟨last, hlast, htime.le⟩, fun j p hj hp => ?_⟩
          have := (List.getElem?_eq_some_iff.mp hp).1
          dsimp only at hj
          omega
      · rw [List.map_append, List.pairwise_append]
        refine ⟨pairwise_secondEntries _ _ _, List.pairwise_singleton _ _, fun t ht t' ht' => ?_⟩
        obtain ⟨e, he, rfl⟩ := List.mem_map.mp ht
        obtain ⟨k, hk, rfl⟩ := mem_secondEntries.mp he
        obtain rfl : t' = round6 endS := by simpa using ht'
        refine lt_of_le_of_lt (round6_mono ?_) hlater
        exact add_le_add_right (Nat.cast_le.mpr hk) startS
    · have heq : round6 (startS + w) = round6 endS := by
        refine le_antisymm hend ?_
        rw [← round6_round6 (startS + w)]
        exact round6_mono (not_lt.mp hshort)
      rw [if_neg hshort, List.append_nil]
      refine ⟨hentries, pairwise_secondEntries _ _ _, _, getLast?_secondEntries _ _ _, heq, ?_⟩
      obtain ⟨⟨p, hp, -⟩, hlater⟩ := hentries _ (List.mem_of_getLast? (getLast?_secondEntries _ _ _))
      have hin := (List.getElem?_eq_some_iff.mp hp).1
      by_contra hmore
      have hbefore := hlater _ last (by dsimp only at hin ⊢; omega) hlast
      rw [htime] at hbefore
      exact absurd heq hbefore.ne

/-! ### The overlay of a recording -/

/-- The points are a bounded selection of the samples in order of time, with the first and the last one, and the index
is right. -/
structure Spans (math : PyMath) (samples : List CrashSample) : Prop where
  count : (ghostOverlay math samples).points.length ≤ ghostMaxRenderPoints
  head : (ghostOverlay math samples).points.head? = ((samples.filterMap (pair math)).map rendered).head?
  last : (ghostOverlay math samples).points.getLast? = ((samples.filterMap (pair math)).map rendered).getLast?
  selection : (ghostOverlay math samples).points.Sublist ((samples.filterMap (pair math)).map rendered)
  ordered : Ordered (ghostOverlay math samples).points
  index : SeekRight (ghostOverlay math samples).points (endOf samples) (ghostOverlay math samples).seekIndex

/-- Where the start of the recording is rounded up, no later sample that is drawn is printed with a time that is a
whole number of seconds after the start; and an end that is printed with such a time is not rounded down. -/
structure Aligned (samples : List CrashSample) : Prop where
  start : ∀ k : ℕ, startOf samples + k ≤ endOf samples → startOf samples < round6 (startOf samples) →
    ∀ i s, 0 < i → samples[i]? = some s → Drawn samples.length i → round6 s.t ≠ round6 (startOf samples + k)
  finish : ∀ k : ℕ, startOf samples + k ≤ endOf samples → round6 (endOf samples) = round6 (startOf samples + k) →
    endOf samples ≤ round6 (endOf samples)

theorem ordered_rendered {samples : List CrashSample} {paired : List GhostPoint}
    (hsorted : samples.Pairwise fun s s' => s.t < s'.t)
    (htimes : paired.map GhostPoint.timeS = samples.map CrashSample.t) : Ordered (paired.map rendered) := by
  have hpairs : (paired.map GhostPoint.timeS).Pairwise (· < ·) := by rwa [htimes, List.pairwise_map]
  rw [Ordered, List.pairwise_map]
  exact (List.pairwise_map.mp hpairs).imp fun hlt => round6_mono hlt.le

theorem startOf_le_endOf {samples : List CrashSample} (hne : samples ≠ [])
    (hsorted : samples.Pairwise fun s s' => s.t < s'.t) : startOf samples ≤ endOf samples := by
  cases samples with
  | nil => exact absurd rfl hne
  | cons s samples =>
    obtain ⟨hlater, -⟩ := List.pairwise_cons.mp hsorted
    rw [startOf, endOf, List.getLast?_eq_some_getLast hne]
    rcases List.mem_cons.mp (List.getLast_mem hne) with heq | hmem
    · rw [heq]
      exact le_rfl
    · exact (hlater _ hmem).le

/-- The later points have the printed times of the later samples that are drawn. -/
theorem forall_tail_iff {samples : List CrashSample} {paired tail : List GhostPoint}
    (htimes : paired.map GhostPoint.timeS = samples.map CrashSample.t)
    (htail : ∀ p, p ∈ tail ↔ ∃ i q, 0 < i ∧ paired[i]? = some q ∧ Drawn paired.length i ∧ rendered q = p) (x : ℚ) :
    (∀ p ∈ tail, p.timeS ≠ x) ↔
      ∀ i s, 0 < i → samples[i]? = some s → Drawn samples.length i → round6 s.t ≠ x := by
  have hlen : paired.length = samples.length := by simpa using congrArg List.length htimes
  have hat (i : ℕ) : paired[i]?.map GhostPoint.timeS = samples[i]?.map CrashSample.t := by
    rw [← List.getElem?_map, htimes, List.getElem?_map]
  constructor
  · intro h i s hpos hs hdrawn
    have hq := hat i
    rw [hs, Option.map_some, Option.map_eq_some_iff] at hq
    obtain ⟨q, hq, ht⟩ := hq
    rw [← ht]
    exact h (rendered q) ((htail _).mpr ⟨i, q, hpos, hq, hlen ▸ hdrawn, rfl⟩)
  · intro h p hp
    obtain ⟨i, q, hpos, hq, hdrawn, rfl⟩ := (htail p).mp hp
    have hs := (hat i).symm
    rw [hq, Option.map_some, Option.map_eq_some_iff] at hs
    obtain ⟨s, hs, ht⟩ := hs
    change round6 q.timeS ≠ x
    rw [← ht]
    exact h i s hpos hs (hlen ▸ hdrawn)

/-- The end is the time of the last point, before it is printed. -/
theorem exists_getLast?_rendered {samples : List CrashSample} {paired : List GhostPoint} (hne : samples ≠ [])
    (htimes : paired.map GhostPoint.timeS = samples.map CrashSample.t) :
    ∃ p, (paired.map rendered).getLast? = some p ∧ p.timeS = round6 (endOf samples) := by
  have hlast := congrArg List.getLast? htimes
  rw [List.getLast?_map, List.getLast?_map, List.getLast?_eq_some_getLast hne, Option.map_some,
    Option.map_eq_some_iff] at hlast
  obtain ⟨q, hq, ht⟩ := hlast
  refine ⟨rendered q, by rw [List.getLast?_map, hq, Option.map_some], ?_⟩
  rw [endOf, List.getLast?_eq_some_getLast hne, Option.map_some, Option.getD_some, ← ht]
  rfl

theorem ghostOverlay_points {math : PyMath} {samples : List CrashSample}
    (hlen : (samples.filterMap (pair math)).length = samples.length) :
    (ghostOverlay math samples).points = decimateGhostPoints (samples.filterMap (pair math)) := by
  simp only [ghostOverlay, hlen, if_true]

theorem ghostOverlay_seekIndex {math : PyMath} {samples : List CrashSample}
    (hne : (ghostOverlay math samples).points ≠ []) :
    (ghostOverlay math samples).seekIndex =
      ghostSeekIndex (ghostOverlay math samples).points (startOf samples) (endOf samples) :=
  if_neg (by rwa [List.isEmpty_iff])

/-- **Key result**: of accepted samples with both positions, the overlay is right exactly when they are aligned. -/
theorem spans_iff (math : PyMath) (value : Payload) (samples : List CrashSample)
    (hvalid : validatedCrashSamples math value = .ok samples) (hpaired : ∀ s ∈ samples, Paired math s) :
    Spans math samples ↔ Aligned samples := by
  obtain ⟨hne, hsorted⟩ := validatedCrashSamples_sorted hvalid
  have htimes := map_timeS_pairs hpaired
  have hlen : (samples.filterMap (pair math)).length = samples.length := by
    simpa using congrArg List.length htimes
  have hpoints := ghostOverlay_points hlen
  have hordered : Ordered (decimateGhostPoints (samples.filterMap (pair math))) :=
    (ordered_rendered hsorted htimes).sublist (decimate_sublist _)
  have hlast := getLast?_decimate (samples.filterMap (pair math))
  obtain ⟨final, hfinal, hfinalTime⟩ := exists_getLast?_rendered hne htimes
  cases hpairs : samples.filterMap (pair math) with
  | nil => exact absurd (List.eq_nil_of_length_eq_zero (by rw [← hlen, hpairs, List.length_nil])) hne
  | cons first others =>
    obtain ⟨tail, hcons, htail⟩ := exists_decimate_eq_cons first others
    rw [hpairs] at htimes hpoints hordered hlast hfinal
    rw [hcons] at hpoints hordered hlast
    have hseek := ghostOverlay_seekIndex (by rw [hpoints]; exact List.cons_ne_nil _ _)
    rw [hpoints] at hseek
    have hfirst : (rendered first).timeS = round6 (startOf samples) := by
      have hhead := congrArg List.head? htimes
      rw [List.head?_map, List.head?_map] at hhead
      rw [startOf, ← hhead]
      rfl
    have hprinted : ∀ p ∈ tail, round6 p.timeS = p.timeS := by
      intro p hp
      obtain ⟨i, q, -, -, -, rfl⟩ := (htail p).mp hp
      exact round6_round6 q.timeS
    have hright := seekRight_iff hordered (startOf_le_endOf hne hsorted) hfirst hprinted
      ⟨final, hlast.trans hfinal, hfinalTime⟩
    have hselection := decimate_sublist (first :: others)
    have hcount := length_decimate (first :: others)
    rw [hcons] at hselection hcount
    constructor
    · intro h
      have hindex := h.index
      rw [hpoints, hseek, hright] at hindex
      exact ⟨fun k hk hlt => (forall_tail_iff htimes htail _).mp (hindex.1 k hk hlt), hindex.2⟩
    · intro h
      refine ⟨?_, ?_, ?_, ?_, ?_, ?_⟩
      · rwa [hpoints]
      · rw [hpoints, hpairs]
        rfl
      · rw [hpoints, hpairs, hlast]
      · rwa [hpoints, hpairs]
      · rwa [hpoints]
      · rw [hpoints, hseek, hright]
        exact ⟨fun k hk hlt => (forall_tail_iff htimes htail _).mpr (h.start k hk hlt), h.finish⟩

/-! ### Two samples a second apart -/

/-- An interpreter for payloads without texts, and positions that agree. -/
def plainMath : PyMath where
  floatOfText _ := none
  sqrt x := x

def plainNumber (x : ℚ) : Payload := .leaf (.number (.finite x))

def origin : Payload := .array [plainNumber 0, plainNumber 0, plainNumber 0]

/-- A sample as it arrives: at the origin, where it was predicted. -/
def arrived (t : ℚ) : List (String × Payload) :=
  [("t", plainNumber t), ("positionM", origin), ("ghostPositionM", origin)]

def sampleAt (t : ℚ) : CrashSample where
  members := arrived t
  t
  accelG := 0

/-- A payload with two samples. -/
def twoArrived (t t' : ℚ) : Payload := .array [.object (arrived t), .object (arrived t')]

theorem paired_sampleAt (t : ℚ) : Paired plainMath (sampleAt t) := ⟨rfl, rfl⟩

theorem paired_two (t t' : ℚ) : ∀ s ∈ [sampleAt t, sampleAt t'], Paired plainMath s := by
  simp [paired_sampleAt]

theorem boundedFinite_plainNumber {x minimum maximum : ℚ} (label : String) (hmin : minimum ≤ x) (hmax : x ≤ maximum) :
    boundedFinite plainMath (plainNumber x) label minimum maximum = .ok x :=
  if_neg (not_or.mpr ⟨not_lt.mpr hmin, not_lt.mpr hmax⟩)

/-- One turn of the loop over such samples. -/
theorem validateSamples_arrived {t : ℚ} (h0 : 0 ≤ t) (hmax : t ≤ 10 ^ 12) {previousT : Option ℚ}
    (hprevious : previousT.any (t ≤ ·) = false) (index : ℕ) (rest : List Payload) :
    validateSamples plainMath index previousT (.object (arrived t) :: rest) =
      (validateSamples plainMath (index + 1) (some t) rest).map (sampleAt t :: ·) := by
  have ht : boundedFinite plainMath (get "t" (.leaf .null) (arrived t)) s!"samples[{index}].t" 0 (10 ^ 12) = .ok t :=
    boundedFinite_plainNumber _ h0 hmax
  have haccel : boundedFinite plainMath (get "accelG" (.leaf (.number (.finite 0))) (arrived t))
      s!"samples[{index}].accelG" 0 1000 = .ok 0 := boundedFinite_plainNumber _ le_rfl (by norm_num)
  rw [validateSamples, ht, haccel]
  simp only [bind, Except.bind, hprevious, Bool.false_eq_true, if_false]
  cases validateSamples plainMath (index + 1) (some t) rest <;> rfl

theorem validateSamples_times {ts : List ℚ} (hbounds : ∀ t ∈ ts, 0 ≤ t ∧ t ≤ 10 ^ 12) (hsorted : ts.Pairwise (· < ·))
    {previousT : Option ℚ} (hprevious : ∀ t ∈ ts, previousT.any (t ≤ ·) = false) (index : ℕ) :
    validateSamples plainMath index previousT (ts.map fun t => .object (arrived t)) = .ok (ts.map sampleAt) := by
  induction ts generalizing index previousT with
  | nil => rfl
  | cons t ts ih =>
    obtain ⟨hlater, hrest⟩ := List.pairwise_cons.mp hsorted
    rw [List.map_cons, validateSamples_arrived (hbounds t List.mem_cons_self).1 (hbounds t List.mem_cons_self).2
      (hprevious t List.mem_cons_self), ih (fun a ha => hbounds a (List.mem_cons_of_mem _ ha)) hrest
      fun a ha => by simpa using hlater a ha]
    rfl

/-- Samples at such times are accepted. -/
theorem validated_times {ts : List ℚ} (hne : ts ≠ []) (hcount : ts.length ≤ ghostMaxSourceSamples)
    (hbounds : ∀ t ∈ ts, 0 ≤ t ∧ t ≤ 10 ^ 12) (hsorted : ts.Pairwise (· < ·)) (hshort : ∀ t ∈ ts, ∀ t' ∈ ts, t' - t ≤ 600) :
    validatedCrashSamples plainMath (.array (ts.map fun t => .object (arrived t))) = .ok (ts.map sampleAt) := by
  have hloop := @validateSamples_times ts hbounds hsorted none (fun _ _ => rfl) 0
  have hduration : ¬ ghostMaxDurationS + 1 / 10 ^ 9 < endOf (ts.map sampleAt) - startOf (ts.map sampleAt) := by
    have hstart : startOf (ts.map sampleAt) ∈ ts := by
      simp [startOf, List.head?_eq_some_head hne, sampleAt]
    have hend : endOf (ts.map sampleAt) ∈ ts := by
      simp [endOf, List.getLast?_eq_some_getLast hne, sampleAt]
    have hspan := hshort _ hstart _ hend
    rw [ghostMaxDurationS, not_lt]
    linarith
  cases ts with
  | nil => exact absurd rfl hne
  | cons t ts =>
    have hmany : ¬ ghostMaxSourceSamples < ((t :: ts).map fun t => (.object (arrived t) : Payload)).length := by
      simpa using hcount
    rw [List.map_cons] at hmany hloop ⊢
    rw [validatedCrashSamples, if_neg hmany, hloop]
    simp only [bind, Except.bind, if_neg hduration]
    rfl

theorem validated_twoArrived {t t' : ℚ} (h0 : 0 ≤ t) (hlt : t < t') (hmax : t' ≤ 10 ^ 12) (hshort : t' - t ≤ 600) :
    validatedCrashSamples plainMath (twoArrived t t') = .ok [sampleAt t, sampleAt t'] := by
  refine @validated_times [t, t'] (List.cons_ne_nil _ _) (by simp [ghostMaxSourceSamples]) ?_ (by simpa using hlt) ?_
  · simp only [List.forall_mem_cons, List.not_mem_nil, false_imp_iff, implies_true, and_true]
    exact ⟨⟨h0, hlt.le.trans hmax⟩, h0.trans hlt.le, hmax⟩
  · simp only [List.forall_mem_cons, List.not_mem_nil, false_imp_iff, implies_true, and_true]
    exact ⟨⟨by linarith, hshort⟩, by linarith, by linarith⟩

/-- The times of a flight, a ten-millionth of a second off the microseconds. -/
def flightTime (i : ℕ) : ℚ := (7 + 12345 * i) / 10 ^ 7

def flight : List CrashSample := ((List.range 9001).map flightTime).map sampleAt

/-- No sample of the flight but the first is printed a whole number of seconds after it. -/
theorem round6_flightTime_ne {i k : ℕ} (hi : 0 < i) (hlast : i ≤ 9000) :
    round6 (flightTime i) ≠ round6 (flightTime 0 + k) := by
  intro heq
  have hsample := abs_le.mp (abs_roundTo_sub_le 6 (flightTime i))
  have hsecond := abs_le.mp (abs_roundTo_sub_le 6 (flightTime 0 + k))
  change _ ≤ round6 (flightTime i) - _ ∧ round6 (flightTime i) - _ ≤ _ at hsample
  change _ ≤ round6 (flightTime 0 + k) - _ ∧ round6 (flightTime 0 + k) - _ ≤ _ at hsecond
  rw [heq] at hsample
  simp only [flightTime, Nat.cast_zero, mul_zero, add_zero] at hsample hsecond
  have hle : (12345 * i : ℚ) ≤ 10 ^ 7 * k + 10 := by linarith [hsample.1, hsecond.2]
  have hge : (10 ^ 7 * k : ℚ) ≤ 12345 * i + 10 := by linarith [hsample.2, hsecond.1]
  have hle : 12345 * i ≤ 10 ^ 7 * k + 10 := by exact_mod_cast hle
  have hge : 10 ^ 7 * k ≤ 12345 * i + 10 := by exact_mod_cast hge
  have hk : k ≤ 11 := by omega
  interval_cases k <;> omega

theorem startOf_flight : startOf flight = flightTime 0 := by
  simp [startOf, flight, List.head?_range, sampleAt]

theorem endOf_flight : endOf flight = flightTime 9000 := by
  simp [endOf, flight, List.getLast?_range, sampleAt]

theorem aligned_flight : Aligned flight := by
  constructor
  · intro k _ _ i s hi hs _
    rw [flight, List.getElem?_map, List.getElem?_map, Option.map_map, Option.map_eq_some_iff] at hs
    obtain ⟨j, hj, rfl⟩ := hs
    obtain ⟨hlt, hindex⟩ := List.getElem?_eq_some_iff.mp hj
    rw [List.getElem_range] at hindex
    subst hindex
    rw [List.length_range] at hlt
    rw [startOf_flight]
    exact round6_flightTime_ne hi (by omega)
  · intro k _ heq
    rw [startOf_flight, endOf_flight] at heq
    exact absurd heq (round6_flightTime_ne (by decide) le_rfl)

/-- Nine thousand samples, of which every second one is drawn; the first one is printed late. -/
theorem spans_iff_flight :
    Spans plainMath flight ∧ stride flight.length = 2 ∧ startOf flight < round6 (startOf flight) := by
  have hlt {i j : ℕ} (h : i < j) : flightTime i < flightTime j := by
    have hcast : (i : ℚ) < j := Nat.cast_lt.mpr h
    rw [flightTime, flightTime]
    linarith
  have hbounds : ∀ t ∈ (List.range 9001).map flightTime, 0 ≤ t ∧ t ≤ 12 := by
    intro t ht
    obtain ⟨i, hi, rfl⟩ := List.mem_map.mp ht
    have hi : (i : ℚ) ≤ 9000 := by exact_mod_cast Nat.lt_succ_iff.mp (List.mem_range.mp hi)
    have hpos : (0 : ℚ) ≤ i := Nat.cast_nonneg i
    rw [flightTime]
    constructor <;> linarith
  have hvalid := @validated_times ((List.range 9001).map flightTime) (by simp) (by simp [ghostMaxSourceSamples])
    (fun t ht => ⟨(hbounds t ht).1, (hbounds t ht).2.trans (by norm_num)⟩)
    (List.pairwise_map.mpr (List.pairwise_lt_range.imp hlt))
    fun t ht t' ht' => by linarith [(hbounds t ht).1, (hbounds t' ht').2]
  refine ⟨(spans_iff plainMath _ flight hvalid ?_).mpr aligned_flight, ?_, ?_⟩
  · intro s hs
    obtain ⟨t, -, rfl⟩ := List.mem_map.mp hs
    exact paired_sampleAt t
  · simp only [flight, List.length_map, List.length_range, stride, ghostMaxRenderPoints]
    have hceil : ⌈((9001 - 1 : ℕ) : ℚ) / (6001 - 1 : ℕ)⌉₊ = 2 := (Nat.ceil_eq_iff (by decide)).mpr (by norm_num)
    rw [hceil]
    rfl
  · rw [startOf_flight]
    decide +kernel

/-- Both samples are printed a little late; the second entry has the time of the last point, and misses it. -/
theorem seekIndex_misses_last :
    ¬ ∀ (math : PyMath) (value : Payload) (samples : List CrashSample),
      validatedCrashSamples math value = .ok samples → (∀ s ∈ samples, Paired math s) → Spans math samples := by
  intro h
  have hspans := h plainMath (twoArrived (1234567 / 10 ^ 7) (11234567 / 10 ^ 7))
    [sampleAt (1234567 / 10 ^ 7), sampleAt (11234567 / 10 ^ 7)]
    (validated_twoArrived (by norm_num) (by norm_num) (by norm_num) (by norm_num)) (paired_two _ _)
  have hindex : (ghostOverlay plainMath [sampleAt (1234567 / 10 ^ 7), sampleAt (11234567 / 10 ^ 7)]).seekIndex =
      [(123457 / 10 ^ 6, 0), (1123457 / 10 ^ 6, 0)] := by decide +kernel
  have hcount : (ghostOverlay plainMath [sampleAt (1234567 / 10 ^ 7), sampleAt (11234567 / 10 ^ 7)]).points.length =
      2 := by decide +kernel
  obtain ⟨e, he, -, hlast⟩ := hspans.index.covers
  rw [hindex] at he
  obtain rfl := Option.some.inj he
  rw [hcount] at hlast
  exact absurd hlast (by decide)

end Forge.Maintenance
