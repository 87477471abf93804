import Forge.Sim.Bench

/-!
# The grid of the trainer

The trainer reads the points of a bench table again, from the bundle (`bundle.py`): `_catalog_grid`
accepts a full grid whose throttles run from zero to one, and keeps the points by their
coordinates; `_grid_lookup` interpolates between them. Numbers are exact here.
-/

namespace Forge.Training

open Sim

/-- The cells of a grid, by voltage and throttle, in the order in which they were entered. -/
abbrev Cells : Type := List ((ℚ × ℚ) × (ℚ × ℚ))

/-- A catalog grid: its axes, and thrust and current in its cells. -/
structure Grid where
  voltages : List ℚ
  throttles : List ℚ
  cells : Cells

/-- The turn of the loop over the points. -/
def gridPoint (cells : Cells) (point : ThrustPoint ℚ) : Except String Cells :=
  if point.voltage ≤ 0 then .error "voltageV must be positive and finite"
  else if 1000 < point.voltage ∨ ¬ (0 ≤ point.throttle ∧ point.throttle ≤ 1) ∨
      ¬ (0 ≤ point.thrustN ∧ point.thrustN ≤ 1000000) ∨ ¬ (0 ≤ point.currentA ∧ point.currentA ≤ 1000000) then
    .error "catalog training thrust-table point is outside bounds"
  else if (point.voltage, point.throttle) ∈ cells.map Prod.fst then
    .error "catalog training thrust-table coordinate is duplicated"
  else .ok (cells ++ [((point.voltage, point.throttle), (point.thrustN, point.currentA))])

/-- `sorted({...})` -/
def sortedSet (values : List ℚ) : List ℚ := values.dedup.insertionSort (· ≤ ·)

/-- The turns of the loop over the throttles at one voltage. -/
def monotonicRow (cells : Cells) (voltage : ℚ) : List ℚ → ℚ → ℚ → Except String Unit
  | [], _, _ => .ok ()
  | throttle :: throttles, previousThrust, previousCurrent =>
    match cells.lookup (voltage, throttle) with
    | none => .error "catalog training thrust table is not a complete rectangular grid"
    | some values =>
      if values.1 < previousThrust ∨ values.2 < previousCurrent then
        .error "catalog training thrust table is not monotonic"
      else monotonicRow cells voltage throttles values.1 values.2

/-- `_catalog_grid` -/
def catalogGrid (points : List (ThrustPoint ℚ)) (pointCount : ℕ) : Except String Grid :=
  if points.length ≠ pointCount then .error "catalog training thrust-table point count drifted"
  else do
    let cells ← points.foldlM gridPoint []
    let voltages := sortedSet (cells.map fun cell => cell.1.1)
    let throttles := sortedSet (cells.map fun cell => cell.1.2)
    if voltages = [] ∨ throttles = [] ∨ throttles.head? ≠ some 0 ∨ throttles.getLast? ≠ some 1 ∨
        voltages.length * throttles.length ≠ cells.length then
      .error "catalog training thrust table is not a complete rectangular grid"
    else do
      voltages.forM fun voltage => monotonicRow cells voltage throttles (-1) (-1)
      pure { voltages, throttles, cells }

/-- `_grid_bracket` -/
def gridBracket (axis : List ℚ) (value : ℚ) : ℕ × ℚ :=
  if value ≤ axis.headD 0 then (0, 0)
  else if axis.getLastD 0 ≤ value then (axis.length - 1, 0)
  else
    match (List.range (axis.length - 1)).find? fun index => value < axis.getD (index + 1) 0 with
    | some index => (index, (value - axis.getD index 0) / (axis.getD (index + 1) 0 - axis.getD index 0))
    | none => (axis.length - 1, 0)

/-- The cell at two indices, which must be there. -/
def Grid.cell (grid : Grid) (voltageIndex throttleIndex : ℕ) : Option (ℚ × ℚ) :=
  grid.cells.lookup (grid.voltages.getD voltageIndex 0, grid.throttles.getD throttleIndex 0)

/-- `interpolate`: of one field of the four cells. -/
def interpolateField (field : ℚ × ℚ → ℚ) (voltageFraction throttleFraction : ℚ)
    (low lowNext high highNext : ℚ × ℚ) : ℚ :=
  let lowVoltage := field low * (1 - throttleFraction) + field lowNext * throttleFraction
  let highVoltage := field high * (1 - throttleFraction) + field highNext * throttleFraction
  lowVoltage * (1 - voltageFraction) + highVoltage * voltageFraction

/-- `_grid_lookup` -/
def gridLookup (grid : Grid) (voltage throttle : ℚ) : Option (ℚ × ℚ) :=
  let v := gridBracket grid.voltages voltage
  let t := gridBracket grid.throttles throttle
  let nextVoltage := min (v.1 + 1) (grid.voltages.length - 1)
  let nextThrottle := min (t.1 + 1) (grid.throttles.length - 1)
  (grid.cell v.1 t.1).bind fun low =>
  (grid.cell v.1 nextThrottle).bind fun lowNext =>
  (grid.cell nextVoltage t.1).bind fun high =>
  (grid.cell nextVoltage nextThrottle).map fun highNext =>
    (interpolateField Prod.fst v.2 t.2 low lowNext high highNext,
      interpolateField Prod.snd v.2 t.2 low lowNext high highNext)

/-! ### What is accepted -/

section

variable {points : List (ThrustPoint ℚ)}

/-- The cell of a point. -/
def cellOf (p : ThrustPoint ℚ) : (ℚ × ℚ) × (ℚ × ℚ) := ((p.voltage, p.throttle), (p.thrustN, p.currentA))

/-- The points that the loop over the points lets through. -/
def InBounds (p : ThrustPoint ℚ) : Prop :=
  (0 < p.voltage ∧ p.voltage ≤ 1000) ∧ (0 ≤ p.throttle ∧ p.throttle ≤ 1) ∧
    (0 ≤ p.thrustN ∧ p.thrustN ≤ 1000000) ∧ 0 ≤ p.currentA ∧ p.currentA ≤ 1000000

theorem gridPoint_eq_ok {cells cells' : Cells} {p : ThrustPoint ℚ} : gridPoint cells p = .ok cells' ↔
    InBounds p ∧ (p.voltage, p.throttle) ∉ cells.map Prod.fst ∧ cells' = cells ++ [cellOf p] := by
  unfold gridPoint
  simp only [ite_error_eq_ok, not_or, not_not, not_le, not_lt, Except.ok.injEq, InBounds, cellOf]
  constructor
  · rintro ⟨hpos, ⟨hv, ht, hthrust, hcurrent⟩, hnew, rfl⟩
    exact ⟨⟨⟨hpos, hv⟩, ht, hthrust, hcurrent⟩, hnew, rfl⟩
  · rintro ⟨⟨⟨hpos, hv⟩, ht, hthrust, hcurrent⟩, hnew, rfl⟩
    exact ⟨hpos, ⟨hv, ht, hthrust, hcurrent⟩, hnew, rfl⟩

/-- **The loop over the points** keeps them all, in order, when their coordinates are distinct. -/
theorem foldlM_gridPoint {cells cells' : Cells} (hd : (cells.map Prod.fst).Nodup) :
    points.foldlM gridPoint cells = .ok cells' ↔ (∀ p ∈ points, InBounds p) ∧
      ((cells ++ points.map cellOf).map Prod.fst).Nodup ∧ cells' = cells ++ points.map cellOf := by
  induction points generalizing cells with
  | nil => simpa [pure, Except.pure, hd] using eq_comm
  | cons p points ih =>
    rw [List.foldlM_cons, bind_eq_ok]
    simp only [gridPoint_eq_ok]
    constructor
    · rintro ⟨_, ⟨hp, hnew, rfl⟩, h⟩
      have hd' : ((cells ++ [cellOf p]).map Prod.fst).Nodup := by
        rw [List.map_append]
        exact List.Nodup.append hd (List.nodup_singleton _) (by simpa [cellOf] using hnew)
      obtain ⟨hall, hnodup, rfl⟩ := (ih hd').mp h
      rw [List.append_assoc] at hnodup
      exact ⟨List.forall_mem_cons.mpr ⟨hp, hall⟩, hnodup, by simp⟩
    · rintro ⟨hall, hnodup, rfl⟩
      obtain ⟨hp, hall⟩ := List.forall_mem_cons.mp hall
      have hassoc : cells ++ (p :: points).map cellOf = (cells ++ [cellOf p]) ++ points.map cellOf := by simp
      rw [hassoc] at hnodup
      have hd' : ((cells ++ [cellOf p]).map Prod.fst).Nodup := by
        rw [List.map_append] at hnodup
        exact (List.nodup_append'.mp hnodup).1
      refine ⟨_, ⟨hp, ?_, rfl⟩, (ih hd').mpr ⟨hall, hnodup, hassoc⟩⟩
      rw [List.map_append, List.nodup_append'] at hd'
      exact fun hin => hd'.2.2 hin (by simp [cellOf])

/-- `sorted({...})` is the axis of the table. -/
theorem sortedSet_eq (values : List ℚ) : sortedSet values = sortedAxis values := by
  obtain ⟨hs, hm⟩ := sortedAxis_spec values
  have hle : (sortedSet values).Pairwise (· ≤ ·) := List.pairwise_insertionSort _ _
  have hmem (x : ℚ) : x ∈ sortedSet values ↔ x ∈ values :=
    (List.perm_insertionSort _ _).mem_iff.trans List.mem_dedup
  have hnodup : (sortedSet values).Nodup := (List.perm_insertionSort _ _).nodup_iff.mpr (List.nodup_dedup values)
  have hlt : (sortedSet values).Pairwise (· < ·) :=
    List.Pairwise.imp₂ (fun _ _ hle hne => lt_of_le_of_ne hle hne) hle hnodup
  exact hlt.eq_of_mem_iff hs fun x => (hmem x).trans (hm x).symm

/-- The cell of a point is found by its coordinates. -/
theorem lookup_cellOf (hd : (points.map fun p => (p.voltage, p.throttle)).Nodup) {p : ThrustPoint ℚ} (hp : p ∈ points) :
    (points.map cellOf).lookup (p.voltage, p.throttle) = some (p.thrustN, p.currentA) := by
  induction points with
  | nil => cases hp
  | cons q points ih =>
    obtain ⟨hq, hd⟩ := List.nodup_cons.mp hd
    rw [List.map_cons, cellOf, List.lookup_cons]
    rcases List.mem_cons.mp hp with rfl | hp
    · simp
    · have hne : (p.voltage, p.throttle) ≠ (q.voltage, q.throttle) := fun heq => hq (List.mem_map.mpr ⟨p, hp, heq⟩)
      rw [beq_eq_false_iff_ne.mpr hne]
      exact ih hd hp

/-- The values at a place of the grid. -/
def valueAt (cells : Cells) (v t : ℚ) : ℚ × ℚ := (cells.lookup (v, t)).getD (0, 0)

theorem monotonicRow_eq_ok {cells : Cells} {v : ℚ} {throttles : List ℚ}
    (hcells : ∀ t ∈ throttles, ∃ values, cells.lookup (v, t) = some values) (thrust current : ℚ) :
    monotonicRow cells v throttles thrust current = .ok () ↔
      (thrust :: throttles.map fun t => (valueAt cells v t).1).IsChain (· ≤ ·) ∧
        (current :: throttles.map fun t => (valueAt cells v t).2).IsChain (· ≤ ·) := by
  induction throttles generalizing thrust current with
  | nil => simp [monotonicRow]
  | cons t throttles ih =>
    obtain ⟨values, hvalues⟩ := hcells t List.mem_cons_self
    have hat : valueAt cells v t = values := by rw [valueAt, hvalues, Option.getD_some]
    rw [monotonicRow, hvalues]
    simp only [ite_error_eq_ok, ih fun t' ht' => hcells t' (List.mem_cons_of_mem _ ht'), List.map_cons, hat,
      List.isChain_cons_cons, not_or, not_lt]
    exact and_and_and_comm

/-- Every place of a full grid has its point's values. -/
theorem exists_values {voltages throttles : List ℚ} (h : FullGrid points voltages throttles) {v t : ℚ}
    (hv : v ∈ voltages) (ht : t ∈ throttles) : ∃ p ∈ points, p.voltage = v ∧ p.throttle = t ∧
      (points.map cellOf).lookup (v, t) = some (p.thrustN, p.currentA) := by
  obtain ⟨p, hp, rfl, rfl⟩ := h.exists_point hv ht
  exact ⟨p, hp, rfl, rfl, lookup_cellOf h.distinct hp⟩

/-- A row that starts above all its values is a matter of the values alone. -/
theorem isChain_row_iff {throttles : List ℚ} (hs : throttles.Pairwise (· < ·)) {f : ℚ → ℚ} {start : ℚ}
    (hstart : ∀ t ∈ throttles, start ≤ f t) : (start :: throttles.map f).IsChain (· ≤ ·) ↔
      ∀ t ∈ throttles, ∀ t' ∈ throttles, t ≤ t' → f t ≤ f t' := by
  rw [List.isChain_iff_pairwise, List.pairwise_cons, List.forall_mem_map, List.pairwise_map]
  constructor
  · rintro ⟨-, hp⟩ t ht t' ht' hle
    rcases hle.eq_or_lt with rfl | hlt
    · exact le_rfl
    have hboth : throttles.Pairwise fun a b => a < b ∧ f a ≤ f b := hs.and hp
    obtain ⟨i, hi, rfl⟩ := List.getElem_of_mem ht
    obtain ⟨j, hj, rfl⟩ := List.getElem_of_mem ht'
    rcases Nat.lt_trichotomy i j with hij | rfl | hij
    · exact (List.pairwise_iff_getElem.mp hboth i j hi hj hij).2
    · exact le_rfl
    · exact absurd hlt (not_lt.mpr (List.pairwise_iff_getElem.mp hboth j i hj hi hij).1.le)
  · intro h
    exact ⟨hstart, hs.imp_of_mem fun ht ht' hlt => h _ ht _ ht' hlt.le⟩

/-- **The loop over the rows** lets through the points whose values rise. -/
theorem forM_monotonicRow_eq_ok {voltages throttles : List ℚ} (h : FullGrid points voltages throttles)
    (hvalues : ∀ p ∈ points, 0 ≤ p.thrustN ∧ 0 ≤ p.currentA) :
    (voltages.forM fun v => monotonicRow (points.map cellOf) v throttles (-1) (-1)) = .ok () ↔
      Rising ThrustPoint.thrustN points ∧ Rising ThrustPoint.currentA points := by
  have hat {p : ThrustPoint ℚ} (hp : p ∈ points) :
      valueAt (points.map cellOf) p.voltage p.throttle = (p.thrustN, p.currentA) := by
    rw [valueAt, lookup_cellOf h.distinct hp, Option.getD_some]
  have hrow {v : ℚ} (hv : v ∈ voltages) : monotonicRow (points.map cellOf) v throttles (-1) (-1) = .ok () ↔
      (∀ t ∈ throttles, ∀ t' ∈ throttles, t ≤ t' →
        (valueAt (points.map cellOf) v t).1 ≤ (valueAt (points.map cellOf) v t').1) ∧
      ∀ t ∈ throttles, ∀ t' ∈ throttles, t ≤ t' →
        (valueAt (points.map cellOf) v t).2 ≤ (valueAt (points.map cellOf) v t').2 := by
    have hcells : ∀ t ∈ throttles, ∃ values, (points.map cellOf).lookup (v, t) = some values := fun t ht => by
      obtain ⟨p, -, -, -, hp⟩ := exists_values h hv ht
      exact ⟨_, hp⟩
    have hpos {t : ℚ} (ht : t ∈ throttles) :
        0 ≤ (valueAt (points.map cellOf) v t).1 ∧ 0 ≤ (valueAt (points.map cellOf) v t).2 := by
      obtain ⟨p, hp, rfl, rfl, -⟩ := exists_values h hv ht
      rw [hat hp]
      exact hvalues p hp
    have hneg : (-1 : ℚ) ≤ 0 := by decide
    rw [monotonicRow_eq_ok hcells, isChain_row_iff h.throttles_sorted fun t ht => hneg.trans (hpos ht).1,
      isChain_row_iff h.throttles_sorted fun t ht => hneg.trans (hpos ht).2]
  have hrising (value : ThrustPoint ℚ → ℚ) (field : ℚ × ℚ → ℚ)
      (hfield : ∀ p ∈ points, field (valueAt (points.map cellOf) p.voltage p.throttle) = value p) :
      Rising value points ↔ ∀ v ∈ voltages, ∀ t ∈ throttles, ∀ t' ∈ throttles, t ≤ t' →
        field (valueAt (points.map cellOf) v t) ≤ field (valueAt (points.map cellOf) v t') := by
    constructor
    · intro hr v hv t ht t' ht' hle
      obtain ⟨p, hp, rfl, rfl⟩ := h.exists_point hv ht
      obtain ⟨q, hq, hqv, rfl⟩ := h.exists_point hv ht'
      have hqat := hfield q hq
      rw [hqv] at hqat
      rw [hfield p hp, hqat]
      exact hr p hp q hq hqv.symm hle
    · intro hall p hp q hq hsame hle
      rw [← hfield p hp, ← hfield q hq, ← hsame]
      exact hall _ (h.voltage_mem p hp) _ (h.throttle_mem p hp) _ (h.throttle_mem q hq) hle
  rw [forM_eq_ok, hrising ThrustPoint.thrustN Prod.fst fun p hp => congrArg Prod.fst (hat hp),
    hrising ThrustPoint.currentA Prod.snd fun p hp => congrArg Prod.snd (hat hp), ← forall₂_and]
  exact forall₂_congr fun v hv => hrow hv

/-- The grid of points. -/
def gridOf (points : List (ThrustPoint ℚ)) : Grid where
  voltages := sortedAxis (points.map ThrustPoint.voltage)
  throttles := sortedAxis (points.map ThrustPoint.throttle)
  cells := points.map cellOf

/-- The points that the trainer asks for beyond those of a bench table. -/
structure Trainable (points : List (ThrustPoint ℚ)) : Prop where
  bounded : ∀ p ∈ points, p.thrustN ≤ 1000000 ∧ p.currentA ≤ 1000000
  idle : (sortedAxis (points.map ThrustPoint.throttle)).head? = some 0
  full : (sortedAxis (points.map ThrustPoint.throttle)).getLast? = some 1

/-- **Key result**: which points `_catalog_grid` accepts, and the grid that it makes of them. -/
theorem catalogGrid_eq_ok {pointCount : ℕ} {grid : Grid} : catalogGrid points pointCount = .ok grid ↔
    points.length = pointCount ∧ Bench points ∧ Trainable points ∧ grid = gridOf points := by
  have hcells : (points.map cellOf).map Prod.fst = points.map fun p => (p.voltage, p.throttle) := by
    simp [cellOf, Function.comp_def]
  have hv : (points.map cellOf).map (fun cell => cell.1.1) = points.map ThrustPoint.voltage := by
    simp [cellOf, Function.comp_def]
  have ht : (points.map cellOf).map (fun cell => cell.1.2) = points.map ThrustPoint.throttle := by
    simp [cellOf, Function.comp_def]
  have hne : sortedAxis (points.map ThrustPoint.voltage) = [] ↔ points = [] := by
    rw [List.eq_nil_iff_forall_not_mem]
    simp only [(sortedAxis_spec _).2, List.mem_map]
    rw [List.eq_nil_iff_forall_not_mem]
    exact ⟨fun h p hp => h _ ⟨p, hp, rfl⟩, fun h _ ⟨p, hp, _⟩ => h p hp⟩
  have hloop {cells : Cells} : points.foldlM gridPoint [] = .ok cells ↔ (∀ p ∈ points, InBounds p) ∧
      (points.map fun p => (p.voltage, p.throttle)).Nodup ∧ cells = points.map cellOf := by
    rw [foldlM_gridPoint (by exact List.nodup_nil), List.nil_append, hcells]
  unfold catalogGrid
  simp only [ite_error_eq_ok, not_not, bind_eq_ok, hloop]
  constructor
  · rintro ⟨hcount, _, ⟨hb, hd, rfl⟩, hgrid, ⟨⟩, hrows, hdone⟩
    rw [hv, ht, sortedSet_eq, sortedSet_eq, List.length_map] at hgrid
    rw [hv, ht, sortedSet_eq, sortedSet_eq] at hrows hdone
    simp only [not_or, not_not] at hgrid
    obtain ⟨hvne, -, hidle, hfull, hlen⟩ := hgrid
    have hg := fullGrid_iff.mpr ⟨hd, hlen⟩
    have hrise := (forM_monotonicRow_eq_ok hg fun p hp => ⟨(hb p hp).2.2.1.1, (hb p hp).2.2.2.1⟩).mp hrows
    exact ⟨hcount, ⟨fun h => hvne (hne.mpr h), fun p hp => (hb p hp).1, fun p hp => (hb p hp).2.1,
      fun p hp => ⟨(hb p hp).2.2.1.1, (hb p hp).2.2.2.1⟩, hg, hrise.1, hrise.2⟩,
      ⟨fun p hp => ⟨(hb p hp).2.2.1.2, (hb p hp).2.2.2.2⟩, hidle, hfull⟩, (Except.ok.inj hdone).symm⟩
  · rintro ⟨hcount, hb, hx, rfl⟩
    have hin : ∀ p ∈ points, InBounds p := fun p hp =>
      ⟨hb.voltage p hp, hb.throttle p hp, ⟨(hb.value p hp).1, (hx.bounded p hp).1⟩, (hb.value p hp).2, (hx.bounded p hp).2⟩
    refine ⟨hcount, _, ⟨hin, hb.grid.distinct, rfl⟩, ?_, (), ?_, ?_⟩
    · rw [hv, ht, sortedSet_eq, sortedSet_eq, List.length_map]
      have htne : sortedAxis (points.map ThrustPoint.throttle) ≠ [] := fun h => by simpa [h] using hx.idle
      simp only [not_or, not_not]
      exact ⟨fun h => hb.nonempty (hne.mp h), htne, hx.idle, hx.full, hb.grid.full⟩
    · rw [hv, ht, sortedSet_eq, sortedSet_eq]
      exact (forM_monotonicRow_eq_ok hb.grid hb.value).mpr ⟨hb.thrust_rising, hb.current_rising⟩
    · rw [hv, ht, sortedSet_eq, sortedSet_eq]
      rfl

/-! ### The two lookups -/

/-- The two languages find the same place on an axis. -/
theorem gridBracket_eq (axis : List ℚ) (value : ℚ) : gridBracket axis value = bracket axis value := by
  have hhead : axis.headD 0 = axis.getD 0 0 := by cases axis <;> rfl
  have hlast : axis.getLastD 0 = axis.getD (axis.length - 1) 0 := by
    rw [List.getLastD_eq_getLast?, List.getLast?_eq_getElem?, List.getD_eq_getElem?_getD]
  rw [gridBracket, hhead, hlast]
  rfl

theorem bracket_lt {axis : List ℚ} (h : axis ≠ []) (value : ℚ) : (bracket axis value).1 < axis.length := by
  have hpos : 0 < axis.length := List.length_pos_iff.mpr h
  unfold bracket
  split_ifs
  · exact hpos
  · exact Nat.sub_one_lt_of_lt hpos
  · split
    · rename_i i hi
      have hmem := List.mem_range.mp (List.mem_of_find?_eq_some hi)
      exact hmem.trans_le (Nat.sub_le _ _)
    · exact Nat.sub_one_lt_of_lt hpos

/-- A cell of the grid holds what the table has at its indices. -/
theorem cell_gridOf (hb : Bench points) {i j : ℕ} (hi : i < (tableOf points).voltages.length)
    (hj : j < (tableOf points).throttles.length) : (gridOf points).cell i j =
      some ((tableOf points).thrust.getD (i * (tableOf points).throttles.length + j) 0,
        (tableOf points).current.getD (i * (tableOf points).throttles.length + j) 0) := by
  have hvi := List.getElem?_eq_getElem hi
  have htj := List.getElem?_eq_getElem hj
  obtain ⟨p, hp, hpv, hpt, hp'⟩ := exists_values hb.grid (List.getElem_mem hi) (List.getElem_mem hj)
  have hthrust := hb.grid.getD_entered ThrustPoint.thrustN hp (hpv ▸ hvi) (hpt ▸ htj)
  have hcurrent := hb.grid.getD_entered ThrustPoint.currentA hp (hpv ▸ hvi) (hpt ▸ htj)
  have hcell : (gridOf points).cell i j = some (p.thrustN, p.currentA) := by
    rw [← hp', Grid.cell, List.getD_eq_getElem?_getD, List.getD_eq_getElem?_getD]
    refine congrArg (List.lookup · _) ?_
    exact Prod.ext (by rw [show (gridOf points).voltages = (tableOf points).voltages from rfl, hvi]; rfl)
      (by rw [show (gridOf points).throttles = (tableOf points).throttles from rfl, htj]; rfl)
  rw [hcell, ← hthrust, ← hcurrent]
  rfl

/-- **Key result**: the trainer's lookup is the simulator's, at every voltage and throttle. -/
theorem gridLookup_gridOf (hb : Bench points) (voltage throttle : ℚ) :
    gridLookup (gridOf points) voltage throttle = some ((tableOf points).lookup voltage throttle) := by
  obtain ⟨p, hp⟩ := List.exists_mem_of_ne_nil _ hb.nonempty
  have hvne : (tableOf points).voltages ≠ [] := List.ne_nil_of_mem (hb.grid.voltage_mem p hp)
  have htne : (tableOf points).throttles ≠ [] := List.ne_nil_of_mem (hb.grid.throttle_mem p hp)
  have hv := bracket_lt hvne voltage
  have ht := bracket_lt htne throttle
  have hnext {i n : ℕ} (hi : i < n) : min (i + 1) (n - 1) < n := by omega
  unfold gridLookup ThrustTable.lookup
  simp only [gridBracket_eq, show (gridOf points).voltages = (tableOf points).voltages from rfl,
    show (gridOf points).throttles = (tableOf points).throttles from rfl]
  rw [cell_gridOf hb hv ht, cell_gridOf hb hv (hnext ht), cell_gridOf hb (hnext hv) ht, cell_gridOf hb (hnext hv) (hnext ht)]
  rfl

end

end Forge.Training
