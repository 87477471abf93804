import Forge.Data.Except
import Forge.Sim.ThrustTable
import Mathlib.Data.Finset.Card
import Mathlib.Data.Finset.Prod
import Mathlib.Data.List.Chain

/-!
# Bench points that form a table

Which points `ThrustTable::from_points` accepts in exact arithmetic, and what the table holds.
The points of a table fill a grid: there are as many of them as places, and no two at one place
(`FullGrid`), so every place has a point. `Bench` says the rest, and **`fromPoints_eq_ok`** that
this is what the code checks.
-/

namespace Forge.Sim

/-! ### Axes of rational numbers -/

theorem dedupAfter_of_sorted {l : List ℚ} {a : ℚ} (h : (a :: l).Pairwise (· ≤ ·)) :
    (a :: dedupAfter a l).Pairwise (· < ·) ∧ ∀ x, x ∈ a :: dedupAfter a l ↔ x ∈ a :: l := by
  induction l generalizing a with
  | nil => exact ⟨List.pairwise_singleton _ _, fun _ => Iff.rfl⟩
  | cons b l ih =>
    obtain ⟨hab, hl⟩ := List.pairwise_cons.mp h
    obtain ⟨hsorted, hmem⟩ := ih hl
    rw [dedupAfter]
    by_cases heq : a = b
    · subst heq
      simp only [beq_self_eq_true, if_true]
      exact ⟨hsorted, fun x => by rw [hmem]; simp⟩
    · rw [if_neg (by simpa using heq)]
      have hlt : a < b := lt_of_le_of_ne (hab b List.mem_cons_self) heq
      constructor
      · refine List.pairwise_cons.mpr ⟨fun x hx => ?_, hsorted⟩
        rcases List.mem_cons.mp hx with rfl | hx
        · exact hlt
        · exact hlt.trans ((List.pairwise_cons.mp hsorted).1 x hx)
      · intro x
        rw [List.mem_cons, hmem, List.mem_cons (l := b :: l)]

/-- **An axis is strictly increasing and has the values that it is made of.** -/
theorem sortedAxis_spec (values : List ℚ) :
    (sortedAxis values).Pairwise (· < ·) ∧ ∀ x, x ∈ sortedAxis values ↔ x ∈ values := by
  have hr : ∀ a b : ℚ, (Machine.totalCmp a b ≠ .gt) ↔ a ≤ b := fun a b => by
    simp [Machine.totalCmp, compare_gt_iff_gt]
  have hsorted : (values.insertionSort fun a b => Machine.totalCmp a b ≠ .gt).Pairwise (· ≤ ·) := by
    simp only [hr]
    exact List.pairwise_insertionSort _ _
  have hmem (x : ℚ) : x ∈ (values.insertionSort fun a b => Machine.totalCmp a b ≠ .gt) ↔ x ∈ values :=
    (List.perm_insertionSort _ _).mem_iff
  unfold sortedAxis
  generalize (values.insertionSort fun a b => Machine.totalCmp a b ≠ .gt) = l at hsorted hmem
  cases l with
  | nil => exact ⟨List.Pairwise.nil, hmem⟩
  | cons a l =>
    obtain ⟨h, h'⟩ := dedupAfter_of_sorted hsorted
    exact ⟨h, fun x => (h' x).trans (hmem x)⟩

/-- Where a value of an axis is found. -/
theorem find_eq_ok {axis : List ℚ} {v : ℚ} (h : v ∈ axis) : find axis v = .ok (axis.idxOf v) := by
  have hp : (fun a : ℚ => decide (Machine.totalCmp a v = .eq)) = fun a => a == v := by
    funext a
    rw [Bool.eq_iff_iff]
    simp [Machine.totalCmp]
  have hidx : axis.findIdx? (fun a => decide (Machine.totalCmp a v = .eq)) = some (axis.idxOf v) := by
    rw [hp, List.idxOf]
    exact List.findIdx?_eq_some_of_exists ⟨v, h, beq_self_eq_true v⟩
  unfold find
  rw [hidx]

/-! ### Points of a full grid -/

/-- What the points of a table have in common with those of any full grid. -/
structure FullGrid (points : List (ThrustPoint ℚ)) (voltages throttles : List ℚ) : Prop where
  voltages_sorted : voltages.Pairwise (· < ·)
  throttles_sorted : throttles.Pairwise (· < ·)
  voltage_mem : ∀ p ∈ points, p.voltage ∈ voltages
  throttle_mem : ∀ p ∈ points, p.throttle ∈ throttles
  distinct : (points.map fun p => (p.voltage, p.throttle)).Nodup
  full : voltages.length * throttles.length = points.length

/-- **Every place of a full grid has a point**, since there are as many points as places. -/
theorem FullGrid.exists_point {points : List (ThrustPoint ℚ)} {voltages throttles : List ℚ}
    (h : FullGrid points voltages throttles) {v t : ℚ} (hv : v ∈ voltages) (ht : t ∈ throttles) :
    ∃ p ∈ points, p.voltage = v ∧ p.throttle = t := by
  let places := voltages.toFinset ×ˢ throttles.toFinset
  let taken := (points.map fun p => (p.voltage, p.throttle)).toFinset
  have hsub : taken ⊆ places := by
    intro c hc
    obtain ⟨p, hp, rfl⟩ := List.mem_map.mp (List.mem_toFinset.mp hc)
    exact Finset.mem_product.mpr ⟨List.mem_toFinset.mpr (h.voltage_mem p hp), List.mem_toFinset.mpr (h.throttle_mem p hp)⟩
  have hcard : places.card ≤ taken.card := by
    rw [Finset.card_product, List.toFinset_card_of_nodup h.voltages_sorted.nodup,
      List.toFinset_card_of_nodup h.throttles_sorted.nodup, List.toFinset_card_of_nodup h.distinct, List.length_map, h.full]
  have hmem : (v, t) ∈ taken := by
    rw [Finset.eq_of_subset_of_card_le hsub hcard]
    exact Finset.mem_product.mpr ⟨List.mem_toFinset.mpr hv, List.mem_toFinset.mpr ht⟩
  obtain ⟨p, hp, hc⟩ := List.mem_map.mp (List.mem_toFinset.mp hmem)
  exact ⟨p, hp, (Prod.mk.inj hc).1, (Prod.mk.inj hc).2⟩

/-- Setting distinct places of a list one after the other. -/
theorem getD_foldl_set {β : Type} {f : β → ℕ} (value : β → ℚ) {l : List β} (hf : (l.map f).Nodup) {grid : List ℚ}
    {p : β} (hp : p ∈ l) (hlt : f p < grid.length) :
    (l.foldl (fun g q => g.set (f q) (value q)) grid).getD (f p) 0 = value p := by
  induction l generalizing grid with
  | nil => cases hp
  | cons q l ih =>
    obtain ⟨hq, hl⟩ := List.nodup_cons.mp hf
    rw [List.foldl_cons]
    rcases List.mem_cons.mp hp with rfl | hp
    · have hkeep (m : List β) (hm : ∀ r ∈ m, f r ≠ f p) (g : List ℚ) :
          (m.foldl (fun g q => g.set (f q) (value q)) g).getD (f p) 0 = g.getD (f p) 0 := by
        induction m generalizing g with
        | nil => rfl
        | cons r m ihm =>
          rw [List.foldl_cons, ihm fun r hr => hm r (List.mem_cons_of_mem _ hr)]
          simp [List.getD_eq_getElem?_getD, List.getElem?_set_ne (hm r List.mem_cons_self)]
      rw [hkeep l fun r hr heq => hq (heq ▸ List.mem_map_of_mem hr)]
      simp [List.getD_eq_getElem?_getD, List.getElem?_set_self hlt]
    · exact ih hl hp (by rwa [List.length_set])

/-! ### What is accepted -/

/-- The place of a point in the grids. -/
def place (voltages throttles : List ℚ) (p : ThrustPoint ℚ) : ℕ :=
  voltages.idxOf p.voltage * throttles.length + throttles.idxOf p.throttle

section

variable {points : List (ThrustPoint ℚ)} {voltages throttles : List ℚ}

theorem FullGrid.place_lt (h : FullGrid points voltages throttles) {p : ThrustPoint ℚ} (hp : p ∈ points) :
    place voltages throttles p < voltages.length * throttles.length := by
  have hv := List.idxOf_lt_length_of_mem (h.voltage_mem p hp)
  have ht := List.idxOf_lt_length_of_mem (h.throttle_mem p hp)
  calc place voltages throttles p
      < voltages.idxOf p.voltage * throttles.length + throttles.length := Nat.add_lt_add_left ht _
    _ = (voltages.idxOf p.voltage + 1) * throttles.length := (Nat.succ_mul _ _).symm
    _ ≤ voltages.length * throttles.length := Nat.mul_le_mul_right _ hv

/-- No two points have the same place. -/
theorem FullGrid.nodup_place (h : FullGrid points voltages throttles) : (points.map (place voltages throttles)).Nodup := by
  have hpoints : points.Nodup := h.distinct.of_map _
  refine List.Nodup.map_on (fun p hp q hq heq => ?_) hpoints
  have hpt := List.idxOf_lt_length_of_mem (h.throttle_mem p hp)
  have hqt := List.idxOf_lt_length_of_mem (h.throttle_mem q hq)
  have hdiv := congrArg (· / throttles.length) heq
  have hmod := congrArg (· % throttles.length) heq
  have hpos : 0 < throttles.length := Nat.zero_lt_of_lt hpt
  simp only [place, Nat.mul_comm _ throttles.length, Nat.mul_add_div hpos, Nat.div_eq_of_lt hpt, Nat.div_eq_of_lt hqt,
    Nat.mul_add_mod, Nat.mod_eq_of_lt hpt, Nat.mod_eq_of_lt hqt, Nat.add_zero] at hdiv hmod
  refine List.inj_on_of_nodup_map h.distinct hp hq (Prod.ext ?_ ?_)
  · exact (List.idxOf_inj (h.voltage_mem p hp)).mp hdiv
  · exact (List.idxOf_inj (h.throttle_mem p hp)).mp hmod

/-- A grid with the values of the points at their places. -/
def entered (voltages throttles : List ℚ) (value : ThrustPoint ℚ → ℚ) (points : List (ThrustPoint ℚ)) (grid : List ℚ) :
    List ℚ := points.foldl (fun g p => g.set (place voltages throttles p) (value p)) grid

theorem foldlM_enter {l : List (ThrustPoint ℚ)} (hv : ∀ p ∈ l, p.voltage ∈ voltages) (ht : ∀ p ∈ l, p.throttle ∈ throttles)
    (thrust current : List ℚ) : l.foldlM (enter voltages throttles) (thrust, current) =
      .ok (entered voltages throttles ThrustPoint.thrustN l thrust, entered voltages throttles ThrustPoint.currentA l current) := by
  induction l generalizing thrust current with
  | nil => rfl
  | cons p l ih =>
    have henter : enter voltages throttles (thrust, current) p = .ok (thrust.set (place voltages throttles p) p.thrustN,
        current.set (place voltages throttles p) p.currentA) := by
      unfold enter
      rw [find_eq_ok (hv p List.mem_cons_self), find_eq_ok (ht p List.mem_cons_self)]
      rfl
    rw [List.foldlM_cons, henter]
    exact ih (fun q hq => hv q (List.mem_cons_of_mem _ hq)) (fun q hq => ht q (List.mem_cons_of_mem _ hq)) _ _

/-- A grid that was entered has the value of each point at its place. -/
theorem FullGrid.getD_entered (h : FullGrid points voltages throttles) (value : ThrustPoint ℚ → ℚ) {p : ThrustPoint ℚ}
    (hp : p ∈ points) {i j : ℕ} (hi : voltages[i]? = some p.voltage) (hj : throttles[j]? = some p.throttle) :
    (entered voltages throttles value points (List.replicate (voltages.length * throttles.length) 0)).getD
      (i * throttles.length + j) 0 = value p := by
  have hidx {axis : List ℚ} (hs : axis.Pairwise (· < ·)) {k : ℕ} {x : ℚ} (hk : axis[k]? = some x) : axis.idxOf x = k := by
    obtain ⟨hlt, rfl⟩ := List.getElem?_eq_some_iff.mp hk
    exact hs.nodup.idxOf_getElem k hlt
  have hplace : i * throttles.length + j = place voltages throttles p := by
    rw [place, hidx h.voltages_sorted hi, hidx h.throttles_sorted hj]
  rw [hplace]
  exact getD_foldl_set value h.nodup_place hp (by rw [List.length_replicate]; exact h.place_lt hp)

/-- At each voltage a value does not fall with the throttle. -/
def Rising (value : ThrustPoint ℚ → ℚ) (points : List (ThrustPoint ℚ)) : Prop :=
  ∀ p ∈ points, ∀ q ∈ points, p.voltage = q.voltage → p.throttle ≤ q.throttle → value p ≤ value q

theorem decreases_eq_false_iff {rows columns : ℕ} {grid : List ℚ} : decreases rows columns grid = false ↔
    ∀ i < rows, ∀ j, j + 1 < columns → grid.getD (i * columns + j) 0 ≤ grid.getD (i * columns + j + 1) 0 := by
  unfold decreases
  rw [List.any_eq_false]
  refine forall_congr' fun i => ?_
  rw [List.mem_range]
  refine imp_congr_right fun _ => ?_
  rw [Bool.not_eq_true, List.any_eq_false]
  refine forall_congr' fun j => ?_
  rw [List.mem_range, Nat.lt_sub_iff_add_lt]
  simp

/-- The index of a value of a sorted axis, by its order. -/
theorem getElem?_le_iff {axis : List ℚ} (hs : axis.Pairwise (· < ·)) {a b : ℕ} {x y : ℚ} (ha : axis[a]? = some x)
    (hb : axis[b]? = some y) : x ≤ y ↔ a ≤ b := by
  obtain ⟨hla, rfl⟩ := List.getElem?_eq_some_iff.mp ha
  obtain ⟨hlb, rfl⟩ := List.getElem?_eq_some_iff.mp hb
  have hlt := List.pairwise_iff_getElem.mp hs
  constructor
  · intro hle
    by_contra hab
    exact absurd hle (not_le.mpr (hlt b a hlb hla (not_le.mp hab)))
  · intro hab
    rcases Nat.eq_or_lt_of_le hab with rfl | hab
    · exact le_rfl
    · exact (hlt a b hla hlb hab).le

theorem exists_index {axis : List ℚ} {x : ℚ} (h : x ∈ axis) : ∃ i : ℕ, axis[i]? = some x := List.mem_iff_getElem?.mp h

/-- **Rows that do not fall**: the check of neighbours in the grid is about all points. -/
theorem FullGrid.rising_iff (h : FullGrid points voltages throttles) (value : ThrustPoint ℚ → ℚ) :
    decreases voltages.length throttles.length
      (entered voltages throttles value points (List.replicate (voltages.length * throttles.length) 0)) = false ↔
      Rising value points := by
  rw [decreases_eq_false_iff]
  constructor
  · intro hall p hp q hq hsame hle
    obtain ⟨i, hi⟩ := exists_index (h.voltage_mem p hp)
    obtain ⟨a, ha⟩ := exists_index (h.throttle_mem p hp)
    obtain ⟨b, hb⟩ := exists_index (h.throttle_mem q hq)
    have hab : a ≤ b := (getElem?_le_iff h.throttles_sorted ha hb).mp hle
    have hilt : i < voltages.length := (List.getElem?_eq_some_iff.mp hi).1
    have hblt : b < throttles.length := (List.getElem?_eq_some_iff.mp hb).1
    rw [← h.getD_entered value hp hi ha, ← h.getD_entered value hq (hsame ▸ hi) hb]
    clear ha hb
    induction b, hab using Nat.le_induction with
    | base => exact le_rfl
    | succ b hab ih => exact (ih (Nat.lt_of_succ_lt hblt)).trans (hall i hilt b hblt)
  · intro hrise i hi j hj
    have hvi := List.getElem?_eq_getElem hi
    have htj := List.getElem?_eq_getElem (Nat.lt_of_succ_lt hj)
    have htj' := List.getElem?_eq_getElem hj
    obtain ⟨p, hp, hpv, hpt⟩ := h.exists_point (List.getElem_mem hi) (List.getElem_mem (Nat.lt_of_succ_lt hj))
    obtain ⟨q, hq, hqv, hqt⟩ := h.exists_point (List.getElem_mem hi) (List.getElem_mem hj)
    rw [h.getD_entered value hp (hpv ▸ hvi) (hpt ▸ htj), Nat.add_assoc,
      h.getD_entered value hq (hqv ▸ hvi) (hqt ▸ htj')]
    refine hrise p hp q hq (hpv.trans hqv.symm) ?_
    exact (getElem?_le_iff h.throttles_sorted (hpt ▸ htj) (hqt ▸ htj')).mpr (Nat.le_succ j)

/-- The points that form a table. -/
structure Bench (points : List (ThrustPoint ℚ)) : Prop where
  nonempty : points ≠ []
  voltage : ∀ p ∈ points, 0 < p.voltage ∧ p.voltage ≤ 1000
  throttle : ∀ p ∈ points, 0 ≤ p.throttle ∧ p.throttle ≤ 1
  value : ∀ p ∈ points, 0 ≤ p.thrustN ∧ 0 ≤ p.currentA
  grid : FullGrid points (sortedAxis (points.map ThrustPoint.voltage)) (sortedAxis (points.map ThrustPoint.throttle))
  thrust_rising : Rising ThrustPoint.thrustN points
  current_rising : Rising ThrustPoint.currentA points

/-- The table of such points. -/
def tableOf (points : List (ThrustPoint ℚ)) : ThrustTable ℚ :=
  let voltages := sortedAxis (points.map ThrustPoint.voltage)
  let throttles := sortedAxis (points.map ThrustPoint.throttle)
  let zeros := List.replicate (voltages.length * throttles.length) 0
  { voltages, throttles, thrust := entered voltages throttles ThrustPoint.thrustN points zeros
    current := entered voltages throttles ThrustPoint.currentA points zeros }

theorem hasDuplicate_eq_false_iff {l : List (ThrustPoint ℚ)} :
    hasDuplicate l = false ↔ (l.map fun p => (p.voltage, p.throttle)).Nodup := by
  induction l with
  | nil => simp [hasDuplicate]
  | cons p l ih =>
    rw [hasDuplicate, Bool.or_eq_false_iff, ih, List.map_cons, List.nodup_cons, List.any_eq_false]
    refine and_congr_left fun _ => ?_
    simp only [Bool.and_eq_true, beq_iff_eq, List.mem_map, Prod.mk.injEq, not_exists, not_and]
    exact forall₂_congr fun q _ => ⟨fun h hv ht => h hv.symm ht.symm, fun h hv ht => h hv.symm ht.symm⟩

theorem outOfBounds_eq_false_iff {p : ThrustPoint ℚ} : p.outOfBounds = false ↔
    (0 < p.voltage ∧ p.voltage ≤ 1000) ∧ (0 ≤ p.throttle ∧ p.throttle ≤ 1) ∧ 0 ≤ p.thrustN ∧ 0 ≤ p.currentA := by
  simp [ThrustPoint.outOfBounds, and_assoc]

/-- The axes of points have what the points have. -/
theorem fullGrid_iff : FullGrid points (sortedAxis (points.map ThrustPoint.voltage))
      (sortedAxis (points.map ThrustPoint.throttle)) ↔
    (points.map fun p => (p.voltage, p.throttle)).Nodup ∧
      (sortedAxis (points.map ThrustPoint.voltage)).length * (sortedAxis (points.map ThrustPoint.throttle)).length =
        points.length := by
  constructor
  · exact fun h => ⟨h.distinct, h.full⟩
  · rintro ⟨hd, hfull⟩
    obtain ⟨hvs, hvm⟩ := sortedAxis_spec (points.map ThrustPoint.voltage)
    obtain ⟨hts, htm⟩ := sortedAxis_spec (points.map ThrustPoint.throttle)
    exact ⟨hvs, hts, fun p hp => (hvm _).mpr (List.mem_map_of_mem hp), fun p hp => (htm _).mpr (List.mem_map_of_mem hp),
      hd, hfull⟩

/-- **Key result**: which points `from_points` accepts, and the table that it makes of them. -/
theorem fromPoints_eq_ok {table : ThrustTable ℚ} : fromPoints points = .ok table ↔ Bench points ∧ table = tableOf points := by
  have hfinite : (points.any fun p => !p.isFinite) = false := List.any_eq_false.mpr fun _ _ => Bool.false_ne_true
  have hbounds : ¬ points.any ThrustPoint.outOfBounds = true ↔ ∀ p ∈ points,
      (0 < p.voltage ∧ p.voltage ≤ 1000) ∧ (0 ≤ p.throttle ∧ p.throttle ≤ 1) ∧ 0 ≤ p.thrustN ∧ 0 ≤ p.currentA := by
    rw [Bool.not_eq_true, List.any_eq_false]
    exact forall₂_congr fun p _ => by rw [Bool.not_eq_true, outOfBounds_eq_false_iff]
  unfold fromPoints
  simp only [ite_error_eq_ok, hbounds, hfinite, Bool.not_eq_true, hasDuplicate_eq_false_iff, not_not,
    List.isEmpty_eq_false_iff]
  constructor
  · rintro ⟨hne, -, hb, hd, hfull, h⟩
    have hgrid := fullGrid_iff.mpr ⟨hd, hfull⟩
    rw [foldlM_enter hgrid.voltage_mem hgrid.throttle_mem] at h
    obtain ⟨hrise, htable⟩ := ite_error_eq_ok.mp h
    rw [Bool.not_eq_true, Bool.or_eq_false_iff, hgrid.rising_iff, hgrid.rising_iff] at hrise
    exact ⟨⟨hne, fun p hp => (hb p hp).1, fun p hp => (hb p hp).2.1, fun p hp => (hb p hp).2.2, hgrid, hrise.1, hrise.2⟩,
      (Except.ok.inj htable).symm⟩
  · rintro ⟨hbench, rfl⟩
    have hgrid := hbench.grid
    refine ⟨hbench.nonempty, trivial, fun p hp => ⟨hbench.voltage p hp, hbench.throttle p hp, hbench.value p hp⟩,
      hgrid.distinct, hgrid.full, ?_⟩
    rw [foldlM_enter hgrid.voltage_mem hgrid.throttle_mem]
    refine ite_error_eq_ok.mpr ⟨?_, rfl⟩
    rw [Bool.not_eq_true, Bool.or_eq_false_iff, hgrid.rising_iff, hgrid.rising_iff]
    exact ⟨hbench.thrust_rising, hbench.current_rising⟩

end

end Forge.Sim
