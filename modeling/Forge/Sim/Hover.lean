import Forge.Sim.Bench
import Forge.Sim.Powertrain
import Mathlib.Tactic.Linarith
import Mathlib.Tactic.LinearCombination
import Mathlib.Tactic.Ring

/-!
# The hover throttle

`derive_hud` searches the throttle at which the motors carry the weight by halving an interval sixty times, as if
thrust rose with throttle. A table that `from_points` accepts rises with throttle at each voltage
(`lookup_thrust_mono`), but a higher throttle may draw so much current that the table is read at a lower voltage, and
the loop over the voltages ends after twelve rounds whether they agree or not.

`ThrustClaim` is what the search takes for granted: thrust rises, the point is one of equilibrium, and the motors carry
the weight from the throttle that is found on. The **key result** `thrustClaim_iff`: of the powertrains whose
resistances are not negative it holds on every accepted table if and only if there is no effective resistance, or the
battery is outside the voltages of a bench; with resistance it holds on a table that is steady at the voltages that
sag can lead to. `thrust_falls`, `never_settles` and `hover_too_weak` are tables for which it fails.
-/

namespace Forge.Sim

/-! ### Rows of a table -/

/-- A row that is read at a place of its axis. -/
def along (row : ℕ → ℚ) (columns : ℕ) (t : ℕ × ℚ) : ℚ :=
  row t.1 * (1 - t.2) + row (min (t.1 + 1) (columns - 1)) * t.2

theorem interpolate_eq (at' : ℕ → ℕ → ℚ) (rows columns : ℕ) (v t : ℕ × ℚ) :
    interpolate at' rows columns v t =
      along (at' v.1) columns t * (1 - v.2) + along (at' (min (v.1 + 1) (rows - 1))) columns t * v.2 := rfl

/-- Where a value is on an axis: before it, behind it, or between two neighbours. -/
theorem bracket_cases (axis : List ℚ) (v : ℚ) :
    (v ≤ axis.getD 0 0 ∧ bracket axis v = (0, 0)) ∨
    (axis.getD 0 0 < v ∧ axis.getD (axis.length - 1) 0 ≤ v ∧ bracket axis v = (axis.length - 1, 0)) ∨
    ∃ i, i + 1 < axis.length ∧ axis.getD 0 0 < v ∧ axis.getD i 0 ≤ v ∧ v < axis.getD (i + 1) 0 ∧
      bracket axis v = (i, (v - axis.getD i 0) / (axis.getD (i + 1) 0 - axis.getD i 0)) := by
  rw [bracket]
  split_ifs with hfirst hlast
  · exact .inl ⟨hfirst, rfl⟩
  · exact .inr (.inl ⟨not_le.mp hfirst, hlast, rfl⟩)
  · rw [not_le] at hfirst hlast
    refine .inr (.inr ?_)
    cases hfind : (List.range (axis.length - 1)).find? fun i => v < axis.getD (i + 1) 0 with
    | none =>
      -- the last neighbour is above the value
      rw [List.find?_eq_none] at hfind
      have htwo : 2 ≤ axis.length := by
        by_contra hone
        have hsame : axis.length - 1 = 0 := by omega
        rw [hsame] at hlast
        exact absurd hlast (not_lt.mpr hfirst.le)
      have hbound := hfind (axis.length - 2) (List.mem_range.mpr (by omega))
      rw [show axis.length - 2 + 1 = axis.length - 1 by omega] at hbound
      exact absurd hlast (by simpa using hbound)
    | some i =>
      obtain ⟨hlt, hi, hbefore⟩ := List.find?_range_eq_some.mp hfind
      have hi : i < axis.length - 1 := List.mem_range.mp hi
      refine ⟨i, by omega, hfirst, ?_, by simpa using hlt, rfl⟩
      cases i with
      | zero => exact hfirst.le
      | succ i => simpa using hbefore i (Nat.lt_succ_self i)

/-- An axis with at most one value has a single place. -/
theorem bracket_short {axis : List ℚ} (h : axis.length ≤ 1) (v : ℚ) : bracket axis v = (0, 0) := by
  obtain ⟨-, hb⟩ | ⟨-, -, hb⟩ | ⟨i, hi, -⟩ := bracket_cases axis v
  · exact hb
  · rw [hb, show axis.length - 1 = 0 by omega]
  · omega

theorem getElem?_of_lt {axis : List ℚ} {i : ℕ} (h : i < axis.length) : axis[i]? = some (axis.getD i 0) := by
  simp [List.getElem?_eq_getElem h]

/-- The values of a row do not fall. -/
def RowRising (row : ℕ → ℚ) (columns : ℕ) : Prop := ∀ j, j + 1 < columns → row j ≤ row (j + 1)

theorem RowRising.le {row : ℕ → ℚ} {columns : ℕ} (h : RowRising row columns) {i j : ℕ} (hij : i ≤ j)
    (hj : j < columns) : row i ≤ row j := by
  induction j, hij using Nat.le_induction with
  | base => exact le_rfl
  | succ j hij ih => exact (ih (by omega)).trans (h j hj)

theorem along_zero (row : ℕ → ℚ) (columns i : ℕ) : along row columns (i, 0) = row i := by
  rw [along, sub_zero, mul_one, mul_zero, add_zero]

/-- Between two neighbours a row has values between theirs. -/
theorem along_between {row : ℕ → ℚ} {columns i : ℕ} (h : RowRising row columns) (hi : i + 1 < columns) {f : ℚ}
    (hf : 0 ≤ f ∧ f ≤ 1) : row i ≤ along row columns (i, f) ∧ along row columns (i, f) ≤ row (i + 1) := by
  have hstep := h i hi
  rw [along, min_eq_left (by omega)]
  constructor
  · nlinarith [mul_nonneg hf.1 (sub_nonneg.mpr hstep)]
  · nlinarith [mul_nonneg (sub_nonneg.mpr hf.2) (sub_nonneg.mpr hstep)]

/-- The fraction of the way between two neighbours. -/
theorem fraction_mem {a b v : ℚ} (hlow : a ≤ v) (hhigh : v < b) : 0 ≤ (v - a) / (b - a) ∧ (v - a) / (b - a) ≤ 1 := by
  have hpos : 0 < b - a := by linarith
  exact ⟨div_nonneg (by linarith) hpos.le, (div_le_one hpos).mpr (by linarith)⟩

/-- **A row that does not fall is read in order.** -/
theorem along_bracket_mono {axis : List ℚ} (hs : axis.Pairwise (· < ·)) {row : ℕ → ℚ} (hrow : RowRising row axis.length)
    {t t' : ℚ} (h : t ≤ t') :
    along row axis.length (bracket axis t) ≤ along row axis.length (bracket axis t') := by
  have hmono {i j : ℕ} (hij : i ≤ j) (hj : j < axis.length) : axis.getD i 0 ≤ axis.getD j 0 :=
    (getElem?_le_iff hs (getElem?_of_lt (hij.trans_lt hj)) (getElem?_of_lt hj)).mpr hij
  rcases Nat.eq_zero_or_pos axis.length with hnil | hpos
  · rw [bracket_short (by omega), bracket_short (by omega)]
  obtain ⟨hfirst, hb⟩ | ⟨hfirst, hlast, hb⟩ | ⟨i, hi, hfirst, hlow, hhigh, hb⟩ := bracket_cases axis t <;>
  obtain ⟨hfirst', hb'⟩ | ⟨hfirst', hlast', hb'⟩ | ⟨i', hi', hfirst', hlow', hhigh', hb'⟩ := bracket_cases axis t' <;>
  rw [hb, hb']
  · simp only [along_zero]
    exact hrow.le (Nat.zero_le _) (by omega)
  · rw [along_zero]
    exact (hrow.le (Nat.zero_le _) (by omega)).trans (along_between hrow hi' (fraction_mem hlow' hhigh')).1
  · linarith
  · linarith [hmono (show i' + 1 ≤ axis.length - 1 by omega) (by omega)]
  · linarith
  · rw [along_zero]
    exact (along_between hrow hi (fraction_mem hlow hhigh)).2.trans (hrow.le (by omega) (by omega))
  · have hle : i ≤ i' := by
      by_contra hlt
      have := hmono (show i' + 1 ≤ i by omega) (by omega)
      linarith
    rcases Nat.eq_or_lt_of_le hle with rfl | hlt
    · have hcell : axis.getD i 0 < axis.getD (i + 1) 0 := hlow.trans_lt hhigh
      have hstep := hrow i hi
      have hfrac : (t - axis.getD i 0) / (axis.getD (i + 1) 0 - axis.getD i 0) ≤
          (t' - axis.getD i 0) / (axis.getD (i + 1) 0 - axis.getD i 0) :=
        div_le_div_of_nonneg_right (by linarith) (by linarith)
      rw [along, along, min_eq_left (by omega)]
      nlinarith [mul_nonneg (sub_nonneg.mpr hfrac) (sub_nonneg.mpr hstep)]
    · exact (along_between hrow hi (fraction_mem hlow hhigh)).2.trans
        ((hrow.le (by omega) (by omega)).trans (along_between hrow hi' (fraction_mem hlow' hhigh')).1)

/-! ### Tables -/

section

variable {points : List (ThrustPoint ℚ)} {table : ThrustTable ℚ}

/-- The thrusts of a table at one of its voltages. -/
def ThrustTable.thrustRow (table : ThrustTable ℚ) (i : ℕ) : ℕ → ℚ := fun j =>
  table.thrust.getD (i * table.throttles.length + j) 0

theorem thrustRow_rising (h : fromPoints points = .ok table) {i : ℕ} (hi : i < table.voltages.length) :
    RowRising (table.thrustRow i) table.throttles.length := by
  obtain ⟨hb, rfl⟩ := fromPoints_eq_ok.mp h
  exact decreases_eq_false_iff.mp ((hb.grid.rising_iff ThrustPoint.thrustN).mpr hb.thrust_rising) i hi

/-- The currents of a table at one of its voltages. -/
def ThrustTable.currentRow (table : ThrustTable ℚ) (i : ℕ) : ℕ → ℚ := fun j =>
  table.current.getD (i * table.throttles.length + j) 0

theorem currentRow_rising (h : fromPoints points = .ok table) {i : ℕ} (hi : i < table.voltages.length) :
    RowRising (table.currentRow i) table.throttles.length := by
  obtain ⟨hb, rfl⟩ := fromPoints_eq_ok.mp h
  exact decreases_eq_false_iff.mp ((hb.grid.rising_iff ThrustPoint.currentA).mpr hb.current_rising) i hi

/-- The axes of an accepted table are not empty. -/
theorem axes_pos (h : fromPoints points = .ok table) : 0 < table.voltages.length ∧ 0 < table.throttles.length := by
  obtain ⟨hb, rfl⟩ := fromPoints_eq_ok.mp h
  have hfull : 0 < (tableOf points).voltages.length * (tableOf points).throttles.length :=
    hb.grid.full.symm ▸ List.length_pos_iff.mpr hb.nonempty
  exact ⟨Nat.pos_of_mul_pos_right hfull, Nat.pos_of_mul_pos_left hfull⟩

/-- Rows that rise are read in order of the throttles, also between the voltages. -/
theorem interpolate_mono (h : fromPoints points = .ok table) {row : ℕ → ℕ → ℚ}
    (hrow : ∀ i < table.voltages.length, RowRising (row i) table.throttles.length) (v : ℚ) {t t' : ℚ} (htt' : t ≤ t') :
    interpolate row table.voltages.length table.throttles.length (bracket table.voltages v) (bracket table.throttles t) ≤
      interpolate row table.voltages.length table.throttles.length (bracket table.voltages v)
        (bracket table.throttles t') := by
  have hs : table.throttles.Pairwise (· < ·) := by
    obtain ⟨hb, rfl⟩ := fromPoints_eq_ok.mp h
    exact hb.grid.throttles_sorted
  have hne := (axes_pos h).1
  have hle {i : ℕ} (hi : i < table.voltages.length) :
      along (row i) table.throttles.length (bracket table.throttles t) ≤
        along (row i) table.throttles.length (bracket table.throttles t') := along_bracket_mono hs (hrow i hi) htt'
  rw [interpolate_eq, interpolate_eq]
  obtain ⟨-, hb⟩ | ⟨-, -, hb⟩ | ⟨i, hi, -, hlow, hhigh, hb⟩ := bracket_cases table.voltages v
  · rw [hb]
    simpa using hle (i := 0) (by omega)
  · rw [hb]
    simpa using hle (i := table.voltages.length - 1) (by omega)
  · obtain ⟨hf, hf'⟩ := fraction_mem hlow hhigh
    rw [hb]
    refine add_le_add (mul_le_mul_of_nonneg_right (hle (by omega)) (sub_nonneg.mpr hf'))
      (mul_le_mul_of_nonneg_right (hle ?_) hf)
    dsimp only
    omega

/-- **At each voltage an accepted table rises with the throttle**, also between its points. -/
theorem lookup_thrust_mono (h : fromPoints points = .ok table) (v : ℚ) {t t' : ℚ} (htt' : t ≤ t') :
    (table.lookup v t).1 ≤ (table.lookup v t').1 := by
  have hrow : ∀ i < table.voltages.length, RowRising (table.thrustRow i) table.throttles.length :=
    fun _ => thrustRow_rising h
  exact interpolate_mono h hrow v htt'

theorem lookup_current_mono (h : fromPoints points = .ok table) (v : ℚ) {t t' : ℚ} (htt' : t ≤ t') :
    (table.lookup v t).2 ≤ (table.lookup v t').2 := by
  have hrow : ∀ i < table.voltages.length, RowRising (table.currentRow i) table.throttles.length :=
    fun _ => currentRow_rising h
  exact interpolate_mono h hrow v htt'

/-- The place of a value in an axis, with a fraction between zero and one. -/
theorem bracket_fraction (axis : List ℚ) (v : ℚ) : 0 ≤ (bracket axis v).2 ∧ (bracket axis v).2 ≤ 1 := by
  obtain ⟨-, hb⟩ | ⟨-, -, hb⟩ | ⟨i, -, -, hlow, hhigh, hb⟩ := bracket_cases axis v
  · rw [hb]
    exact ⟨le_rfl, zero_le_one⟩
  · rw [hb]
    exact ⟨le_rfl, zero_le_one⟩
  · rw [hb]
    exact fraction_mem hlow hhigh

/-- Values that are not negative make grids without negative entries. -/
theorem entered_nonneg {voltages throttles : List ℚ} {value : ThrustPoint ℚ → ℚ} {l : List (ThrustPoint ℚ)}
    (hl : ∀ q ∈ l, 0 ≤ value q) {grid : List ℚ} (hgrid : ∀ k, 0 ≤ grid.getD k 0) (k : ℕ) :
    0 ≤ (entered voltages throttles value l grid).getD k 0 := by
  induction l generalizing grid with
  | nil => exact hgrid k
  | cons q l ih =>
    refine ih (fun r hr => hl r (List.mem_cons_of_mem _ hr)) fun k => ?_
    rw [List.getD_eq_getElem?_getD, List.getElem?_set]
    split_ifs
    · exact hl q List.mem_cons_self
    · exact le_rfl
    · rw [← List.getD_eq_getElem?_getD]
      exact hgrid k

/-- No current is negative. -/
theorem lookup_current_nonneg (h : fromPoints points = .ok table) (v u : ℚ) : 0 ≤ (table.lookup v u).2 := by
  have hvalue (k : ℕ) : 0 ≤ table.current.getD k 0 := by
    obtain ⟨hb, rfl⟩ := fromPoints_eq_ok.mp h
    exact entered_nonneg (fun q hq => (hb.value q hq).2) (fun k => by
      simp only [List.getD_eq_getElem?_getD, List.getElem?_replicate]
      split_ifs <;> exact le_rfl) k
  obtain ⟨hf, hf'⟩ := bracket_fraction table.voltages v
  obtain ⟨hg, hg'⟩ := bracket_fraction table.throttles u
  have halong (i : ℕ) : 0 ≤ along (table.currentRow i) table.throttles.length (bracket table.throttles u) :=
    add_nonneg (mul_nonneg (hvalue _) (sub_nonneg.mpr hg')) (mul_nonneg (hvalue _) hg)
  change 0 ≤ interpolate table.currentRow _ _ _ _
  rw [interpolate_eq]
  exact add_nonneg (mul_nonneg (halong _) (sub_nonneg.mpr hf')) (mul_nonneg (halong _) hf)

/-- Below the voltages of the bench and above them the table is read at its edge. -/
theorem bracket_voltage_edge (h : fromPoints points = .ok table) {v v' : ℚ}
    (hedge : v ≤ 0 ∧ v' ≤ 0 ∨ 1000 ≤ v ∧ 1000 ≤ v') : bracket table.voltages v = bracket table.voltages v' := by
  have hpos := (axes_pos h).1
  obtain ⟨hb, rfl⟩ := fromPoints_eq_ok.mp h
  set axis := (tableOf points).voltages with haxis
  have hrange {i : ℕ} (hi : i < axis.length) : 0 < axis.getD i 0 ∧ axis.getD i 0 ≤ 1000 := by
    have hmem : axis.getD i 0 ∈ sortedAxis (points.map ThrustPoint.voltage) := List.mem_of_getElem? (getElem?_of_lt hi)
    obtain ⟨q, hq, heq⟩ := List.mem_map.mp (((sortedAxis_spec _).2 _).mp hmem)
    exact heq ▸ hb.voltage q hq
  have hlow {w : ℚ} (hw : w ≤ 0) : bracket axis w = (0, 0) := by
    rw [bracket, if_pos (hw.trans (hrange hpos).1.le)]
  have hhigh {w : ℚ} (hw : 1000 ≤ w) : bracket axis w = (axis.length - 1, 0) := by
    obtain ⟨hfirst, hplace⟩ | ⟨-, -, hplace⟩ | ⟨i, hi, -, -, hlt, -⟩ := bracket_cases axis w
    · -- the first voltage is the highest, hence the only one
      have hone : ¬ 1 < axis.length := fun htwo => by
        have hlt : axis.getD 0 0 < axis.getD 1 0 := not_le.mp fun hle => absurd
          ((getElem?_le_iff hb.grid.voltages_sorted (getElem?_of_lt htwo) (getElem?_of_lt hpos)).mp hle) (by decide)
        have := (hrange htwo).2
        linarith
      rw [hplace, show axis.length - 1 = 0 by omega]
    · exact hplace
    · have := (hrange hi).2
      linarith
  rcases hedge with ⟨hv, hv'⟩ | ⟨hv, hv'⟩
  · rw [hlow hv, hlow hv']
  · rw [hhigh hv, hhigh hv']

/-- At the place of a point the table says what the point does. -/
theorem lookup_corner (h : fromPoints points = .ok table) {q : ThrustPoint ℚ} (hq : q ∈ points) {i j : ℕ} {v u : ℚ}
    (hi : table.voltages[i]? = some q.voltage) (hj : table.throttles[j]? = some q.throttle)
    (hv : bracket table.voltages v = (i, 0)) (hu : bracket table.throttles u = (j, 0)) :
    table.lookup v u = (q.thrustN, q.currentA) := by
  obtain ⟨hb, rfl⟩ := fromPoints_eq_ok.mp h
  have hcorner (at' : ℕ → ℕ → ℚ) (rows columns : ℕ) : interpolate at' rows columns (i, 0) (j, 0) = at' i j := by
    rw [interpolate_eq, along_zero, along_zero, sub_zero, mul_one, mul_zero, add_zero]
  rw [ThrustTable.lookup, hv, hu, hcorner, hcorner]
  exact Prod.ext (hb.grid.getD_entered ThrustPoint.thrustN hq hi hj) (hb.grid.getD_entered ThrustPoint.currentA hq hi hj)

/-- A table with one voltage gives the same at all voltages. -/
theorem lookup_of_one (h : table.voltages.length = 1) (v v' u : ℚ) : table.lookup v u = table.lookup v' u := by
  rw [ThrustTable.lookup, ThrustTable.lookup, bracket_short h.le, bracket_short h.le]

theorem lookup_edge (h : fromPoints points = .ok table) {v v' : ℚ} (hedge : v ≤ 0 ∧ v' ≤ 0 ∨ 1000 ≤ v ∧ 1000 ≤ v')
    (u : ℚ) : table.lookup v u = table.lookup v' u := by
  rw [ThrustTable.lookup, ThrustTable.lookup, bracket_voltage_edge h hedge]

end

/-! ### Sag -/

namespace Powertrain

variable (p : Powertrain) (table : ThrustTable ℚ) (u : ℚ)

/-- The voltage at which the loop reads the table last. -/
def lastRead : ℚ := (p.visited (max 0 (min u 1)) table 12 p.batteryV0).getLastD p.batteryV0

/-- The loop ends because the voltages hardly differ any more. -/
def Settles : Prop := ∃ v ∈ p.visited (max 0 (min u 1)) table 12 p.batteryV0, p.Settled (max 0 (min u 1)) table v

/-- The loop returns the point at the voltage that it reads last, which is where it settles if it does. -/
theorem sag_eq (turns : ℕ) (v : ℚ) (point : PowertrainPoint) :
    p.sag u table (turns + 1) v point = p.sagPoint u table ((p.visited u table (turns + 1) v).getLastD v) ∧
      ((∃ w ∈ p.visited u table (turns + 1) v, p.Settled u table w) →
        p.Settled u table ((p.visited u table (turns + 1) v).getLastD v)) := by
  induction turns generalizing v point with
  | zero =>
    simp only [sag, visited, ite_self, List.getLastD_cons, List.getLastD_nil, List.mem_singleton, exists_eq_left,
      imp_self, and_self]
  | succ turns ih =>
    rw [sag, visited]
    by_cases hsettled : p.Settled u table v
    · rw [if_pos hsettled, if_pos hsettled]
      exact ⟨rfl, fun _ => hsettled⟩
    · obtain ⟨hpoint, hlast⟩ := ih (p.sagPoint u table v).vEff (p.sagPoint u table v)
      simp only [if_neg hsettled, List.getLastD_cons]
      have hdefault : (p.visited u table (turns + 1) (p.sagPoint u table v).vEff).getLastD v =
          (p.visited u table (turns + 1) (p.sagPoint u table v).vEff).getLastD (p.sagPoint u table v).vEff := by
        rw [visited, List.getLastD_cons, List.getLastD_cons]
      rw [hdefault]
      refine ⟨hpoint, ?_⟩
      rintro ⟨w, hw, hwsettled⟩
      rcases List.mem_cons.mp hw with rfl | hw
      · exact absurd hwsettled hsettled
      · exact hlast ⟨w, hw, hwsettled⟩

/-- What a point says is what the table says at a voltage. -/
theorem atThrottle_eq : p.atThrottle u table = p.sagPoint (max 0 (min u 1)) table (p.lastRead table u) :=
  (p.sag_eq table (max 0 (min u 1)) 11 p.batteryV0 { thrustN := 0, currentA := 0, vEff := p.batteryV0, nRevS := 0 }).1

theorem settled_of_settles (h : p.Settles table u) : p.Settled (max 0 (min u 1)) table (p.lastRead table u) :=
  (p.sag_eq table (max 0 (min u 1)) 11 p.batteryV0 { thrustN := 0, currentA := 0, vEff := p.batteryV0, nRevS := 0 }).2 h

/-! ### The search for the hover throttle -/

/-- The loop of the search: the interval is halved, and its upper end carries the weight. -/
def bisect (total : ℚ → ℚ) (weightN : ℚ) : ℕ → ℚ → ℚ → ℚ × ℚ
  | 0, lo, hi => (lo, hi)
  | rounds + 1, lo, hi =>
    if total (1 / 2 * (lo + hi)) < weightN then bisect total weightN rounds (1 / 2 * (lo + hi)) hi
    else bisect total weightN rounds lo (1 / 2 * (lo + hi))

/-- The thrust of all motors. -/
def totalThrust (u : ℚ) : ℚ := (p.atThrottle u table).thrustN * p.nMotors

/-- `hover` of `derive_hud`. -/
def hoverThrottle (weightN : ℚ) : Option ℚ :=
  if weightN < p.totalThrust table 1 then
    some (1 / 2 * ((bisect (p.totalThrust table) weightN 60 0 1).1 + (bisect (p.totalThrust table) weightN 60 0 1).2))
  else none

/-- What the search keeps: the interval stays inside, halves in each round, and its upper end carries the weight. -/
theorem bisect_spec {total : ℚ → ℚ} {weightN : ℚ} (rounds : ℕ) {a b : ℚ} (hab : a ≤ b) (hb : weightN ≤ total b) :
    a ≤ (bisect total weightN rounds a b).1 ∧ (bisect total weightN rounds a b).2 ≤ b ∧
      (bisect total weightN rounds a b).2 - (bisect total weightN rounds a b).1 = (b - a) / 2 ^ rounds ∧
      weightN ≤ total (bisect total weightN rounds a b).2 := by
  induction rounds generalizing a b with
  | zero => simp [bisect, hb]
  | succ rounds ih =>
    rw [bisect]
    split_ifs with hmid
    · obtain ⟨hlow, hhigh, hwidth, hkeeps⟩ := ih (a := 1 / 2 * (a + b)) (b := b) (by linarith) hb
      refine ⟨by linarith, hhigh, ?_, hkeeps⟩
      rw [hwidth, pow_succ]
      ring
    · obtain ⟨hlow, hhigh, hwidth, hkeeps⟩ := ih (a := a) (b := 1 / 2 * (a + b)) (by linarith) (not_lt.mp hmid)
      refine ⟨hlow, by linarith, ?_, hkeeps⟩
      rw [hwidth, pow_succ]
      ring

/-- Half an interval above the reported throttle the motors carry the weight. -/
theorem hover_carries {weightN u : ℚ} (h : p.hoverThrottle table weightN = some u) :
    0 ≤ u + 1 / 2 ^ 61 ∧ weightN ≤ p.totalThrust table (u + 1 / 2 ^ 61) := by
  rw [hoverThrottle] at h
  split_ifs at h with hfull
  obtain ⟨hlow, -, hwidth, hkeeps⟩ := bisect_spec 60 zero_le_one hfull.le
  have hend : u + 1 / 2 ^ 61 = (bisect (p.totalThrust table) weightN 60 0 1).2 := by
    rw [← Option.some.inj h]
    linarith
  have hpos : (0 : ℚ) ≤ (1 - 0) / 2 ^ 60 := by positivity
  rw [hend]
  exact ⟨by linarith, hkeeps⟩

/-! ### What the search takes for granted -/

/-- Thrust rises with the throttle, the point is what the table says near the voltage that is returned, and the motors
carry the weight from the end of the last interval of the search on. -/
structure ThrustClaim : Prop where
  rises : ∀ u u', 0 ≤ u → u ≤ u' → u' ≤ 1 → (p.atThrottle u table).thrustN ≤ (p.atThrottle u' table).thrustN
  equilibrium : ∀ u, 0 ≤ u → u ≤ 1 → ∃ v, |(p.atThrottle u table).vEff - v| < 1 / 1000000 ∧
    ((p.atThrottle u table).thrustN, (p.atThrottle u table).currentA) = table.lookup v u
  hover : ∀ weightN u, p.hoverThrottle table weightN = some u → ∀ u', u + 1 / 2 ^ 61 ≤ u' → u' ≤ 1 →
    weightN ≤ p.totalThrust table u'

/-- The resistance that the current of one motor meets. -/
def resistance : ℚ := p.nMotors * p.batteryROhm + p.motorROhm

/-- Between half the voltage of the battery and all of it the current does not depend on the voltage, and either thrust
does not rise with the voltage or the current does not depend on the throttle. -/
structure Steady : Prop where
  current : ∀ u, 0 ≤ u → u ≤ 1 → ∀ v ∈ Set.uIcc (1 / 2 * p.batteryV0) p.batteryV0,
    (table.lookup v u).2 = (table.lookup p.batteryV0 u).2
  thrust : (∀ u, 0 ≤ u → u ≤ 1 → ∀ v ∈ Set.uIcc (1 / 2 * p.batteryV0) p.batteryV0,
      ∀ v' ∈ Set.uIcc (1 / 2 * p.batteryV0) p.batteryV0, v ≤ v' → (table.lookup v' u).1 ≤ (table.lookup v u).1) ∨
    ∀ u, 0 ≤ u → u ≤ 1 → (table.lookup p.batteryV0 u).2 = (table.lookup p.batteryV0 0).2

variable {p table}

/-- A table of one voltage is steady. -/
theorem steady_of_one (h : table.voltages.length = 1) : p.Steady table :=
  ⟨fun u _ _ v _ => by rw [lookup_of_one h v p.batteryV0], .inl fun u _ _ v _ v' _ _ => by rw [lookup_of_one h v v']⟩

theorem clamp_eq {u : ℚ} (h0 : 0 ≤ u) (h1 : u ≤ 1) : max 0 (min u 1) = u := by
  rw [min_eq_left h1, max_eq_right h0]

/-- Where the loop settles at each throttle and the tables are read in order, the search is right. -/
theorem thrustClaim_of_settles (hsettles : ∀ u, 0 ≤ u → u ≤ 1 → p.Settles table u)
    (hmono : ∀ u u', 0 ≤ u → u ≤ u' → u' ≤ 1 →
      (table.lookup (p.lastRead table u) u).1 ≤ (table.lookup (p.lastRead table u') u').1) :
    p.ThrustClaim table := by
  have hpoint {u : ℚ} (h0 : 0 ≤ u) (h1 : u ≤ 1) : p.atThrottle u table = p.sagPoint u table (p.lastRead table u) := by
    rw [atThrottle_eq, clamp_eq h0 h1]
  have hrises (u u' : ℚ) (h0 : 0 ≤ u) (huu' : u ≤ u') (h1 : u' ≤ 1) :
      (p.atThrottle u table).thrustN ≤ (p.atThrottle u' table).thrustN := by
    rw [hpoint h0 (huu'.trans h1), hpoint (h0.trans huu') h1]
    exact hmono u u' h0 huu' h1
  refine ⟨hrises, fun u h0 h1 => ⟨p.lastRead table u, ?_, ?_⟩, fun weightN u hu u' huu' h1 => ?_⟩
  · have hsettled := p.settled_of_settles table u (hsettles u h0 h1)
    rw [clamp_eq h0 h1] at hsettled
    rw [hpoint h0 h1]
    exact hsettled
  · rw [hpoint h0 h1]
    rfl
  · obtain ⟨hlow, hcarries⟩ := p.hover_carries table hu
    exact hcarries.trans (mul_le_mul_of_nonneg_right (hrises _ _ hlow huu' h1) (Nat.cast_nonneg _))

/-- The voltage after sag, from the voltage that was read. -/
theorem sagPoint_vEff (u v : ℚ) : (p.sagPoint u table v).vEff =
    max (p.batteryV0 - (table.lookup v u).2 * p.resistance) (1 / 2 * p.batteryV0) := by
  rw [sagPoint, resistance]
  exact congrArg (max · _) (by ring)

theorem lastRead_of_settled {u : ℚ} (h0 : 0 ≤ u) (h1 : u ≤ 1) (hfirst : p.Settled u table p.batteryV0) :
    p.Settles table u ∧ p.lastRead table u = p.batteryV0 := by
  rw [Settles, lastRead, clamp_eq h0 h1]
  simp [visited, hfirst]

/-- Where the second reading leads to the same voltage as the first, the loop reads at most twice. -/
theorem lastRead_of_fixed {u : ℚ} (h0 : 0 ≤ u) (h1 : u ≤ 1)
    (hfixed : (p.sagPoint u table (p.sagPoint u table p.batteryV0).vEff).vEff = (p.sagPoint u table p.batteryV0).vEff) :
    p.Settles table u ∧ p.lastRead table u =
      if p.Settled u table p.batteryV0 then p.batteryV0 else (p.sagPoint u table p.batteryV0).vEff := by
  by_cases hfirst : p.Settled u table p.batteryV0
  · rw [if_pos hfirst]
    exact lastRead_of_settled h0 h1 hfirst
  · have hsecond : p.Settled u table (p.sagPoint u table p.batteryV0).vEff := by
      rw [Settled, hfixed, sub_self, abs_zero]
      norm_num
    rw [Settles, lastRead, clamp_eq h0 h1]
    simp [visited, hfirst, hsecond]

/-- Throttles whose first reading leads to one voltage are read last at one voltage. -/
theorem ite_settled_congr {u u' : ℚ}
    (heq : (p.sagPoint u table p.batteryV0).vEff = (p.sagPoint u' table p.batteryV0).vEff) :
    (if p.Settled u table p.batteryV0 then p.batteryV0 else (p.sagPoint u table p.batteryV0).vEff) =
      if p.Settled u' table p.batteryV0 then p.batteryV0 else (p.sagPoint u' table p.batteryV0).vEff := by
  have hiff : p.Settled u table p.batteryV0 ↔ p.Settled u' table p.batteryV0 := by rw [Settled, Settled, heq]
  simp only [hiff, heq]

variable {points : List (ThrustPoint ℚ)}

/-- Sag leads to a voltage between half the voltage of the battery and all of it. -/
theorem vEff_mem (h : fromPoints points = .ok table) (hr : 0 ≤ p.resistance) (u v : ℚ) :
    (p.sagPoint u table v).vEff ∈ Set.uIcc (1 / 2 * p.batteryV0) p.batteryV0 := by
  have hdrop : 0 ≤ (table.lookup v u).2 * p.resistance := mul_nonneg (lookup_current_nonneg h v u) hr
  rw [sagPoint_vEff, Set.mem_uIcc]
  rcases le_total 0 p.batteryV0 with hpos | hneg
  · exact .inl ⟨le_max_right _ _, max_le (by linarith) (by linarith)⟩
  · exact .inr ⟨(by linarith : p.batteryV0 ≤ 1 / 2 * p.batteryV0).trans (le_max_right _ _),
      max_le (by linarith) le_rfl⟩

/-- A higher throttle leads to no higher voltage. -/
theorem vEff_anti (h : fromPoints points = .ok table) (hr : 0 ≤ p.resistance) (v : ℚ) {u u' : ℚ} (huu' : u ≤ u') :
    (p.sagPoint u' table v).vEff ≤ (p.sagPoint u table v).vEff := by
  rw [sagPoint_vEff, sagPoint_vEff]
  have := mul_le_mul_of_nonneg_right (lookup_current_mono h v huu') hr
  exact max_le_max (by linarith) le_rfl

/-- On a steady table a higher throttle is read at no higher voltage. -/
theorem lastRead_of_steady (h : fromPoints points = .ok table) (hr : 0 ≤ p.resistance) (hs : p.Steady table) :
    (∀ u, 0 ≤ u → u ≤ 1 → p.Settles table u ∧ p.lastRead table u ∈ Set.uIcc (1 / 2 * p.batteryV0) p.batteryV0) ∧
      ∀ u u', 0 ≤ u → u ≤ u' → u' ≤ 1 → p.lastRead table u' ≤ p.lastRead table u ∧
        ((table.lookup p.batteryV0 u).2 = (table.lookup p.batteryV0 u').2 →
          p.lastRead table u = p.lastRead table u') := by
  have hfixed (u : ℚ) (h0 : 0 ≤ u) (h1 : u ≤ 1) := lastRead_of_fixed h0 h1 (by
    rw [sagPoint_vEff u (p.sagPoint u table p.batteryV0).vEff, hs.current u h0 h1 _ (vEff_mem h hr u _), ← sagPoint_vEff])
  refine ⟨fun u h0 h1 => ⟨(hfixed u h0 h1).1, ?_⟩, fun u u' h0 huu' h1 => ⟨?_, fun hsame => ?_⟩⟩
  · rw [(hfixed u h0 h1).2]
    split_ifs
    · exact Set.right_mem_uIcc
    · exact vEff_mem h hr u _
  · have hanti := vEff_anti h hr p.batteryV0 huu'
    have hmem := vEff_mem h hr u p.batteryV0
    have hmem' := vEff_mem h hr u' p.batteryV0
    rw [(hfixed u h0 (huu'.trans h1)).2, (hfixed u' (h0.trans huu') h1).2]
    rcases le_total 0 p.batteryV0 with hpos | hneg
    · rw [Set.uIcc_of_le (by linarith)] at hmem hmem'
      have hiff : p.Settled u table p.batteryV0 ↔ p.batteryV0 - (p.sagPoint u table p.batteryV0).vEff < 1 / 1000000 := by
        rw [Settled, abs_of_nonpos (by linarith [hmem.2]), neg_sub]
      have hiff' : p.Settled u' table p.batteryV0 ↔
          p.batteryV0 - (p.sagPoint u' table p.batteryV0).vEff < 1 / 1000000 := by
        rw [Settled, abs_of_nonpos (by linarith [hmem'.2]), neg_sub]
      split_ifs with hu' hu hu
      · exact le_rfl
      · exact absurd (hiff.mpr (by linarith [hiff'.mp hu'])) hu
      · exact hmem'.2
      · exact hanti
    · -- below zero the clamp alone decides
      have hclamp (w : ℚ) : (p.sagPoint w table p.batteryV0).vEff = 1 / 2 * p.batteryV0 := by
        have := vEff_mem h hr w p.batteryV0
        rw [Set.uIcc_of_ge (by linarith)] at this
        rw [sagPoint_vEff] at this ⊢
        exact le_antisymm this.2 (le_max_right _ _)
      exact (ite_settled_congr ((hclamp u').trans (hclamp u).symm)).le
  · rw [(hfixed u h0 (huu'.trans h1)).2, (hfixed u' (h0.trans huu') h1).2]
    exact ite_settled_congr (by rw [sagPoint_vEff, sagPoint_vEff, hsame])

/-- **On a steady table the search is right.** -/
theorem thrustClaim_of_steady (h : fromPoints points = .ok table) (hr : 0 ≤ p.resistance) (hs : p.Steady table) :
    p.ThrustClaim table := by
  obtain ⟨hread, hpair⟩ := lastRead_of_steady h hr hs
  refine thrustClaim_of_settles (fun u h0 h1 => (hread u h0 h1).1) fun u u' h0 huu' h1 => ?_
  obtain ⟨hle, hsame⟩ := hpair u u' h0 huu' h1
  refine (lookup_thrust_mono h _ huu').trans ?_
  rcases hs.thrust with hvolts | hthrottles
  · exact hvolts u' (h0.trans huu') h1 _ (hread u' (h0.trans huu') h1).2 _ (hread u h0 (huu'.trans h1)).2 hle
  · rw [hsame ((hthrottles u h0 (huu'.trans h1)).trans (hthrottles u' (h0.trans huu') h1).symm)]

/-- Without resistance, and where the battery is outside the voltages of a bench, the search is right on every table. -/
theorem thrustClaim_of_powertrain (h : fromPoints points = .ok table) (hr : 0 ≤ p.resistance)
    (hp : p.resistance = 0 ∨ p.batteryV0 < 2 / 1000000 ∨ 2000 ≤ p.batteryV0) : p.ThrustClaim table := by
  have hedge (hv : ∀ v ∈ Set.uIcc (1 / 2 * p.batteryV0) p.batteryV0, ∀ u, table.lookup v u = table.lookup p.batteryV0 u) :
      p.ThrustClaim table :=
    thrustClaim_of_steady h hr ⟨fun u _ _ v hmem => by rw [hv v hmem],
      .inl fun u _ _ v hmem v' hmem' _ => by rw [hv v hmem, hv v' hmem']⟩
  rcases hp with hnone | hlow | hhigh
  · -- the voltage after sag is always the same
    have hnext (u v : ℚ) : (p.sagPoint u table v).vEff = max p.batteryV0 (1 / 2 * p.batteryV0) := by
      rw [sagPoint_vEff, hnone, mul_zero, sub_zero]
    have hfixed (u : ℚ) (h0 : 0 ≤ u) (h1 : u ≤ 1) : p.Settles table u ∧ p.lastRead table u = _ :=
      lastRead_of_fixed h0 h1 (by rw [hnext, hnext])
    refine thrustClaim_of_settles (fun u h0 h1 => (hfixed u h0 h1).1) fun u u' h0 huu' h1 => ?_
    rw [(hfixed u h0 (huu'.trans h1)).2, (hfixed u' (h0.trans huu') h1).2,
      ite_settled_congr ((hnext u _).trans (hnext u' _).symm)]
    exact lookup_thrust_mono h _ huu'
  · rcases le_or_gt p.batteryV0 0 with hneg | hpos
    · refine hedge fun v hv u => lookup_edge h (.inl ⟨?_, hneg⟩) u
      rw [Set.uIcc_of_ge (by linarith)] at hv
      linarith [hv.2]
    · -- the first voltage after sag hardly differs from that of the battery
      have hsettled (u : ℚ) : p.Settled u table p.batteryV0 := by
        have hmem := vEff_mem h hr u p.batteryV0
        rw [Set.uIcc_of_le (by linarith)] at hmem
        rw [Settled, abs_of_nonpos (by linarith [hmem.2])]
        linarith [hmem.1]
      refine thrustClaim_of_settles (fun u h0 h1 => (lastRead_of_settled h0 h1 (hsettled u)).1) fun u u' h0 huu' h1 => ?_
      rw [(lastRead_of_settled h0 (huu'.trans h1) (hsettled u)).2,
        (lastRead_of_settled (h0.trans huu') h1 (hsettled u')).2]
      exact lookup_thrust_mono h _ huu'
  · refine hedge fun v hv u => lookup_edge h (.inr ⟨?_, by linarith⟩) u
    rw [Set.uIcc_of_le (by linarith)] at hv
    linarith [hv.1]

end Powertrain

/-! ### Tables where thrust falls -/

/-- A bench at one voltage. -/
def steadyBench : List (ThrustPoint ℚ) :=
  [{ voltage := 10, throttle := 0, thrustN := 0, currentA := 0 },
    { voltage := 10, throttle := 1, thrustN := 8, currentA := 20 }]

/-- A motor on ten volts. -/
def tenVolts (batteryROhm : ℚ) : Powertrain where
  motorKv := 920
  motorROhm := 0
  batteryV0 := 10
  batteryROhm
  nMotors := 1

instance (value : ThrustPoint ℚ → ℚ) (points : List (ThrustPoint ℚ)) : Decidable (Rising value points) :=
  inferInstanceAs (Decidable (∀ p ∈ points, ∀ q ∈ points,
    p.voltage = q.voltage → p.throttle ≤ q.throttle → value p ≤ value q))

/-- At full throttle the motor draws so many amperes, and at the lower voltage it lifts nothing. -/
def sagBench (lo hi amps : ℚ) : List (ThrustPoint ℚ) :=
  [⟨lo, 0, 0, 0⟩, ⟨lo, 1, 0, amps⟩, ⟨hi, 0, 1, 0⟩, ⟨hi, 1, 1, amps⟩]

/-- An axis is the increasing list of its values. -/
theorem sortedAxis_eq {values axis : List ℚ} (hs : axis.Pairwise (· < ·)) (hmem : ∀ x, x ∈ values ↔ x ∈ axis) :
    sortedAxis values = axis := by
  obtain ⟨hsorted, hvalues⟩ := sortedAxis_spec values
  refine List.Perm.eq_of_pairwise (fun a b _ _ hab hba => absurd hab hba.asymm) hsorted hs ?_
  exact (List.perm_ext_iff_of_nodup hsorted.nodup hs.nodup).mpr fun x => (hvalues x).trans (hmem x)

section

variable {lo hi amps : ℚ}

theorem axes_sagBench (amps : ℚ) (hlohi : lo < hi) :
    sortedAxis ((sagBench lo hi amps).map ThrustPoint.voltage) = [lo, hi] ∧
      sortedAxis ((sagBench lo hi amps).map ThrustPoint.throttle) = [0, 1] := by
  constructor
  · exact sortedAxis_eq (by simpa using hlohi) fun x => by simp [sagBench]
  · exact sortedAxis_eq (by simp) fun x => by
      simp only [sagBench, List.map_cons, List.map_nil, List.mem_cons, List.not_mem_nil, or_false]
      tauto

theorem fromPoints_sagBench (hlo : 0 < lo) (hlohi : lo < hi) (hhi : hi ≤ 1000) (hamps : 0 ≤ amps) :
    fromPoints (sagBench lo hi amps) = .ok (tableOf (sagBench lo hi amps)) := by
  obtain ⟨hvoltages, hthrottles⟩ := axes_sagBench amps hlohi
  refine fromPoints_eq_ok.mpr ⟨⟨by simp [sagBench], ?_, ?_, ?_, fullGrid_iff.mpr ⟨?_, ?_⟩, ?_, ?_⟩, rfl⟩
  · simp only [sagBench, List.forall_mem_cons, List.not_mem_nil, false_imp_iff, implies_true, and_true]
    exact ⟨⟨hlo, by linarith⟩, ⟨hlo, by linarith⟩, ⟨by linarith, hhi⟩, by linarith, hhi⟩
  · simp [sagBench]
  · simp [sagBench, hamps]
  · simp [sagBench, hlohi.ne]
  · rw [hvoltages, hthrottles]
    rfl
  · simp [Rising, sagBench, hlohi.ne, hlohi.ne']
  · simp [Rising, sagBench, hamps]

theorem lookup_sagBench (hlo : 0 < lo) (hlohi : lo < hi) (hhi : hi ≤ 1000) (hamps : 0 ≤ amps) {v : ℚ} (hv : hi ≤ v) :
    (tableOf (sagBench lo hi amps)).lookup v 0 = (1, 0) ∧ (tableOf (sagBench lo hi amps)).lookup v 1 = (1, amps) ∧
      (tableOf (sagBench lo hi amps)).lookup lo 1 = (0, amps) := by
  obtain ⟨hvoltages, hthrottles⟩ := axes_sagBench amps hlohi
  have h := fromPoints_sagBench hlo hlohi hhi hamps
  have hbelow : bracket [lo, hi] lo = (0, 0) := if_pos le_rfl
  have habove : bracket [lo, hi] v = (1, 0) := (if_neg (not_le.mpr (hlohi.trans_le hv))).trans (if_pos hv)
  have hnone : bracket ([0, 1] : List ℚ) 0 = (0, 0) := if_pos le_rfl
  have hfull : bracket ([0, 1] : List ℚ) 1 = (1, 0) := (if_neg (by simp)).trans (if_pos le_rfl)
  rw [← hvoltages] at hbelow habove
  rw [← hthrottles] at hnone hfull
  have hcorner {q : ThrustPoint ℚ} (hq : q ∈ sagBench lo hi amps) {i j : ℕ} {w u : ℚ}
      (hi' : [lo, hi][i]? = some q.voltage) (hj : ([0, 1] : List ℚ)[j]? = some q.throttle) :=
    lookup_corner h hq (v := w) (u := u) (hvoltages ▸ hi') (hthrottles ▸ hj)
  exact ⟨hcorner (q := ⟨hi, 0, 1, 0⟩) (by simp [sagBench]) (i := 1) (j := 0) rfl rfl habove hnone,
    hcorner (q := ⟨hi, 1, 1, amps⟩) (by simp [sagBench]) (i := 1) (j := 1) rfl rfl habove hfull,
    hcorner (q := ⟨lo, 1, 0, amps⟩) (by simp [sagBench]) (i := 0) (j := 1) rfl rfl hbelow hfull⟩

end

/-- From three quarters of the throttle on the motor draws ten amperes, and half the volts lift nothing. -/
def dipBench : List (ThrustPoint ℚ) :=
  [⟨10, 0, 0, 0⟩, ⟨10, 1 / 2, 10, 0⟩, ⟨10, 3 / 4, 10, 10⟩, ⟨10, 1, 15, 10⟩,
    ⟨5, 0, 0, 0⟩, ⟨5, 1 / 2, 0, 0⟩, ⟨5, 3 / 4, 0, 10⟩, ⟨5, 1, 0, 10⟩]

/-- At ten volts the motor draws so much that five are left, and at five volts it draws nothing. -/
def flipBench : List (ThrustPoint ℚ) := [⟨10, 0, 10, 10⟩, ⟨5, 0, 5, 0⟩]

theorem fromPoints_dipBench : fromPoints dipBench = .ok (tableOf dipBench) := by
  refine fromPoints_eq_ok.mpr ⟨⟨by decide, ?_, ?_, ?_, fullGrid_iff.mpr ?_, ?_, ?_⟩, rfl⟩
  all_goals decide +kernel

theorem dip_thrusts : ((tenVolts (1 / 10)).atThrottle (1 / 2) (tableOf dipBench)).thrustN = 10 ∧
    ((tenVolts (1 / 10)).atThrottle (3 / 4) (tableOf dipBench)).thrustN = 8 ∧
    ((tenVolts (1 / 10)).atThrottle 1 (tableOf dipBench)).thrustN = 12 := by
  decide +kernel

/-- A weight of nine is carried at half the throttle and at full throttle, and not at three quarters. -/
theorem hover_too_weak : ∃ u ≤ (1 / 2 : ℚ), (tenVolts (1 / 10)).hoverThrottle (tableOf dipBench) 9 = some u ∧
    (tenVolts (1 / 10)).totalThrust (tableOf dipBench) (3 / 4) < 9 := by
  obtain ⟨hhalf, hthree, hfull⟩ := dip_thrusts
  have htotal (u : ℚ) : (tenVolts (1 / 10)).totalThrust (tableOf dipBench) u =
      ((tenVolts (1 / 10)).atThrottle u (tableOf dipBench)).thrustN := by
    rw [Powertrain.totalThrust, tenVolts, Nat.cast_one, mul_one]
  have hmid : ¬ (tenVolts (1 / 10)).totalThrust (tableOf dipBench) (1 / 2 * (0 + 1)) < 9 := by
    rw [htotal, zero_add, mul_one, hhalf]
    norm_num
  have hkeeps : 9 ≤ (tenVolts (1 / 10)).totalThrust (tableOf dipBench) (1 / 2 * (0 + 1)) := not_lt.mp hmid
  obtain ⟨-, hhigh, hwidth, -⟩ := Powertrain.bisect_spec 59 (a := 0) (by norm_num) hkeeps
  rw [Powertrain.hoverThrottle, if_pos (by rw [htotal, hfull]; norm_num), htotal, hthree]
  refine ⟨_, ?_, rfl, by norm_num⟩
  rw [Powertrain.bisect, if_neg hmid]
  have : 0 ≤ (1 / 2 * (0 + 1) - 0 : ℚ) / 2 ^ 59 := by positivity
  linarith

/-- The voltages change back and forth between ten and five, and the current that is returned is none of those that
the table has near the voltage that is returned. -/
theorem never_settles {v : ℚ} (hv : |((tenVolts (1 / 2)).atThrottle 0 (tableOf flipBench)).vEff - v| < 1 / 1000000) :
    ((tenVolts (1 / 2)).atThrottle 0 (tableOf flipBench)).currentA ≠ ((tableOf flipBench).lookup v 0).2 := by
  have hvoltage : ((tenVolts (1 / 2)).atThrottle 0 (tableOf flipBench)).vEff = 10 := by decide +kernel
  have hcurrent : ((tenVolts (1 / 2)).atThrottle 0 (tableOf flipBench)).currentA = 0 := by decide +kernel
  have hvoltages : (tableOf flipBench).voltages = [5, 10] := by decide +kernel
  have hthrottles : (tableOf flipBench).throttles = [0] := by decide +kernel
  have hcurrents : (tableOf flipBench).current = [0, 10] := by decide +kernel
  rw [hvoltage, abs_lt] at hv
  rw [hcurrent, ThrustTable.lookup, hvoltages, hthrottles, hcurrents, @bracket_short [0] (by decide)]
  obtain ⟨hlow, -⟩ | ⟨-, -, hb⟩ | ⟨i, hi, -, hlow, hhigh, hb⟩ := bracket_cases [5, 10] v
  · norm_num at hlow
    linarith
  · rw [hb]
    norm_num [interpolate]
  · obtain rfl : i = 0 := by
      simp only [List.length_cons, List.length_nil] at hi
      omega
    rw [hb]
    norm_num [interpolate]
    intro h
    linarith

/-- With a resistance thrust falls on some bench around the voltages of the battery. -/
theorem exists_not_thrustClaim {p : Powertrain} (hr : 0 < p.resistance) (hlow : 2 / 1000000 ≤ p.batteryV0)
    (hhigh : p.batteryV0 < 2000) :
    ∃ points table, fromPoints points = .ok table ∧ ¬ p.ThrustClaim table := by
  set V := p.batteryV0 with hV
  have hpos : 0 < V := by linarith
  have hhalf : 1 / 2 * V < min V 1000 := lt_min (by linarith) (by linarith)
  have hamps : 0 ≤ V / (2 * p.resistance) := by positivity
  have hdrop : V / (2 * p.resistance) * p.resistance = 1 / 2 * V := by
    rw [div_mul_eq_mul_div, mul_div_mul_right _ _ hr.ne']
    ring
  have htable := fromPoints_sagBench (by linarith) hhalf (min_le_right V 1000) hamps
  obtain ⟨hnone, hfull, hsagged⟩ :=
    lookup_sagBench (by linarith) hhalf (min_le_right V 1000) hamps (v := V) (min_le_left V 1000)
  set table := tableOf (sagBench (1 / 2 * V) (min V 1000) (V / (2 * p.resistance)))
  refine ⟨_, table, htable, fun hclaim => ?_⟩
  have hrest : (p.sagPoint 0 table V).vEff = V := by
    rw [Powertrain.sagPoint_vEff, ← hV, hnone, zero_mul, sub_zero, max_eq_left (by linarith)]
  have hsag (v : ℚ) (hv : (table.lookup v 1).2 = V / (2 * p.resistance)) : (p.sagPoint 1 table v).vEff = 1 / 2 * V := by
    rw [Powertrain.sagPoint_vEff, ← hV, hv, hdrop, max_eq_right (by linarith)]
  have hfirst := hsag V (by rw [hfull])
  have hread : p.lastRead table 0 = V := (Powertrain.lastRead_of_settled le_rfl zero_le_one (by
    rw [Powertrain.Settled, ← hV, hrest, sub_self, abs_zero]
    norm_num)).2
  have hread' : p.lastRead table 1 = 1 / 2 * V := by
    rw [(Powertrain.lastRead_of_fixed zero_le_one le_rfl (by
      rw [← hV, hfirst, hsag _ (by rw [hsagged])])).2, if_neg, ← hV, hfirst]
    rw [Powertrain.Settled, ← hV, hfirst, abs_of_nonpos (by linarith), not_lt]
    linarith
  have hfalls := hclaim.rises 0 1 le_rfl zero_le_one le_rfl
  rw [Powertrain.atThrottle_eq, Powertrain.atThrottle_eq, Powertrain.clamp_eq le_rfl zero_le_one,
    Powertrain.clamp_eq zero_le_one le_rfl, hread, hread'] at hfalls
  change (table.lookup V 0).1 ≤ (table.lookup (1 / 2 * V) 1).1 at hfalls
  rw [hnone, hsagged] at hfalls
  exact absurd hfalls (by norm_num)

end Forge.Sim
