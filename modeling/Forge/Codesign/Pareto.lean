import Forge.Data.FloatOrder
import Forge.Data.Front
import Forge.Json.Python

/-!
# The Pareto front of a co-design search

`_pareto` (`codesign.py`) keeps the admitted candidates that no other admitted candidate dominates: one with at least
the score and the endurance at no more mass, and better in one of them. Candidates are objects; a candidate is compared
with every other object, also with one that has the same metrics.

**`pareto_correct`**: for finite metrics the result is exactly that, and every admitted candidate is on the front or
dominated from it.
-/

namespace Forge.Python

/-! ### Comparing numbers -/

/-- The number that a finite numeral stands for. -/
def value : Numeral → ℚ
  | .int i => i
  | .decimal x => floatValue x

def IsFinite : Numeral → Prop
  | .int _ => True
  | .decimal x => x.isFinite = true

instance : DecidablePred IsFinite
  | .int _ => isTrue trivial
  | .decimal x => inferInstanceAs (Decidable (x.isFinite = true))

/-- `a < b`; integers and floats are compared exactly. -/
def lt : Numeral → Numeral → Bool
  | .int i, .int j => i < j
  | .decimal x, .decimal y => x < y
  | .int i, .decimal y => if y.isFinite then (i : ℚ) < floatValue y else (0.0 : Float) < y
  | .decimal x, .int j => if x.isFinite then floatValue x < j else x < (0.0 : Float)

/-- `a <= b` -/
def le : Numeral → Numeral → Bool
  | .int i, .int j => i ≤ j
  | .decimal x, .decimal y => x ≤ y
  | .int i, .decimal y => if y.isFinite then (i : ℚ) ≤ floatValue y else (0.0 : Float) < y
  | .decimal x, .int j => if x.isFinite then floatValue x ≤ j else x < (0.0 : Float)

theorem lt_iff {a b : Numeral} (ha : IsFinite a) (hb : IsFinite b) : lt a b = true ↔ value a < value b := by
  cases a with
  | int i =>
    cases b with
    | int j => simp [lt, value]
    | decimal y => rw [lt, if_pos (show y.isFinite = true from hb), decide_eq_true_eq, value, value]
  | decimal x =>
    cases b with
    | int j => rw [lt, if_pos (show x.isFinite = true from ha), decide_eq_true_eq, value, value]
    | decimal y => rw [lt, decide_eq_true_eq, float_lt_iff_value ha hb, value, value]

theorem le_iff {a b : Numeral} (ha : IsFinite a) (hb : IsFinite b) : le a b = true ↔ value a ≤ value b := by
  cases a with
  | int i =>
    cases b with
    | int j => simp [le, value]
    | decimal y => rw [le, if_pos (show y.isFinite = true from hb), decide_eq_true_eq, value, value]
  | decimal x =>
    cases b with
    | int j => rw [le, if_pos (show x.isFinite = true from ha), decide_eq_true_eq, value, value]
    | decimal y => rw [le, decide_eq_true_eq, float_le_iff_value ha hb, value, value]

end Forge.Python

namespace Forge.Codesign

/-! ### Candidates -/

/-- The metrics that are compared. -/
structure Objectives where
  score : Numeral
  enduranceMin : Numeral
  massG : Numeral

structure Objectives.Finite (m : Objectives) : Prop where
  score : Python.IsFinite m.score
  enduranceMin : Python.IsFinite m.enduranceMin
  massG : Python.IsFinite m.massG

/-- What is read of a candidate. -/
structure EvaluatedCandidate where
  /-- The truth of `candidate.get("admitted")`. -/
  admitted : Bool
  metrics : Objectives

/-- An object, by which `is` compares. -/
abbrev ObjectRef := ℕ

/-! ### The front -/

/-- `at_least` -/
def atLeast (om metrics : Objectives) : Bool :=
  Python.le metrics.score om.score && Python.le metrics.enduranceMin om.enduranceMin && Python.le om.massG metrics.massG

/-- `strictly` -/
def strictly (om metrics : Objectives) : Bool :=
  Python.lt metrics.score om.score || Python.lt metrics.enduranceMin om.enduranceMin || Python.lt om.massG metrics.massG

/-- `dominated`, for a candidate of the outer loop. -/
def dominated (heap : ObjectRef → EvaluatedCandidate) (candidates : List ObjectRef) (candidate : ObjectRef) : Bool :=
  candidates.any fun other => other ≠ candidate && (heap other).admitted &&
    (atLeast (heap other).metrics (heap candidate).metrics && strictly (heap other).metrics (heap candidate).metrics)

/-- `_pareto` -/
def pareto (heap : ObjectRef → EvaluatedCandidate) (candidates : List ObjectRef) : List ObjectRef :=
  candidates.filter fun candidate => (heap candidate).admitted && !dominated heap candidates candidate

/-! ### Dominance -/

/-- At least as good in all three, and better in one. -/
structure Dominates (a b : Objectives) : Prop where
  score : Python.value b.score ≤ Python.value a.score
  enduranceMin : Python.value b.enduranceMin ≤ Python.value a.enduranceMin
  massG : Python.value a.massG ≤ Python.value b.massG
  better : Python.value b.score < Python.value a.score ∨ Python.value b.enduranceMin < Python.value a.enduranceMin ∨
    Python.value a.massG < Python.value b.massG

theorem dominates_iff {a b : Objectives} : Dominates a b ↔
    (Python.value b.score ≤ Python.value a.score ∧ Python.value b.enduranceMin ≤ Python.value a.enduranceMin ∧
      Python.value a.massG ≤ Python.value b.massG) ∧
    (Python.value b.score < Python.value a.score ∨ Python.value b.enduranceMin < Python.value a.enduranceMin ∨
      Python.value a.massG < Python.value b.massG) :=
  ⟨fun h => ⟨⟨h.score, h.enduranceMin, h.massG⟩, h.better⟩, fun h => ⟨h.1.1, h.1.2.1, h.1.2.2, h.2⟩⟩

instance : DecidableRel Dominates := fun _ _ => decidable_of_iff' _ dominates_iff

theorem Dominates.irrefl (a : Objectives) : ¬Dominates a a := fun h => by
  rcases h.better with hlt | hlt | hlt <;> exact lt_irrefl _ hlt

theorem Dominates.trans {a b c : Objectives} (hab : Dominates a b) (hbc : Dominates b c) : Dominates a c where
  score := hbc.score.trans hab.score
  enduranceMin := hbc.enduranceMin.trans hab.enduranceMin
  massG := hab.massG.trans hbc.massG
  better := by
    rcases hab.better with h | h | h
    · exact .inl (hbc.score.trans_lt h)
    · exact .inr (.inl (hbc.enduranceMin.trans_lt h))
    · exact .inr (.inr (h.trans_le hbc.massG))

/-- For finite metrics the two comparisons are dominance. -/
theorem dominates_iff_comparisons {om metrics : Objectives} (hom : om.Finite) (hmetrics : metrics.Finite) :
    (atLeast om metrics && strictly om metrics) = true ↔ Dominates om metrics := by
  simp only [atLeast, strictly, Bool.and_eq_true, Bool.or_eq_true, Python.le_iff hmetrics.score hom.score,
    Python.le_iff hmetrics.enduranceMin hom.enduranceMin, Python.le_iff hom.massG hmetrics.massG,
    Python.lt_iff hmetrics.score hom.score, Python.lt_iff hmetrics.enduranceMin hom.enduranceMin,
    Python.lt_iff hom.massG hmetrics.massG, dominates_iff, and_assoc, or_assoc]

section

variable (heap : ObjectRef → EvaluatedCandidate)

/-- Dominance of the candidates that two objects are. -/
def Beats (a b : ObjectRef) : Prop := Dominates (heap a).metrics (heap b).metrics

instance : DecidableRel (Beats heap) := fun _ _ => inferInstanceAs (Decidable (Dominates _ _))

instance : IsTrans ObjectRef (Beats heap) := ⟨fun _ _ _ => Dominates.trans⟩

instance : Std.Irrefl (Beats heap) := ⟨fun _ => Dominates.irrefl _⟩

/-- The admitted ones of the candidates. -/
def admittedOf (candidates : List ObjectRef) : List ObjectRef := candidates.filter fun c => (heap c).admitted

variable {heap} {candidates : List ObjectRef}

theorem mem_admittedOf {c : ObjectRef} : c ∈ admittedOf heap candidates ↔ c ∈ candidates ∧ (heap c).admitted = true := by
  simp [admittedOf]

/-- A candidate is dominated when an admitted one beats it; that `is` passes over the candidate itself
makes no difference. -/
theorem dominated_iff (hfinite : ∀ c ∈ admittedOf heap candidates, (heap c).metrics.Finite) {c : ObjectRef}
    (hc : c ∈ admittedOf heap candidates) :
    dominated heap candidates c = true ↔ ∃ o ∈ admittedOf heap candidates, Beats heap o c := by
  simp only [dominated, List.any_eq_true, Bool.and_eq_true, decide_eq_true_eq, ne_eq]
  constructor
  · rintro ⟨o, ho, ⟨-, hadmitted⟩, hcompare⟩
    have ho := mem_admittedOf.mpr ⟨ho, hadmitted⟩
    exact ⟨o, ho, (dominates_iff_comparisons (hfinite o ho) (hfinite c hc)).mp (by simpa using hcompare)⟩
  · rintro ⟨o, ho, hbeats⟩
    have hne : o ≠ c := by
      rintro rfl
      exact Dominates.irrefl _ hbeats
    obtain ⟨hmem, hadmitted⟩ := mem_admittedOf.mp ho
    refine ⟨o, hmem, ⟨hne, hadmitted⟩, ?_⟩
    simpa using (dominates_iff_comparisons (hfinite o ho) (hfinite c hc)).mpr hbeats

/-- The result is the front of the admitted candidates. -/
theorem pareto_eq_front (hfinite : ∀ c ∈ admittedOf heap candidates, (heap c).metrics.Finite) :
    pareto heap candidates = Front.front (Beats heap) (admittedOf heap candidates) := by
  rw [Front.front, admittedOf, List.filter_filter, pareto]
  refine List.filter_congr fun c hc => ?_
  cases hadmitted : (heap c).admitted with
  | false => simp
  | true =>
    have hiff := dominated_iff hfinite (mem_admittedOf.mpr ⟨hc, hadmitted⟩)
    rw [Bool.true_and, Bool.and_true, Bool.eq_iff_iff, Bool.not_eq_true', decide_eq_true_eq, ← Bool.not_eq_true, hiff]
    simp only [not_exists, not_and]
    exact Iff.rfl

/-- What a front of candidates is for. -/
structure ParetoFront (heap : ObjectRef → EvaluatedCandidate) (candidates front : List ObjectRef) : Prop where
  /-- In the order of the candidates, those that no other admitted candidate dominates. -/
  exact : front = candidates.filter fun c =>
    (heap c).admitted ∧
      ∀ o ∈ candidates, o ≠ c → (heap o).admitted = true → ¬Dominates (heap o).metrics (heap c).metrics
  nonempty : (∃ c ∈ candidates, (heap c).admitted = true) → front ≠ []
  covers : ∀ c ∈ candidates, (heap c).admitted = true →
    c ∈ front ∨ ∃ o ∈ front, Dominates (heap o).metrics (heap c).metrics

/-- **`_pareto` returns the Pareto front**, and the order of the candidates makes no difference but to its order. -/
theorem pareto_correct (heap : ObjectRef → EvaluatedCandidate) (candidates : List ObjectRef)
    (hfinite : ∀ c ∈ candidates, (heap c).metrics.Finite) :
    ParetoFront heap candidates (pareto heap candidates) ∧
      ∀ permuted, candidates.Perm permuted → (pareto heap candidates).Perm (pareto heap permuted) := by
  have hadmitted : ∀ c ∈ admittedOf heap candidates, (heap c).metrics.Finite :=
    fun c hc => hfinite c (mem_admittedOf.mp hc).1
  have hfront := pareto_eq_front hadmitted
  refine ⟨⟨?_, ?_, ?_⟩, fun permuted hperm => ?_⟩
  · refine List.filter_congr fun c hc => ?_
    cases hc' : (heap c).admitted with
    | false => simp
    | true =>
      have hiff := dominated_iff hadmitted (mem_admittedOf.mpr ⟨hc, hc'⟩)
      rw [Bool.true_and, Bool.eq_iff_iff, Bool.not_eq_true', decide_eq_true_eq, ← Bool.not_eq_true, hiff]
      simp only [not_exists, not_and, true_and, mem_admittedOf, and_imp]
      refine ⟨fun h o ho _ => h o ho, fun h o ho ho' hbeats => ?_⟩
      have hne : o ≠ c := by
        rintro rfl
        exact Dominates.irrefl _ hbeats
      exact h o ho hne ho' hbeats
  · rintro ⟨c, hc, hc'⟩
    rw [hfront]
    exact Front.front_ne_nil (List.ne_nil_of_mem (mem_admittedOf.mpr ⟨hc, hc'⟩))
  · intro c hc hc'
    rw [hfront]
    exact Front.mem_or_dominated (mem_admittedOf.mpr ⟨hc, hc'⟩)
  · have hpermuted : ∀ c ∈ admittedOf heap permuted, (heap c).metrics.Finite :=
      fun c hc => hfinite c (hperm.mem_iff.mpr (mem_admittedOf.mp hc).1)
    rw [hfront, pareto_eq_front hpermuted]
    exact Front.front_perm (hperm.filter _)

end

/-- Two equal designs, and a third that has the score of both at more mass. -/
def twoDesigns (ref : ObjectRef) : EvaluatedCandidate where
  admitted := true
  metrics := { score := .decimal 0.75, enduranceMin := .int 12, massG := if ref < 2 then .decimal 480.5 else .int 500 }

theorem pareto_correct_twoDesigns : ParetoFront twoDesigns [2, 0, 1] (pareto twoDesigns [2, 0, 1]) ∧
    ∀ permuted, [2, 0, 1].Perm permuted → (pareto twoDesigns [2, 0, 1]).Perm (pareto twoDesigns permuted) := by
  have hscore : (0.75 : Float).isFinite = true := by decide
  refine pareto_correct twoDesigns [2, 0, 1] fun c _ => ⟨hscore, trivial, ?_⟩
  change Python.IsFinite (if c < 2 then .decimal 480.5 else .int 500)
  split
  · decide
  · trivial

/-- Equal designs stay both. -/
example : pareto twoDesigns [2, 0, 1] = [0, 1] := by decide +kernel

end Forge.Codesign
