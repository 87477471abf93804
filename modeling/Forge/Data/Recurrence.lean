import Forge.Data.Numerals
import Mathlib.Algebra.Order.Archimedean.Basic
import Mathlib.Tactic.LinearCombination
import Mathlib.Tactic.Positivity
import Mathlib.Tactic.Ring

/-!
# Recurrences of the second order

A sequence with `x (n + 2) = a * x (n + 1) - b * x n + w n`, as a run over pairs of successive terms (`run`). It is
stable when bounded inputs give bounded runs, and runs without input tend to zero.

It is if `|a| < 1 + b` and `b < 1`, the criterion of Schur and Jury (`Criterion`): **`Criterion.bounded`** and
**`Criterion.vanishing`**. The proof has a quadratic energy that every step without input decreases (`energy_next`).
**`alternating`** is a run that does not tend to zero where `a ≤ -(1 + b)` and `a ≤ 0`.
-/

namespace Forge.Recurrence

variable {K : Type*} [Field K]

/-- The next pair of terms, the newest first. -/
def next (a b w : K) (z : K × K) : K × K := (a * z.1 - b * z.2 + w, z.1)

/-- The pairs from a start on. -/
def run (a b : K) (w : ℕ → K) (z : K × K) : ℕ → K × K
  | 0 => z
  | n + 1 => next a b (w n) (run a b w z n)

/-- The share of a pair that a step without input takes from its energy. -/
def loss (a b : K) : K := (1 - b) * ((1 + b) ^ 2 - a ^ 2)

/-- A quadratic energy of a pair. -/
def energy (a b : K) (z : K × K) : K :=
  2 * (1 + b) * z.1 ^ 2 - 4 * a * b * z.1 * z.2 + (loss a b + 2 * (1 + b) * b ^ 2) * z.2 ^ 2

variable {a b : K}

/-- **A step without input takes energy.** -/
theorem energy_next (z : K × K) : energy a b (next a b 0 z) = energy a b z - loss a b * (z.1 ^ 2 + z.2 ^ 2) := by
  simp only [energy, next, loss]
  ring

/-- The criterion of Schur and Jury. -/
structure Criterion [LinearOrder K] (a b : K) : Prop where
  sum : |a| < 1 + b
  product : b < 1

variable [LinearOrder K] [IsStrictOrderedRing K]

namespace Criterion

variable (h : Criterion a b)

include h

theorem one_add_pos : 0 < 1 + b := (abs_nonneg a).trans_lt h.sum

theorem sq_lt : a ^ 2 < (1 + b) ^ 2 := sq_lt_sq' (abs_lt.mp h.sum).1 (abs_lt.mp h.sum).2

theorem loss_pos : 0 < loss a b := mul_pos (sub_pos.mpr h.product) (sub_pos.mpr h.sq_lt)

theorem energy_nonneg (z : K × K) : 0 ≤ energy a b z := by
  have hp : 0 < 2 * (1 + b) := mul_pos two_pos h.one_add_pos
  have hsquare : 2 * (1 + b) * energy a b z = (2 * (1 + b) * z.1 - 2 * a * b * z.2) ^ 2 +
      (2 * (1 + b) * loss a b + 4 * b ^ 2 * ((1 + b) ^ 2 - a ^ 2)) * z.2 ^ 2 := by
    simp only [energy]
    ring
  have hrest : 0 ≤ 2 * (1 + b) * loss a b + 4 * b ^ 2 * ((1 + b) ^ 2 - a ^ 2) := by
    have := mul_pos hp h.loss_pos
    have := mul_nonneg (mul_nonneg (by norm_num : (0 : K) ≤ 4) (sq_nonneg b)) (sub_nonneg.mpr h.sq_lt.le)
    linarith
  refine nonneg_of_mul_nonneg_right ?_ hp
  rw [hsquare]
  positivity

/-- The energy is at least what the next step takes. -/
theorem loss_le_energy (z : K × K) : loss a b * (z.1 ^ 2 + z.2 ^ 2) ≤ energy a b z := by
  have := h.energy_nonneg (next a b 0 z)
  rw [energy_next] at this
  linarith

theorem energy_le (z : K × K) : energy a b z ≤
    (loss a b + (2 * (1 + b) * (1 + b ^ 2) + 2 * |a * b|)) * (z.1 ^ 2 + z.2 ^ 2) := by
  have hproduct : -(2 * (a * b)) * (2 * z.1 * z.2) ≤ 2 * |a * b| * (z.1 ^ 2 + z.2 ^ 2) := by
    have htwice : |2 * z.1 * z.2| ≤ z.1 ^ 2 + z.2 ^ 2 :=
      abs_le.mpr ⟨by linarith [sq_nonneg (z.1 + z.2), add_sq z.1 z.2], two_mul_le_add_sq z.1 z.2⟩
    calc -(2 * (a * b)) * (2 * z.1 * z.2) ≤ |-(2 * (a * b)) * (2 * z.1 * z.2)| := le_abs_self _
      _ = 2 * |a * b| * |2 * z.1 * z.2| := by rw [abs_mul, abs_neg, abs_mul 2 (a * b), abs_two]
      _ ≤ _ := mul_le_mul_of_nonneg_left htwice (by positivity)
  have hfirst := mul_nonneg h.loss_pos.le (sq_nonneg z.1)
  have hsecond := mul_nonneg (mul_nonneg two_pos.le h.one_add_pos.le) (mul_nonneg (sq_nonneg b) (sq_nonneg z.1))
  have hthird := mul_nonneg (mul_nonneg two_pos.le h.one_add_pos.le) (sq_nonneg z.2)
  rw [energy]
  linarith

/-- What an input does to the energy, for any split between the two. -/
theorem energy_input {e : K} (he : 0 < e) (w : K) (z : K × K) :
    energy a b (next a b w z) ≤ (1 + e) * energy a b (next a b 0 z) + (1 + 1 / e) * (2 * (1 + b)) * w ^ 2 := by
  obtain ⟨y, hy⟩ : ∃ y, y = next a b 0 z := ⟨_, rfl⟩
  have hnext : next a b w z = (y.1 + w, y.2) := by simp [hy, next]
  have hscaled : energy a b (e * y.1 - w, e * y.2) = e ^ 2 * energy a b y - e * (energy a b (y.1 + w, y.2) -
      energy a b y - 2 * (1 + b) * w ^ 2) + 2 * (1 + b) * w ^ 2 := by
    simp only [energy]
    ring
  have hcross : energy a b (y.1 + w, y.2) - energy a b y - 2 * (1 + b) * w ^ 2 ≤
      e * energy a b y + 1 / e * (2 * (1 + b) * w ^ 2) := by
    have hnonneg := h.energy_nonneg (e * y.1 - w, e * y.2)
    rw [hscaled] at hnonneg
    refine le_of_mul_le_mul_left ?_ he
    calc _ ≤ e ^ 2 * energy a b y + 2 * (1 + b) * w ^ 2 := by linarith
      _ = _ := by field_simp
  rw [hnext, ← hy]
  linarith

/-- **Every step takes a fixed share of the energy**, and an input adds a multiple of its square. -/
theorem contraction : ∃ r d : K, 0 ≤ r ∧ r < 1 ∧ 0 ≤ d ∧
    ∀ w z, energy a b (next a b w z) ≤ r * energy a b z + d * w ^ 2 := by
  obtain ⟨c, hc⟩ : ∃ c, c = 2 * (1 + b) * (1 + b ^ 2) + 2 * |a * b| := ⟨_, rfl⟩
  have hc0 : 0 ≤ c := by
    have := h.one_add_pos
    rw [hc]
    positivity
  have hsum : 0 < loss a b + c := add_pos_of_pos_of_nonneg h.loss_pos hc0
  obtain ⟨e, he⟩ : ∃ e, e = loss a b / (loss a b + c) := ⟨_, rfl⟩
  have he0 : 0 < e := he ▸ div_pos h.loss_pos hsum
  have he1 : e ≤ 1 := he ▸ (div_le_one hsum).mpr (le_add_of_nonneg_right hc0)
  have hshare (z : K × K) : energy a b (next a b 0 z) ≤ (1 - e) * energy a b z := by
    have hle : e * energy a b z ≤ loss a b * (z.1 ^ 2 + z.2 ^ 2) := by
      calc e * energy a b z ≤ e * ((loss a b + c) * (z.1 ^ 2 + z.2 ^ 2)) :=
            mul_le_mul_of_nonneg_left (hc ▸ h.energy_le z) he0.le
        _ = loss a b * (z.1 ^ 2 + z.2 ^ 2) := by rw [he]; field_simp
    rw [energy_next]
    linarith
  refine ⟨(1 + e) * (1 - e), (1 + 1 / e) * (2 * (1 + b)), mul_nonneg (by linarith) (by linarith), ?_, ?_, ?_⟩
  · calc (1 + e) * (1 - e) = 1 - e ^ 2 := by ring
      _ < 1 := sub_lt_self 1 (pow_pos he0 2)
  · have := h.one_add_pos
    positivity
  · intro w z
    calc energy a b (next a b w z) ≤ (1 + e) * energy a b (next a b 0 z) + (1 + 1 / e) * (2 * (1 + b)) * w ^ 2 :=
          h.energy_input he0 w z
      _ ≤ (1 + e) * ((1 - e) * energy a b z) + (1 + 1 / e) * (2 * (1 + b)) * w ^ 2 :=
          add_le_add_left (mul_le_mul_of_nonneg_left (hshare z) (by linarith)) _
      _ = _ := by ring

/-- The energy of a run whose inputs are bounded is bounded. -/
theorem energy_run_le {r d B : K} (hr : r < 1) (hr0 : 0 ≤ r) (hd : 0 ≤ d)
    (hstep : ∀ w z, energy a b (next a b w z) ≤ r * energy a b z + d * w ^ 2) {w : ℕ → K} (hw : ∀ n, |w n| ≤ B)
    (z : K × K) (n : ℕ) : energy a b (run a b w z n) ≤ energy a b z + d * B ^ 2 / (1 - r) := by
  have hgap : 0 < 1 - r := sub_pos.mpr hr
  induction n with
  | zero => exact le_add_of_nonneg_right (div_nonneg (mul_nonneg hd (sq_nonneg B)) hgap.le)
  | succ n ih =>
    have hinput : d * w n ^ 2 ≤ d * B ^ 2 :=
      mul_le_mul_of_nonneg_left (sq_le_sq' (by linarith [neg_abs_le (w n), hw n]) ((le_abs_self _).trans (hw n))) hd
    calc energy a b (run a b w z (n + 1)) ≤ r * energy a b (run a b w z n) + d * w n ^ 2 := hstep _ _
      _ ≤ r * (energy a b z + d * B ^ 2 / (1 - r)) + d * B ^ 2 :=
          add_le_add (mul_le_mul_of_nonneg_left ih hr0) hinput
      _ = r * energy a b z + d * B ^ 2 / (1 - r) := by field_simp; ring
      _ ≤ energy a b z + d * B ^ 2 / (1 - r) :=
          add_le_add_left (mul_le_of_le_one_left (h.energy_nonneg z) hr.le) _

/-- **Bounded inputs give bounded runs.** -/
theorem bounded (z : K × K) (B : K) : ∃ M, ∀ w : ℕ → K, (∀ n, |w n| ≤ B) →
    ∀ n, |(run a b w z n).1| ≤ M ∧ |(run a b w z n).2| ≤ M := by
  obtain ⟨r, d, hr0, hr, hd, hstep⟩ := h.contraction
  refine ⟨1 + (energy a b z + d * B ^ 2 / (1 - r)) / loss a b, fun w hw n => ?_⟩
  have hsum : (run a b w z n).1 ^ 2 + (run a b w z n).2 ^ 2 ≤ (energy a b z + d * B ^ 2 / (1 - r)) / loss a b := by
    rw [le_div_iff₀' h.loss_pos]
    exact (h.loss_le_energy _).trans (h.energy_run_le hr hr0 hd hstep hw z n)
  have habs (x : K) : |x| ≤ 1 + x ^ 2 := by
    have := sq_nonneg (|x| - 1)
    have := sq_abs x
    linarith [abs_nonneg x]
  have hfirst := sq_nonneg (run a b w z n).1
  have hsecond := sq_nonneg (run a b w z n).2
  constructor
  · linarith [habs (run a b w z n).1]
  · linarith [habs (run a b w z n).2]

/-- **Runs without input tend to zero.** -/
theorem vanishing [Archimedean K] (z : K × K) {e : K} (he : 0 < e) :
    ∃ N, ∀ n ≥ N, (run a b (fun _ => 0) z n).1 ^ 2 < e := by
  obtain ⟨r, d, hr0, hr, hd, hstep⟩ := h.contraction
  have hpow (n : ℕ) : energy a b (run a b (fun _ => 0) z n) ≤ r ^ n * energy a b z := by
    induction n with
    | zero => rw [pow_zero, one_mul]; rfl
    | succ n ih =>
      have := hstep 0 (run a b (fun _ => 0) z n)
      calc energy a b (run a b (fun _ => 0) z (n + 1)) ≤ r * energy a b (run a b (fun _ => 0) z n) + d * 0 ^ 2 := this
        _ ≤ r * (r ^ n * energy a b z) := by
            rw [zero_pow two_ne_zero, mul_zero, add_zero]
            exact mul_le_mul_of_nonneg_left ih hr0
        _ = r ^ (n + 1) * energy a b z := by ring
  have htarget : 0 < loss a b * e / (energy a b z + 1) :=
    div_pos (mul_pos h.loss_pos he) (add_pos_of_nonneg_of_pos (h.energy_nonneg z) one_pos)
  obtain ⟨N, hN⟩ := exists_pow_lt_of_lt_one htarget hr
  refine ⟨N, fun n hn => ?_⟩
  have hle : r ^ n * (energy a b z + 1) < loss a b * e := by
    rw [← lt_div_iff₀ (add_pos_of_nonneg_of_pos (h.energy_nonneg z) one_pos)]
    exact (pow_le_pow_of_le_one hr0 hr.le hn).trans_lt hN
  have hlarge := h.loss_le_energy (run a b (fun _ => 0) z n)
  have hrn := pow_nonneg hr0 n
  refine lt_of_mul_lt_mul_left ?_ h.loss_pos.le
  have := mul_nonneg h.loss_pos.le (sq_nonneg (run a b (fun _ => 0) z n).2)
  linarith [hpow n]

end Criterion

/-- A constant input moves the point of rest. -/
theorem run_shift {w t : K} (ht : a * t - b * t + w = t) (z : K × K) (n : ℕ) : run a b (fun _ => w) z n =
    ((run a b (fun _ => 0) (z.1 - t, z.2 - t) n).1 + t, (run a b (fun _ => 0) (z.1 - t, z.2 - t) n).2 + t) := by
  induction n with
  | zero => simp [run]
  | succ n ih =>
    rw [run, ih]
    simp only [run, next, Prod.mk.injEq, and_true]
    linear_combination ht

/-- **A run that does not tend to zero**: its terms alternate. -/
theorem alternating (ha : a ≤ 0) (hab : a ≤ -(1 + b)) (n : ℕ) : ∃ s t, 1 ≤ s ∧ 1 ≤ t ∧ (0 ≤ b → t ≤ s) ∧
    run a b (fun _ => 0) (1, -1) n = ((-1) ^ n * s, -((-1) ^ n * t)) := by
  induction n with
  | zero => exact ⟨1, 1, le_rfl, le_rfl, fun _ => le_rfl, by simp [run]⟩
  | succ n ih =>
    obtain ⟨s, t, hs, ht, hts, hrun⟩ := ih
    have hs0 : 0 ≤ s := zero_le_one.trans hs
    have hgrow : (1 + b) * s ≤ -a * s := mul_le_mul_of_nonneg_right (by linarith) hs0
    refine ⟨-a * s - b * t, s, ?_, hs, ?_, ?_⟩
    · rcases le_total 0 b with hb | hb
      · have := mul_le_mul_of_nonneg_left (hts hb) hb
        linarith
      · have hfirst : -a * 1 ≤ -a * s := mul_le_mul_of_nonneg_left hs (by linarith)
        have hsecond : -b * 1 ≤ -b * t := mul_le_mul_of_nonneg_left ht (by linarith)
        linarith
    · intro hb
      have := mul_le_mul_of_nonneg_left (hts hb) hb
      linarith
    · rw [run, hrun, next, pow_succ]
      ext
      · ring
      · ring

end Forge.Recurrence
