import Forge.Data.Recurrence
import Mathlib.Algebra.Order.Archimedean.Basic
import Mathlib.Tactic.FieldSimp
import Mathlib.Tactic.Linarith
import Mathlib.Tactic.NormNum

/-!
# Servos

The servo layer of `forge-motion`, a damped oscillator that follows a target by semi-implicit Euler steps, in exact
arithmetic. Its comment promises stability for `ω·dt < 2`.

A servo is a recurrence of the second order in its position (`run_eq`), so the criterion for those decides. The **key
result** is `stable_iff`: the steps are stable exactly when `(ω·dt)² + 4ζ·(ω·dt) < 4`. The bound of the comment is that
of an undamped oscillator: `shipping_servo_unstable` is a servo of the shipping range with `ω·dt = 1` that diverges.
-/

namespace Forge.Control

structure Servo (K : Type*) where
  omega : K
  zeta : K
  x : K
  v : K

variable {K : Type*} [Field K]

namespace Servo

/-- `step`, which returns the `x` of the new state. -/
def step (target dt : K) (s : Servo K) : Servo K :=
  let a := s.omega * s.omega * (target - s.x) - 2 * s.zeta * s.omega * s.v
  let v := s.v + a * dt
  { s with v, x := s.x + v * dt }

/-- The state after some steps toward a sequence of targets. -/
def run (targets : ℕ → K) (dt : K) (s : Servo K) : ℕ → Servo K
  | 0 => s
  | n + 1 => step (targets n) dt (run targets dt s n)

/-- What is expected of a servo: bounded targets keep it bounded, and it reaches a constant target. -/
structure Stable [LinearOrder K] (omega zeta dt : K) : Prop where
  bounded : ∀ x v B : K, ∃ M, ∀ targets : ℕ → K, (∀ n, |targets n| ≤ B) →
    ∀ n, |(run targets dt ⟨omega, zeta, x, v⟩ n).x| ≤ M ∧ |(run targets dt ⟨omega, zeta, x, v⟩ n).v| ≤ M
  converges : ∀ x v target e : K, 0 < e → ∃ N, ∀ n ≥ N,
    ((run (fun _ => target) dt ⟨omega, zeta, x, v⟩ n).x - target) ^ 2 < e

/-! ### The recurrence of a servo -/

/-- The factor of the position before. -/
def past (omega zeta dt : K) : K := 1 - 2 * zeta * (omega * dt)

/-- The factor of the position. -/
def present (omega zeta dt : K) : K := 1 + past omega zeta dt - (omega * dt) ^ 2

variable {omega zeta dt : K}

/-- The parameters of a servo do not change. -/
theorem run_params (targets : ℕ → K) (dt : K) (s : Servo K) (n : ℕ) :
    (run targets dt s n).omega = s.omega ∧ (run targets dt s n).zeta = s.zeta := by
  induction n with
  | zero => exact ⟨rfl, rfl⟩
  | succ n ih => exact ih

/-- **A servo is a recurrence of the second order**; its velocity is the difference of two positions. -/
theorem run_eq (targets : ℕ → K) (x v : K) (n : ℕ) :
    ((run targets dt ⟨omega, zeta, x, v⟩ n).x,
      (run targets dt ⟨omega, zeta, x, v⟩ n).x - (run targets dt ⟨omega, zeta, x, v⟩ n).v * dt) =
    Recurrence.run (present omega zeta dt) (past omega zeta dt) (fun n => (omega * dt) ^ 2 * targets n)
      (x, x - v * dt) n := by
  induction n with
  | zero => rfl
  | succ n ih =>
    obtain ⟨homega, hzeta⟩ := run_params targets dt ⟨omega, zeta, x, v⟩ n
    rw [Recurrence.run, ← ih]
    simp only [run, step, Recurrence.next, homega, hzeta, present, past]
    ext
    · ring
    · ring

variable [LinearOrder K] [IsStrictOrderedRing K]

/-- The criterion for the recurrence of a servo. -/
theorem criterion_of_lt (homega : 0 < omega) (hzeta : 0 < zeta) (hdt : 0 < dt)
    (h : (omega * dt) ^ 2 + 4 * zeta * (omega * dt) < 4) :
    Recurrence.Criterion (present omega zeta dt) (past omega zeta dt) := by
  have hstep : 0 < omega * dt := mul_pos homega hdt
  have hdamped : 0 < zeta * (omega * dt) := mul_pos hzeta hstep
  have hsq : 0 < (omega * dt) ^ 2 := pow_pos hstep 2
  refine ⟨abs_lt.mpr ⟨?_, ?_⟩, ?_⟩
  · simp only [present, past]
    linarith
  · simp only [present, past]
    linarith
  · simp only [past]
    linarith

theorem stable_of_criterion [Archimedean K] (hdt : 0 < dt)
    (h : Recurrence.Criterion (present omega zeta dt) (past omega zeta dt)) : Stable omega zeta dt where
  bounded x v B := by
    obtain ⟨M, hM⟩ := h.bounded (x, x - v * dt) ((omega * dt) ^ 2 * B)
    refine ⟨M + 2 * M / dt, fun targets htargets n => ?_⟩
    obtain ⟨hposition, hbefore⟩ := hM (fun n => (omega * dt) ^ 2 * targets n)
      (fun n => by
        rw [abs_mul, abs_of_nonneg (sq_nonneg _)]
        exact mul_le_mul_of_nonneg_left (htargets n) (sq_nonneg _)) n
    rw [← run_eq] at hposition hbefore
    have hM0 : 0 ≤ M := (abs_nonneg _).trans hposition
    have hvelocity : |(run targets dt ⟨omega, zeta, x, v⟩ n).v| ≤ 2 * M / dt := by
      rw [le_div_iff₀ hdt, ← abs_of_pos hdt, ← abs_mul, abs_of_pos hdt]
      calc |(run targets dt ⟨omega, zeta, x, v⟩ n).v * dt| = |(run targets dt ⟨omega, zeta, x, v⟩ n).x -
            ((run targets dt ⟨omega, zeta, x, v⟩ n).x - (run targets dt ⟨omega, zeta, x, v⟩ n).v * dt)| := by
            rw [sub_sub_cancel]
        _ ≤ M + M := (abs_sub _ _).trans (add_le_add hposition hbefore)
        _ = 2 * M := (two_mul M).symm
    have hrest : 0 ≤ 2 * M / dt := div_nonneg (mul_nonneg two_pos.le hM0) hdt.le
    exact ⟨hposition.trans (le_add_of_nonneg_right hrest), hvelocity.trans (le_add_of_nonneg_left hM0)⟩
  converges x v target e he := by
    obtain ⟨N, hN⟩ := h.vanishing (x - target, x - v * dt - target) he
    refine ⟨N, fun n hn => ?_⟩
    have hrest : present omega zeta dt * target - past omega zeta dt * target + (omega * dt) ^ 2 * target = target := by
      simp only [present]
      ring
    have hrun : (run (fun _ => target) dt ⟨omega, zeta, x, v⟩ n).x = (Recurrence.run (present omega zeta dt)
        (past omega zeta dt) (fun _ => 0) (x - target, x - v * dt - target) n).1 + target :=
      congrArg Prod.fst ((run_eq (fun _ => target) x v n).trans (Recurrence.run_shift hrest _ n))
    rw [hrun, add_sub_cancel_right]
    exact hN n hn

/-- A servo that swings around its target and does not come closer. -/
theorem swings (homega : 0 < omega) (hzeta : 0 < zeta) (hdt : 0 < dt)
    (h : 4 ≤ (omega * dt) ^ 2 + 4 * zeta * (omega * dt)) (n : ℕ) :
    1 ≤ ((run (fun _ => 0) dt ⟨omega, zeta, 1, 2 / dt⟩ n).x - 0) ^ 2 := by
  have hdamped : 0 < zeta * (omega * dt) := mul_pos hzeta (mul_pos homega hdt)
  have hsq : 0 ≤ (omega * dt) ^ 2 := sq_nonneg _
  have ha : present omega zeta dt ≤ 0 := by
    simp only [present, past]
    rcases le_total (2 * zeta * (omega * dt)) 2 with hc | hc <;> linarith
  have hab : present omega zeta dt ≤ -(1 + past omega zeta dt) := by
    simp only [present, past]
    linarith
  obtain ⟨s, t, hs, -, -, hrun⟩ := Recurrence.alternating ha hab n
  have hstart : ((1 : K), 1 - 2 / dt * dt) = (1, -1) := by
    rw [div_mul_cancel₀ _ hdt.ne']
    norm_num
  have heq := @run_eq K _ omega zeta dt (fun _ => 0) 1 (2 / dt) n
  simp only [mul_zero] at heq
  rw [hstart, hrun] at heq
  have hposition : (run (fun _ => 0) dt ⟨omega, zeta, 1, 2 / dt⟩ n).x = (-1) ^ n * s := congrArg Prod.fst heq
  rw [hposition, sub_zero, mul_pow, ← pow_mul, mul_comm n 2, pow_mul, neg_one_sq, one_pow, one_mul]
  exact one_le_pow₀ hs

/-- **When a servo is stable.** -/
theorem stable_iff [Archimedean K] (homega : 0 < omega) (hzeta : 0 < zeta) (hdt : 0 < dt) :
    Stable omega zeta dt ↔ (omega * dt) ^ 2 + 4 * zeta * (omega * dt) < 4 := by
  constructor
  · intro h
    by_contra hlarge
    obtain ⟨N, hN⟩ := h.converges 1 (2 / dt) 0 1 one_pos
    exact absurd (hN N le_rfl) (swings homega hzeta hdt (not_lt.mp hlarge) N).not_gt
  · exact fun h => stable_of_criterion hdt (criterion_of_lt homega hzeta hdt h)

/-- The servo of the shipping range at the step of 50 ms that the test of the source tries. -/
theorem stable_iff_shipping : Stable (15 : ℚ) (17 / 20) (1 / 20) :=
  (stable_iff (by norm_num) (by norm_num) (by norm_num)).mpr (by norm_num)

/-- **A servo of the shipping range diverges**: at `ω = 16` and `ζ = 0.8`, with steps of 62.5 ms. -/
theorem shipping_servo_unstable : ∃ omega zeta dt : ℚ, 0 < omega ∧ 4 / 5 ≤ zeta ∧ zeta ≤ 17 / 20 ∧ 0 < dt ∧
    omega * dt < 2 ∧ ¬ Stable omega zeta dt := by
  refine ⟨16, 4 / 5, 1 / 16, by norm_num, by norm_num, by norm_num, by norm_num, by norm_num, fun h => ?_⟩
  obtain ⟨N, hN⟩ := h.converges 1 (2 / (1 / 16)) 0 1 one_pos
  exact absurd (hN N le_rfl) (swings (by norm_num) (by norm_num) (by norm_num) (by norm_num) N).not_gt

end Servo

end Forge.Control
