import Forge.Data.FloatOrder
import Forge.Data.FloatQuotient

/-!
# The sign of a difference of doubles

Subtraction rounds, and may overflow, but it does not turn the order around: `sub_not_negative` says that the
difference of a finite double and one that is not greater is not below zero.
-/

namespace Forge

open Float.Model

/-- Not below zero: a positive float, an infinity or a zero of any sign. -/
def NotNegative (u : UnpackedFloat) : Prop := HasSign .positive u ∨ ∃ s, u = .zero s

theorem hasSign_roundWithAccuracy (s : UnpackedFloat.Sign) (m : ℕ) (e : ℤ) (a : UnpackedFloat.Accuracy) :
    HasSign s (UnpackedFloat.roundWithAccuracy .binary64 s m e a) := by
  unfold UnpackedFloat.roundWithAccuracy
  dsimp only
  split_ifs <;> rfl

theorem notNegative_normalize {m : ℤ} (hm : 0 ≤ m) (e : ℤ) :
    NotNegative (UnpackedFloat.normalize .binary64 m e .positive) := by
  unfold UnpackedFloat.normalize
  split
  · rename_i hlt
    exact absurd (compare_lt_iff_lt.mp hlt) (not_lt.mpr hm)
  · exact .inr ⟨.positive, rfl⟩
  · exact .inl (hasSign_roundWithAccuracy _ _ _ _)

theorem NotNegative.unpack_pack {u : UnpackedFloat} (h : NotNegative u) :
    NotNegative (UnpackedFloat.unpack .binary64 (UnpackedFloat.pack .binary64 u)) := by
  rcases h with h | ⟨s, rfl⟩
  · exact .inl (hasSign_unpack_pack h)
  · right
    cases s with
    | positive => exact ⟨.positive, by rfl⟩
    | negative => exact ⟨.negative, by rfl⟩

theorem NotNegative.not_lt {x : Float} (h : NotNegative x.toModel.unpack) : ¬x < 0.0 := by
  have hzero : (0.0 : Float).toModel.unpack = .zero .positive := by rfl
  rw [float_lt_iff, hzero]
  generalize x.toModel.unpack = u at h
  rcases h with h | ⟨s, rfl⟩
  · cases u with
    | notANumber => exact h.elim
    | infinity s =>
      obtain rfl : s = .positive := h
      decide
    | zero s => simp [UnpackedFloat.compare]
    | finite s m e hm =>
      obtain rfl : s = .positive := h
      simp [UnpackedFloat.compare]
  · simp [UnpackedFloat.compare]

/-- A float on a smaller exponent. -/
theorem unpackedValue_decreaseExponent {s : UnpackedFloat.Sign} {m : ℕ} {e t : ℤ} {hm : 0 < m} (ht : t ≤ e) :
    unpackedValue (.finite s m e hm) = (s.apply (UnpackedFloat.decreaseExponent m e t).1 : ℤ) * (2 : ℚ) ^ t := by
  have hshift : ((UnpackedFloat.decreaseExponent m e t).1 : ℤ) = m * 2 ^ (e - t).toNat := by
    simp [UnpackedFloat.decreaseExponent, Nat.shiftLeft_eq]
  have happly : (s.apply (m * 2 ^ (e - t).toNat) : ℤ) = s.apply m * 2 ^ (e - t).toNat := by
    cases s <;> simp [UnpackedFloat.Sign.apply]
  have hpow : (2 : ℚ) ^ (e - t).toNat * 2 ^ t = 2 ^ e := by
    rw [← zpow_natCast, ← zpow_add₀ two_ne_zero, Int.toNat_of_nonneg (sub_nonneg.mpr ht), sub_add_cancel]
  rw [hshift, happly, unpackedValue]
  push_cast
  rw [mul_assoc, hpow]

theorem notNegative_sub {u v : UnpackedFloat} (hu : u.isFinite = true) (hv : v.isFinite = true)
    (h : unpackedValue v ≤ unpackedValue u) : NotNegative (UnpackedFloat.sub .binary64 u v) := by
  have hpos {m : ℕ} {e : ℤ} (hm : 0 < m) : (0 : ℚ) < m * 2 ^ e := by positivity
  cases u with
  | notANumber => cases hu
  | infinity s => cases hu
  | zero s =>
    cases v with
    | notANumber => cases hv
    | infinity t => cases hv
    | zero t =>
      right
      by_cases hst : s == -t
      · exact ⟨s, by rw [UnpackedFloat.sub, if_pos hst]⟩
      · exact ⟨.positive, by rw [UnpackedFloat.sub, if_neg hst]⟩
    | finite t n f hn =>
      cases t with
      | positive =>
        rw [unpackedValue_positive] at h
        exact absurd h (not_le.mpr (hpos hn))
      | negative => exact .inl rfl
  | finite s m e hm =>
    cases v with
    | notANumber => cases hv
    | infinity t => cases hv
    | zero t =>
      cases s with
      | positive => exact .inl rfl
      | negative =>
        rw [unpackedValue_negative] at h
        exact absurd h (not_le.mpr (neg_lt_zero.mpr (hpos hm)))
    | finite t n f hn =>
      refine notNegative_normalize ?_ _
      rw [unpackedValue_decreaseExponent (min_le_left e f), unpackedValue_decreaseExponent (min_le_right e f)] at h
      have hscale : (0 : ℚ) < 2 ^ min e f := by positivity
      rw [sub_nonneg]
      exact_mod_cast le_of_mul_le_mul_right h hscale

theorem unpack_difference (x y : Float) : (x - y).toModel.unpack =
    UnpackedFloat.unpack .binary64 (UnpackedFloat.pack .binary64
      (UnpackedFloat.sub .binary64 x.toModel.unpack y.toModel.unpack)) := rfl

/-- **The difference is not below zero.** -/
theorem sub_not_negative {x y : Float} (hx : x.isFinite = true) (hy : y.isFinite = true) (h : y ≤ x) :
    ¬x - y < 0.0 := by
  have hvalue : unpackedValue y.toModel.unpack ≤ unpackedValue x.toModel.unpack := (float_le_iff_value hy hx).mp h
  apply NotNegative.not_lt
  rw [unpack_difference]
  exact (notNegative_sub hx hy hvalue).unpack_pack

end Forge
