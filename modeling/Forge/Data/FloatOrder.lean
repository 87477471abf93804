import Forge.Data.FloatValue
import Mathlib.Algebra.Order.Field.Power
import Mathlib.Tactic.GCongr
import Mathlib.Tactic.Positivity
import Mathlib.Tactic.Ring

/-!
# The order of doubles

IEEE compares the exponents of two doubles before their mantissas. That is the order of the numbers because the
mantissa of a stored double is as long as its exponent allows (`normal_unpack`): `float_lt_iff_value` and
`float_le_iff_value`.
-/

namespace Forge

open Float.Model

/-- The mantissa has 53 bits, or the exponent is the least one. -/
def Normal : UnpackedFloat → Prop
  | .finite _ m e _ => m < 2 ^ 53 ∧ -1074 ≤ e ∧ (m < 2 ^ 52 → e = -1074)
  | _ => True

/-- A mantissa with its implicit bit. -/
theorem toNat_implicit (v : BitVec 52) : (1#1 ++ v).toNat = 2 ^ 52 + v.toNat := by
  rw [BitVec.toNat_append, BitVec.toNat_one (by decide), Nat.shiftLeft_eq, Nat.one_mul,
    ← Nat.two_pow_add_eq_or_of_lt v.isLt 1]
  simp

theorem normal_unpack (x : Float) : Normal x.toModel.unpack := by
  have hbias : (Format.binary64.exponentBias : ℤ) = 1023 := by decide
  have hmantissa := (@UnpackedFloat.unpackMantissa .binary64 x.toModel.toBits.toBitVec).isLt
  have himplicit := toNat_implicit (@UnpackedFloat.unpackMantissa .binary64 x.toModel.toBits.toBitVec)
  unfold Float.Model.unpack UnpackedFloat.unpack
  dsimp only at hmantissa ⊢
  split
  · split <;> trivial
  · split
    next he =>
      split
      · trivial
      · rw [Normal, he, hbias]
        refine ⟨by omega, by decide, fun _ => by decide⟩
    next he =>
      have hpos : (@UnpackedFloat.unpackExponent .binary64 x.toModel.toBits.toBitVec).toNat ≠ 0 :=
        fun h0 => he (BitVec.eq_of_toNat_eq h0)
      rw [Normal, hbias]
      refine ⟨?_, ?_, ?_⟩
      · omega
      · omega
      · omega

/-! ### Numbers -/

/-- The number of a mantissa and an exponent. -/
theorem scaled_lt {m n : ℕ} {e f : ℤ} (hm : m < 2 ^ 53) (hn : n < 2 ^ 52 → f = -1074) (he : -1074 ≤ e) (h : e < f) :
    (m : ℚ) * 2 ^ e < n * 2 ^ f := by
  have hn : 2 ^ 52 ≤ n := by
    by_contra hlt
    have := hn (by omega)
    omega
  have hm' : (m : ℚ) < 2 ^ 53 := by exact_mod_cast hm
  have hn' : (2 : ℚ) ^ 52 ≤ n := by exact_mod_cast hn
  have hpos : (0 : ℚ) < 2 ^ e := by positivity
  calc (m : ℚ) * 2 ^ e < 2 ^ 53 * 2 ^ e := by gcongr
    _ = 2 ^ 52 * 2 ^ (e + 1) := by rw [zpow_add₀ (by norm_num : (2 : ℚ) ≠ 0)]; ring
    _ ≤ n * 2 ^ f := by
      gcongr
      · norm_num
      · omega

theorem compare_scaled {m n : ℕ} {e f : ℤ} (hm : m < 2 ^ 53) (hn : n < 2 ^ 53) (he : -1074 ≤ e) (hf : -1074 ≤ f)
    (hme : m < 2 ^ 52 → e = -1074) (hnf : n < 2 ^ 52 → f = -1074) :
    (compare e f).then (compare m n) = compare ((m : ℚ) * 2 ^ e) (n * 2 ^ f) := by
  rcases lt_trichotomy e f with h | rfl | h
  · rw [compare_lt_iff_lt.mpr h, compare_lt_iff_lt.mpr (scaled_lt hm hnf he h)]
    rfl
  · have hpos : (0 : ℚ) < 2 ^ e := by positivity
    rw [compare_eq_iff_eq.mpr rfl]
    rcases lt_trichotomy m n with h | rfl | h
    · have hlt : (m : ℚ) * 2 ^ e < n * 2 ^ e := by gcongr
      rw [compare_lt_iff_lt.mpr h, compare_lt_iff_lt.mpr hlt]
      rfl
    · rw [compare_eq_iff_eq.mpr rfl, compare_eq_iff_eq.mpr rfl]
      rfl
    · have hlt : (n : ℚ) * 2 ^ e < m * 2 ^ e := by gcongr
      rw [compare_gt_iff_gt.mpr h, compare_gt_iff_gt.mpr hlt]
      rfl
  · rw [compare_gt_iff_gt.mpr h, compare_gt_iff_gt.mpr (scaled_lt hn hme hf h)]
    rfl

theorem unpackedValue_positive {m : ℕ} {e : ℤ} {hm : 0 < m} :
    unpackedValue (.finite .positive m e hm) = (m : ℚ) * 2 ^ e := by
  simp [unpackedValue, UnpackedFloat.Sign.apply]

theorem unpackedValue_negative {m : ℕ} {e : ℤ} {hm : 0 < m} :
    unpackedValue (.finite .negative m e hm) = -((m : ℚ) * 2 ^ e) := by
  simp [unpackedValue, UnpackedFloat.Sign.apply]

theorem compare_neg (x y : ℚ) : compare (-x) (-y) = (compare x y).swap := by
  rcases lt_trichotomy x y with h | rfl | h
  · rw [compare_lt_iff_lt.mpr h, compare_gt_iff_gt.mpr (neg_lt_neg h)]
    rfl
  · rw [compare_eq_iff_eq.mpr rfl, compare_eq_iff_eq.mpr rfl]
    rfl
  · rw [compare_gt_iff_gt.mpr h, compare_lt_iff_lt.mpr (neg_lt_neg h)]
    rfl

/-- **IEEE compares the numbers.** -/
theorem compare_unpackedValue {a b : UnpackedFloat} (ha : a.isFinite = true) (hb : b.isFinite = true) (hna : Normal a)
    (hnb : Normal b) : a.compare b = some (compare (unpackedValue a) (unpackedValue b)) := by
  have hpos {m : ℕ} {e : ℤ} (hm : 0 < m) : (0 : ℚ) < m * 2 ^ e := by positivity
  have hzero {s : UnpackedFloat.Sign} : unpackedValue (.zero s) = 0 := rfl
  cases a with
  | notANumber => cases ha
  | infinity s => cases ha
  | zero s =>
    cases b with
    | notANumber => cases hb
    | infinity t => cases hb
    | zero t => rw [hzero, hzero, compare_eq_iff_eq.mpr rfl]; rfl
    | finite t n f hn =>
      cases t with
      | positive => rw [hzero, unpackedValue_positive, compare_lt_iff_lt.mpr (hpos hn)]; rfl
      | negative => rw [hzero, unpackedValue_negative, compare_gt_iff_gt.mpr (neg_lt_zero.mpr (hpos hn))]; rfl
  | finite s m e hm =>
    cases b with
    | notANumber => cases hb
    | infinity t => cases hb
    | zero t =>
      cases s with
      | positive => rw [hzero, unpackedValue_positive, compare_gt_iff_gt.mpr (hpos hm)]; rfl
      | negative => rw [hzero, unpackedValue_negative, compare_lt_iff_lt.mpr (neg_lt_zero.mpr (hpos hm))]; rfl
    | finite t n f hn =>
      have hcompare := compare_scaled hna.1 hnb.1 hna.2.1 hnb.2.1 hna.2.2 hnb.2.2
      cases s with
      | positive =>
        cases t with
        | positive => rw [unpackedValue_positive, unpackedValue_positive, ← hcompare]; rfl
        | negative =>
          have hlt := (neg_lt_zero.mpr (hpos (e := f) hn)).trans (hpos (e := e) hm)
          rw [unpackedValue_positive, unpackedValue_negative, compare_gt_iff_gt.mpr hlt]
          rfl
      | negative =>
        cases t with
        | positive =>
          have hlt := (neg_lt_zero.mpr (hpos (e := e) hm)).trans (hpos (e := f) hn)
          rw [unpackedValue_negative, unpackedValue_positive, compare_lt_iff_lt.mpr hlt]
          rfl
        | negative => rw [unpackedValue_negative, unpackedValue_negative, compare_neg, ← hcompare]; rfl

/-- **A finite double is less than another when its number is.** -/
theorem float_lt_iff_value {x y : Float} (hx : x.isFinite = true) (hy : y.isFinite = true) :
    x < y ↔ floatValue x < floatValue y := by
  rw [float_lt_iff, compare_unpackedValue hx hy (normal_unpack x) (normal_unpack y), Option.some.injEq, compare_lt_iff_lt]
  rfl

theorem float_le_iff_value {x y : Float} (hx : x.isFinite = true) (hy : y.isFinite = true) :
    x ≤ y ↔ floatValue x ≤ floatValue y := by
  constructor
  · intro h
    by_contra hlt
    rw [not_le, ← float_lt_iff_value hy hx, float_lt_iff, compare_swap x.toModel.unpack y.toModel.unpack] at hlt
    rw [float_le_iff] at h
    cases hc : x.toModel.unpack.compare y.toModel.unpack with
    | none => rw [hc] at h; cases h
    | some o => rw [hc] at h hlt; cases o <;> simp_all
  · intro h
    exact float_le_of_not_lt hy hx fun hlt => absurd ((float_lt_iff_value hy hx).mp hlt) (not_lt.mpr h)

end Forge
