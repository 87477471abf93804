import Forge.Data.Numerals
import Mathlib

/-!
# Doubles and numbers

A finite double is a signed mantissa times a power of two; `floatValue` is that
rational number. Doubles that are equal as IEEE compares them stand for the same
number (`floatValue_eq_of_beq`); the two zeros are the reason why this is not
equality of doubles. Finite doubles are ordered totally
(`float_le_of_not_lt`). In the other direction `intToFloat` is the double nearest to
an integer, which for a 64-bit integer is finite (`isFinite_intToFloat`). The
difference of finite doubles may overflow but is never NaN (`isNaN_sub`).
-/

namespace Forge

open Float.Model

/-- The rational number of an unpacked float; infinities and NaN have none and count as zero. -/
def unpackedValue : UnpackedFloat → ℚ
  | .finite sign mantissa exponent _ => sign.apply mantissa * (2 : ℚ) ^ exponent
  | .zero _ | .infinity _ | .notANumber => 0

/-- The rational number a finite double stands for. -/
def floatValue (x : Float) : ℚ := unpackedValue x.toModel.unpack

/-- The rational number a finite single-precision float stands for. -/
def float32Value (x : Float32) : ℚ := unpackedValue x.toModel.unpack

/-- Finite floats compare equal when exponent and mantissa do. -/
theorem unpackedValue_finite_eq {s : UnpackedFloat.Sign} {m n : ℕ} {e f : ℤ} {hm : 0 < m} {hn : 0 < n}
    (h : (compare e f).then (compare m n) = .eq) :
    unpackedValue (.finite s m e hm) = unpackedValue (.finite s n f hn) := by
  obtain ⟨he, hmn⟩ := Ordering.then_eq_eq.mp h
  obtain rfl := Std.compare_eq_iff_eq.mp he
  obtain rfl := Std.compare_eq_iff_eq.mp hmn
  rfl

/-- Unpacked floats that compare equal stand for the same number. -/
theorem unpackedValue_eq_of_compare {a b : UnpackedFloat} (h : a.compare b = some .eq) :
    unpackedValue a = unpackedValue b := by
  unfold UnpackedFloat.compare at h
  split at h
  all_goals first
    | rfl
    | cases h
    | exact unpackedValue_finite_eq (by simpa using h)

/-- **Key result**: doubles that are equal under IEEE comparison stand for the same number. -/
theorem floatValue_eq_of_beq {x y : Float} (h : (x == y) = true) : floatValue x = floatValue y :=
  unpackedValue_eq_of_compare (eq_of_beq h)

/-- A finite double equals itself. -/
theorem beq_self_of_isFinite {x : Float} (h : x.isFinite = true) : (x == x) = true := by
  change (x.toModel.unpack.compare x.toModel.unpack == some .eq) = true
  have hx : x.toModel.unpack.isFinite = true := h
  generalize x.toModel.unpack = u at hx
  cases u with
  | notANumber => cases hx
  | infinity s => cases hx
  | zero s => rfl
  | finite s m e hm => cases s <;> simp [UnpackedFloat.compare]

/-- What is equal to a finite double is finite. -/
theorem isFinite_of_beq {x y : Float} (h : (x == y) = true) (hy : y.isFinite = true) : x.isFinite = true := by
  have hcompare : x.toModel.unpack.compare y.toModel.unpack = some .eq := eq_of_beq h
  have hy : y.toModel.unpack.isFinite = true := hy
  change x.toModel.unpack.isFinite = true
  generalize x.toModel.unpack = u at hcompare
  generalize y.toModel.unpack = v at hy hcompare
  cases u with
  | notANumber => cases hcompare
  | zero s => rfl
  | finite s m e hm => rfl
  | infinity s =>
    cases v with
    | notANumber => cases hy
    | infinity t => cases hy
    | zero t => cases s <;> cases hcompare
    | finite t n f hn => cases s <;> cases t <;> cases hcompare

/-! ### Order -/

theorem compare_swap (a b : UnpackedFloat) : b.compare a = (a.compare b).map Ordering.swap := by
  have hthen (e f : ℤ) (m n : ℕ) :
      (compare f e).then (compare n m) = ((compare e f).then (compare m n)).swap := by
    have hexponent : compare f e = (compare e f).swap := Std.OrientedCmp.eq_swap
    have hmantissa : compare n m = (compare m n).swap := Std.OrientedCmp.eq_swap
    rw [Ordering.swap_then, hexponent, hmantissa]
  cases a with
  | notANumber => cases b <;> rfl
  | infinity s =>
    cases b with
    | infinity t => cases s <;> cases t <;> rfl
    | notANumber | zero t | finite t n f hn => cases s <;> rfl
  | zero s =>
    cases b with
    | infinity t | finite t n f hn => cases t <;> rfl
    | notANumber | zero t => rfl
  | finite s m e hm =>
    cases b with
    | infinity t => cases t <;> rfl
    | notANumber => rfl
    | zero t => cases s <;> rfl
    | finite t n f hn =>
      cases s <;> cases t <;> first | rfl | simp only [UnpackedFloat.compare, Option.map_some, hthen e f m n]

theorem exists_compare {a b : UnpackedFloat} (ha : a.isFinite = true) (hb : b.isFinite = true) :
    ∃ o, a.compare b = some o := by
  cases a with
  | notANumber => cases ha
  | infinity s => cases ha
  | zero s =>
    cases b with
    | notANumber => cases hb
    | infinity t => cases hb
    | zero t => exact ⟨_, rfl⟩
    | finite t n f hn => cases t <;> exact ⟨_, rfl⟩
  | finite s m e hm =>
    cases b with
    | notANumber => cases hb
    | infinity t => cases hb
    | zero t => cases s <;> exact ⟨_, rfl⟩
    | finite t n f hn => cases s <;> cases t <;> exact ⟨_, rfl⟩

theorem float_lt_iff {x y : Float} : x < y ↔ x.toModel.unpack.compare y.toModel.unpack = some .lt := by
  change decide (x.toModel < y.toModel) = true ↔ _
  rw [decide_eq_true_iff, ← beq_iff_eq]
  exact Iff.rfl

theorem float_le_iff {x y : Float} : x ≤ y ↔ (x.toModel.unpack.compare y.toModel.unpack).any (·.isLE) = true := by
  change decide (x.toModel ≤ y.toModel) = true ↔ _
  rw [decide_eq_true_iff]
  exact Iff.rfl

/-- Finite doubles are ordered totally. -/
theorem float_le_of_not_lt {x y : Float} (hx : x.isFinite = true) (hy : y.isFinite = true) (h : ¬x < y) : y ≤ x := by
  obtain ⟨o, ho⟩ := exists_compare hx hy
  rw [float_lt_iff, ho] at h
  rw [float_le_iff, compare_swap x.toModel.unpack y.toModel.unpack, ho]
  cases o
  · exact absurd rfl h
  · rfl
  · rfl

theorem float_lt_of_not_le {x y : Float} (hx : x.isFinite = true) (hy : y.isFinite = true) (h : ¬x ≤ y) : y < x := by
  obtain ⟨o, ho⟩ := exists_compare hx hy
  rw [float_le_iff, ho] at h
  rw [float_lt_iff, compare_swap x.toModel.unpack y.toModel.unpack, ho]
  cases o
  · exact absurd rfl h
  · exact absurd rfl h
  · rfl

/-! ### Integers as doubles -/

/-- The double nearest to an integer, ties to even. -/
def intToFloat (i : ℤ) : Float := .ofModel (.ofInt i)

/-- The exponent field of the unpacked float does not overflow. -/
def Packs : UnpackedFloat → Prop
  | .finite _ _ e _ => e ≤ 971
  | .zero _ => True
  | .infinity _ | .notANumber => False

/-- A finite float whose exponent field does not overflow is packed with another exponent than infinity's. -/
theorem unpackExponent_pack_finite_ne {s : UnpackedFloat.Sign} {m : ℕ} {e : ℤ} {hm : 0 < m}
    (h : (e + (Format.binary64.exponentBias : ℤ) +
      (Format.binary64.mantissaBitsWithoutImplicit : ℤ)).toNat < 2047) :
    UnpackedFloat.unpackExponent (UnpackedFloat.pack .binary64 (.finite s m e hm)) ≠
      (-1#_ : BitVec Format.binary64.exponentBits) := by
  rw [UnpackedFloat.pack]
  generalize (e + (Format.binary64.exponentBias : ℤ) +
    (Format.binary64.mantissaBitsWithoutImplicit : ℤ)).toNat = k at h
  dsimp only
  rw [if_neg (show ¬ 2 ^ 11 ≤ k + 1 by omega)]
  split_ifs
  · rw [UnpackedFloat.unpackExponent_packComponents]
    intro heq
    have hbits := congrArg BitVec.toNat heq
    have hall : ((-1#11 : BitVec 11)).toNat = 2047 := by decide
    rw [hall, BitVec.toNat_ofNat] at hbits
    omega
  · rw [UnpackedFloat.unpackExponent_packComponents]
    decide

theorem unpackExponent_pack_ne {u : UnpackedFloat} (h : Packs u) :
    UnpackedFloat.unpackExponent (UnpackedFloat.pack .binary64 u) ≠
      (-1#_ : BitVec Format.binary64.exponentBits) := by
  cases u with
  | infinity s => exact h.elim
  | notANumber => exact h.elim
  | zero s =>
    rw [UnpackedFloat.pack, UnpackedFloat.packedZero, UnpackedFloat.unpackExponent_packComponents]
    decide
  | finite s m e hm =>
    refine unpackExponent_pack_finite_ne ?_
    rw [Packs] at h
    rw [show (Format.binary64.exponentBias : ℤ) = 1023 by decide]
    simp only
    omega

theorem isFinite_unpack_pack {u : UnpackedFloat} (h : Packs u) :
    (UnpackedFloat.unpack .binary64 (UnpackedFloat.pack .binary64 u)).isFinite = true := by
  unfold UnpackedFloat.unpack
  dsimp only
  rw [if_neg (unpackExponent_pack_ne h)]
  split_ifs <;> rfl

/-- Shifting right does not make a mantissa larger. -/
theorem mantissa_shiftRight_le (em : UnpackedFloat.ExtendedMantissa) (k : ℕ) : (em >>> k).mantissa ≤ em.mantissa := by
  change (k.repeat UnpackedFloat.ExtendedMantissa.shiftRightOne em).mantissa ≤ em.mantissa
  induction k with
  | zero => exact le_rfl
  | succ k ih => exact (Nat.div_le_self _ 2).trans ih

theorem roundedMantissa_le (em : UnpackedFloat.ExtendedMantissa) : em.roundedMantissa ≤ em.mantissa + 1 := by
  unfold UnpackedFloat.ExtendedMantissa.roundedMantissa
  cases em.accuracy with
  | exact => exact Nat.le_succ _
  | inexact o =>
    cases o
    · exact Nat.le_succ _
    · exact Nat.add_le_add_left (Nat.le_of_lt_succ (Nat.mod_lt _ (by decide))) _
    · exact le_rfl

theorem ofMantissaAndAccuracy_mantissa (m : ℕ) (a : UnpackedFloat.Accuracy) :
    (UnpackedFloat.ExtendedMantissa.ofMantissaAndAccuracy m a).mantissa = m := by
  rcases a with _ | o
  · rfl
  · cases o <;> rfl

/-- The exponent after shifting is at most the given one or the target. -/
theorem shiftToTargetExponent_snd_le {m : ℕ} {e c : ℤ} {a : UnpackedFloat.Accuracy} (he : e ≤ c) (hc : -1074 ≤ c)
    (hm : m.log2 + 1 + e - 53 ≤ c) : (UnpackedFloat.shiftToTargetExponent .binary64 m e a).2 ≤ c := by
  simp only [UnpackedFloat.shiftToTargetExponent, UnpackedFloat.shiftToExponent, Format.targetExponent, totalExponent]
  rw [show (Format.binary64.mantissaBits : ℤ) = 53 by decide, show Format.binary64.minExponent = -1074 by decide]
  omega

theorem shiftToTargetExponent_fst_le (m : ℕ) (e : ℤ) (a : UnpackedFloat.Accuracy) :
    (UnpackedFloat.shiftToTargetExponent .binary64 m e a).1.mantissa ≤ m := by
  simp only [UnpackedFloat.shiftToTargetExponent, UnpackedFloat.shiftToExponent]
  exact (mantissa_shiftRight_le _ _).trans (ofMantissaAndAccuracy_mantissa m a).le

theorem packs_roundWithAccuracy {s : UnpackedFloat.Sign} {m : ℕ} {e : ℤ} {a : UnpackedFloat.Accuracy}
    (he : e ≤ 11) (hm : m < 2 ^ 64) : Packs (UnpackedFloat.roundWithAccuracy .binary64 s m e a) := by
  have hlog {k l : ℕ} (h : k < 2 ^ l) (hl : 0 < l) : k.log2 < l := by
    rcases Nat.eq_zero_or_pos k with rfl | hk
    · simpa using hl
    · exact (Nat.log2_lt hk.ne').mpr h
  unfold UnpackedFloat.roundWithAccuracy
  have h1 : (UnpackedFloat.shiftToTargetExponent .binary64 m e a).2 ≤ 22 :=
    shiftToTargetExponent_snd_le (by omega) (by omega) (by have := hlog hm (by omega); omega)
  have h2 := shiftToTargetExponent_fst_le m e a
  generalize UnpackedFloat.shiftToTargetExponent .binary64 m e a = first at h1 h2
  have h3 := roundedMantissa_le first.1
  dsimp only
  have h4 : (UnpackedFloat.shiftToTargetExponent .binary64 first.1.roundedMantissa first.2 .exact).2 ≤ 34 :=
    shiftToTargetExponent_snd_le (by omega) (by omega)
      (by have := hlog (show first.1.roundedMantissa < 2 ^ 65 by omega) (by omega); omega)
  split_ifs
  · trivial
  · exact h4.trans (by omega)

theorem packs_round {s : UnpackedFloat.Sign} {m : ℕ} (hm : m < 2 ^ 64) :
    Packs (UnpackedFloat.round .binary64 s m 0) := by
  unfold UnpackedFloat.round
  simp only [UnpackedFloat.decreaseExponent, Format.targetExponent, totalExponent]
  rw [show (Format.binary64.mantissaBits : ℤ) = 53 by decide, show Format.binary64.minExponent = -1074 by decide]
  refine packs_roundWithAccuracy (by omega) ?_
  rw [Nat.shiftLeft_eq]
  -- a mantissa that is widened gets at most 53 bits
  by_cases hwide : m.log2 < 52
  · have hk : (0 - max ((m.log2 : ℤ) + 1 + 0 - 53) (-1074)).toNat = 52 - m.log2 := by omega
    rw [hk]
    calc m * 2 ^ (52 - m.log2) < 2 ^ (m.log2 + 1) * 2 ^ (52 - m.log2) :=
          Nat.mul_lt_mul_of_pos_right Nat.lt_log2_self (Nat.two_pow_pos _)
      _ = 2 ^ 53 := by rw [← Nat.pow_add]; congr 1; omega
      _ ≤ 2 ^ 64 := by decide
  · have hk : (0 - max ((m.log2 : ℤ) + 1 + 0 - 53) (-1074)).toNat = 0 := by omega
    rw [hk]
    omega

/-- The double of a 64-bit integer is finite. -/
theorem isFinite_intToFloat {i : ℤ} (h : -2 ^ 63 ≤ i ∧ i < 2 ^ 64) : (intToFloat i).isFinite = true := by
  change (UnpackedFloat.unpack .binary64
    (UnpackedFloat.pack .binary64 (UnpackedFloat.ofInt .binary64 i))).isFinite = true
  apply isFinite_unpack_pack
  unfold UnpackedFloat.ofInt UnpackedFloat.normalize
  split
  · exact packs_round (by omega)
  · trivial
  · exact packs_round (by omega)

/-! ### Differences -/

/-- Packing makes no NaN. -/
theorem isNaN_unpack_pack {u : UnpackedFloat} (h : u.isNaN = false) :
    (UnpackedFloat.unpack .binary64 (UnpackedFloat.pack .binary64 u)).isNaN = false := by
  have hinf : ∀ s, (UnpackedFloat.unpack .binary64 (UnpackedFloat.packedInfinity .binary64 s)).isNaN = false := by
    intro s
    cases s <;> decide
  cases u with
  | notANumber => cases h
  | infinity s => exact hinf s
  | zero s => cases s <;> decide
  | finite s m e hm =>
    by_cases hbig : 2 ^ 11 ≤ (e + (Format.binary64.exponentBias : ℤ) +
        (Format.binary64.mantissaBitsWithoutImplicit : ℤ)).toNat + 1
    · have hpack : UnpackedFloat.pack .binary64 (.finite s m e hm) = UnpackedFloat.packedInfinity .binary64 s := by
        rw [UnpackedFloat.pack]
        exact if_pos hbig
      rw [hpack]
      exact hinf s
    · unfold UnpackedFloat.unpack
      dsimp only
      rw [if_neg (unpackExponent_pack_finite_ne (by omega))]
      split_ifs <;> rfl

theorem isNaN_roundWithAccuracy (s : UnpackedFloat.Sign) (m : ℕ) (e : ℤ) (a : UnpackedFloat.Accuracy) :
    (UnpackedFloat.roundWithAccuracy .binary64 s m e a).isNaN = false := by
  unfold UnpackedFloat.roundWithAccuracy
  dsimp only
  split_ifs <;> rfl

theorem isNaN_normalize (m e : ℤ) (s : UnpackedFloat.Sign) :
    (UnpackedFloat.normalize .binary64 m e s).isNaN = false := by
  unfold UnpackedFloat.normalize
  split
  · exact isNaN_roundWithAccuracy _ _ _ _
  · rfl
  · exact isNaN_roundWithAccuracy _ _ _ _

/-- **The difference of finite doubles is a number.** -/
theorem isNaN_sub {x y : Float} (hx : x.isFinite = true) (hy : y.isFinite = true) : (x - y).isNaN = false := by
  change (UnpackedFloat.unpack .binary64 (UnpackedFloat.pack .binary64
    (UnpackedFloat.sub .binary64 x.toModel.unpack y.toModel.unpack))).isNaN = false
  apply isNaN_unpack_pack
  have hx' : x.toModel.unpack.isFinite = true := hx
  have hy' : y.toModel.unpack.isFinite = true := hy
  generalize x.toModel.unpack = u at hx'
  generalize y.toModel.unpack = v at hy'
  cases u with
  | notANumber => cases hx'
  | infinity s => cases hx'
  | zero s =>
    cases v with
    | notANumber => cases hy'
    | infinity t => cases hy'
    | zero t => cases s <;> cases t <;> rfl
    | finite t n f hn => rfl
  | finite s m e hm =>
    cases v with
    | notANumber => cases hy'
    | infinity t => cases hy'
    | zero t => rfl
    | finite t n f hn => exact isNaN_normalize _ _ _

end Forge
