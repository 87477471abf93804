import Forge.Data.FloatOrder
import Forge.Data.RoundEven
import Mathlib.Data.Int.Log
import Mathlib.Data.Rat.Floor
import Mathlib.Tactic.Linarith

/-!
# Quotients of doubles

IEEE rounds the exact quotient of two doubles to the nearest double, ties to even. `nearestDouble q` is the number
of that double where the exponents of doubles have no upper end: a multiple of the last place of `q`
(`lastPlace`). The **key results** are `floatValue_div`, that the quotient of two positive doubles is the nearest
double below `2 ^ 1024` and infinite from there on (a divisor with a sign gives a quotient with one,
`negative_div`), and `nearestDouble_le_iff`, which bounds it by a double with an even mantissa: such a bound holds
exactly up to half a unit of its last place.
-/

namespace Forge

open Float.Model

/-! ### Extended mantissas -/

/-- The mantissa is the integer part of the number, and the two bits compare the rest with a half. -/
structure Represents (em : UnpackedFloat.ExtendedMantissa) (x : ℚ) : Prop where
  below : (em.mantissa : ℚ) ≤ x
  above : x < em.mantissa + 1
  round : em.roundBit = true ↔ (em.mantissa : ℚ) + 1 / 2 ≤ x
  sticky : em.stickyBit = true ↔ x ≠ em.mantissa ∧ x ≠ (em.mantissa : ℚ) + 1 / 2

/-- Shifting right by one bit halves the number. -/
theorem Represents.shiftRightOne {em : UnpackedFloat.ExtendedMantissa} {x : ℚ} (h : Represents em x) :
    Represents em.shiftRightOne (x / 2) := by
  obtain ⟨m, round, sticky⟩ := em
  obtain ⟨hbelow, habove, hround, hsticky⟩ := h
  dsimp only at hbelow habove hround hsticky
  have hrest : (round || sticky) = true ↔ x ≠ m := by
    rw [Bool.or_eq_true, hround, hsticky]
    constructor
    · rintro (hle | ⟨hne, -⟩)
      · intro heq
        linarith
      · exact hne
    · intro hne
      rcases em (x = (m : ℚ) + 1 / 2) with heq | hne'
      · exact .inl heq.ge
      · exact .inr ⟨hne, hne'⟩
  obtain ⟨k, rfl | rfl⟩ := Nat.even_or_odd' m
  · have hhalf : 2 * k / 2 = k := by omega
    have hbit : (2 * k % 2 != 0) = false := by simp
    push_cast at *
    refine ⟨?_, ?_, ?_, ?_⟩ <;> simp only [UnpackedFloat.ExtendedMantissa.shiftRightOne, hhalf, hbit, hrest]
    · linarith
    · linarith
    · simp only [Bool.false_eq_true, false_iff, not_le]
      linarith
    · constructor
      · intro hne
        exact ⟨fun h => hne (by linarith), fun h => by linarith⟩
      · rintro ⟨hne, -⟩ heq
        exact hne (by linarith)
  · have hhalf : (2 * k + 1) / 2 = k := by omega
    have hbit : ((2 * k + 1) % 2 != 0) = true := by simp
    push_cast at *
    refine ⟨?_, ?_, ?_, ?_⟩ <;> simp only [UnpackedFloat.ExtendedMantissa.shiftRightOne, hhalf, hbit, hrest]
    · linarith
    · linarith
    · simp only [true_iff]
      linarith
    · constructor
      · intro hne
        exact ⟨fun h => by linarith, fun h => hne (by linarith)⟩
      · rintro ⟨-, hne⟩ heq
        exact hne (by linarith)

/-- Shifting right by `k` bits divides by `2 ^ k`. -/
theorem Represents.shiftRight {em : UnpackedFloat.ExtendedMantissa} {x : ℚ} (h : Represents em x) (k : ℕ) :
    Represents (em >>> k) (x / 2 ^ k) := by
  change Represents (k.repeat UnpackedFloat.ExtendedMantissa.shiftRightOne em) (x / 2 ^ k)
  induction k with
  | zero =>
    rw [pow_zero, div_one]
    exact h
  | succ k ih =>
    rw [pow_succ, ← div_div]
    exact ih.shiftRightOne

/-- The rounded mantissa is the nearest integer, ties to even. -/
theorem Represents.roundedMantissa {em : UnpackedFloat.ExtendedMantissa} {x : ℚ} (h : Represents em x) :
    (em.roundedMantissa : ℤ) = roundEven x := by
  obtain ⟨m, round, sticky⟩ := em
  obtain ⟨hbelow, habove, hround, hsticky⟩ := h
  dsimp only at hbelow habove hround hsticky
  have hfloor : ⌊x⌋ = m := Int.floor_eq_iff.mpr ⟨by exact_mod_cast hbelow, by exact_mod_cast habove⟩
  have hfract : Int.fract x = x - m := by rw [Int.fract, hfloor]; simp
  rw [roundEven, hfloor, hfract]
  cases round
  · have hlt : x - m < 1 / 2 := by
      have := mt hround.mpr Bool.false_ne_true
      linarith
    rw [if_pos (.inl hlt)]
    cases sticky <;> rfl
  · have hle : (m : ℚ) + 1 / 2 ≤ x := hround.mp rfl
    cases sticky
    · have heq : x = (m : ℚ) + 1 / 2 := by
        by_contra hne
        refine Bool.false_ne_true (hsticky.mpr ⟨fun h => ?_, hne⟩)
        linarith
      have hhalf : x - m = 1 / 2 := by linarith
      change ((m + m % 2 : ℕ) : ℤ) = _
      rw [hhalf]
      rcases Nat.even_or_odd m with heven | hodd
      · rw [if_pos (.inr ⟨rfl, by exact_mod_cast heven⟩), Nat.even_iff.mp heven]
        rfl
      · rw [if_neg (by simpa using hodd), Nat.odd_iff.mp hodd]
        rfl
    · have hne : x ≠ (m : ℚ) + 1 / 2 := (hsticky.mp rfl).2
      have hlt : (m : ℚ) + 1 / 2 < x := lt_of_le_of_ne hle hne.symm
      rw [if_neg (by rintro (h | ⟨h, -⟩) <;> linarith)]
      rfl

/-- What is left of a division says where the quotient is. -/
theorem represents_div (a : ℕ) {b : ℕ} (hb : 0 < b) :
    Represents (.ofMantissaAndAccuracy (a / b) (UnpackedFloat.accuracyOfFraction (a % b) b)) ((a : ℚ) / b) := by
  have hbq : (0 : ℚ) < b := by exact_mod_cast hb
  have hquot : (a : ℚ) / b = (a / b : ℕ) + ((a % b : ℕ) : ℚ) / b := by
    have := Nat.div_add_mod a b
    field_simp
    exact_mod_cast this.symm
  have hlt : ((a % b : ℕ) : ℚ) / b < 1 := by
    rw [div_lt_one hbq]
    exact_mod_cast Nat.mod_lt a hb
  have hnonneg : (0 : ℚ) ≤ ((a % b : ℕ) : ℚ) / b := by positivity
  rw [hquot]
  generalize a / b = q
  generalize hr : a % b = r at hlt hnonneg ⊢
  have hhalf : (1 / 2 ≤ (r : ℚ) / b ↔ b ≤ 2 * r) ∧ ((r : ℚ) / b = 1 / 2 ↔ 2 * r = b) ∧ ((r : ℚ) / b = 0 ↔ r = 0) := by
    refine ⟨?_, ?_, ?_⟩
    · rw [div_le_div_iff₀ (by norm_num) hbq]
      norm_cast
      omega
    · rw [div_eq_div_iff hbq.ne' (by norm_num)]
      norm_cast
      omega
    · rw [div_eq_zero_iff]
      simp [hb.ne']
  unfold UnpackedFloat.accuracyOfFraction
  split_ifs with hzero
  · subst hzero
    constructor <;> simp [UnpackedFloat.ExtendedMantissa.ofMantissaAndAccuracy]
  · have hne : (r : ℚ) / b ≠ 0 := fun h => hzero (hhalf.2.2.mp h)
    have hq : (q : ℚ) + r / b ≠ q := fun h => hne (by linarith)
    have hbelow : (q : ℚ) ≤ q + r / b := le_add_of_nonneg_right hnonneg
    have habove : (q : ℚ) + r / b < q + 1 := add_lt_add_right hlt q
    cases hc : compare (2 * r) b with
    | lt =>
      have hlow : (r : ℚ) / b < 1 / 2 := not_le.mp fun h => absurd (hhalf.1.mp h) (not_le.mpr (compare_lt_iff_lt.mp hc))
      change Represents ⟨q, false, true⟩ _
      refine ⟨hbelow, habove, ⟨fun h => (Bool.false_ne_true h).elim, fun h => ?_⟩,
        ⟨fun _ => ⟨hq, fun h => ?_⟩, fun _ => rfl⟩⟩
      all_goals
        dsimp only at h
        linarith
    | eq =>
      have htie : (r : ℚ) / b = 1 / 2 := hhalf.2.1.mpr (compare_eq_iff_eq.mp hc)
      change Represents ⟨q, true, false⟩ _
      rw [htie] at hbelow habove ⊢
      exact ⟨hbelow, habove, ⟨fun _ => le_rfl, fun _ => rfl⟩,
        ⟨fun h => (Bool.false_ne_true h).elim, fun h => absurd rfl h.2⟩⟩
    | gt =>
      have hhigh : 1 / 2 ≤ (r : ℚ) / b := hhalf.1.mpr (compare_gt_iff_gt.mp hc).le
      have hno : (r : ℚ) / b ≠ 1 / 2 := fun h => absurd (hhalf.2.1.mp h) (compare_gt_iff_gt.mp hc).ne'
      change Represents ⟨q, true, true⟩ _
      refine ⟨hbelow, habove, ⟨fun _ => add_le_add_right hhigh q, fun _ => rfl⟩,
        ⟨fun _ => ⟨hq, fun h => ?_⟩, fun _ => rfl⟩⟩
      exact hno (add_left_cancel h)

/-! ### The nearest double -/

/-- The exponent of the last place of a double near `q`. -/
def lastPlace (q : ℚ) : ℤ := max (Int.log 2 q - 52) (-1074)

/-- The number of the double nearest to a positive `q`, ties to even. -/
def nearestDouble (q : ℚ) : ℚ := roundEven (q / 2 ^ lastPlace q) * 2 ^ lastPlace q

/-- A number has at most 53 bits before its last place. -/
theorem scaled_le {q : ℚ} : q / 2 ^ lastPlace q < 2 ^ 53 := by
  have hlast : Int.log 2 q + 1 ≤ 53 + lastPlace q := by
    rw [lastPlace]
    omega
  rw [div_lt_iff₀ (by positivity), ← zpow_natCast, ← zpow_add₀ two_ne_zero]
  calc q < (2 : ℚ) ^ (Int.log 2 q + 1) := Int.lt_zpow_succ_log_self one_lt_two q
    _ ≤ 2 ^ ((53 : ℕ) + lastPlace q) := zpow_le_zpow_right₀ one_le_two (by exact_mod_cast hlast)

/-- Above the least exponent it has exactly so many. -/
theorem le_scaled {q : ℚ} (hq : 0 < q) (hlast : lastPlace q ≠ -1074) : 2 ^ 52 ≤ q / 2 ^ lastPlace q := by
  have hlog : 52 + lastPlace q = Int.log 2 q := by
    rw [lastPlace] at hlast ⊢
    omega
  rw [le_div_iff₀ (by positivity), ← zpow_natCast, ← zpow_add₀ two_ne_zero]
  calc (2 : ℚ) ^ ((52 : ℕ) + lastPlace q) = 2 ^ Int.log 2 q := by rw [← hlog]; rfl
    _ ≤ q := Int.zpow_log_le_self one_lt_two hq

theorem roundEven_scaled_le {q : ℚ} : roundEven (q / 2 ^ lastPlace q) ≤ 2 ^ 53 := by
  have h := roundEven_mono (scaled_le (q := q)).le
  have hpow : (2 : ℚ) ^ 53 = ((2 ^ 53 : ℤ) : ℚ) := by norm_num
  rwa [hpow, roundEven_intCast] at h

theorem le_roundEven_scaled {q : ℚ} (hq : 0 < q) (hlast : lastPlace q ≠ -1074) :
    2 ^ 52 ≤ roundEven (q / 2 ^ lastPlace q) := by
  have h := roundEven_mono (le_scaled hq hlast)
  have hpow : (2 : ℚ) ^ 52 = ((2 ^ 52 : ℤ) : ℚ) := by norm_num
  rwa [hpow, roundEven_intCast] at h

theorem roundEven_scaled_nonneg {q : ℚ} (hq : 0 < q) : 0 ≤ roundEven (q / 2 ^ lastPlace q) := by
  have h := roundEven_mono (show (0 : ℚ) ≤ q / 2 ^ lastPlace q by positivity)
  rwa [show (0 : ℚ) = ((0 : ℤ) : ℚ) by norm_num, roundEven_intCast] at h

/-- An even integer bounds the rounding of what is at most half above it. -/
theorem roundEven_le_iff_of_even {n : ℤ} (hn : Even n) (x : ℚ) : roundEven x ≤ n ↔ x ≤ n + 1 / 2 := by
  have hfract := Int.self_sub_floor x
  have hpos := Int.fract_nonneg x
  have hlt := Int.fract_lt_one x
  constructor
  · intro h
    have hfloor : (⌊x⌋ : ℚ) ≤ n := by exact_mod_cast (floor_le_roundEven x).trans h
    by_contra hx
    rw [not_le] at hx
    have heq : ⌊x⌋ = n := by
      refine le_antisymm (by exact_mod_cast hfloor) ?_
      have : (n : ℚ) < ⌊x⌋ + 1 := by linarith
      exact_mod_cast Int.lt_add_one_iff.mp (by exact_mod_cast this)
    rw [heq] at hfract
    rw [roundEven, if_neg (by rintro (h | ⟨h, -⟩) <;> linarith)] at h
    omega
  · intro h
    rcases lt_or_ge ⌊x⌋ n with hlow | hhigh
    · exact (roundEven_le_floor_add_one x).trans hlow
    · have heq : ⌊x⌋ = n := by
        refine le_antisymm ?_ hhigh
        have : (⌊x⌋ : ℚ) < n + 1 := by linarith
        exact Int.lt_add_one_iff.mp (by exact_mod_cast this)
      rw [heq] at hfract
      rw [roundEven, heq]
      rcases lt_or_eq_of_le (show Int.fract x ≤ 1 / 2 by linarith) with hlt | htie
      · rw [if_pos (.inl hlt)]
      · rw [if_pos (.inr ⟨htie, hn⟩)]

/-- **A double with an even mantissa bounds the quotients up to half a unit of its last place.** -/
theorem nearestDouble_le_iff {k : ℕ} {t : ℤ} (heven : Even k) (hlow : 2 ^ 52 ≤ k) (hhigh : k < 2 ^ 53) {q : ℚ}
    (hq : 0 < q) (ht : -1074 ≤ t) : nearestDouble q ≤ k * 2 ^ t ↔ q ≤ (k + 1 / 2) * 2 ^ t := by
  have hpos (e : ℤ) : (0 : ℚ) < 2 ^ e := by positivity
  have hlowq : (2 : ℚ) ^ 52 ≤ k := by exact_mod_cast hlow
  have hhighq : (k : ℚ) + 1 ≤ 2 ^ 53 := by exact_mod_cast hhigh
  have hstep {e f : ℤ} (h : e < f) : (2 : ℚ) ^ 53 * 2 ^ e ≤ 2 ^ 52 * 2 ^ f := by
    calc (2 : ℚ) ^ 53 * 2 ^ e = 2 ^ 52 * 2 ^ (e + 1) := by rw [zpow_add₀ two_ne_zero]; ring
      _ ≤ 2 ^ 52 * 2 ^ f := by gcongr; exacts [one_le_two, h]
  have hvalue : q = q / 2 ^ lastPlace q * 2 ^ lastPlace q := by
    rw [div_mul_cancel₀ _ (hpos _).ne']
  rw [nearestDouble]
  rcases lt_trichotomy (lastPlace q) t with hlt | heq | hgt
  · -- everything here is below the bound
    have hround : (roundEven (q / 2 ^ lastPlace q) : ℚ) ≤ 2 ^ 53 := by exact_mod_cast roundEven_scaled_le
    refine iff_of_true ?_ ?_
    · calc (roundEven (q / 2 ^ lastPlace q) : ℚ) * 2 ^ lastPlace q ≤ 2 ^ 53 * 2 ^ lastPlace q := by gcongr
        _ ≤ 2 ^ 52 * 2 ^ t := hstep hlt
        _ ≤ k * 2 ^ t := by gcongr
    · calc q = q / 2 ^ lastPlace q * 2 ^ lastPlace q := hvalue
        _ ≤ 2 ^ 53 * 2 ^ lastPlace q := by gcongr; exact scaled_le.le
        _ ≤ 2 ^ 52 * 2 ^ t := hstep hlt
        _ ≤ (k + 1 / 2) * 2 ^ t := by gcongr; linarith
  · rw [heq, mul_le_mul_iff_of_pos_right (hpos t), ← div_le_iff₀ (hpos t)]
    have h := roundEven_le_iff_of_even (n := k) (by exact_mod_cast heven) (q / 2 ^ t)
    rw [Int.cast_natCast] at h
    rw [← h]
    exact_mod_cast Iff.rfl
  · -- everything here is above the bound
    have hlast : lastPlace q ≠ -1074 := by omega
    have hround : (2 : ℚ) ^ 52 ≤ roundEven (q / 2 ^ lastPlace q) := by exact_mod_cast le_roundEven_scaled hq hlast
    have hbound : ((k : ℚ) + 1) * 2 ^ t ≤ 2 ^ 52 * 2 ^ lastPlace q :=
      (mul_le_mul_of_nonneg_right hhighq (hpos t).le).trans (hstep hgt)
    refine iff_of_false (not_le.mpr ?_) (not_le.mpr ?_)
    · calc (k : ℚ) * 2 ^ t < (k + 1) * 2 ^ t := by gcongr; linarith
        _ ≤ 2 ^ 52 * 2 ^ lastPlace q := hbound
        _ ≤ roundEven (q / 2 ^ lastPlace q) * 2 ^ lastPlace q := by gcongr
    · calc ((k : ℚ) + 1 / 2) * 2 ^ t < (k + 1) * 2 ^ t := by gcongr; norm_num
        _ ≤ 2 ^ 52 * 2 ^ lastPlace q := hbound
        _ ≤ q / 2 ^ lastPlace q * 2 ^ lastPlace q := by gcongr; exact le_scaled hq hlast
        _ = q := hvalue.symm

/-! ### Rounding -/

theorem targetExponent_binary64 (total : ℤ) : Format.binary64.targetExponent total = max (total - 53) (-1074) := rfl

/-- The exponent that IEEE gives to a number is that of its last place. -/
theorem targetExponent_eq {m : ℕ} {e : ℤ} {a : UnpackedFloat.Accuracy} {x : ℚ}
    (hx : Represents (.ofMantissaAndAccuracy m a) x) (hpos : 0 < x) (he : e ≤ lastPlace (x * 2 ^ e)) :
    Format.binary64.targetExponent (totalExponent m e) = lastPlace (x * 2 ^ e) := by
  have hbelow := hx.below
  have habove := hx.above
  rw [ofMantissaAndAccuracy_mantissa] at hbelow habove
  have hscale : (0 : ℚ) < 2 ^ e := by positivity
  rw [targetExponent_binary64, totalExponent]
  rcases Nat.eq_zero_or_pos m with rfl | hm
  · -- a number below its own unit has its last place where the exponents begin
    have hlog : Int.log 2 (x * 2 ^ e) < e := by
      rw [← Int.lt_zpow_iff_log_lt one_lt_two (by positivity)]
      have : x < 1 := by simpa using habove
      exact (mul_lt_iff_lt_one_left hscale).mpr this
    rw [lastPlace] at he ⊢
    rw [Nat.log2_zero]
    omega
  · have hlog : Int.log 2 (x * 2 ^ e) = m.log2 + e := by
      have hlow : ((2 ^ m.log2 : ℕ) : ℚ) ≤ m := by exact_mod_cast Nat.log2_self_le hm.ne'
      have hhigh : (m : ℚ) + 1 ≤ ((2 ^ (m.log2 + 1) : ℕ) : ℚ) := by exact_mod_cast Nat.lt_log2_self
      push_cast at hlow hhigh
      refine le_antisymm ?_ ?_
      · have : x * 2 ^ e < 2 ^ ((m.log2 : ℤ) + e + 1) := by
          have hsum : (m.log2 : ℤ) + e + 1 = ((m.log2 + 1 : ℕ) : ℤ) + e := by
            push_cast
            ring
          rw [hsum, zpow_add₀ two_ne_zero, zpow_natCast]
          gcongr
          exact habove.trans_le hhigh
        have := (Int.lt_zpow_iff_log_lt one_lt_two (by positivity)).mp this
        omega
      · rw [← Int.zpow_le_iff_le_log one_lt_two (by positivity), Nat.cast_ofNat, zpow_add₀ two_ne_zero, zpow_natCast]
        gcongr
        exact hlow.trans hbelow
    rw [lastPlace, hlog]
    omega

/-- A mantissa that fits its exponent is not shifted. -/
theorem shiftToTargetExponent_of_lt {m : ℕ} {e : ℤ} (hm : m < 2 ^ 53) (he : -1074 ≤ e) :
    UnpackedFloat.shiftToTargetExponent .binary64 m e .exact = (⟨m, false, false⟩, e) := by
  have hlog : m.log2 < 53 := by
    rcases Nat.eq_zero_or_pos m with rfl | hpos
    · decide
    · exact (Nat.log2_lt hpos.ne').mpr hm
  have hshift : (Format.binary64.targetExponent (totalExponent m e) - e).toNat = 0 := by
    rw [targetExponent_binary64, totalExponent]
    omega
  rw [UnpackedFloat.shiftToTargetExponent, UnpackedFloat.shiftToExponent, hshift]
  exact Prod.ext rfl (add_zero e)

/-- A mantissa that rounding made one bit longer is shifted by it. -/
theorem shiftToTargetExponent_two_pow {e : ℤ} (he : -1074 ≤ e) :
    UnpackedFloat.shiftToTargetExponent .binary64 (2 ^ 53) e .exact = (⟨2 ^ 52, false, false⟩, e + 1) := by
  have hshift : (Format.binary64.targetExponent (totalExponent (2 ^ 53) e) - e).toNat = 1 := by
    rw [targetExponent_binary64, totalExponent, Nat.log2_two_pow]
    omega
  rw [UnpackedFloat.shiftToTargetExponent, UnpackedFloat.shiftToExponent, hshift]
  rfl

/-- **Rounding a positive number gives the nearest double**, except that the exponent may be too large. -/
theorem roundWithAccuracy_value {m : ℕ} {e : ℤ} {a : UnpackedFloat.Accuracy} {x : ℚ}
    (hx : Represents (.ofMantissaAndAccuracy m a) x) (hpos : 0 < x) (he : e ≤ lastPlace (x * 2 ^ e)) :
    (UnpackedFloat.roundWithAccuracy .binary64 .positive m e a).isFinite = true ∧
      Normal (UnpackedFloat.roundWithAccuracy .binary64 .positive m e a) ∧
      unpackedValue (UnpackedFloat.roundWithAccuracy .binary64 .positive m e a) = nearestDouble (x * 2 ^ e) := by
  have hq : 0 < x * 2 ^ e := by positivity
  have hscale : x / 2 ^ (lastPlace (x * 2 ^ e) - e).toNat = x * 2 ^ e / 2 ^ lastPlace (x * 2 ^ e) := by
    rw [← zpow_natCast, Int.toNat_of_nonneg (by omega), zpow_sub₀ two_ne_zero]
    field_simp
  have hfirst : UnpackedFloat.shiftToTargetExponent .binary64 m e a =
      (UnpackedFloat.ExtendedMantissa.ofMantissaAndAccuracy m a >>> (lastPlace (x * 2 ^ e) - e).toNat,
        lastPlace (x * 2 ^ e)) := by
    rw [UnpackedFloat.shiftToTargetExponent, targetExponent_eq hx hpos he, UnpackedFloat.shiftToExponent]
    refine Prod.ext rfl ?_
    dsimp only
    omega
  have hrounded := (hx.shiftRight (lastPlace (x * 2 ^ e) - e).toNat).roundedMantissa
  rw [hscale] at hrounded
  have hlast : -1074 ≤ lastPlace (x * 2 ^ e) := le_max_right _ _
  have hmax := roundEven_scaled_le (q := x * 2 ^ e)
  have hmin : lastPlace (x * 2 ^ e) ≠ -1074 → 2 ^ 52 ≤ roundEven (x * 2 ^ e / 2 ^ lastPlace (x * 2 ^ e)) :=
    le_roundEven_scaled hq
  rw [nearestDouble]
  unfold UnpackedFloat.roundWithAccuracy
  rw [hfirst]
  dsimp only
  rw [← hrounded] at hmax hmin ⊢
  generalize (UnpackedFloat.ExtendedMantissa.ofMantissaAndAccuracy m a >>>
    (lastPlace (x * 2 ^ e) - e).toNat).roundedMantissa = r at hmax hmin ⊢
  generalize lastPlace (x * 2 ^ e) = t at hlast hmin ⊢
  rcases lt_or_eq_of_le (show r ≤ 2 ^ 53 by omega) with hlt | rfl
  · rw [shiftToTargetExponent_of_lt hlt hlast]
    dsimp only
    split_ifs with hzero
    · subst hzero
      exact ⟨rfl, trivial, by simp [unpackedValue]⟩
    · refine ⟨rfl, ⟨hlt, hlast, fun hsmall => ?_⟩, ?_⟩
      · by_contra hne
        have := hmin hne
        omega
      · rw [unpackedValue_positive]
        simp
  · rw [shiftToTargetExponent_two_pow hlast]
    dsimp only
    rw [dif_neg (by decide)]
    refine ⟨rfl, ⟨by decide, by omega, fun h => absurd h (lt_irrefl _)⟩, ?_⟩
    rw [unpackedValue_positive, zpow_add₀ two_ne_zero]
    push_cast
    ring

/-! ### Packing -/

theorem unpackSign_packComponents {spec : Format} {s : UnpackedFloat.Sign} {e : BitVec spec.exponentBits}
    {m : BitVec spec.mantissaBitsWithoutImplicit} :
    UnpackedFloat.unpackSign (UnpackedFloat.packComponents spec s e m) = s.toBitVec := by
  ext i hi
  have hindex : spec.mantissaBitsWithoutImplicit + spec.exponentBits + i - spec.mantissaBitsWithoutImplicit -
      spec.exponentBits = i := by omega
  simp [UnpackedFloat.unpackSign, UnpackedFloat.packComponents, BitVec.getLsbD_append]
  rw [if_neg (by omega), if_neg (by omega), hindex, BitVec.getLsbD_eq_getElem]

theorem ofBitVec_toBitVec (s : UnpackedFloat.Sign) : UnpackedFloat.Sign.ofBitVec s.toBitVec = s := by
  cases s <;> rfl

/-- A finite float whose exponent fits its field is unpacked as it was packed. -/
theorem unpack_pack {s : UnpackedFloat.Sign} {m : ℕ} {e : ℤ} {hm : 0 < m} (hn : Normal (.finite s m e hm))
    (he : e ≤ 971) :
    UnpackedFloat.unpack .binary64 (UnpackedFloat.pack .binary64 (.finite s m e hm)) = .finite s m e hm := by
  obtain ⟨hhigh, hlow, hsub⟩ := hn
  have hbias : (Format.binary64.exponentBias : ℤ) = 1023 := by decide
  have hfit : ¬ 2 ^ Format.binary64.exponentBits ≤ (e + (Format.binary64.exponentBias : ℤ) +
      (Format.binary64.mantissaBitsWithoutImplicit : ℤ)).toNat + 1 := by
    rw [hbias]
    simp only
    omega
  have hexp : ((-1#11 : BitVec 11)).toNat = 2047 := by decide
  rw [UnpackedFloat.pack, if_neg hfit]
  rcases lt_or_ge m (2 ^ 52) with hsmall | hbig
  · obtain rfl := hsub hsmall
    have hlog : m.log2 < 52 := (Nat.log2_lt hm.ne').mpr hsmall
    have hbits : m.log2 + 1 ≠ Format.binary64.mantissaBits := by
      rw [show Format.binary64.mantissaBits = 53 by decide]
      omega
    have hmantissa : (BitVec.ofNat 52 m).toNat = m := by
      rw [BitVec.toNat_ofNat, Nat.mod_eq_of_lt hsmall]
    have hne : BitVec.ofNat 52 m ≠ 0#52 := by
      intro h
      rw [h] at hmantissa
      exact hm.ne hmantissa
    rw [if_neg hbits]
    unfold UnpackedFloat.unpack
    simp only [UnpackedFloat.unpackExponent_packComponents, UnpackedFloat.unpackMantissa_packComponents,
      unpackSign_packComponents, ofBitVec_toBitVec, hmantissa]
    rw [if_neg (by decide), if_pos trivial, dif_neg hne]
    rfl
  · have hlog : m.log2 = 52 := by
      refine le_antisymm ?_ ((Nat.le_log2 hm.ne').mpr hbig)
      exact Nat.lt_succ_iff.mp ((Nat.log2_lt hm.ne').mpr hhigh)
    have hbits : m.log2 + 1 = Format.binary64.mantissaBits := by
      rw [hlog]
      decide
    rw [if_pos hbits]
    have hfield : (e + (Format.binary64.exponentBias : ℤ) + (Format.binary64.mantissaBitsWithoutImplicit : ℤ)).toNat
        = (e + 1075).toNat := by
      rw [hbias]
      simp only
      omega
    rw [hfield]
    have hexponent : (BitVec.ofNat 11 (e + 1075).toNat).toNat = (e + 1075).toNat := by
      rw [BitVec.toNat_ofNat]
      omega
    have hmantissa : (1#1 ++ BitVec.ofNat 52 m).toNat = m := by
      rw [toNat_implicit, BitVec.toNat_ofNat]
      omega
    have hinf : BitVec.ofNat 11 (e + 1075).toNat ≠ -1#11 := by
      intro h
      rw [h, hexp] at hexponent
      omega
    have hzero : BitVec.ofNat 11 (e + 1075).toNat ≠ 0#11 := by
      intro h
      rw [h, BitVec.toNat_ofNat] at hexponent
      omega
    unfold UnpackedFloat.unpack
    simp only [UnpackedFloat.unpackExponent_packComponents, UnpackedFloat.unpackMantissa_packComponents,
      unpackSign_packComponents, ofBitVec_toBitVec]
    rw [if_neg hinf, if_neg hzero, UnpackedFloat.finite.injEq]
    refine ⟨rfl, hmantissa, ?_⟩
    rw [hexponent, hbias]
    omega

theorem unpack_packedInfinity :
    UnpackedFloat.unpack .binary64 (UnpackedFloat.packedInfinity .binary64 .positive) = .infinity .positive := by
  rw [UnpackedFloat.packedInfinity]
  unfold UnpackedFloat.unpack
  simp only [UnpackedFloat.unpackExponent_packComponents, UnpackedFloat.unpackMantissa_packComponents,
    unpackSign_packComponents, ofBitVec_toBitVec]
  rfl

/-- A positive float from `2 ^ 1024` on is packed as infinity. -/
theorem unpack_pack_infinity {m : ℕ} {e : ℤ} {hm : 0 < m} (he : 971 < e) :
    UnpackedFloat.unpack .binary64 (UnpackedFloat.pack .binary64 (.finite .positive m e hm)) = .infinity .positive := by
  have hover : 2 ^ Format.binary64.exponentBits ≤ (e + (Format.binary64.exponentBias : ℤ) +
      (Format.binary64.mantissaBitsWithoutImplicit : ℤ)).toNat + 1 := by
    rw [show (Format.binary64.exponentBias : ℤ) = 1023 by decide]
    simp only
    omega
  rw [UnpackedFloat.pack, if_pos hover]
  exact unpack_packedInfinity

/-- The exponent of a stored number fits its field when the number is below `2 ^ 1024`. -/
theorem exponent_le_iff {m : ℕ} {e : ℤ} {hm : 0 < m} {s : UnpackedFloat.Sign} (hn : Normal (.finite s m e hm)) :
    e ≤ 971 ↔ (m : ℚ) * 2 ^ e < 2 ^ 1024 := by
  obtain ⟨hhigh, hlow, hsub⟩ := hn
  have hsplit : (2 : ℚ) ^ 1024 = 2 ^ 53 * 2 ^ (971 : ℤ) := by
    rw [← zpow_natCast, ← zpow_natCast, ← zpow_add₀ two_ne_zero]
    rfl
  have hhighq : (m : ℚ) < 2 ^ 53 := by exact_mod_cast hhigh
  rw [hsplit]
  constructor
  · intro he
    calc (m : ℚ) * 2 ^ e < 2 ^ 53 * 2 ^ e := by gcongr
      _ ≤ 2 ^ 53 * 2 ^ (971 : ℤ) := by gcongr; exact one_le_two
  · intro hlt
    by_contra he
    have hbig : 2 ^ 52 ≤ m := by
      by_contra hsmall
      have := hsub (by omega)
      omega
    have hbigq : (2 : ℚ) ^ 52 ≤ m := by exact_mod_cast hbig
    refine absurd hlt (not_lt.mpr ?_)
    calc (2 : ℚ) ^ 53 * 2 ^ (971 : ℤ) = 2 ^ 52 * 2 ^ (972 : ℤ) := by
          rw [show (972 : ℤ) = 971 + 1 by norm_num, zpow_add_one₀ two_ne_zero]
          generalize (2 : ℚ) ^ (971 : ℤ) = p
          ring
      _ ≤ (m : ℚ) * 2 ^ e := by gcongr; exacts [one_le_two, by omega]

/-- A number from zero on is stored as it is, or as infinity. -/
theorem unpack_pack_value {u : UnpackedFloat} (hfinite : u.isFinite = true) (hn : Normal u)
    (hpos : 0 ≤ unpackedValue u) :
    (unpackedValue u < 2 ^ 1024 → (UnpackedFloat.unpack .binary64 (UnpackedFloat.pack .binary64 u)).isFinite = true ∧
      unpackedValue (UnpackedFloat.unpack .binary64 (UnpackedFloat.pack .binary64 u)) = unpackedValue u) ∧
    (2 ^ 1024 ≤ unpackedValue u →
      UnpackedFloat.unpack .binary64 (UnpackedFloat.pack .binary64 u) = .infinity .positive) := by
  cases u with
  | notANumber => cases hfinite
  | infinity s => cases hfinite
  | zero s =>
    refine ⟨fun _ => ?_, fun h => absurd h (not_le.mpr (by rw [unpackedValue]; positivity))⟩
    cases s <;> exact ⟨by decide, by decide +kernel⟩
  | finite s m e hm =>
    have hscaled : (0 : ℚ) < m * 2 ^ e := by positivity
    cases s with
    | negative =>
      rw [unpackedValue_negative] at hpos
      linarith
    | positive =>
      rw [unpackedValue_positive, ← exponent_le_iff hn]
      constructor
      · intro he
        rw [unpack_pack hn he]
        exact ⟨rfl, unpackedValue_positive⟩
      · intro hover
        exact unpack_pack_infinity (not_le.mp fun he => absurd ((exponent_le_iff hn).mp he) (not_lt.mpr hover))

/-! ### Signs -/

/-- A double with a positive number is unpacked as a positive finite float. -/
theorem unpack_of_pos {x : Float} (hx : 0 < floatValue x) :
    ∃ m e hm, x.toModel.unpack = .finite .positive m e hm ∧ floatValue x = (m : ℚ) * 2 ^ e := by
  rw [floatValue] at hx ⊢
  generalize x.toModel.unpack = u at hx ⊢
  cases u with
  | notANumber => exact absurd hx (lt_irrefl _)
  | infinity s => exact absurd hx (lt_irrefl _)
  | zero s => exact absurd hx (lt_irrefl _)
  | finite s m e hm =>
    cases s with
    | positive => exact ⟨m, e, hm, rfl, unpackedValue_positive⟩
    | negative =>
      rw [unpackedValue_negative] at hx
      have : (0 : ℚ) < m * 2 ^ e := by positivity
      linarith

/-- The sign bit is set. -/
def Negative : UnpackedFloat → Prop
  | .finite .negative _ _ _ | .zero .negative | .infinity .negative => True
  | _ => False

/-- A float with this sign bit. -/
def HasSign (s : UnpackedFloat.Sign) : UnpackedFloat → Prop
  | .finite t _ _ _ | .zero t | .infinity t => t = s
  | .notANumber => False

theorem negative_iff {u : UnpackedFloat} : Negative u ↔ HasSign .negative u := by
  cases u with
  | notANumber => rfl
  | infinity s => cases s <;> simp [Negative, HasSign]
  | zero s => cases s <;> simp [Negative, HasSign]
  | finite s m e hm => cases s <;> simp [Negative, HasSign]

/-- A packed float keeps its sign, unless it is NaN. -/
theorem hasSign_unpack {s : UnpackedFloat.Sign} {e : BitVec Format.binary64.exponentBits}
    {m : BitVec Format.binary64.mantissaBitsWithoutImplicit} (h : e = -1#_ → m = 0#_) :
    HasSign s (UnpackedFloat.unpack .binary64 (UnpackedFloat.packComponents .binary64 s e m)) := by
  unfold UnpackedFloat.unpack
  simp only [UnpackedFloat.unpackExponent_packComponents, UnpackedFloat.unpackMantissa_packComponents,
    unpackSign_packComponents, ofBitVec_toBitVec]
  split_ifs with hlast hzero
  · rfl
  · exact absurd (h hlast) hzero
  · rfl
  · rfl
  · rfl

theorem hasSign_unpack_pack {s : UnpackedFloat.Sign} {u : UnpackedFloat} (h : HasSign s u) :
    HasSign s (UnpackedFloat.unpack .binary64 (UnpackedFloat.pack .binary64 u)) := by
  cases u with
  | notANumber => exact h.elim
  | infinity t =>
    obtain rfl : t = s := h
    exact hasSign_unpack fun _ => rfl
  | zero t =>
    obtain rfl : t = s := h
    exact hasSign_unpack fun _ => rfl
  | finite t m e hm =>
    obtain rfl : t = s := h
    have hfield := @unpackExponent_pack_finite_ne t m e hm
    rw [UnpackedFloat.pack] at hfield ⊢
    split_ifs at hfield ⊢ with hover hnormal
    · exact hasSign_unpack fun _ => rfl
    all_goals
      rw [UnpackedFloat.unpackExponent_packComponents] at hfield
      refine hasSign_unpack fun heq => absurd heq (hfield ?_)
      simp only at hover ⊢
      omega

theorem negative_unpack_pack {u : UnpackedFloat} (h : Negative u) :
    Negative (UnpackedFloat.unpack .binary64 (UnpackedFloat.pack .binary64 u)) :=
  negative_iff.mpr (hasSign_unpack_pack (negative_iff.mp h))

/-- The absolute value of a number has no sign. -/
theorem hasSign_abs {x : Float} (h : x.isNaN = false) : HasSign .positive x.abs.toModel.unpack := by
  have hnan : x.toModel.unpack.isNaN = false := h
  change HasSign .positive (UnpackedFloat.unpack .binary64 (UnpackedFloat.pack .binary64 x.toModel.unpack.abs))
  apply hasSign_unpack_pack
  cases hu : x.toModel.unpack with
  | notANumber =>
    rw [hu] at hnan
    cases hnan
  | infinity s => rfl
  | zero s => rfl
  | finite s m e hm => rfl

/-- Rounding keeps the sign. -/
theorem negative_roundWithAccuracy (m : ℕ) (e : ℤ) (a : UnpackedFloat.Accuracy) :
    Negative (UnpackedFloat.roundWithAccuracy .binary64 .negative m e a) := by
  unfold UnpackedFloat.roundWithAccuracy
  dsimp only
  split_ifs <;> trivial

/-- A quotient is what dividing the unpacked floats gives, packed. -/
theorem unpack_quotient (x y : Float) : (x / y).toModel.unpack =
    UnpackedFloat.unpack .binary64 (UnpackedFloat.pack .binary64
      (UnpackedFloat.div .binary64 x.toModel.unpack y.toModel.unpack)) := rfl

/-- A positive number divided by something finite with a sign has a sign. -/
theorem negative_div {x y : Float} (hx : 0 < floatValue x) (hy : y.isFinite = true)
    (hsign : Negative y.toModel.unpack) : Negative (x / y).toModel.unpack := by
  obtain ⟨m, e, hm, hux, -⟩ := unpack_of_pos hx
  have hfinite : y.toModel.unpack.isFinite = true := hy
  rw [unpack_quotient, hux]
  apply negative_unpack_pack
  generalize y.toModel.unpack = v at hsign hfinite
  cases v with
  | notANumber => cases hfinite
  | infinity t => cases hfinite
  | zero t =>
    cases t with
    | positive => exact hsign.elim
    | negative => trivial
  | finite t n f hn =>
    cases t with
    | positive => exact hsign.elim
    | negative => exact negative_roundWithAccuracy _ _ _

/-- A positive number divided by zero is infinite. -/
theorem unpack_div_zero {x y : Float} (hx : 0 < floatValue x) (hy : y.toModel.unpack = .zero .positive) :
    (x / y).toModel.unpack = .infinity .positive := by
  obtain ⟨m, e, hm, hux, -⟩ := unpack_of_pos hx
  rw [unpack_quotient, hux, hy]
  exact unpack_packedInfinity

/-! ### Quotients -/

theorem log_lt {m : ℕ} (hm : 0 < m) (e : ℤ) :
    (2 : ℚ) ^ ((m.log2 : ℤ) + e) ≤ m * 2 ^ e ∧ (m : ℚ) * 2 ^ e < 2 ^ ((m.log2 : ℤ) + 1 + e) := by
  have hlow : ((2 ^ m.log2 : ℕ) : ℚ) ≤ m := by exact_mod_cast Nat.log2_self_le hm.ne'
  have hhigh : (m : ℚ) < ((2 ^ (m.log2 + 1) : ℕ) : ℚ) := by exact_mod_cast Nat.lt_log2_self
  push_cast at hlow hhigh
  have hcast : (m.log2 : ℤ) + 1 = ((m.log2 + 1 : ℕ) : ℤ) := by push_cast; rfl
  rw [hcast, zpow_add₀ two_ne_zero, zpow_add₀ two_ne_zero, zpow_natCast, zpow_natCast]
  constructor
  · gcongr
  · gcongr

/-- The quotient of two positive doubles is rounded before it is packed. -/
theorem unpack_div {x y : Float} (hx : 0 < floatValue x) (hy : 0 < floatValue y) :
    ∃ u : UnpackedFloat, (x / y).toModel.unpack = UnpackedFloat.unpack .binary64 (UnpackedFloat.pack .binary64 u) ∧
      u.isFinite = true ∧ Normal u ∧ unpackedValue u = nearestDouble (floatValue x / floatValue y) := by
  obtain ⟨m₁, e₁, hm₁, hux, hvx⟩ := unpack_of_pos hx
  obtain ⟨m₂, e₂, hm₂, huy, hvy⟩ := unpack_of_pos hy
  have hquot : 0 < floatValue x / floatValue y := div_pos hx hy
  -- the dividend is shifted so far that the quotient has a bit to spare
  let d : ℤ := min (e₁ - e₂) (Format.binary64.targetExponent (totalExponent m₁ e₁ - totalExponent m₂ e₂))
  let a := m₁ <<< (e₁ - e₂ - d).toNat
  have hshift : ((e₁ - e₂ - d).toNat : ℤ) = e₁ - e₂ - d := Int.toNat_of_nonneg (by omega)
  have hvalue : ((a : ℚ) / m₂) * 2 ^ d = floatValue x / floatValue y := by
    rw [hvx, hvy, show a = m₁ * 2 ^ (e₁ - e₂ - d).toNat from Nat.shiftLeft_eq _ _]
    push_cast
    rw [← zpow_natCast, hshift, zpow_sub₀ two_ne_zero, zpow_sub₀ two_ne_zero]
    field_simp
  have hrep := represents_div a hm₂
  have hpos : (0 : ℚ) < (a : ℚ) / m₂ := by
    have : (0 : ℚ) < (a : ℚ) / m₂ * 2 ^ d := hvalue ▸ hquot
    exact (mul_pos_iff_of_pos_right (by positivity)).mp this
  have hplace : d ≤ lastPlace ((a : ℚ) / m₂ * 2 ^ d) := by
    have hlog : (m₁.log2 : ℤ) + e₁ - (m₂.log2 + 1 + e₂) ≤ Int.log 2 (floatValue x / floatValue y) := by
      rw [← Int.zpow_le_iff_le_log one_lt_two hquot, Nat.cast_ofNat, zpow_sub₀ two_ne_zero, hvx, hvy]
      exact div_le_div₀ (by positivity) (log_lt hm₁ e₁).1 (by positivity) (log_lt hm₂ e₂).2.le
    rw [hvalue, lastPlace]
    refine (min_le_right _ _).trans ?_
    rw [targetExponent_binary64, totalExponent, totalExponent]
    omega
  obtain ⟨hfinite, hnormal, hrounded⟩ := roundWithAccuracy_value hrep hpos hplace
  rw [hvalue] at hrounded
  refine ⟨_, ?_, hfinite, hnormal, hrounded⟩
  rw [unpack_quotient, hux, huy]
  rfl

theorem nearestDouble_nonneg {q : ℚ} (hq : 0 < q) : 0 ≤ nearestDouble q := by
  have h : (0 : ℚ) ≤ roundEven (q / 2 ^ lastPlace q) := by exact_mod_cast roundEven_scaled_nonneg hq
  rw [nearestDouble]
  positivity

/-- **The quotient of two positive doubles** is the nearest double to the exact quotient, or infinite from
`2 ^ 1024` on. -/
theorem floatValue_div {x y : Float} (hx : 0 < floatValue x) (hy : 0 < floatValue y) :
    (nearestDouble (floatValue x / floatValue y) < 2 ^ 1024 → (x / y).isFinite = true ∧
      floatValue (x / y) = nearestDouble (floatValue x / floatValue y)) ∧
    (2 ^ 1024 ≤ nearestDouble (floatValue x / floatValue y) → (x / y).toModel.unpack = .infinity .positive) := by
  obtain ⟨u, hunpack, hfinite, hnormal, hvalue⟩ := unpack_div hx hy
  have hfin : (x / y).isFinite = (x / y).toModel.unpack.isFinite := rfl
  have hval : floatValue (x / y) = unpackedValue (x / y).toModel.unpack := rfl
  rw [hfin, hval, hunpack, ← hvalue]
  exact unpack_pack_value hfinite hnormal (hvalue ▸ nearestDouble_nonneg (div_pos hx hy))

end Forge
