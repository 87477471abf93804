import Forge.Data.Numerals
import Mathlib.Algebra.Group.Int.Even
import Mathlib.Algebra.Order.Field.Basic
import Mathlib.Algebra.Order.Floor.Ring
import Mathlib.Data.Int.ConditionallyCompleteOrder
import Mathlib.Tactic.FieldSimp
import Mathlib.Tactic.Linarith
import Mathlib.Tactic.NormNum
import Mathlib.Tactic.Positivity

/-!
# Rounding to even

`roundEven x` is the integer nearest to `x`, ties to even; `roundTo d x` rounds to a decimal with `d` digits after
the point. Rounding is monotone (`roundEven_mono`) and commutes with adding an even integer (`roundEven_add`).

An integer is compared with `x` as it is compared with the rounded `x`, except that a value which is rounded up is
itself below the result: **`intCast_le_iff_le`** and **`intCast_le_iff_lt`**.
-/

namespace Forge

variable {K : Type*} [Field K] [LinearOrder K] [FloorRing K]

/-- The integer nearest to `x`, ties to even. -/
def roundEven (x : K) : ℤ :=
  if Int.fract x < 1 / 2 ∨ (Int.fract x = 1 / 2 ∧ Even ⌊x⌋) then ⌊x⌋ else ⌊x⌋ + 1

/-- The decimal nearest to `x` with `d` digits after the point, ties to even. -/
def roundTo (d : ℕ) (x : K) : K := roundEven (x * 10 ^ d) / 10 ^ d

theorem roundEven_cases (x : K) : roundEven x = ⌊x⌋ ∨ roundEven x = ⌊x⌋ + 1 := by
  rw [roundEven]
  split
  · exact .inl rfl
  · exact .inr rfl

theorem floor_le_roundEven (x : K) : ⌊x⌋ ≤ roundEven x := by
  rcases roundEven_cases x with h | h <;> omega

theorem roundEven_le_floor_add_one (x : K) : roundEven x ≤ ⌊x⌋ + 1 := by
  rcases roundEven_cases x with h | h <;> omega

/-- A value that is not rounded up bounds the same integers as its rounding. -/
theorem intCast_le_iff_le {x : K} (h : (roundEven x : K) ≤ x) (m : ℤ) : (m : K) ≤ x ↔ m ≤ roundEven x := by
  have hfloor : roundEven x = ⌊x⌋ := le_antisymm (Int.le_floor.mpr h) (floor_le_roundEven x)
  rw [hfloor, Int.le_floor]

/-- A value that is rounded up bounds the integers below its rounding. -/
theorem intCast_le_iff_lt {x : K} (h : x < roundEven x) (m : ℤ) : (m : K) ≤ x ↔ m < roundEven x := by
  have hceil : roundEven x = ⌊x⌋ + 1 := by
    rcases roundEven_cases x with heq | heq
    · rw [heq] at h
      exact absurd (Int.floor_le x) (not_le.mpr h)
    · exact heq
  rw [hceil, Int.lt_add_one_iff, Int.le_floor]

variable [IsStrictOrderedRing K]

@[simp] theorem roundEven_intCast (n : ℤ) : roundEven (n : K) = n := by
  rw [roundEven, Int.fract_intCast, if_pos (.inl (by norm_num)), Int.floor_intCast]

theorem roundEven_mono : Monotone (roundEven : K → ℤ) := by
  intro x y hxy
  rcases (Int.floor_le_floor hxy).lt_or_eq with hlt | heq
  · calc roundEven x ≤ ⌊x⌋ + 1 := roundEven_le_floor_add_one x
      _ ≤ ⌊y⌋ := hlt
      _ ≤ roundEven y := floor_le_roundEven y
  · have hfract : Int.fract x ≤ Int.fract y := by
      rw [Int.fract, Int.fract, heq]
      exact sub_le_sub_right hxy _
    rw [roundEven, roundEven, heq]
    split
    · split <;> omega
    · next hx =>
      obtain ⟨hhalf, htie⟩ := not_or.mp hx
      have hy : ¬ (Int.fract y < 1 / 2 ∨ (Int.fract y = 1 / 2 ∧ Even ⌊y⌋)) := by
        rintro (hy | ⟨hy, heven⟩)
        · exact hhalf (hfract.trans_lt hy)
        · exact htie ⟨le_antisymm (hfract.trans hy.le) (not_lt.mp hhalf), heven⟩
      rw [if_neg hy]

/-- Moving by an even integer keeps the ties where they are. -/
theorem roundEven_add {n : ℤ} (hn : Even n) (x : K) : roundEven (x + n) = roundEven x + n := by
  rw [roundEven, roundEven, Int.fract_add_intCast, Int.floor_add_intCast]
  simp only [Int.even_add, hn, iff_true]
  split <;> omega

/-- Rounding does not prefer a sign. -/
theorem roundEven_neg (x : K) : roundEven (-x) = -roundEven x := by
  by_cases hx : Int.fract x = 0
  · obtain ⟨n, rfl⟩ := Int.fract_eq_zero_iff.mp hx
    rw [← Int.cast_neg, roundEven_intCast, roundEven_intCast]
  · have hfract : Int.fract (-x) = 1 - Int.fract x := Int.fract_neg hx
    have hfloor : ⌊-x⌋ = -⌊x⌋ - 1 := by
      have hcast : ((⌊-x⌋ : ℤ) : K) = ((-⌊x⌋ - 1 : ℤ) : K) := by
        push_cast
        linarith [Int.self_sub_fract x, Int.self_sub_fract (-x)]
      exact Int.cast_injective hcast
    have heven : Even (-⌊x⌋ - 1) ↔ ¬ Even ⌊x⌋ := by
      rw [Int.even_sub_one, even_neg]
    have hlow : 1 - Int.fract x < 1 / 2 ↔ 1 / 2 < Int.fract x := by
      constructor <;> intro h <;> linarith
    have htie : 1 - Int.fract x = 1 / 2 ↔ Int.fract x = 1 / 2 := by
      constructor <;> intro h <;> linarith
    rw [roundEven, roundEven, hfract, hfloor]
    simp only [heven, hlow, htie]
    rcases lt_trichotomy (Int.fract x) (1 / 2) with h | h | h
    · rw [if_neg (by rintro (h' | ⟨h', -⟩) <;> linarith), if_pos (.inl h)]
      omega
    · by_cases he : Even ⌊x⌋
      · rw [if_neg (by rintro (h' | ⟨-, h'⟩); exacts [h'.ne' h, h' he]), if_pos (.inr ⟨h, he⟩)]
        omega
      · rw [if_pos (.inr ⟨h, he⟩), if_neg (by rintro (h' | ⟨-, h'⟩); exacts [h'.ne h, he h'])]
        omega
    · rw [if_pos (.inl h), if_neg (by rintro (h' | ⟨h', -⟩) <;> linarith)]
      omega

/-- Rounding moves by at most a half. -/
theorem abs_roundEven_sub_le (x : K) : |(roundEven x : K) - x| ≤ 1 / 2 := by
  have hfract := Int.self_sub_floor x
  have hnonneg := Int.fract_nonneg x
  have hlt := Int.fract_lt_one x
  rw [abs_le, roundEven]
  split_ifs with h
  · have hle : Int.fract x ≤ 1 / 2 := h.elim le_of_lt fun h => h.1.le
    constructor <;> linarith
  · have hge : 1 / 2 ≤ Int.fract x := not_lt.mp fun hlt => h (.inl hlt)
    push_cast
    constructor <;> linarith

/-- What rounds to a positive integer is above one half, which itself is rounded down. -/
theorem roundEven_pos_iff {x : K} : 0 < roundEven x ↔ 1 / 2 < x := by
  constructor
  · intro h
    by_contra hle
    have hhalf : roundEven (1 / 2 : K) = 0 := by
      have hfloor : ⌊(1 / 2 : K)⌋ = 0 := Int.floor_eq_zero_iff.mpr ⟨by norm_num, by norm_num⟩
      have hfract : Int.fract (1 / 2 : K) = 1 / 2 := by rw [Int.fract, hfloor, Int.cast_zero, sub_zero]
      rw [roundEven, hfract, hfloor, if_pos (.inr ⟨rfl, Even.zero⟩)]
    have := roundEven_mono (not_lt.mp hle)
    omega
  · intro h
    have hnear := (abs_le.mp (abs_roundEven_sub_le x)).1
    have hpos : (0 : K) < roundEven x := by linarith
    exact Int.cast_pos.mp hpos

/-! ### Decimals -/

variable {d : ℕ}

theorem roundTo_mono : Monotone (roundTo d : K → K) := by
  intro x y hxy
  have hpos : (0 : K) < 10 ^ d := by positivity
  exact div_le_div_of_nonneg_right (Int.cast_le.mpr (roundEven_mono (mul_le_mul_of_nonneg_right hxy hpos.le))) hpos.le

/-- What is rounded already stays. -/
theorem roundTo_roundTo (x : K) : roundTo d (roundTo d x) = roundTo d x := by
  have hpos : (10 : K) ^ d ≠ 0 := by positivity
  rw [roundTo, roundTo, div_mul_cancel₀ _ hpos, roundEven_intCast]

theorem roundTo_add_natCast (hd : d ≠ 0) (x : K) (k : ℕ) : roundTo d (x + k) = roundTo d x + k := by
  have heven : Even ((k * 10 ^ d : ℕ) : ℤ) := by
    refine Int.even_coe_nat _ |>.mpr (Even.mul_left ?_ k)
    exact (Nat.even_pow.mpr ⟨by decide, hd⟩)
  have hscale : (x + k) * 10 ^ d = x * 10 ^ d + ((k * 10 ^ d : ℕ) : ℤ) := by
    push_cast
    rw [add_mul]
  have hpos : (10 : K) ^ d ≠ 0 := by positivity
  rw [roundTo, hscale, roundEven_add heven, roundTo]
  push_cast
  rw [add_div, mul_div_cancel_right₀ _ hpos]

theorem roundTo_neg {d : ℕ} (x : K) : roundTo d (-x) = -roundTo d x := by
  rw [roundTo, roundTo, neg_mul, roundEven_neg, Int.cast_neg, neg_div]

theorem abs_roundTo_sub_le (d : ℕ) (x : K) : |roundTo d x - x| ≤ 1 / 2 / 10 ^ d := by
  have hpos : (0 : K) < 10 ^ d := by positivity
  have heq : roundTo d x - x = (roundEven (x * 10 ^ d) - x * 10 ^ d) / 10 ^ d := by
    rw [roundTo]
    field_simp
  rw [heq, abs_div, abs_of_pos hpos]
  exact div_le_div_of_nonneg_right (abs_roundEven_sub_le _) hpos.le

theorem roundTo_pos_iff {d : ℕ} {x : K} : 0 < roundTo d x ↔ 1 / 2 / 10 ^ d < x := by
  have hpos : (0 : K) < 10 ^ d := by positivity
  rw [roundTo, div_pos_iff_of_pos_right hpos, Int.cast_pos, roundEven_pos_iff, div_lt_iff₀ hpos]

/-- A decimal is compared with a value that is not rounded up as with its rounding. -/
theorem roundTo_le_iff_le {x : K} (h : roundTo d x ≤ x) (y : K) : roundTo d y ≤ x ↔ roundTo d y ≤ roundTo d x := by
  have hpos : (0 : K) < 10 ^ d := by positivity
  rw [roundTo, div_le_iff₀ hpos] at h
  rw [roundTo, roundTo, div_le_iff₀ hpos, intCast_le_iff_le h, div_le_div_iff_of_pos_right hpos, Int.cast_le]

/-- A decimal is below a value that is rounded up when it is below its rounding. -/
theorem roundTo_le_iff_lt {x : K} (h : x < roundTo d x) (y : K) : roundTo d y ≤ x ↔ roundTo d y < roundTo d x := by
  have hpos : (0 : K) < 10 ^ d := by positivity
  rw [roundTo, lt_div_iff₀ hpos] at h
  rw [roundTo, roundTo, div_le_iff₀ hpos, intCast_le_iff_lt h, div_lt_div_iff_of_pos_right hpos, Int.cast_lt]

end Forge
