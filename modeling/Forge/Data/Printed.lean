import Forge.Data.Fixed
import Forge.Data.RoundEven
import Mathlib.Data.List.DropRight
import Mathlib.Tactic.FieldSimp

/-!
# Decimals that are read back

`printed d q` is the text of a number with `d` decimals, without the zeros at its end, and `readDecimal` reads a text of
digits with a point among them. **`readDecimal_printed`**: what is read back is the number, rounded to `d` decimals.
-/

namespace Forge

/-- `trim_end_matches` -/
def trimEnd (c : Char) (s : List Char) : List Char := s.rdropWhile fun x => x = c

/-- A number with `d` decimals, without the zeros at its end, and without the point if nothing follows it. -/
def printed (d : ℕ) (q : ℚ) : List Char :=
  trimEnd '.' (trimEnd '0' ((if q < 0 then ['-'] else []) ++ fixedDigits d (roundHalfEven (|q| * 10 ^ d))))

/-- Digits, or digits around a point. -/
def readUnsigned (s : List Char) : Option ℚ :=
  let whole := s.takeWhile Char.isDigit
  match s.dropWhile Char.isDigit with
  | [] => if whole = [] then none else some (Nat.ofDigitChars 10 whole 0)
  | c :: fraction =>
    if c = '.' ∧ whole ≠ [] ∧ fraction ≠ [] ∧ fraction.all Char.isDigit then
      some (Nat.ofDigitChars 10 (whole ++ fraction) 0 / 10 ^ fraction.length)
    else none

/-- A decimal with a sign or without one. -/
def readDecimal : List Char → Option ℚ
  | '-' :: s => (readUnsigned s).map fun q => -q
  | s => readUnsigned s

example : printed 6 (-1 / 4) = "-0.25".toList := by decide +kernel

/-! ### Trimming -/

variable {c : Char}

@[simp] theorem trimEnd_nil : trimEnd c [] = [] := rfl

theorem trimEnd_concat (l : List Char) (x : Char) : trimEnd c (l ++ [x]) = if x = c then trimEnd c l else l ++ [x] := by
  simp [trimEnd, List.rdropWhile_concat]

/-- Trimming goes no further than to a character that stays. -/
theorem trimEnd_append_cons {x : Char} (hx : x ≠ c) (l r : List Char) :
    trimEnd c (l ++ x :: r) = l ++ x :: trimEnd c r := by
  induction r using List.reverseRecOn with
  | nil => rw [trimEnd_concat, if_neg hx, trimEnd_nil]
  | append_singleton r y ih =>
    have hassoc : l ++ x :: (r ++ [y]) = (l ++ x :: r) ++ [y] := by simp
    rw [hassoc, trimEnd_concat, trimEnd_concat, ih]
    split_ifs
    · rfl
    · exact hassoc.symm

theorem eq_trimEnd_append (c : Char) (l : List Char) : ∃ k, l = trimEnd c l ++ List.replicate k c := by
  induction l using List.reverseRecOn with
  | nil => exact ⟨0, rfl⟩
  | append_singleton l x ih =>
    rw [trimEnd_concat]
    split_ifs with hx
    · obtain ⟨k, hk⟩ := ih
      refine ⟨k + 1, ?_⟩
      rw [List.replicate_succ', ← List.append_assoc, ← hk, hx]
    · exact ⟨0, (List.append_nil _).symm⟩

/-- A text that ends with characters that stay is not trimmed. -/
theorem trimEnd_append_self (l : List Char) {r : List Char} (hne : r ≠ []) (h : ∀ x ∈ r, x ≠ c) :
    trimEnd c (l ++ r) = l ++ r := by
  obtain ⟨r, x, rfl⟩ := List.eq_nil_or_concat r |>.resolve_left hne
  rw [List.concat_eq_append, ← List.append_assoc, trimEnd_concat, if_neg (h x (by simp))]

/-! ### Reading back -/

theorem isDigit_padded {width n : ℕ} {x : Char} (hx : x ∈ padded width n) : x.isDigit = true := by
  rw [padded, List.leftpad, List.mem_append, List.mem_replicate] at hx
  rcases hx with ⟨-, rfl⟩ | hx
  · rfl
  · exact Nat.isDigit_of_mem_toDigits (by decide) (by decide) hx

theorem ofDigitChars_padded (width n : ℕ) : Nat.ofDigitChars 10 (padded width n) 0 = n := by
  rw [padded, List.leftpad, Nat.ofDigitChars_append, Nat.ofDigitChars_replicate_zero, Nat.mul_zero,
    Nat.ofDigitChars_ten_toDigits]

theorem le_length_padded (width n : ℕ) : width ≤ (padded width n).length := by
  rw [padded, List.length_leftpad]
  exact le_max_left _ _

/-- The digits before and after the point. -/
theorem fixedDigits_eq {d : ℕ} (hd : d ≠ 0) (n : ℕ) : ∃ whole fraction : List Char,
    fixedDigits d n = whole ++ '.' :: fraction ∧ whole ≠ [] ∧ fraction.length = d ∧
      (∀ x ∈ whole ++ fraction, x.isDigit = true) ∧ Nat.ofDigitChars 10 (whole ++ fraction) 0 = n := by
  have hlen := le_length_padded (d + 1) n
  refine ⟨(padded (d + 1) n).take ((padded (d + 1) n).length - d),
    (padded (d + 1) n).drop ((padded (d + 1) n).length - d), if_neg hd, ?_, ?_, ?_, ?_⟩
  · rw [ne_eq, List.take_eq_nil_iff, ← List.length_eq_zero_iff]
    omega
  · rw [List.length_drop]
    omega
  · rw [List.take_append_drop]
    exact fun x hx => isDigit_padded hx
  · rw [List.take_append_drop, ofDigitChars_padded]

theorem readUnsigned_whole {whole : List Char} (hne : whole ≠ []) (hdigits : ∀ x ∈ whole, x.isDigit = true) :
    readUnsigned whole = some (Nat.ofDigitChars 10 whole 0 : ℚ) := by
  have htake : whole.takeWhile Char.isDigit = whole := List.takeWhile_eq_self_iff.mpr hdigits
  have hdrop : whole.dropWhile Char.isDigit = [] := List.dropWhile_eq_nil_iff.mpr hdigits
  rw [readUnsigned, htake, hdrop]
  exact if_neg hne

theorem readUnsigned_point {whole fraction : List Char} (hne : whole ≠ []) (hne' : fraction ≠ [])
    (hdigits : ∀ x ∈ whole ++ fraction, x.isDigit = true) :
    readUnsigned (whole ++ '.' :: fraction) =
      some (Nat.ofDigitChars 10 (whole ++ fraction) 0 / 10 ^ fraction.length : ℚ) := by
  obtain ⟨hwhole, hfraction⟩ := List.forall_mem_append.mp hdigits
  have htake : (whole ++ '.' :: fraction).takeWhile Char.isDigit = whole := by
    rw [List.takeWhile_append_of_pos hwhole, List.takeWhile_cons_of_neg (by decide), List.append_nil]
  have hdrop : (whole ++ '.' :: fraction).dropWhile Char.isDigit = '.' :: fraction := by
    rw [List.dropWhile_append_of_pos hwhole, List.dropWhile_cons_of_neg (by decide)]
  rw [readUnsigned, htake, hdrop]
  exact if_pos ⟨rfl, hne, hne', List.all_eq_true.mpr hfraction⟩

theorem ne_of_isDigit {x y : Char} (hx : x.isDigit = true) (hy : y.isDigit = false) : x ≠ y := by
  rintro rfl
  exact Bool.noConfusion (hx.symm.trans hy)

/-- What is left of the digits after trimming is read as their number, and does not begin with a sign. -/
theorem exists_trimmed {d : ℕ} (hd : d ≠ 0) (n : ℕ) (sign : List Char) : ∃ text : List Char,
    trimEnd '.' (trimEnd '0' (sign ++ fixedDigits d n)) = sign ++ text ∧ text.head? ≠ some '-' ∧
      readUnsigned text = some (n / 10 ^ d : ℚ) := by
  obtain ⟨whole, fraction, heq, hne, hlen, hdigits, hvalue⟩ := fixedDigits_eq hd n
  obtain ⟨k, hk⟩ := eq_trimEnd_append '0' fraction
  obtain ⟨x, whole, rfl⟩ := List.exists_cons_of_ne_nil hne
  have hx : x ≠ '-' := ne_of_isDigit (hdigits x (by simp)) rfl
  rw [heq, ← List.append_assoc, trimEnd_append_cons (by decide)]
  generalize trimEnd '0' fraction = kept at hk
  subst hk
  have hpow : (10 : ℚ) ^ d = 10 ^ kept.length * 10 ^ k := by
    rw [← pow_add, ← hlen, List.length_append, List.length_replicate]
  have hn : (n : ℚ) = 10 ^ k * (Nat.ofDigitChars 10 (x :: whole ++ kept) 0 : ℕ) := by
    rw [← hvalue, ← List.append_assoc, Nat.ofDigitChars_append, Nat.ofDigitChars_replicate_zero]
    push_cast
    rfl
  have hten : (10 : ℚ) ^ k ≠ 0 := by positivity
  have hstay : ∀ y ∈ x :: whole ++ kept, y ≠ '.' := fun y hy =>
    ne_of_isDigit (hdigits y (by rw [← List.append_assoc]; exact List.mem_append_left _ hy)) rfl
  rcases eq_or_ne kept [] with rfl | hkept
  · refine ⟨x :: whole, ?_, by simpa using hx, ?_⟩
    · rw [trimEnd_concat, if_pos rfl]
      exact trimEnd_append_self sign hne fun y hy => hstay y (by simpa using hy)
    · rw [readUnsigned_whole hne fun y hy => hdigits y (List.mem_append_left _ hy), hn, hpow, List.append_nil]
      field_simp
      simp
  · refine ⟨x :: whole ++ '.' :: kept, ?_, by simpa using hx, ?_⟩
    · rw [List.append_assoc, List.append_cons, ← List.append_assoc, ← List.append_assoc]
      rw [trimEnd_append_self _ hkept fun y hy => hstay y (List.mem_append_right _ hy)]
    · rw [readUnsigned_point hne hkept fun y hy => ?_, hn, hpow]
      · field_simp
      · exact hdigits y (by rw [← List.append_assoc]; exact List.mem_append_left _ hy)

theorem roundHalfEven_eq {q : ℚ} (hq : 0 ≤ q) : (roundHalfEven q : ℤ) = roundEven q := by
  have hfloor : ⌊q⌋ = (⌊q⌋₊ : ℤ) := (Int.natCast_floor_eq_floor hq).symm
  have heven : Even (⌊q⌋₊ : ℤ) ↔ ⌊q⌋₊ % 2 = 0 := by rw [Int.even_coe_nat, Nat.even_iff]
  rw [roundHalfEven, roundEven, Int.fract, hfloor, Int.cast_natCast]
  simp only [heven]
  split_ifs <;> simp

/-- The digits of a number that is not negative are those of its rounding. -/
theorem roundHalfEven_div {d : ℕ} {q : ℚ} (hq : 0 ≤ q) : (roundHalfEven (q * 10 ^ d) : ℚ) / 10 ^ d = roundTo d q := by
  rw [roundTo, ← roundHalfEven_eq (by positivity), Int.cast_natCast]

/-- The digits of a number that is not negative, with a sign or without one. -/
theorem readDecimal_trimmed {d : ℕ} (hd : d ≠ 0) (negative : Bool) {q : ℚ} (hq : 0 ≤ q) :
    readDecimal (trimEnd '.' (trimEnd '0' ((if negative then ['-'] else []) ++ fixedDigits d (roundHalfEven (q * 10 ^ d)))))
      = some (if negative then -roundTo d q else roundTo d q) := by
  obtain ⟨text, htext, hsign, hread⟩ :=
    exists_trimmed hd (roundHalfEven (q * 10 ^ d)) (if negative then ['-'] else [])
  rw [roundHalfEven_div hq] at hread
  rw [htext]
  cases negative with
  | true => rw [if_pos rfl, if_pos rfl, List.singleton_append, readDecimal, hread, Option.map_some]
  | false =>
    have hplain : readDecimal text = readUnsigned text := by
      unfold readDecimal
      split
      · simp at hsign
      · rfl
    rw [if_neg Bool.false_ne_true, if_neg Bool.false_ne_true, List.nil_append, hplain, hread]

/-- **What is printed is read back** as the number, rounded to `d` decimals. -/
theorem readDecimal_printed {d : ℕ} (hd : d ≠ 0) (q : ℚ) : readDecimal (printed d q) = some (roundTo d q) := by
  have hread := readDecimal_trimmed hd (decide (q < 0)) (abs_nonneg q)
  simp only [decide_eq_true_eq] at hread
  rw [printed, hread]
  split_ifs with hneg
  · rw [abs_of_neg hneg, roundTo_neg, neg_neg]
  · rw [abs_of_nonneg (not_lt.mp hneg)]

/-! ### Doubles -/

/-- A double with `d` decimals, without the zeros at its end, and without the point if nothing follows it. -/
def printedFloat (d : ℕ) (x : Float) : List Char := trimEnd '.' (trimEnd '0' (formatFixed d x))

theorem signed_abs_floatValue (x : Float) : (if signBit x then -|floatValue x| else |floatValue x|) = floatValue x := by
  unfold signBit floatValue
  cases x.toModel.unpack with
  | finite s m e hm =>
    have hpos : (0 : ℚ) ≤ m * 2 ^ e := by positivity
    cases s with
    | negative =>
      have hvalue : Float.Model.UnpackedFloat.Sign.negative.apply (m : ℤ) = -(m : ℤ) := rfl
      simp [unpackedValue, hvalue, abs_of_nonneg hpos]
    | positive =>
      have hvalue : Float.Model.UnpackedFloat.Sign.positive.apply (m : ℤ) = (m : ℤ) := rfl
      simp [unpackedValue, hvalue, abs_of_nonneg hpos]
  | zero s => cases s <;> simp [unpackedValue]
  | infinity s => cases s <;> simp [unpackedValue]
  | notANumber => simp [unpackedValue]

/-- A finite double is read back as its number, rounded to `d` decimals. -/
theorem readDecimal_printedFloat {d : ℕ} (hd : d ≠ 0) {x : Float} (hx : x.isFinite = true) :
    readDecimal (printedFloat d x) = some (roundTo d (floatValue x)) := by
  have hnan : ¬x.isNaN = true := by
    have hfinite : x.toModel.unpack.isFinite = true := hx
    intro hnan
    have hunpack : x.toModel.unpack.isNaN = true := hnan
    generalize x.toModel.unpack = u at hfinite hunpack
    cases u with
    | notANumber => cases hfinite
    | _ => cases hunpack
  have hread := readDecimal_trimmed hd (signBit x) (abs_nonneg (floatValue x))
  have hformat : formatFixed d x = (if signBit x then ['-'] else []) ++
      fixedDigits d (roundHalfEven (|floatValue x| * 10 ^ d)) := by
    rw [formatFixed, if_neg hnan, if_pos hx]
    split_ifs <;> rfl
  have hround : (if signBit x then -roundTo d |floatValue x| else roundTo d |floatValue x|) = roundTo d (floatValue x) := by
    conv_rhs => rw [← signed_abs_floatValue x]
    split_ifs
    · rw [roundTo_neg]
    · rfl
  rw [printedFloat, hformat, hread, hround]

end Forge
