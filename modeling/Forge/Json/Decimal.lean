import Forge.Data.FloatValue
import Forge.Json.Tree
import Mathlib.Data.Int.Log
import Mathlib.Data.Rat.Floor

/-!
# Numbers as JavaScript and Python write them

Both languages write a double with the fewest digits that are read back as the same
double, the closest of these where there are several (`Decimal.shortest`). They differ
in the layout of these digits: where an exponent is used, how it is padded, whether an
integral double shows its fraction. `floatRepr_eq_numberToString_iff` says which doubles
come out the same.

An integer literal is an integer of any size to Python and a double to JavaScript.
-/

namespace Forge

/-- A number of a JSON text: a literal without fraction and exponent, or the double nearest to any other. -/
inductive Numeral where
  | int (i : ℤ)
  | decimal (x : Float)
deriving DecidableEq

/-- The double that JavaScript reads, which may be infinite. -/
def Numeral.toDouble : Numeral → Float
  | int i => intToFloat i
  | decimal x => x

/-- Whether the sign bit is set. -/
def signBit (x : Float) : Bool :=
  match x.toModel.unpack with
  | .finite .negative _ _ _ | .zero .negative | .infinity .negative => true
  | _ => false

/-! ### Shortest decimals -/

/-- A decimal `0.d₁d₂… × 10ⁿ` with at most 17 digits. -/
structure Decimal where
  digits : List Char
  exponent : ℤ
  isDigit : ∀ c ∈ digits, c.isDigit = true
  nonempty : digits ≠ []
  short : digits.length ≤ 17

namespace Decimal

/-- The decimal `s × 10ᵉ` with the digits of `s`. -/
def ofNat (s : ℕ) (h : s < 10 ^ 17) (e : ℤ) : Decimal where
  digits := Nat.toDigits 10 s
  exponent := e + (Nat.toDigits 10 s).length
  isDigit _ hc := Nat.isDigit_of_mem_toDigits (by decide) (by decide) hc
  nonempty := Nat.toDigits_ne_nil
  short := (Nat.length_toDigits_le_iff (by decide) (by decide)).mpr h

/-- The double nearest to `s × 10ᵉ`. -/
def nearest (s : ℕ) (e : ℤ) : Float := .ofModel (.ofScientific s e)

/-- The two decimals `s × 10ᵉ` around a number that have `k` digits where it has more, the closer one
first, and of two that are equally close the even one. -/
def around (v : ℚ) (k : ℕ) : List (ℕ × ℤ) :=
  let e := Int.log 10 v + 1 - k
  let q := v / (10 : ℚ) ^ e
  let f := ⌊q⌋₊
  let above := if f + 1 = 10 ^ k then (10 ^ (k - 1), e + 1) else (f + 1, e)
  if 2 * (q - f) < 1 ∨ (2 * (q - f) = 1 ∧ f % 2 = 0) then [(f, e), above] else [above, (f, e)]

/-- A decimal of `k` digits that is read as the number `v`. -/
def reads (v : ℚ) (k : ℕ) (c : ℕ × ℤ) : Bool :=
  10 ^ (k - 1) ≤ c.1 && c.1 < 10 ^ k && floatValue (nearest c.1 c.2) = v

/-- The first candidate with the fewest digits; 17 digits are always enough. -/
def shortestOf (v : ℚ) : Option (ℕ × ℤ) :=
  (List.range 17).findSome? fun k => (around v (k + 1)).find? (reads v (k + 1))

/-- **The shortest decimal** that is read as the positive number `v`. -/
def shortest (v : ℚ) : Decimal :=
  match shortestOf v with
  | some (s, e) => if h : s < 10 ^ 17 then .ofNat s h e else .ofNat 0 (by decide) 0
  | none => .ofNat 0 (by decide) 0

/-- The number of digits. -/
def count (d : Decimal) : ℕ := d.digits.length

/-- One digit, or a digit, a point and the others. -/
def mantissa (d : Decimal) : List Char :=
  match d.digits with
  | c :: c' :: cs => c :: '.' :: c' :: cs
  | cs => cs

def zeros (n : ℤ) : List Char := List.replicate n.toNat '0'

/-- The digits with the point inside. -/
def pointed (d : Decimal) : List Char := d.digits.take d.exponent.toNat ++ '.' :: d.digits.drop d.exponent.toNat

/-- The digits after a point and zeros. -/
def small (d : Decimal) : List Char := '0' :: '.' :: (zeros (-d.exponent) ++ d.digits)

/-- The exponent of scientific notation, with its sign. -/
def exponentText (pad : ℕ → List Char) (d : Decimal) : List Char :=
  (if 0 < d.exponent then '+' else '-') :: pad (d.exponent - 1).natAbs

/-- `Number::toString` of a positive number. -/
def toJavaScript (d : Decimal) : List Char :=
  if d.count ≤ d.exponent ∧ d.exponent ≤ 21 then d.digits ++ zeros (d.exponent - d.count)
  else if 0 < d.exponent ∧ d.exponent ≤ 21 then d.pointed
  else if -6 < d.exponent ∧ d.exponent ≤ 0 then d.small
  else d.mantissa ++ 'e' :: d.exponentText (Nat.toDigits 10)

/-- At least two digits. -/
def padded (n : ℕ) : List Char := if n < 10 then '0' :: Nat.toDigits 10 n else Nat.toDigits 10 n

/-- `float.__repr__` of a positive number. -/
def toPython (d : Decimal) : List Char :=
  if d.exponent ≤ -4 ∨ 16 < d.exponent then d.mantissa ++ 'e' :: d.exponentText padded
  else if d.exponent ≤ 0 then d.small
  else if d.count ≤ d.exponent then d.digits ++ zeros (d.exponent - d.count) ++ ['.', '0']
  else d.pointed

/-! ### Where the layouts agree -/

/-- The decimals that both languages lay out alike: an integral one needs an exponent, and a small one
either no exponent or one of two digits. -/
def Alike (d : Decimal) : Prop :=
  (d.count ≤ d.exponent → 21 < d.exponent) ∧ (d.exponent ≤ 0 → -4 < d.exponent ∨ d.exponent < -8)

instance : DecidablePred Alike := fun d =>
  inferInstanceAs (Decidable ((d.count ≤ d.exponent → 21 < d.exponent) ∧
    (d.exponent ≤ 0 → -4 < d.exponent ∨ d.exponent < -8)))

theorem count_pos (d : Decimal) : 0 < d.count := List.length_pos_iff.mpr d.nonempty

theorem not_mem_digits {c : Char} (hc : c.isDigit = false) (d : Decimal) : c ∉ d.digits := fun h => by
  rw [d.isDigit c h] at hc
  cases hc

theorem e_not_mem_zeros (n : ℤ) : 'e' ∉ zeros n := fun h => absurd (List.eq_of_mem_replicate h) (by decide)

theorem e_mem_scientific (d : Decimal) (pad : ℕ → List Char) : 'e' ∈ d.mantissa ++ 'e' :: d.exponentText pad :=
  List.mem_append_right _ List.mem_cons_self

/-- A plain integer and a plain fraction show no exponent. -/
theorem e_not_mem_integral (d : Decimal) (n : ℤ) : 'e' ∉ d.digits ++ zeros n := fun h =>
  (List.mem_append.mp h).elim (not_mem_digits (by decide) d) (e_not_mem_zeros n)

theorem e_not_mem_small (d : Decimal) : 'e' ∉ d.small := by
  intro h
  rw [small, List.mem_cons, List.mem_cons, List.mem_append] at h
  rcases h with h | h | h | h
  · exact absurd h (by decide)
  · exact absurd h (by decide)
  · exact e_not_mem_zeros _ h
  · exact not_mem_digits (by decide) d h

/-- An exponent of two digits is not padded. -/
theorem exponentText_padded {d : Decimal} (h : 10 ≤ (d.exponent - 1).natAbs) :
    d.exponentText padded = d.exponentText (Nat.toDigits 10) := by
  rw [exponentText, exponentText, padded, if_neg (show ¬ (d.exponent - 1).natAbs < 10 by omega)]

/-- An exponent of one digit is. -/
theorem exponentText_padded_ne {d : Decimal} (h : (d.exponent - 1).natAbs < 10) :
    d.exponentText (Nat.toDigits 10) ≠ d.exponentText padded := by
  rw [exponentText, exponentText, padded, if_pos h]
  intro heq
  have hlen := congrArg List.length heq
  simp at hlen

/-- **Where the two layouts agree.** -/
theorem toJavaScript_eq_toPython_iff (d : Decimal) : d.toJavaScript = d.toPython ↔ d.Alike := by
  have hpos := d.count_pos
  have hshort : d.count ≤ 17 := d.short
  unfold toJavaScript toPython Alike
  by_cases hbig : 21 < d.exponent
  · rw [if_neg (by omega), if_neg (by omega), if_neg (by omega), if_pos (by omega), exponentText_padded (by omega)]
    exact ⟨fun _ => by omega, fun _ => rfl⟩
  by_cases hfew : 16 < d.exponent
  · rw [if_pos (by omega), if_pos (by omega)]
    refine ⟨fun h => absurd (h ▸ e_mem_scientific d padded) (e_not_mem_integral d _), fun h => ?_⟩
    omega
  by_cases hint : (d.count : ℤ) ≤ d.exponent
  · rw [if_pos (by omega), if_neg (by omega), if_neg (by omega), if_pos hint]
    refine ⟨fun h => ?_, fun h => by omega⟩
    have hlen := congrArg List.length h
    simp at hlen
  by_cases hfrac : 0 < d.exponent
  · rw [if_neg (by omega), if_pos (by omega), if_neg (by omega), if_neg (by omega), if_neg hint]
    exact ⟨fun _ => by omega, fun _ => rfl⟩
  by_cases hsmall : -4 < d.exponent
  · rw [if_neg (by omega), if_neg (by omega), if_pos (by omega), if_neg (by omega), if_pos (by omega)]
    exact ⟨fun _ => by omega, fun _ => rfl⟩
  by_cases htiny : -6 < d.exponent
  · rw [if_neg (by omega), if_neg (by omega), if_pos (by omega), if_pos (by omega)]
    refine ⟨fun h => absurd (h ▸ e_mem_scientific d padded) (e_not_mem_small d), fun h => ?_⟩
    omega
  · rw [if_neg (by omega), if_neg (by omega), if_neg (by omega), if_pos (by omega)]
    by_cases hpad : -8 ≤ d.exponent
    · refine ⟨fun h => ?_, fun h => by omega⟩
      exact absurd (List.cons.inj (List.append_cancel_left h)).2 (exponentText_padded_ne (by omega))
    · rw [exponentText_padded (by omega)]
      exact ⟨fun _ => by omega, fun _ => rfl⟩

end Decimal

/-! ### Number texts -/

/-- A minus sign where there is one, and the text of the magnitude. -/
def signed (negative : Bool) (text : List Char) : List Char := if negative then '-' :: text else text

/-- `JSON.stringify` of a number: `Number::toString`, and `null` for what is not finite. -/
def numberToString (x : Float) : List Char :=
  if x.isFinite then
    if floatValue x = 0 then ['0'] else signed (signBit x) (Decimal.shortest |floatValue x|).toJavaScript
  else "null".toList

/-- `float.__repr__` as `json.dumps` uses it. -/
def floatRepr (x : Float) : List Char :=
  if x.isFinite then
    signed (signBit x) (if floatValue x = 0 then "0.0".toList else (Decimal.shortest |floatValue x|).toPython)
  else signed (signBit x) "Infinity".toList

/-- `int.__repr__` -/
def intRepr (i : ℤ) : List Char := signed (i < 0) (Nat.toDigits 10 i.natAbs)

/-- The text of a number in JavaScript. -/
def Numeral.toJavaScript (n : Numeral) : List Char := numberToString n.toDouble

/-- The text of a number in Python. -/
def Numeral.toPython : Numeral → List Char
  | int i => intRepr i
  | decimal x => floatRepr x

/-- The numbers that both languages write alike: an integer that its double is written as, and a double
other than zero whose shortest decimal is laid out alike. -/
def Numeral.Alike : Numeral → Prop
  | int i => numberToString (intToFloat i) = intRepr i
  | decimal x => x.isFinite = true ∧ floatValue x ≠ 0 ∧ (Decimal.shortest |floatValue x|).Alike

instance : DecidablePred Numeral.Alike
  | .int i => inferInstanceAs (Decidable (numberToString (intToFloat i) = intRepr i))
  | .decimal x => inferInstanceAs (Decidable (x.isFinite = true ∧ floatValue x ≠ 0 ∧
      (Decimal.shortest |floatValue x|).Alike))

theorem signed_inj {b : Bool} {t u : List Char} : signed b t = signed b u ↔ t = u := by
  cases b <;> simp [signed]

/-- **Which doubles come out the same.** -/
theorem numberToString_eq_floatRepr_iff (x : Float) : numberToString x = floatRepr x ↔
    x.isFinite = true ∧ floatValue x ≠ 0 ∧ (Decimal.shortest |floatValue x|).Alike := by
  unfold numberToString floatRepr
  by_cases hfin : x.isFinite = true
  · rw [if_pos hfin, if_pos hfin]
    by_cases hzero : floatValue x = 0
    · rw [if_pos hzero, if_pos hzero]
      exact ⟨fun h => absurd h (by cases signBit x <;> decide), fun h => absurd hzero h.2.1⟩
    · rw [if_neg hzero, if_neg hzero, signed_inj, Decimal.toJavaScript_eq_toPython_iff]
      exact ⟨fun h => ⟨hfin, hzero, h⟩, fun h => h.2.2⟩
  · rw [if_neg hfin, if_neg hfin]
    exact ⟨fun h => absurd h (by cases signBit x <;> decide), fun h => absurd h.1 hfin⟩

theorem Numeral.toJavaScript_eq_toPython_iff (n : Numeral) : n.toJavaScript = n.toPython ↔ n.Alike := by
  cases n with
  | int i => exact Iff.rfl
  | decimal x => exact numberToString_eq_floatRepr_iff x

/-! ### Numbers are words -/

/-- No punctuation in a text. -/
def Plain (t : List Char) : Prop := ∀ c ∈ t, c ∉ punctuation

instance : DecidablePred Plain := fun t => List.decidableBAll (fun c => c ∉ punctuation) t

theorem word_of_plain {t : List Char} (hne : t ≠ []) (h : Plain t) : Word t := ⟨hne, h⟩

theorem Plain.append {t u : List Char} (ht : Plain t) (hu : Plain u) : Plain (t ++ u) :=
  List.forall_mem_append.mpr ⟨ht, hu⟩

theorem Plain.cons {c : Char} {t : List Char} (hc : c ∉ punctuation) (ht : Plain t) : Plain (c :: t) :=
  List.forall_mem_cons.mpr ⟨hc, ht⟩

theorem plain_of_isDigit {t : List Char} (h : ∀ c ∈ t, c.isDigit = true) : Plain t := fun c hc hp => by
  have hno : ∀ c ∈ punctuation, c.isDigit = false := by simp [punctuation]
  exact absurd (h c hc) (by rw [hno c hp]; decide)

theorem plain_toDigits (n : ℕ) : Plain (Nat.toDigits 10 n) :=
  plain_of_isDigit fun _ hc => Nat.isDigit_of_mem_toDigits (by decide) (by decide) hc

theorem plain_zeros (n : ℤ) : Plain (Decimal.zeros n) := fun c hc => by
  rw [List.eq_of_mem_replicate hc]
  decide

theorem plain_signed {t : List Char} (b : Bool) (h : Plain t) : Plain (signed b t) := by
  cases b
  · exact h
  · exact h.cons (by decide)

namespace Decimal

variable (d : Decimal)

theorem plain_digits : Plain d.digits := plain_of_isDigit d.isDigit

theorem plain_mantissa : Plain d.mantissa := by
  have h := d.plain_digits
  unfold mantissa
  split
  · rename_i c c' cs hd
    rw [hd] at h
    exact .cons (h c List.mem_cons_self) (.cons (by decide) fun e he => h e (List.mem_cons_of_mem _ he))
  · exact h

theorem plain_pointed : Plain d.pointed :=
  .append (fun c hc => d.plain_digits c (List.mem_of_mem_take hc))
    (.cons (by decide) fun c hc => d.plain_digits c (List.mem_of_mem_drop hc))

theorem plain_small : Plain d.small := .cons (by decide) (.cons (by decide) ((plain_zeros _).append d.plain_digits))

/-- Scientific notation, with any exponent that is plain. -/
theorem plain_scientific {pad : ℕ → List Char} (h : ∀ n, Plain (pad n)) :
    Plain (d.mantissa ++ 'e' :: d.exponentText pad) := by
  refine d.plain_mantissa.append (.cons (by decide) ?_)
  unfold exponentText
  split <;> exact .cons (by decide) (h _)

theorem plain_padded (n : ℕ) : Plain (padded n) := by
  unfold padded
  split
  · exact (plain_toDigits n).cons (by decide)
  · exact plain_toDigits n

theorem plain_toJavaScript : Plain d.toJavaScript := by
  unfold toJavaScript
  split
  · exact d.plain_digits.append (plain_zeros _)
  split
  · exact d.plain_pointed
  split
  · exact d.plain_small
  · exact d.plain_scientific plain_toDigits

theorem plain_toPython : Plain d.toPython := by
  unfold toPython
  split
  · exact d.plain_scientific plain_padded
  split
  · exact d.plain_small
  split
  · exact (d.plain_digits.append (plain_zeros _)).append (by decide)
  · exact d.plain_pointed

end Decimal

theorem signed_ne_nil {t : List Char} (b : Bool) (h : t ≠ []) : signed b t ≠ [] := by
  cases b
  · exact h
  · exact List.cons_ne_nil _ _

theorem Decimal.toJavaScript_ne_nil (d : Decimal) : d.toJavaScript ≠ [] := by
  unfold toJavaScript pointed small
  split_ifs <;> simp [d.nonempty]

theorem Decimal.toPython_ne_nil (d : Decimal) : d.toPython ≠ [] := by
  unfold toPython pointed small
  split_ifs <;> simp

/-- **A number is a word** in JavaScript. -/
theorem numberToString_word (x : Float) : Word (numberToString x) := by
  unfold numberToString
  split_ifs
  · exact word_of_plain (by decide) (by decide)
  · exact word_of_plain (signed_ne_nil _ (Decimal.toJavaScript_ne_nil _)) (plain_signed _ (Decimal.plain_toJavaScript _))
  · exact word_of_plain (by decide) (by decide)

theorem floatRepr_word (x : Float) : Word (floatRepr x) := by
  unfold floatRepr
  split_ifs
  · exact word_of_plain (signed_ne_nil _ (by decide)) (plain_signed _ (by decide))
  · exact word_of_plain (signed_ne_nil _ (Decimal.toPython_ne_nil _)) (plain_signed _ (Decimal.plain_toPython _))
  · exact word_of_plain (signed_ne_nil _ (by decide)) (plain_signed _ (by decide))

/-- **A number is a word** in Python. -/
theorem Numeral.toPython_word (n : Numeral) : Word n.toPython := by
  cases n with
  | int i => exact word_of_plain (signed_ne_nil _ Nat.toDigits_ne_nil) (plain_signed _ (plain_toDigits _))
  | decimal x => exact floatRepr_word x

end Forge
