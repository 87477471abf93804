import Forge.Json.Dialects

/-!
# Documents on their way from the gateway to a worker

The gateway stores the input of a job in a column of type `jsonb`, from which the worker
loads it. The database keeps a number as a decimal and prints it without exponent, so
that a whole number arrives as an integer however large it is (`carriedNumber`).

A worker may write canonical JSON with `ensure_ascii=False`, which spells strings as
`JSON.stringify` does (`basestring_eq_stringify`). What is left between the two languages
is the layout of numbers and the order of names: `stableJson_eq_unicodeDumps_iff` says for
which documents the text that the worker writes is the text that the gateway wrote.
-/

namespace Forge

/-! ### Code points -/

def isSurrogate (p : ℕ) : Bool := 0xD800 ≤ p && p < 0xE000

/-- A string that UTF-8 can encode: every surrogate has its partner. -/
def WellFormed (us : CodeUnits) : Bool := (codePoints us).all fun p => !isSurrogate p

theorem isSurrogate_iff {p : ℕ} : isSurrogate p = true ↔ 0xD800 ≤ p ∧ p < 0xE000 := by simp [isSurrogate]

theorem codePoints_lt {us : CodeUnits} {p : ℕ} (hp : p ∈ codePoints us) : p < 0x110000 := by
  fun_induction codePoints us with
  | case1 => cases hp
  | case2 u =>
    have hu := u.toNat_lt
    rw [List.mem_singleton.mp hp]
    omega
  | case3 u v us hpair ih =>
    obtain ⟨hu, hv⟩ := Bool.and_eq_true_iff.mp hpair
    rw [isHigh_iff] at hu
    rw [isLow_iff] at hv
    rcases List.mem_cons.mp hp with hp | hp
    · have hpoint : pairPoint u v < 0x110000 := by unfold pairPoint; omega
      omega
    · exact ih hp
  | case4 u v us hpair ih =>
    have hu := u.toNat_lt
    rcases List.mem_cons.mp hp with hp | hp
    · omega
    · exact ih hp

/-! ### Strings with `ensure_ascii=False` -/

/-- `py_encode_basestring` on a code point. A surrogate without a partner, which a string of characters cannot
hold, is written as an escape. -/
def basestringPoint (p : ℕ) : List Char :=
  if p < 0x80 then
    match shortEscape (UInt16.ofNat p) with
    | some e => ['\\', e]
    | none => if p < 0x20 then unicodeEscape (UInt16.ofNat p) else [Char.ofNat p]
  else if isSurrogate p then unicodeEscape (UInt16.ofNat p)
  else [Char.ofNat p]

/-- The inside of a string in `json.dumps` with `ensure_ascii=False`. -/
def basestringBody (us : CodeUnits) : List Char := (codePoints us).flatMap basestringPoint

theorem shortEscape_eq_none {u : UInt16} (h : 0x80 ≤ u.toNat) : shortEscape u = none := by
  unfold shortEscape
  split_ifs
  all_goals first
    | rfl
    | (subst_vars; exact absurd h (by decide))

theorem basestringPoint_unit (u : UInt16) : basestringPoint u.toNat = stringifyUnit u := by
  have hsurrogate : isSurrogate u.toNat = (isHigh u || isLow u) := by
    rw [Bool.eq_iff_iff, isSurrogate_iff, Bool.or_eq_true, isHigh_iff, isLow_iff]
    omega
  have hlt : (u < 0x20) ↔ u.toNat < 0x20 := by
    rw [UInt16.lt_iff_toNat_lt]
    exact Iff.rfl
  unfold basestringPoint stringifyUnit
  rw [UInt16.ofNat_toNat]
  by_cases hascii : u.toNat < 0x80
  · have hplain : (isHigh u || isLow u) = false := by
      rw [← hsurrogate, Bool.eq_false_iff, Ne, isSurrogate_iff]
      omega
    rw [if_pos hascii]
    cases shortEscape u with
    | some e => rfl
    | none => simp only [hlt, Bool.or_assoc, hplain, Bool.or_false, decide_eq_true_eq]
  · have hnot : ¬ u < 0x20 := by
      rw [hlt]
      omega
    rw [if_neg hascii, shortEscape_eq_none (by omega), hsurrogate]
    simp only [hnot, decide_false, Bool.false_or]

theorem basestringPoint_pair (u v : UInt16) :
    basestringPoint (pairPoint u v) = [Char.ofNat (pairPoint u v)] := by
  have hbig : 0x10000 ≤ pairPoint u v := Nat.le_add_right _ _
  have hnot : isSurrogate (pairPoint u v) = false := by
    rw [Bool.eq_false_iff, Ne, isSurrogate_iff]
    omega
  unfold basestringPoint
  rw [if_neg (by omega), hnot]
  rfl

/-- **Strings are spelled as in JavaScript.** -/
theorem basestring_eq_stringify (us : CodeUnits) : basestringBody us = stringifyBody us := by
  unfold basestringBody
  fun_induction stringifyBody us with
  | case1 => rfl
  | case2 u =>
    rw [codePoints, List.flatMap_singleton, basestringPoint_unit]
  | case3 u v us hpair ih =>
    rw [codePoints, if_pos hpair, List.flatMap_cons, ih, basestringPoint_pair]
    rfl
  | case4 u v us hpair ih =>
    rw [codePoints, if_neg hpair, List.flatMap_cons, ih, basestringPoint_unit]

/-! ### Strings are read back -/

/-- Read one code point of a string. -/
def readPoint : List Char → Option (ℕ × List Char)
  | [] => none
  | '\\' :: 'u' :: a :: b :: c :: d :: r => some (fromHex a * 4096 + fromHex b * 256 + fromHex c * 16 + fromHex d, r)
  | '\\' :: e :: r => some ((unescape e).toNat, r)
  | c :: r => some (c.toNat, r)

theorem readPoint_plain {c : Char} (hc : c ≠ '\\') (r : List Char) : readPoint (c :: r) = some (c.toNat, r) := by
  unfold readPoint
  split <;> simp_all

theorem readPoint_unicodeEscape (u : UInt16) (r : List Char) :
    readPoint (unicodeEscape u ++ r) = some (u.toNat, r) := by
  have hu := u.toNat_lt
  simp only [unicodeEscape, List.cons_append, List.nil_append, readPoint]
  rw [fromHex_digitChar _ (by omega), fromHex_digitChar _ (by omega), fromHex_digitChar _ (by omega),
    fromHex_digitChar _ (by omega),
    show u.toNat / 4096 * 4096 + u.toNat / 256 % 16 * 256 + u.toNat / 16 % 16 * 16 + u.toNat % 16 = u.toNat by omega]

theorem readPoint_shortEscape {u : UInt16} {e : Char} (h : shortEscape u = some e) (r : List Char) :
    readPoint ('\\' :: e :: r) = some (u.toNat, r) := by
  unfold shortEscape at h
  split_ifs at h <;> (subst_vars; cases h; rfl)

theorem readPoint_basestringPoint {p : ℕ} (hp : p < 0x110000) (r : List Char) :
    readPoint (basestringPoint p ++ r) = some (p, r) := by
  have hvalue (h : isSurrogate p = false) : (Char.ofNat p).toNat = p := by
    rw [Bool.eq_false_iff, Ne, isSurrogate_iff] at h
    exact toNat_charOfNat (by omega)
  have hunit (h : p < 0x10000) : (UInt16.ofNat p).toNat = p := by
    rw [UInt16.toNat_ofNat']
    omega
  unfold basestringPoint
  by_cases hascii : p < 0x80
  · rw [if_pos hascii]
    cases he : shortEscape (UInt16.ofNat p) with
    | some e =>
      have hread := readPoint_shortEscape he r
      rw [hunit (by omega)] at hread
      exact hread
    | none =>
      by_cases hcontrol : p < 0x20
      · have hread := readPoint_unicodeEscape (UInt16.ofNat p) r
        rw [hunit (by omega)] at hread
        simp only [if_pos hcontrol]
        exact hread
      · have hplain := hvalue (by rw [Bool.eq_false_iff, Ne, isSurrogate_iff]; omega)
        have hne : Char.ofNat p ≠ '\\' := fun hc => by
          rw [hc] at hplain
          exact (ne_of_shortEscape he).2 (UInt16.toNat_inj.mp ((hunit (by omega)).trans hplain.symm))
        simp only [if_neg hcontrol]
        rw [List.singleton_append, readPoint_plain hne, hplain]
  · rw [if_neg hascii]
    cases hs : isSurrogate p with
    | true =>
      rw [isSurrogate_iff] at hs
      have hread := readPoint_unicodeEscape (UInt16.ofNat p) r
      rw [hunit (by omega)] at hread
      exact hread
    | false =>
      have hplain := hvalue hs
      have hne : Char.ofNat p ≠ '\\' := fun hc => by
        rw [hc] at hplain
        exact hascii (hplain ▸ by decide)
      rw [if_neg Bool.false_ne_true, List.singleton_append, readPoint_plain hne, hplain]

/-- Points are told apart by what they are written as. -/
theorem flatMap_basestringPoint_injective {ps qs : List ℕ} (hps : ∀ p ∈ ps, p < 0x110000)
    (hqs : ∀ q ∈ qs, q < 0x110000) (h : ps.flatMap basestringPoint = qs.flatMap basestringPoint) : ps = qs := by
  have hread {p : ℕ} (hp : p < 0x110000) (r : List Char) : readPoint (basestringPoint p ++ r) = some (p, r) :=
    readPoint_basestringPoint hp r
  induction ps generalizing qs with
  | nil =>
    cases qs with
    | nil => rfl
    | cons q qs =>
      have hq := hread (hqs q List.mem_cons_self) (qs.flatMap basestringPoint)
      rw [← List.flatMap_cons, ← h] at hq
      cases hq
  | cons p ps ih =>
    have hp := hread (hps p List.mem_cons_self) (ps.flatMap basestringPoint)
    rw [← List.flatMap_cons, h] at hp
    cases qs with
    | nil => cases hp
    | cons q qs =>
      rw [List.flatMap_cons, hread (hqs q List.mem_cons_self)] at hp
      obtain ⟨rfl, htail⟩ := Prod.mk.inj (Option.some.inj hp)
      rw [ih (fun p hp => hps p (List.mem_cons_of_mem _ hp)) (fun q hq => hqs q (List.mem_cons_of_mem _ hq)) htail.symm]

theorem stringifyString_injective : Function.Injective stringifyString := by
  intro us vs h
  have hbody : basestringBody us = basestringBody vs := by
    rw [basestring_eq_stringify, basestring_eq_stringify]
    exact quoted_inj.mp h
  exact codePoints_injective (flatMap_basestringPoint_injective (fun _ => codePoints_lt) (fun _ => codePoints_lt) hbody)

/-! ### Numbers -/

/-- The number of an integral decimal. -/
def Decimal.whole (d : Decimal) : ℕ := Nat.ofDigitChars 10 d.digits 0 * 10 ^ (d.exponent - d.count).toNat

/-- A positive whole number. -/
def Decimal.IsWhole (d : Decimal) : Prop := d.count ≤ d.exponent ∧ 0 < d.whole

instance : DecidablePred Decimal.IsWhole := fun d => inferInstanceAs (Decidable (d.count ≤ d.exponent ∧ 0 < d.whole))

/-- What is loaded where the gateway stored a number. `JSON.stringify` has no text for a number that is not
finite. The database keeps the decimal of the text and prints it without exponent, so that a whole number is
an integer literal; any other literal is read as the double that it was the shortest decimal of. -/
def carriedNumber (x : Float) : Scalar :=
  if x.isFinite then
    if floatValue x = 0 then .number (.int 0)
    else
      let d := Decimal.shortest |floatValue x|
      if d.IsWhole then .number (.int (if signBit x then -(d.whole : ℤ) else d.whole)) else .number (.decimal x)
  else .null

/-- What is loaded for a value without parts. -/
def Scalar.carried : Scalar → Scalar
  | null => null
  | bool b => bool b
  | number n => carriedNumber n.toDouble
  | string s => string s

/-- What the worker loads where the gateway stored a document. The order of members does not matter. -/
def carried (d : Doc) : Doc := d.mapLeaf Scalar.carried

/-- The decimals that arrive as a number of the same text: a whole number that JavaScript writes without exponent,
and any other one that both languages lay out alike. -/
def Decimal.Kept (d : Decimal) : Prop := if d.IsWhole then d.exponent ≤ 21 else d.Alike

instance : DecidablePred Decimal.Kept := fun d =>
  inferInstanceAs (Decidable (if d.IsWhole then d.exponent ≤ 21 else d.Alike))

/-- Digits and zeros are the digits of a multiple of a power of ten. -/
theorem toDigits_mul_pow {s : ℕ} (hs : 0 < s) (k : ℕ) :
    Nat.toDigits 10 (s * 10 ^ k) = Nat.toDigits 10 s ++ List.replicate k '0' := by
  induction k with
  | zero => rw [Nat.pow_zero, Nat.mul_one, List.replicate_zero, List.append_nil]
  | succ k ih =>
    have hpos : 0 < s * 10 ^ k := Nat.mul_pos hs (Nat.pow_pos (by decide))
    have hnext : s * 10 ^ (k + 1) = 10 * (s * 10 ^ k) + 0 := by rw [Nat.pow_succ, Nat.add_zero]; ac_rfl
    rw [hnext, ← Nat.toDigits_append_toDigits (by decide) hpos (by decide), ih, Nat.toDigits_zero,
      List.append_assoc, ← List.replicate_succ']

/-- A shortest decimal is made of a number. -/
theorem Decimal.shortest_eq (v : ℚ) : ∃ s h e, Decimal.shortest v = .ofNat s h e := by
  unfold Decimal.shortest
  split
  · rename_i s e _
    by_cases h : s < 10 ^ 17
    · exact ⟨s, h, e, dif_pos h⟩
    · exact ⟨0, by decide, 0, dif_neg h⟩
  · exact ⟨0, by decide, 0, rfl⟩

/-- The digits of a whole number. -/
theorem Decimal.toDigits_whole {v : ℚ} (h : (Decimal.shortest v).IsWhole) :
    Nat.toDigits 10 (Decimal.shortest v).whole =
      (Decimal.shortest v).digits ++ Decimal.zeros ((Decimal.shortest v).exponent - (Decimal.shortest v).count) := by
  obtain ⟨s, hs, e, hd⟩ := Decimal.shortest_eq v
  rw [hd] at h ⊢
  have hwhole : (Decimal.ofNat s hs e).whole = s * 10 ^ (e + (Nat.toDigits 10 s).length -
      (Nat.toDigits 10 s).length).toNat := by
    rw [Decimal.whole, Decimal.ofNat, Decimal.count, Nat.ofDigitChars_toDigits (by decide) (by decide)]
  have hpos : 0 < s := Nat.pos_of_ne_zero fun h0 => by
    have := h.2
    rw [hwhole, h0, Nat.zero_mul] at this
    omega
  rw [hwhole, toDigits_mul_pow hpos]
  rfl

theorem Decimal.toJavaScript_whole {d : Decimal} (h : d.count ≤ d.exponent) :
    d.toJavaScript = d.digits ++ Decimal.zeros (d.exponent - d.count) ↔ d.exponent ≤ 21 := by
  have hpos := d.count_pos
  unfold Decimal.toJavaScript
  constructor
  · intro htext
    by_contra hbig
    rw [if_neg (by omega), if_neg (by omega), if_neg (by omega)] at htext
    exact Decimal.e_not_mem_integral d _ (htext ▸ Decimal.e_mem_scientific d _)
  · intro hsmall
    rw [if_pos ⟨h, hsmall⟩]

/-- **Which numbers arrive as a number of the same text.** -/
theorem carriedNumber_dumps_iff (x : Float) : numberToString x = (carriedNumber x).dumps ↔
    (x.isFinite = true → floatValue x ≠ 0 → (Decimal.shortest |floatValue x|).Kept) := by
  unfold carriedNumber
  by_cases hfin : x.isFinite = true
  · rw [if_pos hfin]
    by_cases hzero : floatValue x = 0
    · rw [if_pos hzero, numberToString, if_pos hfin, if_pos hzero]
      exact ⟨fun _ _ hne => absurd hzero hne, fun _ => rfl⟩
    · have hjs : numberToString x = signed (signBit x) (Decimal.shortest |floatValue x|).toJavaScript := by
        rw [numberToString, if_pos hfin, if_neg hzero]
      have hcond : (x.isFinite = true → floatValue x ≠ 0 → (Decimal.shortest |floatValue x|).Kept) ↔
          (Decimal.shortest |floatValue x|).Kept := ⟨fun h => h hfin hzero, fun h _ _ => h⟩
      rw [if_neg hzero, hjs, hcond, Decimal.Kept]
      dsimp only
      by_cases hwhole : (Decimal.shortest |floatValue x|).IsWhole
      · have hpos := hwhole.2
        have hint : intRepr (if signBit x = true then -((Decimal.shortest |floatValue x|).whole : ℤ)
            else (Decimal.shortest |floatValue x|).whole) =
            signed (signBit x) (Nat.toDigits 10 (Decimal.shortest |floatValue x|).whole) := by
          unfold intRepr
          cases signBit x with
          | true =>
            rw [if_pos rfl, Int.natAbs_neg, Int.natAbs_natCast, decide_eq_true (by omega)]
          | false =>
            rw [if_neg Bool.false_ne_true, Int.natAbs_natCast, decide_eq_false (by omega)]
        rw [if_pos hwhole, if_pos hwhole, Scalar.dumps, Numeral.toPython, hint, signed_inj,
          Decimal.toDigits_whole hwhole, Decimal.toJavaScript_whole hwhole.1]
      · rw [if_neg hwhole, if_neg hwhole, Scalar.dumps, Numeral.toPython, floatRepr, if_pos hfin, if_neg hzero,
          signed_inj, Decimal.toJavaScript_eq_toPython_iff]
  · rw [if_neg hfin, numberToString, if_neg hfin]
    exact ⟨fun _ h => absurd h hfin, fun _ => rfl⟩

/-! ### Documents -/

def Scalar.unicodeDumps : Scalar → List Char
  | string s => quoted (basestringBody s)
  | a => a.dumps

/-- `json.dumps` with `sort_keys` and `ensure_ascii=False`, without blanks. -/
def unicodePython : Encoder CodeUnits Scalar where
  leaf := Scalar.unicodeDumps
  name s := quoted (basestringBody s)
  rank := codePoints

/-- `json.dumps(value, sort_keys=True, separators=(",", ":"), ensure_ascii=False)` -/
def unicodeDumps (d : Doc) : List Char := unicodePython.text d

theorem unicodePython_lawful : unicodePython.Lawful where
  leaf
    | .null => python_lawful.leaf .null
    | .bool b => python_lawful.leaf (.bool b)
    | .number n => python_lawful.leaf (.number n)
    | .string s => .inr ⟨_, basestring_eq_stringify s ▸ escaped_stringifyBody s, rfl⟩
  name s := ⟨_, basestring_eq_stringify s ▸ escaped_stringifyBody s, rfl⟩
  rank_injective := codePoints_injective

/-- A number that arrives as one of the same text, or an object whose names are in the same order for both
languages. -/
def Settled : Doc → Prop
  | .leaf (.number n) => n.toDouble.isFinite = true → floatValue n.toDouble ≠ 0 →
      (Decimal.shortest |floatValue n.toDouble|).Kept
  | .leaf _ | .array _ => True
  | .object ms => ∀ a ∈ ms, ∀ b ∈ ms, propertyRank a.1 ≤ propertyRank b.1 ↔ codePoints a.1 ≤ codePoints b.1

instance : DecidablePred Settled
  | .leaf (.number n) => inferInstanceAs (Decidable (n.toDouble.isFinite = true → floatValue n.toDouble ≠ 0 →
      (Decimal.shortest |floatValue n.toDouble|).Kept))
  | .leaf .null | .leaf (.bool _) | .leaf (.string _) | .array _ => isTrue trivial
  | .object ms => inferInstanceAs (Decidable (∀ a ∈ ms, ∀ b ∈ ms,
      propertyRank a.1 ≤ propertyRank b.1 ↔ codePoints a.1 ≤ codePoints b.1))

theorem agree_iff_settled (d : Doc) : javaScript.Agree (unicodePython.comap Scalar.carried) d ↔ Settled d := by
  match d with
  | .leaf .null => exact ⟨fun _ => trivial, fun _ => rfl⟩
  | .leaf (.bool _) => exact ⟨fun _ => trivial, fun _ => rfl⟩
  | .leaf (.string s) => exact ⟨fun _ => trivial, fun _ => (congrArg quoted (basestring_eq_stringify s)).symm⟩
  | .leaf (.number n) =>
    refine Iff.trans ?_ (carriedNumber_dumps_iff n.toDouble)
    have hleaf : (unicodePython.comap Scalar.carried).leaf (.number n) = (carriedNumber n.toDouble).dumps := by
      change (carriedNumber n.toDouble).unicodeDumps = _
      unfold carriedNumber
      dsimp only
      split_ifs <;> rfl
    rw [Encoder.Agree, hleaf]
    rfl
  | .array _ => exact Iff.rfl
  | .object ms =>
    refine and_iff_right fun e _ => ?_
    exact congrArg quoted (basestring_eq_stringify e.1).symm

/-- **Where the worker writes the text that the gateway wrote.** -/
theorem stableJson_eq_unicodeDumps_iff {d : Doc} (hd : d.Everywhere Encoder.DistinctNames) :
    stableJson d = unicodeDumps (carried d) ↔ d.Everywhere Settled := by
  have hnames : ∀ k l, javaScript.name k = (unicodePython.comap Scalar.carried).name l → k = l := fun k l h =>
    stringifyString_injective (h.trans (congrArg quoted (basestring_eq_stringify l)))
  have h := Encoder.text_eq_iff javaScript_lawful (unicodePython_lawful.comap Scalar.carried) hnames hd
  rw [stableJson, unicodeDumps, carried, Encoder.text_mapLeaf, h,
    show javaScript.Agree (unicodePython.comap Scalar.carried) = Settled from funext fun d =>
      propext (agree_iff_settled d)]

end Forge
