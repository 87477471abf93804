import Forge.Data.Text
import Forge.Json.Decimal
import Forge.Json.Encoder

/-!
# Canonical JSON in JavaScript and in Python

The gateway writes canonical JSON with `JSON.stringify` after sorting the members of
every object (`stableJson`), the workers with `json.dumps` and `sort_keys`. Strings are
sequences of UTF-16 code units, which may hold surrogates without a partner.

The two differ in more than numbers. `JSON.stringify` leaves characters beyond ASCII
as they are, `json.dumps` escapes them; JavaScript compares names by code units but
puts those that are array indices first, Python compares by code points.
`stableJson_eq_jsonDumps_iff` says for which documents the texts are the same.
-/

namespace Forge

/-! ### Strings -/

/-- A string of JavaScript. -/
abbrev CodeUnits := List UInt16

instance (priority := 2000) lawfulBEq_codeUnits : LawfulBEq CodeUnits := inferInstanceAs (LawfulBEq (List UInt16))

/-- The code units of a code point. -/
def encodePoint (p : ℕ) : CodeUnits :=
  if p < 0x10000 then [UInt16.ofNat p]
  else [UInt16.ofNat (0xD800 + (p - 0x10000) / 0x400), UInt16.ofNat (0xDC00 + (p - 0x10000) % 0x400)]

/-- The code units of characters. -/
def utf16 (cs : List Char) : CodeUnits := cs.flatMap fun c => encodePoint c.toNat

/-- A name or a text that the programs write out. -/
def units (s : String) : CodeUnits := utf16 s.toList

/-- The units of a text whose characters are read from its bytes. -/
theorem units_eq_ascii (s : String) : units s = utf16 (Text.asciiChars s) := by rw [units, Text.toList_eq_asciiChars]

def isHigh (u : UInt16) : Bool := 0xD800 ≤ u && u < 0xDC00

def isLow (u : UInt16) : Bool := 0xDC00 ≤ u && u < 0xE000

/-- The code point of a surrogate pair. -/
def pairPoint (u v : UInt16) : ℕ := 0x10000 + ((u.toNat - 0xD800) * 0x400 + (v.toNat - 0xDC00))

/-- The code points of a string; a surrogate without a partner is one by itself. -/
def codePoints : CodeUnits → List ℕ
  | [] => []
  | [u] => [u.toNat]
  | u :: v :: us =>
    if isHigh u && isLow v then pairPoint u v :: codePoints us else u.toNat :: codePoints (v :: us)

theorem isHigh_iff {u : UInt16} : isHigh u = true ↔ 0xD800 ≤ u.toNat ∧ u.toNat < 0xDC00 := by
  simp [isHigh, UInt16.le_iff_toNat_le, UInt16.lt_iff_toNat_lt]

theorem isLow_iff {u : UInt16} : isLow u = true ↔ 0xDC00 ≤ u.toNat ∧ u.toNat < 0xE000 := by
  simp [isLow, UInt16.le_iff_toNat_le, UInt16.lt_iff_toNat_lt]

theorem encodePoint_toNat (u : UInt16) : encodePoint u.toNat = [u] := by
  have hu := u.toNat_lt
  rw [encodePoint, if_pos (by omega)]
  simp

theorem encodePoint_pair {u v : UInt16} (h : (isHigh u && isLow v) = true) : encodePoint (pairPoint u v) = [u, v] := by
  obtain ⟨hu, hv⟩ := Bool.and_eq_true_iff.mp h
  rw [isHigh_iff] at hu
  rw [isLow_iff] at hv
  have hbeyond : ¬ pairPoint u v < 0x10000 := by unfold pairPoint; omega
  have hhigh : 0xD800 + (pairPoint u v - 0x10000) / 0x400 = u.toNat := by unfold pairPoint; omega
  have hlow : 0xDC00 + (pairPoint u v - 0x10000) % 0x400 = v.toNat := by unfold pairPoint; omega
  rw [encodePoint, if_neg hbeyond, hhigh, hlow, UInt16.ofNat_toNat, UInt16.ofNat_toNat]

/-- A string is read off its code points. -/
theorem flatMap_encodePoint (us : CodeUnits) : (codePoints us).flatMap encodePoint = us := by
  fun_induction codePoints us with
  | case1 => rfl
  | case2 u => simp [encodePoint_toNat]
  | case3 u v us hpair ih => rw [List.flatMap_cons, encodePoint_pair hpair, ih]; rfl
  | case4 u v us hpair ih => rw [List.flatMap_cons, encodePoint_toNat, ih]; rfl

theorem codePoints_injective : Function.Injective codePoints :=
  Function.LeftInverse.injective flatMap_encodePoint

/-! ### Escapes -/

/-- The letter of a code unit that has a short escape. -/
def shortEscape (u : UInt16) : Option Char :=
  if u = 0x22 then some '"'
  else if u = 0x5C then some '\\'
  else if u = 0x08 then some 'b'
  else if u = 0x0C then some 'f'
  else if u = 0x0A then some 'n'
  else if u = 0x0D then some 'r'
  else if u = 0x09 then some 't'
  else none

/-- A `\u` escape with four lower-case digits. -/
def unicodeEscape (u : UInt16) : List Char :=
  '\\' :: 'u' :: [Nat.digitChar (u.toNat / 4096), Nat.digitChar (u.toNat / 256 % 16), Nat.digitChar (u.toNat / 16 % 16),
    Nat.digitChar (u.toNat % 16)]

/-- A code unit that is not part of a surrogate pair, in `JSON.stringify`. -/
def stringifyUnit (u : UInt16) : List Char :=
  match shortEscape u with
  | some e => ['\\', e]
  | none => if u < 0x20 || isHigh u || isLow u then unicodeEscape u else [Char.ofNat u.toNat]

/-- The inside of a string in `JSON.stringify`. -/
def stringifyBody : CodeUnits → List Char
  | [] => []
  | [u] => stringifyUnit u
  | u :: v :: us =>
    if isHigh u && isLow v then Char.ofNat (pairPoint u v) :: stringifyBody us
    else stringifyUnit u ++ stringifyBody (v :: us)

/-- A code unit in `json.dumps`, where a character beyond the basic plane is escaped as its two units. -/
def dumpsUnit (u : UInt16) : List Char :=
  match shortEscape u with
  | some e => ['\\', e]
  | none => if 0x20 ≤ u && u ≤ 0x7E then [Char.ofNat u.toNat] else unicodeEscape u

/-- The inside of a string in `json.dumps`. -/
def dumpsBody (us : CodeUnits) : List Char := us.flatMap dumpsUnit

def quoted (body : List Char) : List Char := '"' :: (body ++ ['"'])

/-- A string in `JSON.stringify`. -/
def stringifyString (us : CodeUnits) : List Char := quoted (stringifyBody us)

/-- A string in `json.dumps`. -/
def dumpsString (us : CodeUnits) : List Char := quoted (dumpsBody us)

/-- The strings that both write alike: below `DEL`, and surrogates without a partner. -/
def Portable : CodeUnits → Bool
  | [] => true
  | [u] => u < 0x7F || isHigh u || isLow u
  | u :: v :: us =>
    if isHigh u && isLow v then false else (u < 0x7F || isHigh u || isLow u) && Portable (v :: us)

/-! ### What the escapes say -/

theorem ne_of_shortEscape {u : UInt16} (h : shortEscape u = none) : u ≠ 0x22 ∧ u ≠ 0x5C := by
  constructor <;> rintro rfl <;> cases h

theorem toNat_charOfNat {n : ℕ} (h : n < 0xD800 ∨ 0xDFFF < n ∧ n < 0x110000) : (Char.ofNat n).toNat = n := by
  rw [Char.ofNat, dif_pos h]
  rfl

/-- The value of a lower-case hexadecimal digit. -/
def fromHex (c : Char) : ℕ := if c.isDigit then c.toNat - 48 else c.toNat - 87

theorem fromHex_digitChar : ∀ d < 16, fromHex (Nat.digitChar d) = d := by decide

/-- The code unit of a short escape. -/
def unescape : Char → UInt16
  | 'b' => 0x08
  | 'f' => 0x0C
  | 'n' => 0x0A
  | 'r' => 0x0D
  | 't' => 0x09
  | c => UInt16.ofNat c.toNat

/-- Read one code unit of an escaped string. -/
def readUnit : List Char → Option (UInt16 × List Char)
  | [] => none
  | '\\' :: 'u' :: a :: b :: c :: d :: r =>
    some (UInt16.ofNat (fromHex a * 4096 + fromHex b * 256 + fromHex c * 16 + fromHex d), r)
  | '\\' :: e :: r => some (unescape e, r)
  | c :: r => some (UInt16.ofNat c.toNat, r)

theorem readUnit_unicodeEscape (u : UInt16) (r : List Char) : readUnit (unicodeEscape u ++ r) = some (u, r) := by
  have hu := u.toNat_lt
  simp only [unicodeEscape, List.cons_append, List.nil_append, readUnit]
  rw [fromHex_digitChar _ (by omega), fromHex_digitChar _ (by omega), fromHex_digitChar _ (by omega),
    fromHex_digitChar _ (by omega),
    show u.toNat / 4096 * 4096 + u.toNat / 256 % 16 * 256 + u.toNat / 16 % 16 * 16 + u.toNat % 16 = u.toNat by omega,
    UInt16.ofNat_toNat]

theorem readUnit_shortEscape {u : UInt16} {e : Char} (h : shortEscape u = some e) (r : List Char) :
    readUnit ('\\' :: e :: r) = some (u, r) := by
  unfold shortEscape at h
  split_ifs at h <;> (subst_vars; cases h; rfl)

/-- A character that is no backslash stands for itself. -/
theorem readUnit_plain {c : Char} (hc : c ≠ '\\') (r : List Char) :
    readUnit (c :: r) = some (UInt16.ofNat c.toNat, r) := by
  unfold readUnit
  split <;> simp_all

/-- **An escaped string is read back unit by unit.** -/
theorem readUnit_dumpsUnit (u : UInt16) (r : List Char) : readUnit (dumpsUnit u ++ r) = some (u, r) := by
  unfold dumpsUnit
  split
  · rename_i e he
    exact readUnit_shortEscape he r
  · rename_i hnone
    split
    · rename_i hrange
      have hval : (Char.ofNat u.toNat).toNat = u.toNat := by
        have hle : u.toNat ≤ 0x7E := by
          have := (Bool.and_eq_true_iff.mp hrange).2
          rw [decide_eq_true_iff, UInt16.le_iff_toNat_le] at this
          exact this
        exact toNat_charOfNat (.inl (by omega))
      have hne : Char.ofNat u.toNat ≠ '\\' := fun hc => by
        rw [hc] at hval
        exact (ne_of_shortEscape hnone).2 (UInt16.toNat_inj.mp (hval.symm.trans rfl))
      rw [List.singleton_append, readUnit_plain hne, hval, UInt16.ofNat_toNat]
    · exact readUnit_unicodeEscape u r

theorem dumpsUnit_unique {u v : UInt16} {r s : List Char} (h : dumpsUnit u ++ r = dumpsUnit v ++ s) : u = v ∧ r = s := by
  have hu := readUnit_dumpsUnit u r
  rw [h, readUnit_dumpsUnit] at hu
  obtain ⟨rfl, rfl⟩ := Prod.mk.inj (Option.some.inj hu)
  exact ⟨rfl, rfl⟩

theorem dumpsUnit_ne_nil (u : UInt16) : dumpsUnit u ≠ [] := by
  intro h
  have hu := readUnit_dumpsUnit u []
  rw [h] at hu
  cases hu

/-- The texts of both writers agree about a unit below `DEL` and about a lone surrogate. -/
theorem stringifyUnit_eq {u : UInt16} (h : (u < 0x7F || isHigh u || isLow u) = true) :
    stringifyUnit u = dumpsUnit u := by
  unfold stringifyUnit dumpsUnit
  cases shortEscape u with
  | some e => rfl
  | none =>
    simp only [Bool.or_eq_true, decide_eq_true_eq, isHigh_iff, isLow_iff, UInt16.lt_iff_toNat_lt] at h
    simp only [Bool.or_eq_true, Bool.and_eq_true, decide_eq_true_eq, isHigh_iff, isLow_iff, UInt16.lt_iff_toNat_lt,
      UInt16.le_iff_toNat_le]
    simp only [UInt16.reduceToNat] at h ⊢
    by_cases hlow : u.toNat < 0x20
    · rw [if_pos (by omega), if_neg (by omega)]
    · by_cases hplain : u.toNat ≤ 0x7E
      · rw [if_neg (by omega), if_pos (by omega)]
      · rw [if_pos (by omega), if_neg (by omega)]

theorem digitChar_lt : ∀ d < 16, (Nat.digitChar d).toNat < 0x7F ∧ Nat.digitChar d ≠ '"' ∧ Nat.digitChar d ≠ '\\' := by
  decide

theorem shortEscape_lt {u : UInt16} {e : Char} (h : shortEscape u = some e) : e.toNat < 0x7F := by
  unfold shortEscape at h
  split_ifs at h <;> (cases h; decide)

/-- `json.dumps` writes ASCII. -/
theorem dumpsUnit_lt {u : UInt16} {c : Char} (hc : c ∈ dumpsUnit u) : c.toNat < 0x7F := by
  have hu := u.toNat_lt
  unfold dumpsUnit at hc
  split at hc
  · rename_i e he
    rcases List.mem_pair.mp hc with rfl | rfl
    · decide
    · exact shortEscape_lt he
  · split at hc
    · rename_i hrange
      have hle := (Bool.and_eq_true_iff.mp hrange).2
      rw [decide_eq_true_iff, UInt16.le_iff_toNat_le] at hle
      simp only [UInt16.reduceToNat] at hle
      rw [List.mem_singleton.mp hc, toNat_charOfNat (.inl (by omega))]
      omega
    · have hdigit := fun d hd => (digitChar_lt d hd).1
      simp only [unicodeEscape, List.mem_cons, List.not_mem_nil, or_false] at hc
      rcases hc with rfl | rfl | rfl | rfl | rfl | rfl
      · decide
      · decide
      all_goals exact hdigit _ (by omega)

/-- Any other unit stands for itself in `JSON.stringify`, beyond ASCII. -/
theorem stringifyUnit_beyond {u : UInt16} (h : (u < 0x7F || isHigh u || isLow u) = false) :
    ∃ c, stringifyUnit u = [c] ∧ 0x7F ≤ c.toNat := by
  simp only [Bool.or_eq_false_iff, decide_eq_false_iff_not, UInt16.lt_iff_toNat_lt, UInt16.reduceToNat] at h
  obtain ⟨⟨hbig, hhigh⟩, hlow⟩ := h
  have hnone : shortEscape u = none := by
    unfold shortEscape
    split_ifs with h1 h2 h3 h4 h5 h6 h7
    all_goals first
      | rfl
      | (subst_vars; exact absurd (by decide) hbig)
  have hu := u.toNat_lt
  have hh : ¬ (0xD800 ≤ u.toNat ∧ u.toNat < 0xDC00) := fun h => by rw [isHigh_iff.mpr h] at hhigh; cases hhigh
  have hl : ¬ (0xDC00 ≤ u.toNat ∧ u.toNat < 0xE000) := fun h => by rw [isLow_iff.mpr h] at hlow; cases hlow
  refine ⟨Char.ofNat u.toNat, ?_, ?_⟩
  · have hlt : ¬ u < 0x20 := by
      rw [UInt16.lt_iff_toNat_lt]
      simp only [UInt16.reduceToNat]
      omega
    simp only [stringifyUnit, hnone, hhigh, hlow, hlt, decide_false, Bool.or_self, Bool.false_eq_true, if_false]
  · rw [toNat_charOfNat (by omega)]
    omega

/-- What a text of `json.dumps` begins with, if it is that of a unit of `JSON.stringify`. -/
theorem stringifyUnit_append {u : UInt16} {r : List Char} {vs : CodeUnits}
    (h : stringifyUnit u ++ r = dumpsBody vs) :
    (u < 0x7F || isHigh u || isLow u) = true ∧ ∃ ws, vs = u :: ws ∧ r = dumpsBody ws := by
  cases hok : (u < 0x7F || isHigh u || isLow u) with
  | true =>
    rw [stringifyUnit_eq hok] at h
    cases vs with
    | nil => exact absurd (List.append_eq_nil_iff.mp h).1 (dumpsUnit_ne_nil u)
    | cons v vs =>
      obtain ⟨rfl, rfl⟩ := dumpsUnit_unique (show dumpsUnit u ++ r = dumpsUnit v ++ dumpsBody vs from h)
      exact ⟨rfl, vs, rfl, rfl⟩
  | false =>
    obtain ⟨c, hc, hbig⟩ := stringifyUnit_beyond hok
    have hmem : c ∈ dumpsBody vs := by rw [← h, hc]; exact List.mem_cons_self
    obtain ⟨v, -, hv⟩ := List.mem_flatMap.mp hmem
    have := dumpsUnit_lt hv
    omega

theorem toNat_pairPoint {u v : UInt16} (h : (isHigh u && isLow v) = true) :
    0x7F ≤ (Char.ofNat (pairPoint u v)).toNat := by
  obtain ⟨hu, hv⟩ := Bool.and_eq_true_iff.mp h
  rw [isHigh_iff] at hu
  rw [isLow_iff] at hv
  rw [toNat_charOfNat (.inr (by unfold pairPoint; omega))]
  unfold pairPoint
  omega

/-- **Where strings are written alike**: the same string, and a portable one. -/
theorem stringifyBody_eq_iff {us vs : CodeUnits} :
    stringifyBody us = dumpsBody vs ↔ us = vs ∧ Portable us = true := by
  fun_induction stringifyBody us generalizing vs with
  | case1 =>
    cases vs with
    | nil => exact ⟨fun _ => ⟨rfl, rfl⟩, fun _ => rfl⟩
    | cons v vs =>
      refine ⟨fun h => ?_, fun h => by cases h.1⟩
      exact absurd (List.append_eq_nil_iff.mp (show dumpsUnit v ++ dumpsBody vs = [] from h.symm)).1 (dumpsUnit_ne_nil v)
  | case2 u =>
    constructor
    · intro h
      obtain ⟨hok, ws, rfl, hnil⟩ := stringifyUnit_append (r := []) (by rw [List.append_nil]; exact h)
      cases ws with
      | nil => exact ⟨rfl, hok⟩
      | cons w ws =>
        exact absurd (List.append_eq_nil_iff.mp (show dumpsUnit w ++ dumpsBody ws = [] from hnil.symm)).1
          (dumpsUnit_ne_nil w)
    · rintro ⟨rfl, hok⟩
      rw [stringifyUnit_eq hok, dumpsBody, List.flatMap_cons, List.flatMap_nil, List.append_nil]
  | case3 u v us hpair ih =>
    constructor
    · intro h
      have hmem : Char.ofNat (pairPoint u v) ∈ dumpsBody vs := h ▸ List.mem_cons_self
      obtain ⟨w, -, hw⟩ := List.mem_flatMap.mp hmem
      have := dumpsUnit_lt hw
      have := toNat_pairPoint hpair
      omega
    · rintro ⟨-, h⟩
      rw [Portable, if_pos hpair] at h
      cases h
  | case4 u v us hpair ih =>
    rw [Portable, if_neg hpair, Bool.and_eq_true]
    constructor
    · intro h
      obtain ⟨hok, ws, rfl, hrest⟩ := stringifyUnit_append h
      obtain ⟨rfl, hp⟩ := ih.mp hrest
      exact ⟨rfl, hok, hp⟩
    · rintro ⟨rfl, hok, hp⟩
      rw [stringifyUnit_eq hok, ih.mpr ⟨rfl, hp⟩, dumpsBody, List.flatMap_cons]
      rfl

theorem quoted_inj {t u : List Char} : quoted t = quoted u ↔ t = u := by simp [quoted]

theorem stringifyString_eq_iff {us vs : CodeUnits} :
    stringifyString us = dumpsString vs ↔ us = vs ∧ Portable us = true :=
  quoted_inj.trans stringifyBody_eq_iff

/-! ### Strings are quoted tokens -/

theorem escaped_unicodeEscape (u : UInt16) : Escaped (unicodeEscape u) := by
  have hu := u.toNat_lt
  have hdigit := fun d hd => (digitChar_lt d hd).2
  refine .escape (.plain ?_ ?_ (.plain ?_ ?_ (.plain ?_ ?_ (.plain ?_ ?_ .nil))))
  all_goals first
    | exact (hdigit _ (by omega)).1
    | exact (hdigit _ (by omega)).2

/-- A character that is neither the quote nor the backslash. -/
theorem escaped_singleton {c : Char} (h : c ≠ '"' ∧ c ≠ '\\') : Escaped [c] := .plain h.1 h.2 .nil

/-- A code unit without a short escape is neither of them. -/
theorem charOfNat_ne {u : UInt16} (h : shortEscape u = none) (hu : u.toNat < 0xD800 ∨ 0xDFFF < u.toNat) :
    Char.ofNat u.toNat ≠ '"' ∧ Char.ofNat u.toNat ≠ '\\' := by
  have hlt := u.toNat_lt
  have hval : (Char.ofNat u.toNat).toNat = u.toNat := toNat_charOfNat (by omega)
  obtain ⟨hquote, hback⟩ := ne_of_shortEscape h
  constructor <;> intro hc <;> rw [hc] at hval
  · exact hquote (UInt16.toNat_inj.mp (hval.symm.trans rfl))
  · exact hback (UInt16.toNat_inj.mp (hval.symm.trans rfl))

theorem escaped_dumpsUnit (u : UInt16) : Escaped (dumpsUnit u) := by
  unfold dumpsUnit
  split
  · exact .escape .nil
  · rename_i hnone
    split
    · rename_i hrange
      have hle := (Bool.and_eq_true_iff.mp hrange).2
      rw [decide_eq_true_iff, UInt16.le_iff_toNat_le] at hle
      simp only [UInt16.reduceToNat] at hle
      exact escaped_singleton (charOfNat_ne hnone (.inl (by omega)))
    · exact escaped_unicodeEscape u

theorem escaped_stringifyUnit (u : UInt16) : Escaped (stringifyUnit u) := by
  cases hok : (u < 0x7F || isHigh u || isLow u) with
  | true =>
    rw [stringifyUnit_eq hok]
    exact escaped_dumpsUnit u
  | false =>
    obtain ⟨c, hc, hbig⟩ := stringifyUnit_beyond hok
    rw [hc]
    refine escaped_singleton ⟨?_, ?_⟩ <;> (rintro rfl; exact absurd hbig (by decide))

theorem escaped_stringifyBody (us : CodeUnits) : Escaped (stringifyBody us) := by
  fun_induction stringifyBody us with
  | case1 => exact .nil
  | case2 u => exact escaped_stringifyUnit u
  | case3 u v us hpair ih =>
    have hbig := toNat_pairPoint hpair
    refine .plain ?_ ?_ ih <;> (intro hc; rw [hc] at hbig; exact absurd hbig (by decide))
  | case4 u v us hpair ih => exact (escaped_stringifyUnit u).append ih

theorem escaped_dumpsBody (us : CodeUnits) : Escaped (dumpsBody us) := by
  induction us with
  | nil => exact .nil
  | cons u us ih => exact (escaped_dumpsUnit u).append ih

theorem stringifyString_quoted (us : CodeUnits) : Quoted (stringifyString us) := ⟨_, escaped_stringifyBody us, rfl⟩

theorem dumpsString_quoted (us : CodeUnits) : Quoted (dumpsString us) := ⟨_, escaped_dumpsBody us, rfl⟩

/-! ### The order of names -/

/-- The array index that a name is the decimal text of. -/
def arrayIndex (k : CodeUnits) : Option ℕ :=
  let n := k.foldl (fun n u => 10 * n + (u.toNat - 48)) 0
  if n < 2 ^ 32 - 1 ∧ utf16 (Nat.toDigits 10 n) = k then some n else none

/-- Names of a JavaScript object that was filled in sorted order: array indices come first whatever the order,
by value, and the others by code units. -/
def propertyRank (k : CodeUnits) : List ℕ :=
  match arrayIndex k with
  | some n => [0, n]
  | none => 1 :: k.map UInt16.toNat

theorem arrayIndex_eq_some {k : CodeUnits} {n : ℕ} (h : arrayIndex k = some n) : utf16 (Nat.toDigits 10 n) = k := by
  unfold arrayIndex at h
  dsimp only at h
  split_ifs at h with hk
  cases h
  exact hk.2

theorem propertyRank_injective : Function.Injective propertyRank := by
  intro k l h
  unfold propertyRank at h
  cases hk : arrayIndex k with
  | some n =>
    cases hl : arrayIndex l with
    | some m =>
      rw [hk, hl] at h
      obtain rfl : n = m := by simpa using h
      exact (arrayIndex_eq_some hk).symm.trans (arrayIndex_eq_some hl)
    | none =>
      rw [hk, hl] at h
      exact absurd (List.cons.inj h).1 (by decide)
  | none =>
    cases hl : arrayIndex l with
    | some m =>
      rw [hk, hl] at h
      exact absurd (List.cons.inj h).1 (by decide)
    | none =>
      rw [hk, hl] at h
      exact List.map_injective_iff.mpr (fun _ _ hu => UInt16.toNat_inj.mp hu) (List.cons.inj h).2

/-! ### Documents -/

/-- A JSON value without parts. -/
inductive Scalar where
  | null
  | bool (b : Bool)
  | number (n : Numeral)
  | string (s : CodeUnits)
deriving DecidableEq

/-- A JSON document, with the names of its members as they were read. -/
abbrev Doc := Tree CodeUnits Scalar

def Scalar.stringify : Scalar → List Char
  | null => "null".toList
  | bool b => if b then "true".toList else "false".toList
  | number n => n.toJavaScript
  | string s => stringifyString s

def Scalar.dumps : Scalar → List Char
  | null => "null".toList
  | bool b => if b then "true".toList else "false".toList
  | number n => n.toPython
  | string s => dumpsString s

/-- `JSON.stringify` of an object whose members were sorted. -/
def javaScript : Encoder CodeUnits Scalar where
  leaf := Scalar.stringify
  name := stringifyString
  rank := propertyRank

/-- `json.dumps` with `sort_keys` and without blanks. -/
def python : Encoder CodeUnits Scalar where
  leaf := Scalar.dumps
  name := dumpsString
  rank := codePoints

/-- `stableJson` -/
def stableJson (d : Doc) : List Char := javaScript.text d

/-- `json.dumps(value, sort_keys=True, separators=(",", ":"))` -/
def jsonDumps (d : Doc) : List Char := python.text d

theorem javaScript_lawful : javaScript.Lawful where
  leaf
    | .null | .bool true | .bool false => .inl (word_of_plain (by decide) (by decide))
    | .number n => .inl (numberToString_word n.toDouble)
    | .string s => .inr (stringifyString_quoted s)
  name := stringifyString_quoted
  rank_injective := propertyRank_injective

theorem python_lawful : python.Lawful where
  leaf
    | .null | .bool true | .bool false => .inl (word_of_plain (by decide) (by decide))
    | .number n => .inl n.toPython_word
    | .string s => .inr (dumpsString_quoted s)
  name := dumpsString_quoted
  rank_injective := codePoints_injective

/-! ### When the texts are the same -/

/-- A number or string that both write alike, or an object whose names are portable and in the same order
for both. -/
def Plainly : Doc → Prop
  | .leaf .null | .leaf (.bool _) | .array _ => True
  | .leaf (.number n) => n.Alike
  | .leaf (.string s) => Portable s = true
  | .object ms => (∀ e ∈ ms, Portable e.1 = true) ∧
      ∀ a ∈ ms, ∀ b ∈ ms, propertyRank a.1 ≤ propertyRank b.1 ↔ codePoints a.1 ≤ codePoints b.1

instance : DecidablePred Plainly
  | .leaf .null | .leaf (.bool _) | .array _ => isTrue trivial
  | .leaf (.number n) => inferInstanceAs (Decidable n.Alike)
  | .leaf (.string s) => inferInstanceAs (Decidable (Portable s = true))
  | .object ms => inferInstanceAs (Decidable ((∀ e ∈ ms, Portable e.1 = true) ∧
      ∀ a ∈ ms, ∀ b ∈ ms, propertyRank a.1 ≤ propertyRank b.1 ↔ codePoints a.1 ≤ codePoints b.1))

theorem agree_iff_plainly (d : Doc) : javaScript.Agree python d ↔ Plainly d := by
  match d with
  | .leaf .null => exact ⟨fun _ => trivial, fun _ => rfl⟩
  | .leaf (.bool _) => exact ⟨fun _ => trivial, fun _ => rfl⟩
  | .leaf (.number n) => exact n.toJavaScript_eq_toPython_iff
  | .leaf (.string s) => exact stringifyString_eq_iff.trans (and_iff_right rfl)
  | .array _ => exact Iff.rfl
  | .object ms =>
    have hnames : (∀ e ∈ ms, stringifyString e.1 = dumpsString e.1) ↔ ∀ e ∈ ms, Portable e.1 = true :=
      forall₂_congr fun e _ => stringifyString_eq_iff.trans (and_iff_right rfl)
    exact and_congr_left' hnames

/-- **Where `stableJson` and `json.dumps` write the same text.** -/
theorem stableJson_eq_jsonDumps_iff {d : Doc} (hd : d.Everywhere Encoder.DistinctNames) :
    stableJson d = jsonDumps d ↔ d.Everywhere Plainly := by
  have h := Encoder.text_eq_iff javaScript_lawful python_lawful (fun _ _ h => (stringifyString_eq_iff.mp h).1) hd
  rw [stableJson, jsonDumps, h, show javaScript.Agree python = Plainly from funext fun d => propext (agree_iff_plainly d)]

end Forge
