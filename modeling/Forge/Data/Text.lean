import Forge.Data.Numerals
import Mathlib.Data.String.Basic

/-!
# Text: cutting strings and decimal numbers

String operations of a standard library, stated on lists of characters:
cutting at the last occurrence of a separator (`rsplitOnce`), reading an unsigned
decimal number of bounded size (`digits`, `unsigned`) and writing one
(`Nat.toDigits 10`). Splitting at every separator is `List.splitOn`.

The **key results** are that cutting undoes joining (`rsplitOnce_join`,
`rsplitOnce_eq_some`) and that reading undoes writing (`digits_toDigits`).
-/

namespace Forge.Text

/-- Cut at the last `c`, which is dropped. -/
def rsplitOnceChars (c : Char) : List Char → Option (List Char × List Char)
  | [] => none
  | x :: xs =>
    match rsplitOnceChars c xs with
    | some (before, after) => some (x :: before, after)
    | none => if x = c then some ([], xs) else none

/-- Cut a string at the last `c`. -/
def rsplitOnce (c : Char) (s : String) : Option (String × String) :=
  (rsplitOnceChars c s.toList).map fun p => (String.ofList p.1, String.ofList p.2)

/-- A nonempty run of decimal digits below the bound `w`; leading zeros are read over. -/
def digits (w : Nat) (cs : List Char) : Option Nat :=
  if cs ≠ [] ∧ cs.all Char.isDigit ∧ Nat.ofDigitChars 10 cs 0 < w then some (Nat.ofDigitChars 10 cs 0) else none

/-- What a machine's unsigned number parser reads: digits, with one `+` allowed in front. -/
def unsigned (w : Nat) : List Char → Option Nat
  | '+' :: cs => digits w cs
  | cs => digits w cs

/-- Replace every occurrence of the two characters `a`, `b` by `r`, from left to right. -/
def replacePair (a b r : Char) : List Char → List Char
  | [] => []
  | [c] => [c]
  | c :: d :: cs => if c = a ∧ d = b then r :: replacePair a b r cs else c :: replacePair a b r (d :: cs)

/-- The white space characters of Unicode. -/
def isWhiteSpace (c : Char) : Bool :=
  let n := c.toNat
  (9 ≤ n && n ≤ 13) || n = 0x20 || n = 0x85 || n = 0xA0 || n = 0x1680 || (0x2000 ≤ n && n ≤ 0x200A) || n = 0x2028 ||
    n = 0x2029 || n = 0x202F || n = 0x205F || n = 0x3000

/-- Drop white space from both ends. -/
def trim (s : String) : String :=
  String.ofList ((s.toList.dropWhile isWhiteSpace).reverse.dropWhile isWhiteSpace).reverse

/-! ### Replacing -/

@[simp] theorem replacePair_nil (a b r : Char) : replacePair a b r [] = [] := by simp [replacePair]

theorem replacePair_pair (a b r : Char) (cs : List Char) :
    replacePair a b r (a :: b :: cs) = r :: replacePair a b r cs := by simp [replacePair]

theorem replacePair_skip {a b r d : Char} (h : d ≠ b) (cs : List Char) :
    replacePair a b r (a :: d :: cs) = a :: replacePair a b r (d :: cs) := by simp [replacePair, h]

theorem replacePair_cons {a b r c : Char} (h : c ≠ a) (cs : List Char) :
    replacePair a b r (c :: cs) = c :: replacePair a b r cs := by
  cases cs <;> simp [replacePair, h]

/-! ### Cutting -/

theorem rsplitOnceChars_eq_none_iff {c : Char} {cs : List Char} : rsplitOnceChars c cs = none ↔ c ∉ cs := by
  induction cs with
  | nil => simp [rsplitOnceChars]
  | cons x xs ih =>
    rw [rsplitOnceChars]
    cases h : rsplitOnceChars c xs with
    | some p =>
      have : c ∈ xs := by
        by_contra hc
        rw [ih.mpr hc] at h
        cases h
      simp [this]
    | none =>
      have hc : c ∉ xs := ih.mp h
      by_cases hx : x = c
      · simp [hx]
      · simp [hx, hc, Ne.symm hx]

theorem rsplitOnceChars_join {c : Char} {before after : List Char} (h : c ∉ after) :
    rsplitOnceChars c (before ++ c :: after) = some (before, after) := by
  induction before with
  | nil => simp [rsplitOnceChars, rsplitOnceChars_eq_none_iff.mpr h]
  | cons x xs ih => simp [rsplitOnceChars, ih]

/-- Joining two strings with a `c` and cutting at the last `c` gives them back. -/
theorem rsplitOnce_join {c : Char} (before after : String) (h : c ∉ after.toList) :
    rsplitOnce c (before ++ String.singleton c ++ after) = some (before, after) := by
  simp [rsplitOnce, rsplitOnceChars_join h]

/-! ### Decimal numbers -/

theorem digits_eq_some {w n : Nat} {cs : List Char} (h : digits w cs = some n) :
    cs ≠ [] ∧ (∀ c ∈ cs, c.isDigit = true) ∧ n = Nat.ofDigitChars 10 cs 0 ∧ n < w := by
  unfold digits at h
  split_ifs at h with hc
  obtain rfl := Option.some.inj h
  exact ⟨hc.1, fun c hm => List.all_eq_true.mp hc.2.1 c hm, rfl, hc.2.2⟩

/-- Reading back a written number. -/
theorem digits_toDigits {w n : Nat} (h : n < w) : digits w (Nat.toDigits 10 n) = some n := by
  have hall : (Nat.toDigits 10 n).all Char.isDigit = true :=
    List.all_eq_true.mpr fun _ hc => Nat.isDigit_of_mem_toDigits (by decide) (by decide) hc
  rw [digits, Nat.ofDigitChars_ten_toDigits, if_pos ⟨Nat.toDigits_ne_nil, hall, h⟩]

theorem not_mem_toDigits {c : Char} (hc : c.isDigit = false) (n : Nat) : c ∉ Nat.toDigits 10 n := fun h => by
  rw [Nat.isDigit_of_mem_toDigits (by decide) (by decide) h] at hc
  cases hc

/-! ### ASCII -/

/-- The characters of a string, read from its bytes where these are ASCII. This is a shorter way than decoding. -/
def asciiChars (s : String) : List Char :=
  if s.toByteArray.data.toList.all fun b => b.toNat ≤ 0x7f then
    s.toByteArray.data.toList.map fun b => Char.ofNat b.toNat
  else s.toList

theorem bytes_eq (s : String) : s.toByteArray.data.toList = s.toList.flatMap String.utf8EncodeChar := by
  rw [← String.utf8Encode_toList, List.utf8Encode]
  simp

/-- Only the bytes of an ASCII character are ASCII. -/
theorem utf8EncodeChar_of_ascii {c : Char} (h : ∀ b ∈ String.utf8EncodeChar c, b.toNat ≤ 0x7f) :
    (String.utf8EncodeChar c).map (fun b => Char.ofNat b.toNat) = [c] := by
  have hsize : UInt8.size = 256 := rfl
  unfold String.utf8EncodeChar at h ⊢
  dsimp only at h ⊢
  split_ifs at h ⊢ with h1 h2 h3
  · have hsmall : (UInt8.ofNat c.val.toNat).toNat = c.toNat := UInt8.toNat_ofNat_of_lt' (by omega)
    rw [List.map_singleton, hsmall, Char.ofNat_toNat]
  · have hlast := h _ (List.mem_cons_of_mem _ (List.mem_singleton_self _))
    rw [UInt8.toNat_ofNat_of_lt' (by omega)] at hlast
    omega
  · have hlast := h _ (List.mem_cons_of_mem _ (List.mem_cons_of_mem _ (List.mem_singleton_self _)))
    rw [UInt8.toNat_ofNat_of_lt' (by omega)] at hlast
    omega
  · have hlast := h _ (List.mem_cons_of_mem _ (List.mem_cons_of_mem _ (List.mem_cons_of_mem _ (List.mem_singleton_self _))))
    rw [UInt8.toNat_ofNat_of_lt' (by omega)] at hlast
    omega

theorem toList_eq_asciiChars (s : String) : s.toList = asciiChars s := by
  rw [asciiChars, bytes_eq]
  split_ifs with h
  · simp only [List.all_eq_true, List.mem_flatMap, decide_eq_true_eq] at h
    generalize s.toList = cs at h
    induction cs with
    | nil => rfl
    | cons c cs ih =>
      have hc := utf8EncodeChar_of_ascii fun b hb => h b ⟨c, List.mem_cons_self .., hb⟩
      rw [List.flatMap_cons, List.map_append, hc, ← ih fun b hb => ?_]
      · rfl
      · obtain ⟨d, hd, hbd⟩ := hb
        exact h b ⟨d, List.mem_cons_of_mem _ hd, hbd⟩
  · rfl

end Forge.Text
