import Forge.Json.Transport

/-!
# Strings of characters and strings of code units

A string of Rust is a list of characters, a string of JavaScript a list of code units.
`units` writes the first as the second; `decodeUnits` reads it back, and refuses a
surrogate without a partner as serde does. The **key result** `decodeUnits_eq_some_iff`
says that reading undoes writing and that nothing else is read.
-/

namespace Forge

theorem toNat_char_lt (c : Char) : c.toNat < 0xD800 ∨ 0xDFFF < c.toNat ∧ c.toNat < 0x110000 := c.valid

theorem isSurrogate_char (c : Char) : isSurrogate c.toNat = false := by
  have hc := toNat_char_lt c
  rw [Bool.eq_false_iff, Ne, isSurrogate_iff]
  omega

/-- A pair of surrogates is one code point. -/
theorem codePoints_pair {u v : UInt16} {q r : ℕ} (hu : u.toNat = 0xD800 + q) (hv : v.toNat = 0xDC00 + r)
    (hq : q < 0x400) (hr : r < 0x400) (us : CodeUnits) :
    codePoints (u :: v :: us) = (0x10000 + (q * 0x400 + r)) :: codePoints us := by
  have hpair : (isHigh u && isLow v) = true := by
    rw [Bool.and_eq_true, isHigh_iff, isLow_iff]
    omega
  have hvalue : pairPoint u v = 0x10000 + (q * 0x400 + r) := by
    unfold pairPoint
    omega
  rw [codePoints, if_pos hpair, hvalue]

/-- A unit that begins no pair is one code point. -/
theorem codePoints_unit {u : UInt16} (hu : isHigh u = false) (us : CodeUnits) :
    codePoints (u :: us) = u.toNat :: codePoints us := by
  cases us with
  | nil => rfl
  | cons v us => rw [codePoints, hu, Bool.false_and, if_neg Bool.false_ne_true]

theorem codePoints_encodePoint (c : Char) (us : CodeUnits) :
    codePoints (encodePoint c.toNat ++ us) = c.toNat :: codePoints us := by
  have hc := toNat_char_lt c
  unfold encodePoint
  split
  · have hu : (UInt16.ofNat c.toNat).toNat = c.toNat := by
      rw [UInt16.toNat_ofNat']
      omega
    have hhigh : isHigh (UInt16.ofNat c.toNat) = false := by
      rw [Bool.eq_false_iff, Ne, isHigh_iff, hu]
      omega
    rw [List.singleton_append, codePoints_unit hhigh, hu]
  · have hpoint : 0x10000 + ((c.toNat - 0x10000) / 0x400 * 0x400 + (c.toNat - 0x10000) % 0x400) = c.toNat := by omega
    have hcode := codePoints_pair (u := UInt16.ofNat (0xD800 + (c.toNat - 0x10000) / 0x400))
      (v := UInt16.ofNat (0xDC00 + (c.toNat - 0x10000) % 0x400)) (q := (c.toNat - 0x10000) / 0x400)
      (r := (c.toNat - 0x10000) % 0x400) (by rw [UInt16.toNat_ofNat']; omega) (by rw [UInt16.toNat_ofNat']; omega)
      (by omega) (by omega) us
    rw [hpoint] at hcode
    exact hcode

/-- The code points of a text are its characters. -/
theorem codePoints_utf16 (cs : List Char) : codePoints (utf16 cs) = cs.map Char.toNat := by
  induction cs with
  | nil => rfl
  | cons c cs ih =>
    rw [List.map_cons, ← ih]
    exact codePoints_encodePoint c (utf16 cs)

theorem utf16_injective : Function.Injective utf16 := fun cs ds h => by
  have hmap := congrArg codePoints h
  rw [codePoints_utf16, codePoints_utf16] at hmap
  exact List.map_injective_iff.mpr (fun c d hcd => Char.toNat_inj.mp hcd) hmap

@[simp] theorem units_inj {s t : String} : units s = units t ↔ s = t :=
  ⟨fun h => String.toList_inj.mp (utf16_injective h), fun h => h ▸ rfl⟩

/-- The text that code units spell, if every surrogate has its partner. -/
def decodeUnits (us : CodeUnits) : Option String :=
  if WellFormed us then some (String.ofList ((codePoints us).map Char.ofNat)) else none

theorem wellFormed_units (s : String) : WellFormed (units s) = true := by
  rw [WellFormed, units, codePoints_utf16, List.all_eq_true]
  intro p hp
  obtain ⟨c, -, rfl⟩ := List.mem_map.mp hp
  rw [isSurrogate_char]
  rfl

/-- **Key result**: code units spell a text exactly when they are what it is written as. -/
theorem decodeUnits_eq_some_iff {us : CodeUnits} {s : String} : decodeUnits us = some s ↔ us = units s := by
  constructor
  · intro h
    unfold decodeUnits at h
    split at h
    · rename_i hus
      obtain rfl := Option.some.inj h
      rw [units, String.toList_ofList, utf16, List.flatMap_map]
      conv_lhs => rw [← flatMap_encodePoint us]
      refine List.flatMap_congr fun p hp => ?_
      have hsurrogate := List.all_eq_true.mp hus p hp
      have hlt := codePoints_lt hp
      rw [Bool.not_eq_true', Bool.eq_false_iff, Ne, isSurrogate_iff] at hsurrogate
      rw [toNat_charOfNat (by omega)]
    · cases h
  · rintro rfl
    rw [decodeUnits, if_pos (wellFormed_units s), units, codePoints_utf16, List.map_map]
    have hid : (Char.ofNat ∘ Char.toNat) = id := funext fun c => Char.ofNat_toNat c
    rw [hid, List.map_id, String.ofList_toList]

@[simp] theorem decodeUnits_units (s : String) : decodeUnits (units s) = some s := decodeUnits_eq_some_iff.mpr rfl

/-! ### Bytes and patterns -/

/-- The bytes of a text in UTF-8. -/
def utf8Bytes (s : String) : List UInt8 := s.toList.flatMap String.utf8EncodeChar

/-- A byte as a code unit. -/
def widen (b : UInt8) : UInt16 := UInt16.ofNat b.toNat

@[simp] theorem toNat_widen (b : UInt8) : (widen b).toNat = b.toNat := by
  have hb := b.toNat_lt
  rw [widen, UInt16.toNat_ofNat']
  omega

/-- A character is one ASCII byte, or all of its bytes are beyond ASCII. -/
theorem utf8EncodeChar_cases (c : Char) :
    (c.toNat < 0x80 ∧ String.utf8EncodeChar c = [UInt8.ofNat c.toNat]) ∨
      ∃ b ∈ String.utf8EncodeChar c, ¬ b.toNat < 0x80 := by
  unfold String.utf8EncodeChar
  dsimp only
  have hc : c.val.toNat = c.toNat := rfl
  split
  · rename_i h
    exact .inl ⟨by omega, rfl⟩
  · right
    split_ifs
    all_goals
      refine ⟨_, List.mem_cons_self, ?_⟩
      simp only [UInt8.toNat_ofNat']
      omega

/-- A text whose bytes are ASCII has these bytes as its code units. -/
theorem units_of_ascii {s : String} (h : ∀ b ∈ utf8Bytes s, b.toNat < 0x80) : units s = (utf8Bytes s).map widen := by
  unfold units utf8Bytes at *
  generalize s.toList = cs at h
  induction cs with
  | nil => rfl
  | cons c cs ih =>
    rw [List.flatMap_cons, List.forall_mem_append] at h
    rcases utf8EncodeChar_cases c with ⟨hc, hbytes⟩ | ⟨b, hb, hlt⟩
    · have hpoint : encodePoint c.toNat = [widen (UInt8.ofNat c.toNat)] := by
        rw [encodePoint, if_pos (by omega)]
        congr 1
        rw [← UInt16.toNat_inj, toNat_widen, UInt16.toNat_ofNat', UInt8.toNat_ofNat']
        omega
      rw [List.flatMap_cons, List.map_append, ← ih h.2, hbytes, utf16, List.flatMap_cons, hpoint]
      rfl
    · exact absurd (h.1 b hb) hlt

/-- ASCII code units spell a text. -/
theorem exists_of_ascii {us : CodeUnits} (h : ∀ u ∈ us, u.toNat < 0x80) :
    ∃ s, us = units s ∧ us = (utf8Bytes s).map widen := by
  refine ⟨String.ofList (us.map fun u => Char.ofNat u.toNat), ?_, ?_⟩
  · rw [units, String.toList_ofList]
    induction us with
    | nil => rfl
    | cons u us ih =>
      rw [List.forall_mem_cons] at h
      rw [List.map_cons, utf16, List.flatMap_cons, toNat_charOfNat (by omega), encodePoint_toNat]
      exact congrArg (u :: ·) (ih h.2)
  · rw [utf8Bytes, String.toList_ofList]
    induction us with
    | nil => rfl
    | cons u us ih =>
      rw [List.forall_mem_cons] at h
      have hu : (Char.ofNat u.toNat).toNat = u.toNat := toNat_charOfNat (by omega)
      have hbytes : (String.utf8EncodeChar (Char.ofNat u.toNat)).map widen = [u] := by
        unfold String.utf8EncodeChar
        dsimp only
        have hval : (Char.ofNat u.toNat).val.toNat = u.toNat := hu
        rw [hval, if_pos (by omega), List.map_singleton]
        congr 1
        rw [← UInt16.toNat_inj, toNat_widen, UInt8.toNat_ofNat']
        omega
      rw [List.map_cons, List.flatMap_cons, List.map_append, hbytes, ← ih h.2]
      rfl

section

variable {p : UInt16 → Bool} {q : UInt8 → Bool}

/-- A pattern of ASCII code units matches only texts, and there the pattern of bytes matches too. -/
theorem exists_of_all (hp : ∀ u, p u = true → u.toNat < 0x80) (hq : ∀ b : UInt8, q b = p (widen b)) {us : CodeUnits}
    (h : us.all p = true) : ∃ s, us = units s ∧ us.length = (utf8Bytes s).length ∧ (utf8Bytes s).all q = true := by
  obtain ⟨s, hs, hbytes⟩ := exists_of_ascii fun u hu => hp u (List.all_eq_true.mp h u hu)
  refine ⟨s, hs, by rw [hbytes, List.length_map], List.all_eq_true.mpr fun b hb => ?_⟩
  rw [hq]
  exact List.all_eq_true.mp h _ (hbytes ▸ List.mem_map_of_mem hb)

/-- A text that a pattern of ASCII bytes matches is matched by the pattern of code units. -/
theorem all_units (hp : ∀ u, p u = true → u.toNat < 0x80) (hq : ∀ b : UInt8, q b = p (widen b)) {s : String}
    (h : (utf8Bytes s).all q = true) : (units s).all p = true ∧ (units s).length = (utf8Bytes s).length := by
  have hunits : units s = (utf8Bytes s).map widen := units_of_ascii fun b hb => by
    have hb := hp _ (hq b ▸ List.all_eq_true.mp h b hb)
    rwa [toNat_widen] at hb
  rw [hunits, List.length_map, List.all_map]
  refine ⟨List.all_eq_true.mpr fun b hb => ?_, rfl⟩
  rw [Function.comp_apply, ← hq]
  exact List.all_eq_true.mp h b hb

end

end Forge
