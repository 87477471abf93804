import Forge.Data.Text
import Mathlib.Data.Prod.Lex
import Mathlib.Order.Lex

/-!
# Versions and ranges

The minimal semver of the contract grammar (`semver.rs`): a version is exactly
`x.y.z` with 64-bit components, and a range is one of the three forms `1.2.3`,
`^1.2.3` and `~1.2.3`.

The **key result** is that a printed version parses back to itself
(`parse_display`); the converse fails because leading zeros are tolerated, so one
version has many texts.
-/

namespace Forge.Contract

/-- A catalog version `major.minor.patch`. -/
structure Version where
  major : UInt64
  minor : UInt64
  patch : UInt64
deriving DecidableEq

namespace Version

/-- One component: a nonempty run of ASCII digits that fits 64 bits. -/
def num (t : List Char) : Option UInt64 := (Text.digits (2 ^ 64) t).map UInt64.ofNat

/-- Read a version: exactly three components separated by dots. -/
def parse (s : String) : Option Version :=
  match s.toList.splitOn '.' with
  | [a, b, c] => do
    let major ← num a
    let minor ← num b
    let patch ← num c
    return { major, minor, patch }
  | _ => none

/-- The canonical text of a component. -/
def component (n : UInt64) : List Char := Nat.toDigits 10 n.toNat

/-- The canonical text of a version. -/
def display (v : Version) : String :=
  String.ofList (component v.major ++ '.' :: (component v.minor ++ '.' :: component v.patch))

/-- The components in order of significance, compared lexicographically. -/
def key (v : Version) : ℕ ×ₗ ℕ ×ₗ ℕ := toLex (v.major.toNat, toLex (v.minor.toNat, v.patch.toNat))

theorem key_injective : Function.Injective key := by
  rintro ⟨a, b, c⟩ ⟨a', b', c'⟩ h
  have h1 := congrArg (fun p => (ofLex p).1) h
  have h2 := congrArg (fun p => ofLex (ofLex p).2) h
  simp only [key, ofLex_toLex, Prod.mk.injEq] at h1 h2
  rw [UInt64.toNat_inj.mp h1, UInt64.toNat_inj.mp h2.1, UInt64.toNat_inj.mp h2.2]

/-- Versions are ordered by major, then minor, then patch. -/
instance : LinearOrder Version := LinearOrder.lift' key key_injective

/-! ### Printing and parsing -/

theorem num_component (n : UInt64) : num (component n) = some n := by
  rw [num, component, Text.digits_toDigits n.toNat_lt, Option.map_some, UInt64.ofNat_toNat]

theorem not_mem_component {c : Char} (hc : c.isDigit = false) (n : UInt64) : c ∉ component n :=
  Text.not_mem_toDigits hc _

/-- **A printed version parses back to itself.** -/
@[simp] theorem parse_display (v : Version) : parse v.display = some v := by
  have hdot : ∀ n, '.' ∉ component n := not_mem_component (by decide)
  have hsplit : v.display.toList.splitOn '.' = [component v.major, component v.minor, component v.patch] := by
    rw [display, String.toList_ofList, List.splitOn_append_cons_self_of_not_mem (hdot _),
      List.splitOn_append_cons_self_of_not_mem (hdot _), List.splitOn_eq_singleton (hdot _)]
  simp [parse, hsplit, num_component]

/-- A printed version contains nothing but digits and dots. -/
theorem not_mem_display {c : Char} (hc : c.isDigit = false) (hdot : c ≠ '.') (v : Version) :
    c ∉ v.display.toList := by
  simp [display, not_mem_component hc, hdot]

/-- Leading zeros are read over, so a version has texts besides its canonical one. -/
example : parse "01.2.3" = some ⟨1, 2, 3⟩ ∧ parse "1.2.3" = some ⟨1, 2, 3⟩ := by decide

end Version

/-- A version range of the contract grammar. -/
inductive Range where
  /-- `x.y.z` -/
  | exact (v : Version)
  /-- `^x.y.z`: compatible within the leftmost non-zero component. -/
  | caret (v : Version)
  /-- `~x.y.z`: patch-level changes only. -/
  | tilde (v : Version)
deriving DecidableEq

namespace Range

/-- Read a range by its leading sign. -/
def parse (s : String) : Option Range :=
  match s.toList with
  | '^' :: rest => (Version.parse (String.ofList rest)).map .caret
  | '~' :: rest => (Version.parse (String.ofList rest)).map .tilde
  | _ => (Version.parse s).map .exact

/-- Whether `v` lies in the range. -/
def «matches» : Range → Version → Bool
  | .exact base, v => v = base
  | .tilde base, v => v ≥ base ∧ v.major = base.major ∧ v.minor = base.minor
  | .caret base, v =>
    if v < base then false
    else if base.major > 0 then v.major = base.major
    else if base.minor > 0 then v.major = 0 ∧ v.minor = base.minor
    else v = base

end Range

/-- Below `1.0.0` the caret stops at the minor version, below `0.1.0` at the patch. -/
example : (Range.caret ⟨0, 3, 1⟩).matches ⟨0, 3, 9⟩ = true ∧ (Range.caret ⟨0, 3, 1⟩).matches ⟨0, 4, 0⟩ = false ∧
    (Range.caret ⟨0, 0, 4⟩).matches ⟨0, 0, 5⟩ = false := by decide

end Forge.Contract
