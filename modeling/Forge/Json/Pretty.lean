import Forge.Json.Tree
import Forge.Json.Value
import Mathlib.Algebra.BigOperators.Ring.List
import Mathlib.Algebra.Ring.Nat
import Mathlib.Data.Nat.Cast.Basic

/-!
# Texts of a JSON serialiser

How a serialiser lays values out: compactly (`Tree.render`), or with every element on a line of
its own (`Tree.pretty`), indented by two blanks for each level. **`pretty_le`** bounds what the
second adds to the first by the number of values and how deep they lie.

The spelling of doubles is left open (`Spelling`); strings and integers are spelled out.
-/

namespace Forge

/-! ### Lengths in UTF-8 -/

/-- The number of bytes of a text in UTF-8. -/
def utf8Length (cs : List Char) : ℕ := (cs.map Char.utf8Size).sum

@[simp] theorem utf8Length_nil : utf8Length [] = 0 := rfl

@[simp] theorem utf8Length_cons (c : Char) (cs : List Char) : utf8Length (c :: cs) = c.utf8Size + utf8Length cs := by
  simp [utf8Length]

@[simp] theorem utf8Length_append (cs ds : List Char) : utf8Length (cs ++ ds) = utf8Length cs + utf8Length ds := by
  simp [utf8Length]

@[simp] theorem utf8Length_replicate (n : ℕ) (c : Char) : utf8Length (List.replicate n c) = n * c.utf8Size := by
  simp [utf8Length]

/-- A text of single bytes. -/
theorem utf8Length_of_ascii {cs : List Char} (h : ∀ c ∈ cs, c.utf8Size = 1) : utf8Length cs = cs.length := by
  rw [utf8Length, List.map_congr_left h]
  simp

namespace Tree

/-! ### Indented texts -/

/-- A new line, indented for a level. -/
def breakLine (level : ℕ) : List Char := '\n' :: List.replicate (2 * level) ' '

/-- The texts that follow the first one, each after a comma and a new line, and the closing bracket. -/
def prettyRest (close : Char) (level : ℕ) : List (List Char) → List Char
  | [] => breakLine level ++ [close]
  | t :: ts => ',' :: (breakLine (level + 1) ++ t ++ prettyRest close level ts)

/-- Texts on lines of their own, and the closing bracket; nothing between empty brackets. -/
def prettyItems (close : Char) (level : ℕ) : List (List Char) → List Char
  | [] => [close]
  | t :: ts => breakLine (level + 1) ++ t ++ prettyRest close level ts

/-- The text of a member, with a blank before the value. -/
def prettyMember (name value : List Char) : List Char := name ++ ':' :: ' ' :: value

mutual

/-- The indented text of a tree of tokens that begins at a level. -/
def pretty (level : ℕ) : Tree (List Char) (List Char) → List Char
  | .leaf t => t
  | .array ts => '[' :: prettyItems ']' level (prettyList (level + 1) ts)
  | .object ms => '{' :: prettyItems '}' level (prettyMembers (level + 1) ms)

/-- The texts of the elements of an array. -/
def prettyList (level : ℕ) : List (Tree (List Char) (List Char)) → List (List Char)
  | [] => []
  | t :: ts => pretty level t :: prettyList level ts

/-- The texts of the members of an object. -/
def prettyMembers (level : ℕ) : List (List Char × Tree (List Char) (List Char)) → List (List Char)
  | [] => []
  | (name, t) :: ms => prettyMember name (pretty level t) :: prettyMembers level ms

end

theorem prettyList_eq (level : ℕ) (ts : List (Tree (List Char) (List Char))) :
    prettyList level ts = ts.map (pretty level) := by
  induction ts with
  | nil => simp [prettyList]
  | cons t ts ih => rw [prettyList, ih, List.map_cons]

theorem prettyMembers_eq (level : ℕ) (ms : List (List Char × Tree (List Char) (List Char))) :
    prettyMembers level ms = ms.map fun e => prettyMember e.1 (pretty level e.2) := by
  induction ms with
  | nil => simp [prettyMembers]
  | cons e ms ih => rw [prettyMembers, ih, List.map_cons]

@[simp] theorem pretty_leaf (level : ℕ) (t : List Char) : pretty level (.leaf t) = t := by rw [pretty]

@[simp] theorem pretty_array (level : ℕ) (ts : List (Tree (List Char) (List Char))) :
    pretty level (.array ts) = '[' :: prettyItems ']' level (ts.map (pretty (level + 1))) := by
  rw [pretty, prettyList_eq]

@[simp] theorem pretty_object (level : ℕ) (ms : List (List Char × Tree (List Char) (List Char))) :
    pretty level (.object ms) =
      '{' :: prettyItems '}' level (ms.map fun e => prettyMember e.1 (pretty (level + 1) e.2)) := by
  rw [pretty, prettyMembers_eq]

theorem utf8Length_breakLine (level : ℕ) : utf8Length (breakLine level) = 2 * level + 1 := by
  have hline : Char.utf8Size '\n' = 1 := by decide
  have hblank : Char.utf8Size ' ' = 1 := by decide
  rw [breakLine, utf8Length_cons, utf8Length_replicate, hline, hblank]
  omega

section

variable {ι : Type} {p c : ι → List Char} {o : ι → ℕ} {level : ℕ} {l : List ι}

theorem prettyRest_le (close : Char) (h : ∀ i ∈ l, utf8Length (p i) + (2 * level + 3) ≤ utf8Length (c i) + o i) :
    utf8Length (prettyRest close level (l.map p)) ≤
      utf8Length (restText close (l.map c)) + (l.map o).sum + (2 * level + 1) := by
  induction l with
  | nil => simp [prettyRest, restText, utf8Length_breakLine, Nat.add_comm]
  | cons i l ih =>
    obtain ⟨hi, hl⟩ := List.forall_mem_cons.mp h
    have hrest := ih hl
    simp only [List.map_cons, prettyRest, restText, utf8Length_cons, utf8Length_append, utf8Length_breakLine,
      List.sum_cons]
    omega

/-- What lines of their own add to the items. -/
theorem prettyItems_le (close : Char) (h : ∀ i ∈ l, utf8Length (p i) + (2 * level + 3) ≤ utf8Length (c i) + o i) :
    utf8Length (prettyItems close level (l.map p)) ≤
      utf8Length (itemsText close (l.map c)) + (l.map o).sum + (2 * level + 1) := by
  cases l with
  | nil => simp [prettyItems, itemsText]
  | cons i l =>
    obtain ⟨hi, hl⟩ := List.forall_mem_cons.mp h
    have hrest := prettyRest_le close hl
    simp only [List.map_cons, prettyItems, itemsText, utf8Length_append, utf8Length_breakLine, List.sum_cons]
    omega

end

/-! ### Counting -/

section

variable {κ α : Type}

theorem nodesList_eq (ts : List (Tree κ α)) : nodesList ts = (ts.map nodes).sum := by
  induction ts with
  | nil => simp [nodesList]
  | cons t ts ih => rw [nodesList, ih, List.map_cons, List.sum_cons]

theorem nodesMembers_eq (ms : List (κ × Tree κ α)) : nodesMembers ms = (ms.map fun e => e.2.nodes).sum := by
  induction ms with
  | nil => simp [nodesMembers]
  | cons e ms ih => rw [nodesMembers, ih, List.map_cons, List.sum_cons]

theorem depthList_le_iff {ts : List (Tree κ α)} {n : ℕ} : depthList ts ≤ n ↔ ∀ t ∈ ts, t.depth + 1 ≤ n := by
  induction ts with
  | nil => simp [depthList]
  | cons t ts ih => rw [depthList, max_le_iff, ih, List.forall_mem_cons]

theorem depthMembers_le_iff {ms : List (κ × Tree κ α)} {n : ℕ} : depthMembers ms ≤ n ↔ ∀ e ∈ ms, e.2.depth + 1 ≤ n := by
  induction ms with
  | nil => simp [depthMembers]
  | cons e ms ih => rw [depthMembers, max_le_iff, ih, List.forall_mem_cons]

end

/-- Twice its indentation and three bytes more are added for a value: a line and a blank before it,
and a line before its closing bracket. -/
def lineCost (level : ℕ) : ℕ := 4 * level + 3

theorem lineCost_mono {m n : ℕ} (h : m ≤ n) : lineCost m ≤ lineCost n := by
  unfold lineCost
  omega

theorem two_level_le (level depth : ℕ) : (2 * level + 1) + (2 * level + 2) ≤ lineCost (level + depth) := by
  unfold lineCost
  omega

/-- **Key result**: what the indented text adds to the compact one. -/
theorem pretty_le (t : Tree (List Char) (List Char)) (level : ℕ) : utf8Length (t.pretty level) + (2 * level + 2) ≤
    utf8Length t.render + t.nodes * lineCost (level + t.depth) := by
  induction t generalizing level with
  | leaf t =>
    simp only [pretty_leaf, render_leaf, nodes, depth, lineCost]
    omega
  | array ts ih =>
    have hdepth := depthList_le_iff.mp (le_refl (depthList ts))
    have hitems : ∀ t ∈ ts, utf8Length (t.pretty (level + 1)) + (2 * level + 3) ≤
        utf8Length t.render + t.nodes * lineCost (level + depthList ts) := fun t ht => by
      have hcost := lineCost_mono (show level + 1 + t.depth ≤ level + depthList ts by have := hdepth t ht; omega)
      have hmul := Nat.mul_le_mul_left t.nodes hcost
      have := ih t ht (level + 1)
      omega
    have hall := prettyItems_le ']' hitems
    rw [List.sum_map_mul_right, ← nodesList_eq] at hall
    simp only [pretty_array, render_array, utf8Length_cons, nodes, depth, Nat.add_mul, Nat.one_mul]
    have hroot := two_level_le level (depthList ts)
    omega
  | object ms ih =>
    have hdepth := depthMembers_le_iff.mp (le_refl (depthMembers ms))
    have hitems : ∀ e ∈ ms, utf8Length (prettyMember e.1 (e.2.pretty (level + 1))) + (2 * level + 3) ≤
        utf8Length (memberText e.1 e.2.render) + e.2.nodes * lineCost (level + depthMembers ms) := fun e he => by
      have hcost := lineCost_mono (show level + 1 + e.2.depth ≤ level + depthMembers ms by have := hdepth e he; omega)
      have hmul := Nat.mul_le_mul_left e.2.nodes hcost
      have := ih e he (level + 1)
      have hblank : Char.utf8Size ' ' = 1 := by decide
      simp only [prettyMember, memberText, utf8Length_append, utf8Length_cons, hblank]
      omega
    have hall := prettyItems_le '}' hitems
    rw [List.sum_map_mul_right, ← nodesMembers_eq] at hall
    simp only [pretty_object, render_object, utf8Length_cons, nodes, depth, Nat.add_mul, Nat.one_mul]
    have hroot := two_level_le level (depthMembers ms)
    omega

end Tree

/-! ### Values -/

/-- The digits of an integer. -/
def decimal (i : ℤ) : List Char :=
  if i < 0 then '-' :: Nat.toDigits 10 i.natAbs else Nat.toDigits 10 i.natAbs

/-- A character inside a string: quotes, backslashes and control characters are escaped. -/
def escapeChar (c : Char) : List Char :=
  if c = '"' then ['\\', '"']
  else if c = '\\' then ['\\', '\\']
  else if c = '\x08' then ['\\', 'b']
  else if c = '\x0c' then ['\\', 'f']
  else if c = '\n' then ['\\', 'n']
  else if c = '\r' then ['\\', 'r']
  else if c = '\t' then ['\\', 't']
  else if c.toNat < 0x20 then ['\\', 'u', '0', '0', Nat.digitChar (c.toNat / 16), Nat.digitChar (c.toNat % 16)]
  else [c]

/-- A string with its quotes. -/
def stringToken (s : String) : List Char := '"' :: (s.toList.flatMap escapeChar ++ ['"'])

/-- How doubles are spelled. -/
abbrev Spelling := Float → List Char

namespace Json

mutual

/-- The tree of tokens that is written for a value. -/
def tokens (spell : Spelling) : Json → Tree (List Char) (List Char)
  | .null => .leaf "null".toList
  | .bool b => .leaf (if b then "true".toList else "false".toList)
  | .number (.int i _) => .leaf (decimal i)
  | .number (.float x _) => .leaf (spell x)
  | .string s => .leaf (stringToken s)
  | .array xs => .array (tokensList spell xs)
  | .object ms => .object (tokensMembers spell ms)

/-- `tokens` on the elements of an array. -/
def tokensList (spell : Spelling) : List Json → List (Tree (List Char) (List Char))
  | [] => []
  | x :: xs => tokens spell x :: tokensList spell xs

/-- `tokens` on the members of an object. -/
def tokensMembers (spell : Spelling) : List (String × Json) → List (List Char × Tree (List Char) (List Char))
  | [] => []
  | (k, v) :: ms => (stringToken k, tokens spell v) :: tokensMembers spell ms

end

theorem tokensList_eq (spell : Spelling) (xs : List Json) : tokensList spell xs = xs.map (tokens spell) := by
  induction xs with
  | nil => simp [tokensList]
  | cons x xs ih => rw [tokensList, ih, List.map_cons]

theorem tokensMembers_eq (spell : Spelling) (ms : List (String × Json)) :
    tokensMembers spell ms = ms.map fun e => (stringToken e.1, e.2.tokens spell) := by
  induction ms with
  | nil => simp [tokensMembers]
  | cons e ms ih => rw [tokensMembers, ih, List.map_cons]

/-- `serde_json::to_vec` -/
def toText (spell : Spelling) (j : Json) : List Char := (j.tokens spell).render

end Json

/-- Characters that a string holds as they are. -/
def plainChar (c : Char) : Bool := 0x20 ≤ c.toNat && c.toNat < 0x80 && c ≠ '"' && c ≠ '\\'

theorem plainChar_iff {c : Char} :
    plainChar c = true ↔ 32 ≤ c.toNat ∧ c.toNat < 128 ∧ c.toNat ≠ 34 ∧ c.toNat ≠ 92 := by
  have hquote : c = '"' ↔ c.toNat = 34 := Char.toNat_inj.symm
  have hslash : c = '\\' ↔ c.toNat = 92 := Char.toNat_inj.symm
  simp only [plainChar, Bool.and_eq_true, decide_eq_true_eq, ne_eq, hquote, hslash, and_assoc]

theorem escapeChar_of_plain {c : Char} (h : plainChar c = true) : escapeChar c = [c] := by
  have hne {d : Char} (hd : plainChar d = false) : c ≠ d := fun heq => by rw [heq, hd] at h; cases h
  have hlow : ¬c.toNat < 0x20 := Nat.not_lt.mpr (plainChar_iff.mp h).1
  simp only [escapeChar, hne (by decide : plainChar '"' = false), hne (by decide : plainChar '\\' = false),
    hne (by decide : plainChar '\x08' = false), hne (by decide : plainChar '\x0c' = false),
    hne (by decide : plainChar '\n' = false), hne (by decide : plainChar '\r' = false),
    hne (by decide : plainChar '\t' = false), hlow, if_false]

theorem utf8Size_of_plain {c : Char} (h : plainChar c = true) : c.utf8Size = 1 := by
  exact Char.utf8Size_eq_one_iff.mpr (UInt32.le_iff_toNat_le.mpr (Nat.le_of_lt_succ (plainChar_iff.mp h).2.1))

/-- **A string of plain characters** is written as it is, between quotes. -/
theorem utf8Length_stringToken {s : String} (h : ∀ c ∈ s.toList, plainChar c = true) :
    utf8Length (stringToken s) = utf8Length s.toList + 2 := by
  have hbody : s.toList.flatMap escapeChar = s.toList := by
    rw [List.flatMap_congr fun c hc => escapeChar_of_plain (h c hc)]
    simp
  have hquote : Char.utf8Size '"' = 1 := by decide
  rw [stringToken, hbody, utf8Length_cons, utf8Length_append, utf8Length_cons, utf8Length_nil, hquote]
  omega

/-- The digits of a number. -/
theorem utf8Length_toDigits {n k : ℕ} (hk : 0 < k) (h : n < 10 ^ k) : utf8Length (Nat.toDigits 10 n) ≤ k := by
  rw [utf8Length_of_ascii fun c hc => ?_]
  · exact (Nat.length_toDigits_le_iff (by decide) hk).mpr h
  · have hdigit := Nat.isDigit_of_mem_toDigits (by decide) (by decide) hc
    simp only [Char.isDigit, Bool.and_eq_true, decide_eq_true_eq, UInt32.le_iff_toNat_le] at hdigit
    have hlow : 48 ≤ c.toNat := hdigit.1
    have hhigh : c.toNat ≤ 57 := hdigit.2
    exact utf8Size_of_plain (plainChar_iff.mpr (by omega))

/-! ### Sizes of trees -/

namespace Tree

theorem utf8Length_restText {ι : Type} (close : Char) (c : ι → List Char) (l : List ι) :
    utf8Length (restText close (l.map c)) = (l.map fun i => utf8Length (c i) + 1).sum + close.utf8Size := by
  have hcomma : Char.utf8Size ',' = 1 := by decide
  induction l with
  | nil => simp [restText]
  | cons i l ih =>
    rw [List.map_cons, restText, utf8Length_cons, utf8Length_append, ih, List.map_cons, List.sum_cons, hcomma]
    omega

theorem utf8Length_itemsText {ι : Type} (close : Char) (c : ι → List Char) (l : List ι) :
    utf8Length (itemsText close (l.map c)) ≤ (l.map fun i => utf8Length (c i) + 1).sum + close.utf8Size := by
  cases l with
  | nil => simp [itemsText]
  | cons i l =>
    rw [List.map_cons, itemsText, utf8Length_append, utf8Length_restText, List.map_cons, List.sum_cons]
    omega

/-- The size of an object, from those of its members. -/
theorem utf8Length_object (ms : List (List Char × Tree (List Char) (List Char))) :
    utf8Length (Tree.object ms).render ≤ 2 + (ms.map fun e => utf8Length e.1 + utf8Length e.2.render + 2).sum := by
  have hopen : Char.utf8Size '{' = 1 := by decide
  have hclose : Char.utf8Size '}' = 1 := by decide
  have hcolon : Char.utf8Size ':' = 1 := by decide
  have hitems := utf8Length_itemsText '}' (fun e => memberText e.1 e.2.render) ms
  have hcost : (ms.map fun e => utf8Length (memberText e.1 e.2.render) + 1) =
      ms.map fun e => utf8Length e.1 + utf8Length e.2.render + 2 := List.map_congr_left fun e _ => by
    rw [memberText, utf8Length_append, utf8Length_cons, hcolon]
    omega
  rw [hcost] at hitems
  rw [render_object, utf8Length_cons, hopen]
  omega

end Tree

end Forge
