import Forge.Json.Pretty
import Forge.Json.Transport
import Mathlib.Algebra.Order.BigOperators.Group.List

/-!
# Documents that serde_json receives from JavaScript

`JSON.stringify` writes a document, `serde_json` reads it, sorts the members of its objects, and may write
it again. Both escape strings alike. How `serde_json` reads the text of a number and how it spells a
double are parameters: it reads an integer literal of 64 bits as that integer, but another number need
not come back as the same double. **`received_within`**: what arrives has as many values as what was
sent, no deeper, and is written with no more bytes, if that holds of each of its numbers.
-/

namespace Forge

/-! ### Numbers -/

/-- How the text of a number is read; a number out of range is refused. -/
abbrev NumberReader := List Char → Option Number

/-- The whole numbers that fit `i64` or `u64`. -/
def Fits64 (i : ℤ) : Prop := -2 ^ 63 ≤ i ∧ i < 2 ^ 64

instance (i : ℤ) : Decidable (Fits64 i) := inferInstanceAs (Decidable (-2 ^ 63 ≤ i ∧ i < 2 ^ 64))

/-- What `serde_json` says of integers: a literal that fits 64 bits is read as the integer. -/
def ReadsIntegers (read : NumberReader) : Prop := ∀ i (h : Fits64 i), read (decimal i) = some (.int i h)

/-- The text of a number. -/
def Number.spelled (spell : Spelling) : Number → List Char
  | .int i _ => decimal i
  | .float x _ => spell x

/-- JavaScript writes the number as an integer literal that fits 64 bits. -/
def IntegerLiteral (x : Float) : Prop := ∃ i, Fits64 i ∧ numberToString x = decimal i

/-- The text of the number is read, and what is read is written in no more bytes. -/
def NotLonger (read : NumberReader) (spell : Spelling) (x : Float) : Prop :=
  ∃ n, read (numberToString x) = some n ∧ utf8Length (n.spelled spell) ≤ utf8Length (numberToString x)

theorem IntegerLiteral.notLonger {read : NumberReader} {spell : Spelling} {x : Float} (hread : ReadsIntegers read)
    (h : IntegerLiteral x) : NotLonger read spell x := by
  obtain ⟨i, hi, htext⟩ := h
  exact ⟨.int i hi, htext ▸ hread i hi, (congrArg utf8Length htext).ge⟩

/-! ### Trees that are no larger than others -/

namespace Tree

/-- As many values, no deeper, and no longer as a text. -/
structure Within (t u : Tree (List Char) (List Char)) : Prop where
  nodes_eq : t.nodes = u.nodes
  depth_le : t.depth ≤ u.depth
  size_le : utf8Length t.render ≤ utf8Length u.render

theorem utf8Length_itemsText_eq {close : Char} (hclose : close.utf8Size = 1) (ts : List (List Char)) :
    utf8Length (itemsText close ts) = (ts.map fun t => utf8Length t + 1).sum + if ts.length = 0 then 1 else 0 := by
  cases ts with
  | nil => simp [itemsText, hclose]
  | cons t ts =>
    have hrest := utf8Length_restText close id ts
    rw [List.map_id] at hrest
    rw [itemsText, utf8Length_append, hrest, List.map_cons, List.sum_cons, hclose,
      if_neg (show ¬(t :: ts).length = 0 from Nat.succ_ne_zero _)]
    simp only [id]
    omega

theorem utf8Length_itemsText_mono {ι : Type} {close : Char} (hclose : close.utf8Size = 1) {a b : ι → List Char}
    {l : List ι} (h : ∀ i ∈ l, utf8Length (a i) ≤ utf8Length (b i)) :
    utf8Length (itemsText close (l.map a)) ≤ utf8Length (itemsText close (l.map b)) := by
  rw [utf8Length_itemsText_eq hclose, utf8Length_itemsText_eq hclose, List.map_map, List.map_map]
  simp only [List.length_map]
  exact Nat.add_le_add_right (List.sum_le_sum fun i hi => Nat.add_le_add_right (h i hi) 1) _

section

variable {ι : Type} {a b : ι → Tree (List Char) (List Char)} {l : List ι}

theorem Within.array (h : ∀ i ∈ l, Within (a i) (b i)) : Within (.array (l.map a)) (.array (l.map b)) where
  nodes_eq := by
    rw [nodes, nodes, nodesList_eq, nodesList_eq, List.map_map, List.map_map]
    exact congrArg (fun ns => 1 + List.sum ns) (List.map_congr_left fun i hi => (h i hi).nodes_eq)
  depth_le := by
    rw [depth, depth, depthList_le_iff, List.forall_mem_map]
    intro i hi
    have hall := depthList_le_iff.mp (le_refl (depthList (l.map b)))
    rw [List.forall_mem_map] at hall
    exact (Nat.add_le_add_right (h i hi).depth_le 1).trans (hall i hi)
  size_le := by
    rw [render_array, render_array, utf8Length_cons, utf8Length_cons, List.map_map, List.map_map]
    exact Nat.add_le_add_left (utf8Length_itemsText_mono (by decide) fun i hi => (h i hi).size_le) _

theorem Within.object {name : ι → List Char} (h : ∀ i ∈ l, Within (a i) (b i)) :
    Within (.object (l.map fun i => (name i, a i))) (.object (l.map fun i => (name i, b i))) where
  nodes_eq := by
    rw [nodes, nodes, nodesMembers_eq, nodesMembers_eq, List.map_map, List.map_map]
    exact congrArg (fun ns => 1 + List.sum ns) (List.map_congr_left fun i hi => (h i hi).nodes_eq)
  depth_le := by
    rw [depth, depth, depthMembers_le_iff, List.forall_mem_map]
    intro i hi
    have hall := depthMembers_le_iff.mp (le_refl (depthMembers (l.map fun i => (name i, b i))))
    rw [List.forall_mem_map] at hall
    exact (Nat.add_le_add_right (h i hi).depth_le 1).trans (hall i hi)
  size_le := by
    rw [render_object, render_object, utf8Length_cons, utf8Length_cons, List.map_map, List.map_map]
    refine Nat.add_le_add_left (utf8Length_itemsText_mono (by decide) fun i hi => ?_) _
    simp only [Function.comp, memberText, utf8Length_append, utf8Length_cons]
    exact Nat.add_le_add_left (Nat.add_le_add_left (h i hi).size_le _) _

/-- The order of the members does not matter. -/
theorem Within.of_perm {ms ns : List (List Char × Tree (List Char) (List Char))} (h : ms.Perm ns) :
    Within (.object ms) (.object ns) where
  nodes_eq := by
    rw [nodes, nodes, nodesMembers_eq, nodesMembers_eq, (h.map _).sum_eq]
  depth_le := by
    rw [depth, depth, depthMembers_le_iff]
    exact fun e he => depthMembers_le_iff.mp (le_refl (depthMembers ns)) e (h.mem_iff.mp he)
  size_le := by
    rw [render_object, render_object, utf8Length_cons, utf8Length_cons, utf8Length_itemsText_eq (by decide),
      utf8Length_itemsText_eq (by decide), ((h.map _).map _).sum_eq]
    simp only [List.length_map, h.length_eq]
    exact le_rfl

theorem Within.trans {t u v : Tree (List Char) (List Char)} (h : Within t u) (h' : Within u v) : Within t v :=
  ⟨h.nodes_eq.trans h'.nodes_eq, h.depth_le.trans h'.depth_le, h.size_le.trans h'.size_le⟩

end

end Tree

/-! ### Documents -/

/-- A value of JavaScript without parts. -/
inductive JsScalar where
  | null
  | bool (b : Bool)
  | number (x : Float)
  | string (s : String)
  /-- `undefined`, a function, a symbol or a `bigint`. -/
  | other

namespace JsScalar

/-- `JSON.stringify` -/
def text : JsScalar → List Char
  | null | other => "null".toList
  | bool b => if b then "true".toList else "false".toList
  | number x => numberToString x
  | string s => stringToken s

/-- What `serde_json` reads. -/
def received (read : NumberReader) : JsScalar → Option Json
  | null | other => some .null
  | bool b => some (.bool b)
  | number x => if x.isFinite then (read (numberToString x)).map .number else some .null
  | string s => some (.string s)

end JsScalar

mutual

/-- The tokens of `JSON.stringify`. -/
def stringify : Tree String JsScalar → Tree (List Char) (List Char)
  | .leaf a => .leaf a.text
  | .array ts => .array (stringifyList ts)
  | .object ms => .object (stringifyMembers ms)

/-- `stringify` on the elements of an array. -/
def stringifyList : List (Tree String JsScalar) → List (Tree (List Char) (List Char))
  | [] => []
  | t :: ts => stringify t :: stringifyList ts

/-- `stringify` on the members of an object. -/
def stringifyMembers : List (String × Tree String JsScalar) → List (List Char × Tree (List Char) (List Char))
  | [] => []
  | (k, t) :: ms => (stringToken k, stringify t) :: stringifyMembers ms

end

mutual

/-- The value that `serde_json` reads from the text of a document. -/
def received (read : NumberReader) : Tree String JsScalar → Option Json
  | .leaf a => a.received read
  | .array ts => (receivedList read ts).map .array
  | .object ms => (receivedMembers read ms).map fun ms => .object (Assoc.ofList ms)

/-- `received` on the elements of an array. -/
def receivedList (read : NumberReader) : List (Tree String JsScalar) → Option (List Json)
  | [] => some []
  | t :: ts => do
    let x ← received read t
    let xs ← receivedList read ts
    some (x :: xs)

/-- `received` on the members of an object. -/
def receivedMembers (read : NumberReader) : List (String × Tree String JsScalar) → Option (List (String × Json))
  | [] => some []
  | (k, t) :: ms => do
    let x ← received read t
    let ms ← receivedMembers read ms
    some ((k, x) :: ms)

end

theorem stringifyList_eq (ts : List (Tree String JsScalar)) : stringifyList ts = ts.map stringify := by
  induction ts with
  | nil => rfl
  | cons t ts ih => rw [stringifyList, ih, List.map_cons]

theorem stringifyMembers_eq (ms : List (String × Tree String JsScalar)) :
    stringifyMembers ms = ms.map fun e => (stringToken e.1, stringify e.2) := by
  induction ms with
  | nil => rfl
  | cons e ms ih => rw [stringifyMembers, ih, List.map_cons]

section

variable {read : NumberReader} {spell : Spelling}

theorem receivedList_eq_some {a : Tree String JsScalar → Json} {ts : List (Tree String JsScalar)}
    (h : ∀ t ∈ ts, received read t = some (a t)) : receivedList read ts = some (ts.map a) := by
  induction ts with
  | nil => rfl
  | cons t ts ih =>
    obtain ⟨ht, hts⟩ := List.forall_mem_cons.mp h
    rw [receivedList, ht, ih hts]
    rfl

theorem receivedMembers_eq_some {a : Tree String JsScalar → Json} {ms : List (String × Tree String JsScalar)}
    (h : ∀ e ∈ ms, received read e.2 = some (a e.2)) :
    receivedMembers read ms = some (ms.map fun e => (e.1, a e.2)) := by
  induction ms with
  | nil => rfl
  | cons e ms ih =>
    obtain ⟨he, hms⟩ := List.forall_mem_cons.mp h
    rw [receivedMembers, he, ih hms]
    rfl

/-- A number is an integer literal that fits 64 bits, or does not get longer. -/
def CarriedLeaf (read : NumberReader) (spell : Spelling) : Tree String JsScalar → Prop
  | .leaf (.number x) => IntegerLiteral x ∨ NotLonger read spell x
  | _ => True

theorem received_leaf_within (hread : ReadsIntegers read) {a : JsScalar} (h : CarriedLeaf read spell (.leaf a)) :
    ∃ d, received read (.leaf a) = some d ∧ Tree.Within (d.tokens spell) (stringify (.leaf a)) := by
  have hleaf {s t : List Char} (hle : utf8Length s ≤ utf8Length t) : Tree.Within (.leaf s) (.leaf t) :=
    ⟨rfl, le_rfl, hle⟩
  cases a with
  | number x =>
    show ∃ d, JsScalar.received read (.number x) = some d ∧ Tree.Within (d.tokens spell) (.leaf (numberToString x))
    by_cases hx : x.isFinite = true
    · obtain ⟨n, hn, hle⟩ := h.elim (IntegerLiteral.notLonger hread) id
      have htokens : (Json.number n).tokens spell = .leaf (n.spelled spell) := by
        cases n <;> rfl
      refine ⟨.number n, ?_, htokens ▸ hleaf hle⟩
      rw [JsScalar.received, if_pos hx, hn]
      rfl
    · refine ⟨.null, by rw [JsScalar.received, if_neg hx], hleaf ?_⟩
      rw [numberToString, if_neg hx]
  | null | other => exact ⟨.null, rfl, hleaf le_rfl⟩
  | bool b => exact ⟨.bool b, rfl, hleaf le_rfl⟩
  | string s => exact ⟨.string s, rfl, hleaf le_rfl⟩

/-- **What arrives** of a document, beside what was sent. The names of each object of JavaScript are distinct. -/
theorem received_within (hread : ReadsIntegers read) {t : Tree String JsScalar}
    (hnames : t.Everywhere Encoder.DistinctNames) (hcarried : t.Everywhere (CarriedLeaf read spell)) :
    ∃ d, received read t = some d ∧ Tree.Within (d.tokens spell) (stringify t) := by
  -- the value that is read of a part
  let a : Tree String JsScalar → Json := fun t => (received read t).getD .null
  have hpart {t : Tree String JsScalar} (h : ∃ d, received read t = some d ∧ Tree.Within (d.tokens spell) (stringify t)) :
      received read t = some (a t) ∧ Tree.Within ((a t).tokens spell) (stringify t) := by
    obtain ⟨d, hd, hwithin⟩ := h
    have ha : a t = d := by simp only [a, hd, Option.getD_some]
    exact ⟨ha ▸ hd, ha ▸ hwithin⟩
  induction t with
  | leaf _ => exact received_leaf_within hread hcarried
  | array ts ih =>
    have hall : ∀ t ∈ ts, received read t = some (a t) ∧ Tree.Within ((a t).tokens spell) (stringify t) := fun t ht =>
      hpart (ih t ht ((Tree.everywhere_array.mp hnames).2 t ht) ((Tree.everywhere_array.mp hcarried).2 t ht))
    refine ⟨.array (ts.map a), ?_, ?_⟩
    · rw [received, receivedList_eq_some fun t ht => (hall t ht).1]
      rfl
    · rw [stringify, stringifyList_eq, Json.tokens, Json.tokensList_eq, List.map_map]
      exact .array fun t ht => (hall t ht).2
  | object ms ih =>
    obtain ⟨hdistinct, hnames⟩ := Tree.everywhere_object.mp hnames
    have hall : ∀ e ∈ ms, received read e.2 = some (a e.2) ∧ Tree.Within ((a e.2).tokens spell) (stringify e.2) :=
      fun e he => hpart (ih e he (hnames e he) ((Tree.everywhere_object.mp hcarried).2 e he))
    refine ⟨.object (Assoc.ofList (ms.map fun e => (e.1, a e.2))), ?_, ?_⟩
    · rw [received, receivedMembers_eq_some fun e he => (hall e he).1]
      rfl
    · have hkeys : (Assoc.keys (ms.map fun e => (e.1, a e.2))).Nodup := by
        rw [Assoc.keys, List.map_map]
        exact hdistinct
      rw [stringify, stringifyMembers_eq, Json.tokens, Json.tokensMembers_eq]
      refine (Tree.Within.of_perm ((Assoc.ofList_perm hkeys).map _)).trans ?_
      rw [List.map_map]
      exact .object fun e he => (hall e he).2

end

end Forge
