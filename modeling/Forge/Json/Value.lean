import Forge.Data.Assoc

/-!
# JSON values

The value type of a JSON library whose objects are ordered maps: numbers are
either integers of the ranges of `i64` and `u64` or finite doubles, and an object
is the list of its members in key order.

`Json.Everywhere P` says that `P` holds of a value and of everything inside it;
being well formed (`Json.WF`, every object sorted) is an instance of it.
`Json.beq` is the library's own equality, which compares doubles as IEEE does;
it differs from `=` only on the two zeros.
-/

namespace Forge

/-- A JSON number: an integer that fits `i64` or `u64`, or a finite double. -/
inductive Number where
  /-- An integer literal in range. -/
  | int (i : Int) (range : -2 ^ 63 ≤ i ∧ i < 2 ^ 64)
  /-- Any other number; JSON cannot carry infinities and NaN. -/
  | float (x : Float) (finite : x.isFinite = true)
deriving DecidableEq

namespace Number

/-- Equality of numbers: integers with integers, doubles with doubles as IEEE compares
them, and an integer never equals a double. -/
def beq : Number → Number → Bool
  | .int i _, .int j _ => i == j
  | .float x _, .float y _ => x == y
  | _, _ => false

end Number

/-- A JSON value. -/
inductive Json where
  | null
  | bool (b : Bool)
  | number (n : Number)
  | string (s : String)
  | array (xs : List Json)
  | object (ms : List (String × Json))

namespace Json

/-- Induction over values: arrays and objects with the hypothesis for what they hold. -/
@[elab_as_elim, induction_eliminator]
theorem induction {P : Json → Prop} (null : P .null) (bool : ∀ b, P (.bool b)) (number : ∀ n, P (.number n))
    (string : ∀ s, P (.string s)) (array : ∀ xs, (∀ x ∈ xs, P x) → P (.array xs))
    (object : ∀ ms, (∀ e ∈ ms, P e.2) → P (.object ms)) (j : Json) : P j :=
  Json.rec (motive_1 := P) (motive_2 := fun xs => ∀ x ∈ xs, P x) (motive_3 := fun ms => ∀ e ∈ ms, P e.2)
    (motive_4 := fun e => P e.2) null bool number string array object
    (fun _ h => absurd h List.not_mem_nil)
    (fun _ _ hx hxs y hy => (List.mem_cons.mp hy).elim (fun h => h ▸ hx) (hxs y))
    (fun _ h => absurd h List.not_mem_nil)
    (fun _ _ he hms a ha => (List.mem_cons.mp ha).elim (fun h => h ▸ he) (hms a))
    (fun _ _ h => h) j

/-! ### Decidable equality -/

mutual

/-- Equality of values is decided by comparing their trees. -/
def decEq : (a b : Json) → Decidable (a = b)
  | .null, .null => isTrue rfl
  | .bool a, .bool b => decidable_of_iff (a = b) (by simp)
  | .number a, .number b => decidable_of_iff (a = b) (by simp)
  | .string a, .string b => decidable_of_iff (a = b) (by simp)
  | .array xs, .array ys => @decidable_of_iff _ (xs = ys) (by simp) (decEqList xs ys)
  | .object ms, .object ns => @decidable_of_iff _ (ms = ns) (by simp) (decEqMembers ms ns)
  | .null, .bool _ => isFalse (by simp)
  | .null, .number _ => isFalse (by simp)
  | .null, .string _ => isFalse (by simp)
  | .null, .array _ => isFalse (by simp)
  | .null, .object _ => isFalse (by simp)
  | .bool _, .null => isFalse (by simp)
  | .bool _, .number _ => isFalse (by simp)
  | .bool _, .string _ => isFalse (by simp)
  | .bool _, .array _ => isFalse (by simp)
  | .bool _, .object _ => isFalse (by simp)
  | .number _, .null => isFalse (by simp)
  | .number _, .bool _ => isFalse (by simp)
  | .number _, .string _ => isFalse (by simp)
  | .number _, .array _ => isFalse (by simp)
  | .number _, .object _ => isFalse (by simp)
  | .string _, .null => isFalse (by simp)
  | .string _, .bool _ => isFalse (by simp)
  | .string _, .number _ => isFalse (by simp)
  | .string _, .array _ => isFalse (by simp)
  | .string _, .object _ => isFalse (by simp)
  | .array _, .null => isFalse (by simp)
  | .array _, .bool _ => isFalse (by simp)
  | .array _, .number _ => isFalse (by simp)
  | .array _, .string _ => isFalse (by simp)
  | .array _, .object _ => isFalse (by simp)
  | .object _, .null => isFalse (by simp)
  | .object _, .bool _ => isFalse (by simp)
  | .object _, .number _ => isFalse (by simp)
  | .object _, .string _ => isFalse (by simp)
  | .object _, .array _ => isFalse (by simp)

/-- `decEq` on the elements of an array. -/
def decEqList : (xs ys : List Json) → Decidable (xs = ys)
  | [], [] => isTrue rfl
  | [], _ :: _ => isFalse (by simp)
  | _ :: _, [] => isFalse (by simp)
  | x :: xs, y :: ys => @decidable_of_iff _ (x = y ∧ xs = ys) (by simp)
      (@instDecidableAnd _ _ (decEq x y) (decEqList xs ys))

/-- `decEq` on the members of an object. -/
def decEqMembers : (ms ns : List (String × Json)) → Decidable (ms = ns)
  | [], [] => isTrue rfl
  | [], _ :: _ => isFalse (by simp)
  | _ :: _, [] => isFalse (by simp)
  | (k, v) :: ms, (l, w) :: ns => @decidable_of_iff _ (k = l ∧ v = w ∧ ms = ns) (by simp [and_assoc])
      (@instDecidableAnd _ _ inferInstance (@instDecidableAnd _ _ (decEq v w) (decEqMembers ms ns)))

end

instance : DecidableEq Json := decEq

/-! ### The library's equality -/

mutual

/-- The derived equality of the value type. -/
def beq : Json → Json → Bool
  | .null, .null => true
  | .bool a, .bool b => a == b
  | .number a, .number b => a.beq b
  | .string a, .string b => a == b
  | .array xs, .array ys => beqList xs ys
  | .object ms, .object ns => beqMembers ms ns
  | _, _ => false

/-- `beq` on arrays: same length, equal elements. -/
def beqList : List Json → List Json → Bool
  | [], [] => true
  | x :: xs, y :: ys => x.beq y && beqList xs ys
  | _, _ => false

/-- `beq` on maps: the same keys in iteration order, equal values. -/
def beqMembers : List (String × Json) → List (String × Json) → Bool
  | [], [] => true
  | (k, v) :: ms, (l, w) :: ns => k == l && v.beq w && beqMembers ms ns
  | _, _ => false

end

/-! ### Hereditary properties -/

mutual

/-- `P` holds of the value and of every value inside it. -/
def Everywhere (P : Json → Prop) : Json → Prop
  | .null => P .null
  | .bool b => P (.bool b)
  | .number n => P (.number n)
  | .string s => P (.string s)
  | .array xs => P (.array xs) ∧ EverywhereList P xs
  | .object ms => P (.object ms) ∧ EverywhereMembers P ms

/-- `Everywhere` on the elements of an array. -/
def EverywhereList (P : Json → Prop) : List Json → Prop
  | [] => True
  | x :: xs => Everywhere P x ∧ EverywhereList P xs

/-- `Everywhere` on the members of an object. -/
def EverywhereMembers (P : Json → Prop) : List (String × Json) → Prop
  | [] => True
  | (_, v) :: ms => Everywhere P v ∧ EverywhereMembers P ms

end

variable {P Q : Json → Prop}

theorem everywhereList_iff {xs : List Json} : EverywhereList P xs ↔ ∀ x ∈ xs, Everywhere P x := by
  induction xs with
  | nil => exact iff_of_true trivial fun _ h => absurd h List.not_mem_nil
  | cons x xs ih => exact (and_congr_right' ih).trans List.forall_mem_cons.symm

theorem everywhereMembers_iff {ms : List (String × Json)} :
    EverywhereMembers P ms ↔ ∀ e ∈ ms, Everywhere P e.2 := by
  induction ms with
  | nil => exact iff_of_true trivial fun _ h => absurd h List.not_mem_nil
  | cons e ms ih =>
    rw [List.forall_mem_cons, ← ih]
    exact Iff.rfl

@[simp] theorem everywhere_null : Everywhere P .null ↔ P .null := Iff.rfl

@[simp] theorem everywhere_bool (b : Bool) : Everywhere P (.bool b) ↔ P (.bool b) := Iff.rfl

@[simp] theorem everywhere_number (n : Number) : Everywhere P (.number n) ↔ P (.number n) := Iff.rfl

@[simp] theorem everywhere_string (s : String) : Everywhere P (.string s) ↔ P (.string s) := Iff.rfl

@[simp] theorem everywhere_array {xs : List Json} :
    Everywhere P (.array xs) ↔ P (.array xs) ∧ ∀ x ∈ xs, Everywhere P x :=
  and_congr_right' everywhereList_iff

@[simp] theorem everywhere_object {ms : List (String × Json)} :
    Everywhere P (.object ms) ↔ P (.object ms) ∧ ∀ e ∈ ms, Everywhere P e.2 :=
  and_congr_right' everywhereMembers_iff

theorem Everywhere.here {j : Json} (h : Everywhere P j) : P j := by
  induction j with
  | null => simpa using h
  | bool b => simpa using h
  | number n => simpa using h
  | string s => simpa using h
  | array xs ih => exact (everywhere_array.mp h).1
  | object ms ih => exact (everywhere_object.mp h).1

theorem Everywhere.member {ms : List (String × Json)} (h : Everywhere P (.object ms)) {k : String} {v : Json}
    (hk : Assoc.get k ms = some v) : Everywhere P v :=
  (everywhere_object.mp h).2 _ (Assoc.mem_of_get hk)

theorem Everywhere.element {xs : List Json} (h : Everywhere P (.array xs)) {x : Json} (hx : x ∈ xs) :
    Everywhere P x := (everywhere_array.mp h).2 x hx

mutual

/-- A decidable property is decided everywhere. -/
def decEverywhere (P : Json → Prop) [DecidablePred P] : (j : Json) → Decidable (Everywhere P j)
  | .null => decidable_of_iff (P .null) everywhere_null.symm
  | .bool b => decidable_of_iff (P (.bool b)) (everywhere_bool b).symm
  | .number n => decidable_of_iff (P (.number n)) (everywhere_number n).symm
  | .string s => decidable_of_iff (P (.string s)) (everywhere_string s).symm
  | .array xs => @decidable_of_iff _ (P (.array xs) ∧ EverywhereList P xs) Iff.rfl
      (@instDecidableAnd _ _ inferInstance (decEverywhereList P xs))
  | .object ms => @decidable_of_iff _ (P (.object ms) ∧ EverywhereMembers P ms) Iff.rfl
      (@instDecidableAnd _ _ inferInstance (decEverywhereMembers P ms))

/-- `decEverywhere` on the elements of an array. -/
def decEverywhereList (P : Json → Prop) [DecidablePred P] : (xs : List Json) → Decidable (EverywhereList P xs)
  | [] => isTrue trivial
  | x :: xs => @instDecidableAnd _ _ (decEverywhere P x) (decEverywhereList P xs)

/-- `decEverywhere` on the members of an object. -/
def decEverywhereMembers (P : Json → Prop) [DecidablePred P] :
    (ms : List (String × Json)) → Decidable (EverywhereMembers P ms)
  | [] => isTrue trivial
  | (_, v) :: ms => @instDecidableAnd _ _ (decEverywhere P v) (decEverywhereMembers P ms)

end

instance (P : Json → Prop) [DecidablePred P] (j : Json) : Decidable (Everywhere P j) := decEverywhere P j

/-- The members of an object are in strict key order; nothing is asked of other values. -/
def MembersSorted : Json → Prop
  | .object ms => Assoc.Sorted ms
  | _ => True

instance : DecidablePred MembersSorted
  | .object ms => inferInstanceAs (Decidable (ms.Pairwise fun a b => a.1 < b.1))
  | .null | .bool _ | .number _ | .string _ | .array _ => isTrue trivial

/-- **Well formed**: every object, at any depth, is a sorted map. -/
def WF (j : Json) : Prop := Everywhere MembersSorted j

instance : DecidablePred WF := fun j => inferInstanceAs (Decidable (Everywhere MembersSorted j))

@[simp] theorem wf_null : WF .null := by simp [WF, MembersSorted]

@[simp] theorem wf_bool (b : Bool) : WF (.bool b) := by simp [WF, MembersSorted]

@[simp] theorem wf_number (n : Number) : WF (.number n) := by simp [WF, MembersSorted]

@[simp] theorem wf_string (s : String) : WF (.string s) := by simp [WF, MembersSorted]

theorem wf_array {xs : List Json} : WF (.array xs) ↔ ∀ x ∈ xs, WF x := by simp [WF, MembersSorted]

theorem wf_object {ms : List (String × Json)} : WF (.object ms) ↔ Assoc.Sorted ms ∧ ∀ e ∈ ms, WF e.2 := by
  simp [WF, MembersSorted]

/-! ### Depth -/

mutual

/-- How deep arrays and objects nest. -/
def depth : Json → ℕ
  | .array xs => depthList xs + 1
  | .object ms => depthMembers ms + 1
  | _ => 0

/-- The greatest depth of an element. -/
def depthList : List Json → ℕ
  | [] => 0
  | x :: xs => max (depth x) (depthList xs)

/-- The greatest depth of a member. -/
def depthMembers : List (String × Json) → ℕ
  | [] => 0
  | (_, v) :: ms => max (depth v) (depthMembers ms)

end

@[simp] theorem depth_array (xs : List Json) : (array xs).depth = depthList xs + 1 := rfl

@[simp] theorem depth_object (ms : List (String × Json)) : (object ms).depth = depthMembers ms + 1 := rfl

@[simp] theorem depth_string (s : String) : (string s).depth = 0 := by simp [depth]

theorem depthList_le {xs : List Json} {n : ℕ} : depthList xs ≤ n ↔ ∀ x ∈ xs, x.depth ≤ n := by
  induction xs with
  | nil => simp [depthList]
  | cons x xs ih => rw [depthList, max_le_iff, ih, List.forall_mem_cons]

theorem depthMembers_le {ms : List (String × Json)} {n : ℕ} : depthMembers ms ≤ n ↔ ∀ e ∈ ms, e.2.depth ≤ n := by
  induction ms with
  | nil => simp [depthMembers]
  | cons e ms ih => rw [depthMembers, max_le_iff, ih, List.forall_mem_cons]

/-! ### Accessors -/

/-- The text of a string value. -/
def asStr : Json → Option String
  | .string s => some s
  | _ => none

/-- The elements of an array. -/
def asArray : Json → Option (List Json)
  | .array xs => some xs
  | _ => none

/-- The members of an object. -/
def asObject : Json → Option (List (String × Json))
  | .object ms => some ms
  | _ => none

/-- The member `k` of an object. -/
def member (k : String) : Json → Option Json
  | .object ms => Assoc.get k ms
  | _ => none

/-- The value for a field of a struct, which is read from an object by name and from an array by position. -/
def field (k : String) (i : ℕ) : Json → Option Json
  | .object ms => Assoc.get k ms
  | .array xs => xs[i]?
  | _ => none

end Json

end Forge
