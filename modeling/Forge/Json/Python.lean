import Forge.Data.Except
import Forge.Json.Access

/-!
# Documents in Python

What the workers do with a value that `json.loads` returned: compare it with `==`, take it for a number, check
its bounds with `assert_bounded_json` (`net_security.py`), and decode base64.

`json.loads` reads `NaN` and `Infinity`; **`finite_of_assertBoundedJson`**: what passes the bounds has none.
-/

namespace Forge.Python

/-! ### Equality -/

/-- `==` of numbers: integers and doubles are compared exactly. -/
def numeralEquals : Numeral → Numeral → Bool
  | .int i, .int j => i == j
  | .decimal x, .decimal y => x == y
  | .int i, .decimal x | .decimal x, .int i => x.isFinite && floatValue x == i

/-- The number that a value is; a `bool` is an `int`. -/
def numeral : Scalar → Option Numeral
  | .number n => some n
  | .bool b => some (.int (if b then 1 else 0))
  | .null | .string _ => none

/-- `==` of values without parts. -/
def scalarEquals (a b : Scalar) : Bool :=
  match numeral a, numeral b with
  | some m, some n => numeralEquals m n
  | _, _ => a == b

mutual

/-- `==`; the order of the members of an object does not matter. -/
def equals : Doc → Doc → Bool
  | .leaf a, .leaf b => scalarEquals a b
  | .array xs, .array ys => equalsItems xs ys
  | .object ms, .object ns => ms.length == ns.length && equalsMembers ms ns
  | _, _ => false

/-- `==` of lists. -/
def equalsItems : List Doc → List Doc → Bool
  | [], [] => true
  | x :: xs, y :: ys => equals x y && equalsItems xs ys
  | _, _ => false

/-- Each member is equal to the other object's member of its name. -/
def equalsMembers : List (CodeUnits × Doc) → List (CodeUnits × Doc) → Bool
  | [], _ => true
  | (key, x) :: ms, ns =>
    (match ns.find? fun e => e.1 = key with
      | some e => equals x e.2
      | none => false) && equalsMembers ms ns

end

/-- `value == expected` for a value that may be `None` because there is no such member. -/
def isEqual (value : Option Doc) (expected : Doc) : Bool := value.any fun d => equals d expected

/-- A string as a document. -/
def str (s : CodeUnits) : Doc := .leaf (.string s)

/-- A text of the program as a document. -/
def lit (s : String) : Doc := str (units s)

theorem equals_str {d : Doc} {s : CodeUnits} : equals d (str s) = true ↔ d = str s := by
  unfold str
  cases d with
  | leaf a => cases a <;> simp [equals, scalarEquals, numeral]
  | array xs => simp [equals]
  | object ms => simp [equals]

theorem isEqual_str {value : Option Doc} {s : CodeUnits} : isEqual value (str s) = true ↔ value = some (str s) := by
  cases value with
  | none => simp [isEqual]
  | some d => simp [isEqual, equals_str]

theorem equalsItems_str {xs : List Doc} {ss : List CodeUnits} :
    equalsItems xs (ss.map str) = true ↔ xs = ss.map str := by
  induction ss generalizing xs with
  | nil => cases xs <;> simp [equalsItems]
  | cons s ss ih =>
    cases xs with
    | nil => simp [equalsItems]
    | cons x xs => simp [equalsItems, equals_str, ih]

/-- A value that equals a list of strings is that list. -/
theorem isEqual_strs {value : Option Doc} {ss : List CodeUnits} :
    isEqual value (.array (ss.map str)) = true ↔ value = some (.array (ss.map str)) := by
  cases value with
  | none => simp [isEqual]
  | some d => cases d <;> simp [isEqual, equals, equalsItems_str]

/-! ### Numbers -/

/-- `float(n)` -/
def float : Numeral → Except String Float
  | .int i => if (intToFloat i).isFinite = false then .error "int too large to convert to float" else .ok (intToFloat i)
  | .decimal x => .ok x

/-- Not `NaN` and not infinite. -/
def Finite : Doc → Prop
  | .leaf (.number (.decimal x)) => x.isFinite = true
  | _ => True

theorem isFinite_float {n : Numeral} {x : Float} (hn : Finite (.leaf (.number n))) (h : float n = .ok x) :
    x.isFinite = true := by
  cases n with
  | int i =>
    rw [float, ite_error_eq_ok] at h
    obtain rfl := Except.ok.inj h.2
    simpa using h.1
  | decimal y =>
    obtain rfl := Except.ok.inj h
    exact hn

/-! ### Bounds -/

def maxJsonDepth : ℕ := 32

def maxJsonNodes : ℕ := 100000

/-- A number that `json.dumps` writes with `allow_nan=False`: finite, and no integer of more than 4300 digits. -/
def Dumpable : Doc → Prop
  | .leaf (.number (.int i)) => (Nat.toDigits 10 i.natAbs).length ≤ 4300
  | .leaf (.number (.decimal x)) => x.isFinite = true
  | _ => True

instance : DecidablePred Dumpable
  | .leaf (.number (.int i)) => inferInstanceAs (Decidable ((Nat.toDigits 10 i.natAbs).length ≤ 4300))
  | .leaf (.number (.decimal x)) => inferInstanceAs (Decidable (x.isFinite = true))
  | .leaf .null | .leaf (.bool _) | .leaf (.string _) | .array _ | .object _ => isTrue trivial

section

variable (label : String)

/-- What the loop of `assert_bounded_json` asks of a value before it pushes what the value holds. -/
def enter (depth : ℕ) (d : Doc) : Except String Unit := do
  throwIf (maxJsonDepth < depth) s!"{label} exceeds the nesting limit"
  match d with
  | .leaf _ => .ok ()
  | .array ts => throwIf (10000 < ts.length) s!"{label} exceeds the array limit"
  | .object ms =>
    throwIf (2000 < ms.length ∨ ∃ e ∈ ms, e.1 ∈ forbiddenKeys) s!"{label} contains invalid object keys"

/-- The values that a value holds. -/
def children : Doc → List Doc
  | .leaf _ => []
  | .array ts => ts
  | .object ms => ms.map Prod.snd

/-- The loop of `assert_bounded_json`, the top of the stack first; `budget` is how many values may still come. -/
def walk (budget : ℕ) (stack : List (Doc × ℕ)) : Except String Unit :=
  match budget, stack with
  | _, [] => .ok ()
  | 0, _ :: _ => .error s!"{label} exceeds the node limit"
  | budget + 1, (d, depth) :: stack => do
    enter label depth d
    walk budget (((children d).map fun child => (child, depth + 1)).reverse ++ stack)

/-- `assert_bounded_json` with its own limits on levels and values. -/
def assertBoundedJson (maxBytes : ℕ) (d : Doc) : Except String Unit := do
  throwIf (¬d.Everywhere Dumpable) s!"{label} is not bounded JSON"
  throwIf (maxBytes < utf8Size (jsonDumps d)) s!"{label} exceeds the byte limit"
  walk label maxJsonNodes [(d, 0)]

end

theorem Finite.of_dumpable {d : Doc} (h : Dumpable d) : Finite d := by
  unfold Finite
  split
  · exact h
  · trivial

/-- **What passes the bounds has no `NaN` and no infinity.** -/
theorem finite_of_assertBoundedJson {label : String} {maxBytes : ℕ} {d : Doc} {u : Unit}
    (h : assertBoundedJson label maxBytes d = .ok u) : d.Everywhere Finite := by
  obtain ⟨hdump, -⟩ := check_eq_ok.mp h
  exact Tree.Everywhere.imp (fun _ => Finite.of_dumpable) (not_not.mp (throwIf_eq_ok.mp hdump))

/-- A member of a finite document is finite. -/
theorem finite_member {d m : Doc} {name : String} (hd : d.Everywhere Finite) (h : member name d = some m) :
    m.Everywhere Finite := by
  cases d with
  | leaf a => cases h
  | array ts => cases h
  | object ms =>
    obtain ⟨e, he, rfl⟩ := Option.map_eq_some_iff.mp h
    exact (Tree.everywhere_object.mp hd).2 e (List.mem_of_find?_eq_some he)

/-! ### Base64 -/

/-- The value of a digit of base64. -/
def base64Digit (u : UInt16) : Option ℕ :=
  if 0x41 ≤ u ∧ u ≤ 0x5A then some (u.toNat - 0x41)
  else if 0x61 ≤ u ∧ u ≤ 0x7A then some (u.toNat - 0x61 + 26)
  else if 0x30 ≤ u ∧ u ≤ 0x39 then some (u.toNat - 0x30 + 52)
  else if u = 0x2B then some 62
  else if u = 0x2F then some 63
  else none

/-- `base64.b64decode(text, validate=True)`: groups of four digits, the last one padded; the bits that the
padding leaves over are dropped. -/
def b64decode : CodeUnits → Option (List UInt8)
  | [] => some []
  | [a, b, 0x3D, 0x3D] => do
    let x ← base64Digit a
    let y ← base64Digit b
    some [UInt8.ofNat (x * 4 + y / 16)]
  | [a, b, c, 0x3D] => do
    let x ← base64Digit a
    let y ← base64Digit b
    let z ← base64Digit c
    some [UInt8.ofNat (x * 4 + y / 16), UInt8.ofNat (y * 16 + z / 4)]
  | a :: b :: c :: d :: rest => do
    let x ← base64Digit a
    let y ← base64Digit b
    let z ← base64Digit c
    let w ← base64Digit d
    let bytes ← b64decode rest
    some (UInt8.ofNat (x * 4 + y / 16) :: UInt8.ofNat (y * 16 + z / 4) :: UInt8.ofNat (z * 64 + w) :: bytes)
  | _ => none

example : b64decode (units "Zm9yZ2U=") = some [0x66, 0x6F, 0x72, 0x67, 0x65] := by decide +kernel

end Forge.Python
