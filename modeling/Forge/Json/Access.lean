import Forge.Json.Dialects

/-!
# Reading documents

How the gateway looks into a JSON value that somebody else made: members by name,
comparison with `===`, safe integers, the exact names of an object, and the bounds
that `assertBoundedJson` (`security.ts`) puts on its size.
-/

namespace Forge

/-- A document as parsers leave it: no object has two members of one name. -/
def JsonValue : Type := { d : Doc // d.Everywhere Encoder.DistinctNames }

/-- A hash without collisions; its digests are not empty. -/
structure Sha256 where
  digest : List Char → CodeUnits
  injective : Function.Injective digest
  nonempty : ∀ t, digest t ≠ []

/-! ### Members -/

/-- A member of an object. -/
def member (name : String) : Doc → Option Doc
  | .object ms => (ms.find? fun e => e.1 = units name).map Prod.snd
  | _ => none

def isRecord : Doc → Bool
  | .object _ => true
  | _ => false

def asString : Doc → Option CodeUnits
  | .leaf (.string s) => some s
  | _ => none

/-- The string at a member. -/
def stringMember (name : String) (d : Doc) : Option CodeUnits := (member name d).bind asString

theorem stringMember_eq_some {name : String} {d : Doc} {s : CodeUnits} :
    stringMember name d = some s ↔ member name d = some (.leaf (.string s)) := by
  unfold stringMember
  cases member name d with
  | none => simp
  | some m =>
    rw [Option.bind_some, Option.some.injEq]
    unfold asString
    split <;> simp_all

/-- The names of an object are these, in any order. -/
def exactFields (expected : List String) : Doc → Bool
  | .object ms => (ms.map Prod.fst).isPerm (expected.map units)
  | _ => false

/-! ### Comparison -/

/-- `===` on values that were read from different texts, so that no two of them are one array or one object. -/
def strictEquals : Option Doc → Option Doc → Bool
  | none, none | some (.leaf .null), some (.leaf .null) => true
  | some (.leaf (.bool a)), some (.leaf (.bool b)) => a == b
  | some (.leaf (.number m)), some (.leaf (.number n)) => m.toDouble == n.toDouble
  | some (.leaf (.string s)), some (.leaf (.string t)) => s == t
  | _, _ => false

/-- Every member named here has the value beside it. -/
def hasMembers (expected : List (String × Scalar)) (d : Doc) : Bool :=
  expected.all fun e => strictEquals (member e.1 d) (some (.leaf e.2))

/-- Two documents have the same value under each of these names. -/
def agreeOn (names : List String) (d d' : Doc) : Bool :=
  names.all fun name => strictEquals (member name d) (member name d')

/-- A text that is compared with a member. -/
def text (s : String) : Scalar := .string (units s)

theorem strictEquals_string {d : Option Doc} {s : CodeUnits} :
    strictEquals d (some (.leaf (.string s))) = true ↔ d = some (.leaf (.string s)) := by
  unfold strictEquals
  split <;> simp_all

/-- Where two documents agree, the strings of one are the strings of the other. -/
theorem agreeOn_stringMember {names : List String} {d d' : Doc} (h : agreeOn names d d' = true) {name : String}
    (hname : name ∈ names) {s : CodeUnits} (hs : stringMember name d' = some s) : stringMember name d = some s := by
  have hd := List.all_eq_true.mp h name hname
  rw [stringMember_eq_some.mp hs, strictEquals_string] at hd
  exact stringMember_eq_some.mpr hd

/-! ### Numbers -/

/-- `Number.MAX_SAFE_INTEGER` -/
def maxSafeInteger : ℤ := 2 ^ 53 - 1

/-- The integer that a value is, if `Number.isSafeInteger`. -/
def safeValue : Option Doc → Option ℤ
  | some (.leaf (.number n)) =>
    let q := floatValue n.toDouble
    if n.toDouble.isFinite ∧ q.den = 1 ∧ |q.num| ≤ maxSafeInteger then some q.num else none
  | _ => none

/-- `safeInteger` with its bounds. -/
def safeInteger (minimum maximum : ℤ) (d : Option Doc) : Bool :=
  (safeValue d).any fun n => minimum ≤ n && n ≤ maximum

/-- The number that a value is. -/
def asNumber : Option Doc → Option Float
  | some (.leaf (.number n)) => some n.toDouble
  | _ => none

/-! ### Bounds -/

/-- The bytes of a text in UTF-8. -/
def utf8Size (t : List Char) : ℕ := (t.map Char.utf8Size).sum

/-- The bytes of a code point in UTF-8; a surrogate without a partner is replaced by one of three bytes. -/
def pointSize (p : ℕ) : ℕ := if p < 0x80 then 1 else if p < 0x800 then 2 else if p < 0x10000 then 3 else 4

/-- `Buffer.byteLength` -/
def byteLength (us : CodeUnits) : ℕ := ((codePoints us).map pointSize).sum

/-- The keys that no object may have. -/
def forbiddenKeys : List CodeUnits := [units "__proto__", units "prototype", units "constructor"]

/-- `JsonLimits` with the defaults of `assertBoundedJson`. -/
structure JsonLimits where
  maxBytes : ℕ := 512 * 1024
  maxDepth : ℕ := 16
  maxNodes : ℕ := 20000
  maxArrayItems : ℕ := 10000
  maxObjectKeys : ℕ := 2000
  maxStringBytes : ℕ := 128 * 1024

/-- `if (c) throw new Error(message);` -/
def throwIf (c : Prop) [Decidable c] (message : String) : Except String Unit := if c then .error message else .ok ()

theorem throwIf_eq_ok {c : Prop} [Decidable c] {message : String} {u : Unit} : throwIf c message = .ok u ↔ ¬c := by
  unfold throwIf
  split <;> simp [*]

section

variable (label : String) (limits : JsonLimits)

/-- What `visit` does before it looks at the kind of a value. -/
def enter (depth nodes : ℕ) : Except String Unit := do
  throwIf (limits.maxNodes < nodes + 1) s!"{label} exceeds the node limit"
  throwIf (limits.maxDepth < depth) s!"{label} exceeds the nesting limit"

/-- `visit` of a value without parts. -/
def visitScalar : Scalar → Except String Unit
  | .null | .bool _ => .ok ()
  | .number n => throwIf (n.toDouble.isFinite = false) s!"{label} contains a non-finite number"
  | .string s => throwIf (limits.maxStringBytes < byteLength s) s!"{label} contains an oversized string"

mutual

/-- `visit`, from the number of values before to the number of values after. -/
def visit (depth nodes : ℕ) : Doc → Except String ℕ
  | .leaf a => do
    enter label limits depth nodes
    visitScalar label limits a
    pure (nodes + 1)
  | .array ts => do
    enter label limits depth nodes
    throwIf (limits.maxArrayItems < ts.length) s!"{label} exceeds the array limit"
    visitItems (depth + 1) (nodes + 1) ts
  | .object ms => do
    enter label limits depth nodes
    throwIf (limits.maxObjectKeys < ms.length) s!"{label} exceeds the object-key limit"
    visitMembers (depth + 1) (nodes + 1) ms

/-- `visit` of the elements of an array. -/
def visitItems (depth nodes : ℕ) : List Doc → Except String ℕ
  | [] => .ok nodes
  | t :: ts => do
    let nodes ← visit depth nodes t
    visitItems depth nodes ts

/-- `visit` of the members of an object. -/
def visitMembers (depth nodes : ℕ) : List (CodeUnits × Doc) → Except String ℕ
  | [] => .ok nodes
  | (key, t) :: ms => do
    throwIf (key ∈ forbiddenKeys) s!"{label} contains a forbidden object key"
    let nodes ← visit depth nodes t
    visitMembers depth nodes ms

end

/-- `assertBoundedJson`; its errors have the status 400. The order of members does not matter to the length of
the text. -/
def assertBoundedJson (value : Doc) : Except String Unit := do
  let _ ← visit label limits 0 0 value
  throwIf (limits.maxBytes < utf8Size (stableJson value)) s!"{label} exceeds the byte limit"

end

end Forge
