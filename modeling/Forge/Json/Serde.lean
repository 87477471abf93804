import Forge.Data.FloatValue
import Forge.Json.Value
import Mathlib.Data.List.Forall2

/-!
# Deriving a JSON form

How a serialisation framework derives the JSON form of a type from its shape: a
struct is an object with a member for each field, read from an object by name
(unknown members are ignored) or from an array by position, with rules for what is
skipped when writing and defaulted when missing; an enumeration is its name; a
tagged union is the object of a variant with a tag member.

A `Codec` bundles writing, reading, and which values JSON can carry: doubles that
are not finite are written as null. It is lawful (`Codec.Lawful`) when such values
are read back and no other values are ever read; every way of building codecs keeps
the law.
-/

namespace Forge

/-- How values of a type are written and read. -/
structure Codec (α : Type) where
  encode : α → Json
  decode : Json → Option α
  /-- Every double in the value is finite. -/
  finite : α → Bool

namespace Codec

variable {α β σ : Type}

/-- Values with finite doubles are read back, and only such values are read. -/
structure Lawful (c : Codec α) : Prop where
  decode_encode : ∀ {a}, c.finite a = true → c.decode (c.encode a) = some a
  finite_of_decode : ∀ {j a}, c.decode j = some a → c.finite a = true

/-! ### Primitive types -/

def string : Codec String where
  encode := .string
  decode := Json.asStr
  finite _ := true

def bool : Codec Bool where
  encode := .bool
  decode
    | .bool b => some b
    | _ => none
  finite _ := true

/-- `f64`: written as null when it is not finite, and read from any number. -/
def double : Codec Float where
  encode x := if h : x.isFinite = true then .number (.float x h) else .null
  decode
    | .number (.float x _) => some x
    | .number (.int i _) => some (intToFloat i)
    | _ => none
  finite x := x.isFinite

/-- An integer type with the range `lo ≤ i < hi`. -/
def integer (lo hi : ℤ) (range : -2 ^ 63 ≤ lo ∧ hi ≤ 2 ^ 64) (toInt : α → ℤ)
    (bounds : ∀ a, lo ≤ toInt a ∧ toInt a < hi) (ofInt : ℤ → α) : Codec α where
  encode a := .number (.int (toInt a) ⟨range.1.trans (bounds a).1, (bounds a).2.trans_le range.2⟩)
  decode
    | .number (.int i _) => if lo ≤ i ∧ i < hi then some (ofInt i) else none
    | _ => none
  finite _ := true

/-- `u32` -/
def uint32 : Codec UInt32 :=
  integer 0 (2 ^ 32) (by decide) (fun n => n.toNat) (fun n => ⟨by omega, by have := n.toNat_lt; omega⟩)
    fun i => UInt32.ofNat i.toNat

/-- `u64` -/
def uint64 : Codec UInt64 :=
  integer 0 (2 ^ 64) (by decide) (fun n => n.toNat) (fun n => ⟨by omega, by have := n.toNat_lt; omega⟩)
    fun i => UInt64.ofNat i.toNat

/-- `i8` -/
def int8 : Codec Int8 :=
  integer (-2 ^ 7) (2 ^ 7) (by decide) Int8.toInt (fun n => ⟨n.le_toInt, n.toInt_lt⟩) Int8.ofInt

/-- An enumeration without data: its name, or an object with the name as its one member. -/
def units (text : α → String) (all : List α) : Codec α where
  encode a := .string (text a)
  decode
    | .string s => all.find? fun a => text a = s
    | .object [(s, .null)] => all.find? fun a => text a = s
    | _ => none
  finite _ := true

/-- Any value. -/
def json : Codec Json where
  encode j := j
  decode := some
  finite _ := true

/-- A map from strings to strings. -/
def stringMap : Codec (BTreeMap String String) where
  encode m := .object (Assoc.mapVals .string m.entries)
  decode
    | .object ms => (ms.mapM fun e => (Json.asStr e.2).map fun s => (e.1, s)).map BTreeMap.ofList
    | _ => none
  finite _ := true

/-! ### Containers -/

/-- `Option`: null when there is nothing. -/
def option (c : Codec α) : Codec (Option α) where
  encode a := a.elim .null c.encode
  decode
    | .null => some none
    | j => (c.decode j).map some
  finite a := a.all c.finite

/-- `Vec` -/
def list (c : Codec α) : Codec (List α) where
  encode as := .array (as.map c.encode)
  decode
    | .array js => js.mapM c.decode
    | _ => none
  finite as := as.all c.finite

/-- A type of fixed-length arrays, given by its lists of elements. -/
def array (toList : β → List α) (ofList : List α → Option β) (c : Codec α) : Codec β where
  encode b := c.list.encode (toList b)
  decode j := (c.list.decode j).bind ofList
  finite b := c.list.finite (toList b)

end Codec

/-! ### Structs -/

/-- A field of a struct. -/
structure Field (α : Type) where
  name : String
  codec : Codec α
  /-- The value when an object has no such member. -/
  absent : Option α
  /-- The value when an array ends before the field. -/
  ended : Option α
  /-- Whether the member is left out when writing. -/
  skip : α → Bool

namespace Field

variable {α : Type}

def required (name : String) (codec : Codec α) : Field α :=
  { name, codec, absent := none, ended := none, skip := fun _ => false }

/-- `#[serde(default)]` -/
def defaulted (name : String) (codec : Codec α) (default : α) : Field α :=
  { name, codec, absent := some default, ended := some default, skip := fun _ => false }

/-- `#[serde(default, skip_serializing_if = …)]` for what equals the default when `skip` holds. -/
def skipped (name : String) (codec : Codec α) (default : α) (skip : α → Bool) : Field α :=
  { name, codec, absent := some default, ended := some default, skip }

/-- `#[serde(default, skip_serializing_if = "Option::is_none")]` -/
def optional (name : String) (codec : Codec α) : Field (Option α) := skipped name codec.option none Option.isNone

/-- `#[serde(default, skip_serializing_if = "Vec::is_empty")]` -/
def vec (name : String) (codec : Codec α) : Field (List α) := skipped name codec.list [] List.isEmpty

/-- `#[serde(default, skip_serializing_if = "BTreeMap::is_empty")]` -/
def map (name : String) : Field (BTreeMap String String) := skipped name .stringMap .empty BTreeMap.isEmpty

/-- An `Option` without attributes: a missing member is nothing, a missing element an error. -/
def nullable (name : String) (codec : Codec α) : Field (Option α) :=
  { name, codec := codec.option, absent := some none, ended := none, skip := fun _ => false }

/-- Read the field from its member, if there is one. -/
def ofMember (f : Field α) : Option Json → Option α
  | some j => f.codec.decode j
  | none => f.absent

end Field

/-- The fields of a struct, in order of declaration; the index is the product of their types. -/
inductive Fields : Type → Type 1 where
  | nil : Fields Unit
  | cons {α β : Type} (f : Field α) (fs : Fields β) : Fields (α × β)

namespace Fields

variable {β : Type}

def names : {β : Type} → Fields β → List String
  | _, nil => []
  | _, cons f fs => f.name :: fs.names

/-- The members that are written. -/
def members : {β : Type} → Fields β → β → List (String × Json)
  | _, nil, _ => []
  | _, cons f fs, (a, b) => if f.skip a then fs.members b else (f.name, f.codec.encode a) :: fs.members b

def finite : {β : Type} → Fields β → β → Bool
  | _, nil, _ => true
  | _, cons f fs, (a, b) => f.codec.finite a && fs.finite b

/-- Read the fields from the members of an object. -/
def ofObject : {β : Type} → Fields β → List (String × Json) → Option β
  | _, nil, _ => some ()
  | _, cons f fs, ms => do
    let a ← f.ofMember (Assoc.get f.name ms)
    let b ← fs.ofObject ms
    some (a, b)

/-- Read the fields from the elements of an array. -/
def ofArray : {β : Type} → Fields β → List Json → Option β
  | _, nil, [] => some ()
  | _, nil, _ :: _ => none
  | _, cons f fs, [] => do
    let a ← f.ended
    let b ← fs.ofArray []
    some (a, b)
  | _, cons f fs, j :: js => do
    let a ← f.codec.decode j
    let b ← fs.ofArray js
    some (a, b)

end Fields

namespace Codec

variable {α β σ : Type}

/-- A struct. -/
def record (fs : Fields β) (split : σ → β) (join : β → σ) : Codec σ where
  encode s := .object (Assoc.ofList (fs.members (split s)))
  decode
    | .object ms => (fs.ofObject ms).map join
    | .array js => (fs.ofArray js).map join
    | _ => none
  finite s := fs.finite (split s)

end Codec

/-! ### Tagged unions -/

/-- A value of a tagged union: its variant's tag, fields and contents. -/
structure Tagged where
  tag : String
  {β : Type}
  fields : Fields β
  value : β

/-- A variant of a tagged union, for reading. -/
structure TaggedCase (σ : Type) where
  {β : Type}
  fields : Fields β
  make : β → σ

/-- The variant a tag names; inside another union the tag may also be the variant's number
(`numbered`). -/
def TaggedCase.pick {σ : Type} (numbered : Bool) (cases : List (String × TaggedCase σ)) : Json → Option (TaggedCase σ)
  | .string s => (cases.find? fun c => c.1 = s).map Prod.snd
  | .number (.int i _) => if numbered ∧ 0 ≤ i then (cases[i.toNat]?).map Prod.snd else none
  | _ => none

/-- An internally tagged union. -/
def Codec.tagged {σ : Type} (key : String) (numbered : Bool) (write : σ → Tagged)
    (cases : List (String × TaggedCase σ)) : Codec σ where
  encode s := .object (Assoc.ofList ((key, .string (write s).tag) :: (write s).fields.members (write s).value))
  decode
    | .object ms => (Assoc.get key ms).bind fun tag =>
        (TaggedCase.pick numbered cases tag).bind fun c => (c.fields.ofObject ms).map c.make
    | .array (tag :: js) => (TaggedCase.pick numbered cases tag).bind fun c => (c.fields.ofArray js).map c.make
    | _ => none
  finite s := (write s).fields.finite (write s).value

/-! ### The laws of the primitives -/

namespace Codec

variable {α β σ : Type}

theorem string_lawful : string.Lawful := ⟨fun _ => rfl, fun _ => rfl⟩

theorem bool_lawful : bool.Lawful := ⟨fun _ => rfl, fun _ => rfl⟩

theorem double_lawful : double.Lawful where
  decode_encode {x} h := by
    have hx : x.isFinite = true := h
    simp [double, hx]
  finite_of_decode {j x} h := by
    cases j with
    | number n =>
      cases n with
      | int i range => exact Option.some.inj h ▸ isFinite_intToFloat range
      | float y hy => exact Option.some.inj h ▸ hy
    | _ => cases h

theorem integer_lawful {lo hi : ℤ} {range : -2 ^ 63 ≤ lo ∧ hi ≤ 2 ^ 64} {toInt : α → ℤ}
    {bounds : ∀ a, lo ≤ toInt a ∧ toInt a < hi} {ofInt : ℤ → α} (h : ∀ a, ofInt (toInt a) = a) :
    (integer lo hi range toInt bounds ofInt).Lawful where
  decode_encode {a} _ := by simp [integer, bounds a, h]
  finite_of_decode _ := rfl

theorem uint32_lawful : uint32.Lawful := integer_lawful fun n => by simp

theorem uint64_lawful : uint64.Lawful := integer_lawful fun n => by simp

theorem int8_lawful : int8.Lawful := integer_lawful fun n => by simp

theorem units_lawful {text : α → String} {all : List α} (hall : ∀ a, a ∈ all)
    (hinj : ∀ a b, text a = text b → a = b) : (units text all).Lawful where
  decode_encode {a} _ := by
    have hsome : (all.find? fun b => text b = text a).isSome := by simpa using ⟨a, hall a, rfl⟩
    obtain ⟨b, hb⟩ := Option.isSome_iff_exists.mp hsome
    have htext : text b = text a := by simpa using List.find?_some hb
    obtain rfl := hinj b a htext
    exact hb
  finite_of_decode _ := rfl

theorem json_lawful : json.Lawful := ⟨fun _ => rfl, fun _ => rfl⟩

/-- A list is computed elementwise. -/
theorem mapM_eq_some_iff {f : α → Option β} {as : List α} {bs : List β} :
    as.mapM f = some bs ↔ List.Forall₂ (fun a b => f a = some b) as bs := by
  induction as generalizing bs with
  | nil => cases bs <;> simp
  | cons a as ih =>
    rw [List.mapM_cons]
    cases hf : f a with
    | none => cases bs <;> simp [hf]
    | some b =>
      cases has : as.mapM f with
      | none =>
        have hno : ∀ cs, ¬ List.Forall₂ (fun a b => f a = some b) as cs := fun cs h => by
          rw [ih.mpr h] at has
          cases has
        cases bs <;> simp [hf, hno]
      | some bs' =>
        cases bs with
        | nil => simp
        | cons c cs =>
          have hcs : some bs' = some cs ↔ List.Forall₂ (fun a b => f a = some b) as cs := by rw [← has, ih]
          rw [Option.some.injEq] at hcs
          simp [hf, ← hcs]

/-- What is computed elementwise comes from an element. -/
theorem exists_of_forall₂ {R : α → β → Prop} {as : List α} {bs : List β} (h : List.Forall₂ R as bs) {b : β}
    (hb : b ∈ bs) : ∃ a ∈ as, R a b := by
  induction h with
  | nil => cases hb
  | cons hR _ ih =>
    rcases List.mem_cons.mp hb with rfl | hb
    · exact ⟨_, List.mem_cons_self, hR⟩
    · obtain ⟨a, ha, hab⟩ := ih hb
      exact ⟨a, List.mem_cons_of_mem _ ha, hab⟩

theorem decode_stringMap {ms : List (String × Json)} {m : BTreeMap String String} (hms : Assoc.Sorted ms) :
    stringMap.decode (.object ms) = some m ↔ ms = Assoc.mapVals .string m.entries := by
  have hread : ∀ es : List (String × String),
      (ms.mapM fun e => (Json.asStr e.2).map fun s => (e.1, s)) = some es ↔ ms = Assoc.mapVals .string es := by
    intro es
    rw [mapM_eq_some_iff]
    clear hms
    induction ms generalizing es with
    | nil => cases es <;> simp [Assoc.mapVals]
    | cons e ms ih =>
      cases es with
      | nil => simp [Assoc.mapVals]
      | cons f es =>
        have hone : ((Json.asStr e.2).map fun s => (e.1, s)) = some f ↔ e = (f.1, .string f.2) := by
          obtain ⟨k, j⟩ := e
          obtain ⟨l, t⟩ := f
          cases j <;> simp [Json.asStr]
        rw [List.forall₂_cons, hone, ih es]
        simp [Assoc.mapVals]
  change Option.map BTreeMap.ofList (ms.mapM _) = some m ↔ _
  rw [Option.map_eq_some_iff]
  constructor
  · rintro ⟨es, hes, rfl⟩
    have hsorted : Assoc.Sorted es := by
      rw [(hread es).mp hes, Assoc.Sorted, Assoc.mapVals, List.pairwise_map] at hms
      exact hms
    change ms = Assoc.mapVals .string (Assoc.ofList es)
    rw [Assoc.ofList_eq_self hsorted]
    exact (hread es).mp hes
  · intro h
    refine ⟨m.entries, (hread _).mpr h, ?_⟩
    rw [BTreeMap.ofList]
    congr 1
    exact Assoc.ofList_eq_self m.sorted

theorem stringMap_lawful : stringMap.Lawful where
  decode_encode {m} _ := (decode_stringMap (m.sorted.mapVals _)).mpr rfl
  finite_of_decode _ := rfl

/-! ### The laws of the containers -/

theorem option_decode {c : Codec α} {j : Json} (hj : j ≠ .null) : c.option.decode j = (c.decode j).map some := by
  cases j <;> first | rfl | exact absurd rfl hj

theorem option_lawful {c : Codec α} (h : c.Lawful) (hnull : c.decode .null = none) : c.option.Lawful where
  decode_encode {a} ha := by
    cases a with
    | none => rfl
    | some a =>
      have hd : c.decode (c.encode a) = some a := h.decode_encode ha
      have hne : c.encode a ≠ .null := fun he => by
        rw [he, hnull] at hd
        cases hd
      change c.option.decode (c.encode a) = some (some a)
      rw [option_decode hne, hd]
      rfl
  finite_of_decode {j a} ha := by
    by_cases hj : j = .null
    · subst hj
      obtain rfl := Option.some.inj ha
      rfl
    · rw [option_decode hj] at ha
      obtain ⟨b, hb, rfl⟩ := Option.map_eq_some_iff.mp ha
      exact h.finite_of_decode hb

theorem decode_list {c : Codec α} {j : Json} {as : List α} :
    c.list.decode j = some as ↔ ∃ js, j = .array js ∧ List.Forall₂ (fun j a => c.decode j = some a) js as := by
  cases j with
  | array js =>
    change js.mapM c.decode = some as ↔ _
    simp [mapM_eq_some_iff]
  | _ => simp [list]

theorem list_lawful {c : Codec α} (h : c.Lawful) : c.list.Lawful where
  decode_encode {as} ha := by
    have ha : as.all c.finite = true := ha
    refine decode_list.mpr ⟨as.map c.encode, rfl, ?_⟩
    rw [List.forall₂_map_left_iff, List.forall₂_same]
    exact fun a hm => h.decode_encode (List.all_eq_true.mp ha a hm)
  finite_of_decode {j as} ha := by
    obtain ⟨js, -, hall⟩ := decode_list.mp ha
    refine List.all_eq_true.mpr fun a hm => ?_
    obtain ⟨j, -, hj⟩ := exists_of_forall₂ hall hm
    exact h.finite_of_decode hj

theorem array_lawful {toList : β → List α} {ofList : List α → Option β} {c : Codec α} (h : c.Lawful)
    (hto : ∀ b, ofList (toList b) = some b) (hof : ∀ as b, ofList as = some b → toList b = as) :
    (array toList ofList c).Lawful where
  decode_encode {b} hb := by
    simp only [array, (list_lawful h).decode_encode hb, Option.bind_some, hto]
  finite_of_decode {j b} hb := by
    obtain ⟨as, has, hb⟩ := Option.bind_eq_some_iff.mp hb
    change c.list.finite (toList b) = true
    rw [hof as b hb]
    exact (list_lawful h).finite_of_decode has

end Codec

/-! ### The laws of structs -/

namespace Field

variable {α : Type}

/-- A field whose type is lawful, whose skipped values are restored, and whose defaults JSON can carry. -/
structure Lawful (f : Field α) : Prop where
  codec : f.codec.Lawful
  restored : ∀ {a}, f.skip a = true → f.absent = some a
  absent : ∀ {a}, f.absent = some a → f.codec.finite a = true
  ended : ∀ {a}, f.ended = some a → f.codec.finite a = true

theorem required_lawful (name : String) {c : Codec α} (h : c.Lawful) : (required name c).Lawful where
  codec := h
  restored h := by cases h
  absent h := by cases h
  ended h := by cases h

theorem skipped_lawful (name : String) {c : Codec α} (h : c.Lawful) {d : α} (hd : c.finite d = true) {skip : α → Bool}
    (hskip : ∀ a, skip a = true → a = d) : (skipped name c d skip).Lawful where
  codec := h
  restored ha := by rw [hskip _ ha]; rfl
  absent ha := by
    obtain rfl := Option.some.inj ha
    exact hd
  ended ha := by
    obtain rfl := Option.some.inj ha
    exact hd

theorem defaulted_lawful (name : String) {c : Codec α} (h : c.Lawful) {d : α} (hd : c.finite d = true) :
    (defaulted name c d).Lawful :=
  skipped_lawful name h hd fun _ ha => by cases ha

theorem optional_lawful (name : String) {c : Codec α} (h : c.Lawful) (hnull : c.decode .null = none) :
    (optional name c).Lawful :=
  skipped_lawful name (Codec.option_lawful h hnull) rfl fun _ ha => Option.isNone_iff_eq_none.mp ha

theorem vec_lawful (name : String) {c : Codec α} (h : c.Lawful) : (vec name c).Lawful :=
  skipped_lawful name (Codec.list_lawful h) rfl fun _ ha => List.isEmpty_iff.mp ha

theorem map_lawful (name : String) : (map name).Lawful :=
  skipped_lawful name Codec.stringMap_lawful rfl fun _ ha => BTreeMap.isEmpty_iff.mp ha

theorem nullable_lawful (name : String) {c : Codec α} (h : c.Lawful) (hnull : c.decode .null = none) :
    (nullable name c).Lawful where
  codec := Codec.option_lawful h hnull
  restored h := by cases h
  absent ha := by
    obtain rfl := Option.some.inj ha
    rfl
  ended h := by cases h

end Field

namespace Fields

variable {β : Type}

/-- Every field is lawful. -/
def Lawful : {β : Type} → Fields β → Prop
  | _, nil => True
  | _, cons f fs => f.Lawful ∧ fs.Lawful

theorem Lawful.nil : Fields.nil.Lawful := trivial

theorem Lawful.cons {α : Type} {f : Field α} {fs : Fields β} (hf : f.Lawful) (hfs : fs.Lawful) :
    (Fields.cons f fs).Lawful := ⟨hf, hfs⟩

theorem ofObject_cons {α : Type} {f : Field α} {fs : Fields β} {ms : List (String × Json)} {a : α} {b : β} :
    (cons f fs).ofObject ms = some (a, b) ↔ f.ofMember (Assoc.get f.name ms) = some a ∧ fs.ofObject ms = some b := by
  simp only [ofObject, Option.bind_eq_bind, Option.bind_eq_some_iff, Option.some.injEq, Prod.mk.injEq]
  constructor
  · rintro ⟨a', ha, b', hb, rfl, rfl⟩
    exact ⟨ha, hb⟩
  · rintro ⟨ha, hb⟩
    exact ⟨a, ha, b, hb, rfl, rfl⟩

theorem ofArray_cons {α : Type} {f : Field α} {fs : Fields β} {j : Json} {js : List Json} {a : α} {b : β} :
    (cons f fs).ofArray (j :: js) = some (a, b) ↔ f.codec.decode j = some a ∧ fs.ofArray js = some b := by
  simp only [ofArray, Option.bind_eq_bind, Option.bind_eq_some_iff, Option.some.injEq, Prod.mk.injEq]
  constructor
  · rintro ⟨a', ha, b', hb, rfl, rfl⟩
    exact ⟨ha, hb⟩
  · rintro ⟨ha, hb⟩
    exact ⟨a, ha, b, hb, rfl, rfl⟩

theorem ofArray_cons_nil {α : Type} {f : Field α} {fs : Fields β} {a : α} {b : β} :
    (cons f fs).ofArray [] = some (a, b) ↔ f.ended = some a ∧ fs.ofArray [] = some b := by
  simp only [ofArray, Option.bind_eq_bind, Option.bind_eq_some_iff, Option.some.injEq, Prod.mk.injEq]
  constructor
  · rintro ⟨a', ha, b', hb, rfl, rfl⟩
    exact ⟨ha, hb⟩
  · rintro ⟨ha, hb⟩
    exact ⟨a, ha, b, hb, rfl, rfl⟩

theorem keys_members (fs : Fields β) (b : β) : (Assoc.keys (fs.members b)).Sublist fs.names := by
  induction fs with
  | nil => exact List.Sublist.refl _
  | cons f fs ih =>
    obtain ⟨a, b⟩ := b
    rw [members, names]
    split_ifs
    · exact (ih b).cons _
    · exact (ih b).cons_cons _

theorem get_members_head {α : Type} {f : Field α} {fs : Fields β} (hname : f.name ∉ fs.names) {a : α} {b : β} :
    Assoc.get f.name ((cons f fs).members (a, b)) = if f.skip a then none else some (f.codec.encode a) := by
  rw [members]
  split_ifs
  · exact Assoc.get_eq_none_iff.mpr fun hk => hname ((fs.keys_members b).subset hk)
  · rw [Assoc.get_cons, if_pos rfl]

theorem get_members_tail {α : Type} {f : Field α} {fs : Fields β} {k : String} (hk : k ≠ f.name) {a : α} {b : β} :
    Assoc.get k ((cons f fs).members (a, b)) = Assoc.get k (fs.members b) := by
  rw [members]
  split_ifs
  · rfl
  · rw [Assoc.get_cons, if_neg hk]

/-- An object that has the members that were written is read back. -/
theorem ofObject_members {fs : Fields β} (h : fs.Lawful) (hnames : fs.names.Nodup) {b : β} (hb : fs.finite b = true)
    {ms : List (String × Json)} (hms : ∀ k ∈ fs.names, Assoc.get k ms = Assoc.get k (fs.members b)) :
    fs.ofObject ms = some b := by
  induction fs with
  | nil => rfl
  | cons f fs ih =>
    obtain ⟨a, b⟩ := b
    obtain ⟨hf, hfs⟩ := h
    rw [names, List.nodup_cons] at hnames
    rw [finite, Bool.and_eq_true] at hb
    have hhere : f.ofMember (Assoc.get f.name ms) = some a := by
      rw [hms f.name List.mem_cons_self, members]
      split_ifs with hskip
      · rw [Assoc.get_eq_none_iff.mpr fun hk => hnames.1 ((fs.keys_members b).subset hk)]
        exact hf.restored hskip
      · rw [Assoc.get_cons, if_pos rfl]
        exact hf.codec.decode_encode hb.1
    have hrest : fs.ofObject ms = some b := ih hfs hnames.2 hb.2 fun k hk => by
      have hne : k ≠ f.name := fun he => hnames.1 (he ▸ hk)
      rw [hms k (List.mem_cons_of_mem _ hk), members]
      split_ifs
      · rfl
      · rw [Assoc.get_cons, if_neg hne]
    rw [ofObject, hhere, hrest]
    rfl

theorem finite_of_ofObject {fs : Fields β} (h : fs.Lawful) {ms : List (String × Json)} {b : β}
    (hb : fs.ofObject ms = some b) : fs.finite b = true := by
  induction fs with
  | nil => rfl
  | cons f fs ih =>
    obtain ⟨a, ha, hb⟩ := Option.bind_eq_some_iff.mp hb
    obtain ⟨b', hb', hb⟩ := Option.bind_eq_some_iff.mp hb
    obtain rfl := Option.some.inj hb
    rw [finite, ih h.2 hb', Bool.and_true]
    cases hget : Assoc.get f.name ms with
    | none =>
      rw [hget] at ha
      exact h.1.absent ha
    | some j =>
      rw [hget] at ha
      exact h.1.codec.finite_of_decode ha

theorem finite_of_ofArray {fs : Fields β} (h : fs.Lawful) {js : List Json} {b : β}
    (hb : fs.ofArray js = some b) : fs.finite b = true := by
  induction fs generalizing js with
  | nil => rfl
  | cons f fs ih =>
    cases js with
    | nil =>
      obtain ⟨a, ha, hb⟩ := Option.bind_eq_some_iff.mp hb
      obtain ⟨b', hb', hb⟩ := Option.bind_eq_some_iff.mp hb
      obtain rfl := Option.some.inj hb
      rw [finite, ih h.2 hb', h.1.ended ha]
      rfl
    | cons j js =>
      obtain ⟨a, ha, hb⟩ := Option.bind_eq_some_iff.mp hb
      obtain ⟨b', hb', hb⟩ := Option.bind_eq_some_iff.mp hb
      obtain rfl := Option.some.inj hb
      rw [finite, ih h.2 hb', h.1.codec.finite_of_decode ha]
      rfl

end Fields

namespace Codec

variable {α β σ : Type}

/-- **Structs are lawful** when their fields are, have different names, and make up the type. -/
theorem record_lawful {fs : Fields β} {split : σ → β} {join : β → σ} (hnames : fs.names.Nodup) (h : fs.Lawful)
    (hjoin : ∀ s, join (split s) = s) (hsplit : ∀ b, split (join b) = b) : (record fs split join).Lawful where
  decode_encode {s} hs := by
    have hkeys : (Assoc.keys (fs.members (split s))).Nodup := (fs.keys_members _).nodup hnames
    have hread : fs.ofObject (Assoc.ofList (fs.members (split s))) = some (split s) :=
      Fields.ofObject_members h hnames hs fun k _ => Assoc.get_ofList hkeys k
    simp only [record, hread, Option.map_some, hjoin]
  finite_of_decode {j s} hs := by
    have hfin : ∀ b, fs.finite b = true → (record fs split join).finite (join b) = true := fun b hb => by
      change fs.finite (split (join b)) = true
      rwa [hsplit]
    cases j with
    | object ms =>
      obtain ⟨b, hb, rfl⟩ := Option.map_eq_some_iff.mp hs
      exact hfin b (Fields.finite_of_ofObject h hb)
    | array js =>
      obtain ⟨b, hb, rfl⟩ := Option.map_eq_some_iff.mp hs
      exact hfin b (Fields.finite_of_ofArray h hb)
    | _ => cases hs

theorem pick_mem {numbered : Bool} {cases : List (String × TaggedCase σ)} {tag : Json} {c : TaggedCase σ}
    (h : TaggedCase.pick numbered cases tag = some c) : ∃ t, (t, c) ∈ cases := by
  unfold TaggedCase.pick at h
  split at h
  · obtain ⟨e, he, rfl⟩ := Option.map_eq_some_iff.mp h
    exact ⟨e.1, List.mem_of_find?_eq_some he⟩
  · split_ifs at h
    obtain ⟨e, he, rfl⟩ := Option.map_eq_some_iff.mp h
    exact ⟨e.1, List.mem_of_getElem? he⟩
  · cases h

/-- The cases of a tagged union fit the way its values are written. -/
structure CasesFit (key : String) (write : σ → Tagged) (cases : List (String × TaggedCase σ)) : Prop where
  /-- What a case makes is written with its tag, fields and contents. -/
  write_make : ∀ t c, (t, c) ∈ cases → ∀ b, write (c.make b) = { tag := t, fields := c.fields, value := b }
  /-- What is written has a case that makes it. -/
  make_write : ∀ s, ∃ make, (cases.find? fun e => e.1 = (write s).tag).map Prod.snd =
    some { fields := (write s).fields, make } ∧ make (write s).value = s
  fields : ∀ t c, (t, c) ∈ cases → c.fields.Lawful ∧ c.fields.names.Nodup ∧ key ∉ c.fields.names

theorem CasesFit.mem {key : String} {write : σ → Tagged} {cases : List (String × TaggedCase σ)}
    (h : CasesFit key write cases) (s : σ) : ∃ make, ((write s).tag, ⟨(write s).fields, make⟩) ∈ cases := by
  obtain ⟨make, hcase, -⟩ := h.make_write s
  obtain ⟨e, he, hc⟩ := Option.map_eq_some_iff.mp hcase
  have htag : e.1 = (write s).tag := by simpa using List.find?_some he
  exact ⟨make, by rw [← hc, ← htag]; exact List.mem_of_find?_eq_some he⟩

/-- **Tagged unions are lawful** when their cases fit. -/
theorem tagged_lawful {key : String} {numbered : Bool} {write : σ → Tagged} {cases : List (String × TaggedCase σ)}
    (h : CasesFit key write cases) : (tagged key numbered write cases).Lawful where
  decode_encode {s} hs := by
    obtain ⟨make, hcase, hmake⟩ := h.make_write s
    obtain ⟨e, he, hc⟩ := Option.map_eq_some_iff.mp hcase
    obtain ⟨hlaw, hnames, hkey⟩ := h.fields e.1 e.2 (List.mem_of_find?_eq_some he)
    rw [hc] at hlaw hnames hkey
    dsimp only at hlaw hnames hkey
    let ms := (key, Json.string (write s).tag) :: (write s).fields.members (write s).value
    have hkeys : (Assoc.keys ms).Nodup := by
      rw [Assoc.keys_cons, List.nodup_cons]
      exact ⟨fun hk => hkey ((Fields.keys_members _ _).subset hk), (Fields.keys_members _ _).nodup hnames⟩
    have htag : Assoc.get key (Assoc.ofList ms) = some (.string (write s).tag) := by
      rw [Assoc.get_ofList hkeys, Assoc.get_cons, if_pos rfl]
    have hpick : TaggedCase.pick numbered cases (.string (write s).tag) = some ⟨(write s).fields, make⟩ := hcase
    have hread : (write s).fields.ofObject (Assoc.ofList ms) = some (write s).value := by
      refine Fields.ofObject_members hlaw hnames hs fun k hk => ?_
      have hne : k ≠ key := fun he => hkey (he ▸ hk)
      rw [Assoc.get_ofList hkeys, Assoc.get_cons, if_neg hne]
    change ((Assoc.get key (Assoc.ofList ms)).bind fun tag => (TaggedCase.pick numbered cases tag).bind fun c =>
      (c.fields.ofObject (Assoc.ofList ms)).map c.make) = some s
    rw [htag, Option.bind_some, hpick, Option.bind_some, hread]
    exact congrArg some hmake
  finite_of_decode {j s} hs := by
    have hfin : ∀ tag c b, TaggedCase.pick numbered cases tag = some c → c.fields.finite b = true →
        (tagged key numbered write cases).finite (c.make b) = true := fun tag c b hp hb => by
      obtain ⟨t, hc⟩ := pick_mem hp
      change (write (c.make b)).fields.finite (write (c.make b)).value = true
      rw [h.write_make t c hc b]
      exact hb
    have hlaw : ∀ {tag c}, TaggedCase.pick numbered cases tag = some c → c.fields.Lawful := fun hp => by
      obtain ⟨t, hc⟩ := pick_mem hp
      exact (h.fields t _ hc).1
    unfold tagged at hs
    dsimp only at hs
    split at hs
    · obtain ⟨tag, -, hs⟩ := Option.bind_eq_some_iff.mp hs
      obtain ⟨c, hc, hs⟩ := Option.bind_eq_some_iff.mp hs
      obtain ⟨b, hb, rfl⟩ := Option.map_eq_some_iff.mp hs
      exact hfin _ c b hc (Fields.finite_of_ofObject (hlaw hc) hb)
    · obtain ⟨c, hc, hs⟩ := Option.bind_eq_some_iff.mp hs
      obtain ⟨b, hb, rfl⟩ := Option.map_eq_some_iff.mp hs
      exact hfin _ c b hc (Fields.finite_of_ofArray (hlaw hc) hb)
    · cases hs

end Codec

end Forge
