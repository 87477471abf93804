import Forge.Data.Except
import Forge.Data.Text
import Forge.Json.Pointer

/-!
# JSON patches of a contract

`patch.rs`: the operations that conversational edits compile to. Paths are JSON
pointers; an array index is whatever the standard library parses as a `usize`, so
besides the indices of RFC 6901 a leading `+` and leading zeros pass, escapes
other than `~0` and `~1` are taken literally, and `test` compares with the value
type's own equality. **`patch_conforms_iff`** says when this agrees with RFC 6902
(`Forge.Patch`).

`usize` has `w` bits. A mutable reference into the document is modelled by
rewriting the value at its place.
-/

namespace Forge.Contract

inductive PatchOp where
  | add (path : String) (value : Json)
  | replace (path : String) (value : Json)
  | remove (path : String)
  | test (path : String) (value : Json)
deriving DecidableEq

structure PatchError where
  opIndex : ℕ
  message : String
deriving DecidableEq

/-- `PatchError::fmt` -/
def PatchError.text (e : PatchError) : String := s!"patch op {e.opIndex}: {e.message}"

/-! ### Paths -/

/-- `t.replace("~1", "/").replace("~0", "~")` -/
def unescapeToken (t : List Char) : String := String.ofList (Text.replacePair '~' '0' '~' (Text.replacePair '~' '1' '/' t))

/-- `split_pointer` -/
def splitPointer (path : String) : Except String (List String) :=
  match path.toList with
  | [] => .ok []
  | '/' :: rest => .ok ((rest.splitOn '/').map unescapeToken)
  | _ => .error s!"pointer '{path}' must start with '/'"

/-- `tok.parse::<usize>()` -/
def parseUsize (w : ℕ) (tok : String) : Option ℕ := Text.unsigned (2 ^ w) tok.toList

/-- `step`, and what `step_mut` refers to. -/
def step (w : ℕ) (node : Json) (tok : String) : Except String Json :=
  match node with
  | .object m =>
    match Assoc.get tok m with
    | some v => .ok v
    | none => .error s!"no member '{tok}'"
  | .array a =>
    match parseUsize w tok with
    | none => .error s!"bad index '{tok}'"
    | some i =>
      match a[i]? with
      | some v => .ok v
      | none => .error s!"index {i} out of bounds ({a.length})"
  | _ => .error s!"cannot index scalar with '{tok}'"

/-- `resolve` -/
def resolve (w : ℕ) (doc : Json) (path : String) : Except String Json := do
  (← splitPointer path).foldlM (step w) doc

/-- Walk down with `step_mut` and rewrite the node that is reached. -/
def modifyAt (w : ℕ) (f : Json → Except String Json) : List String → Json → Except String Json
  | [], node => f node
  | tok :: toks, node => do
    let child ← step w node tok
    let child ← modifyAt w f toks child
    return Json.setChild (parseUsize w) tok child node

/-! ### Operations -/

/-- The last step of `add_at`. -/
def addTo (w : ℕ) (last : String) (value : Json) : Json → Except String Json
  | .object m => .ok (.object (Assoc.insert last value m))
  | .array a =>
    if last = "-" then .ok (.array (a ++ [value]))
    else
      match parseUsize w last with
      | none => .error s!"bad index '{last}'"
      | some i => if a.length < i then .error s!"index {i} out of bounds ({a.length})" else .ok (.array (a.insertIdx i value))
  | _ => .error "cannot add into a scalar"

/-- `add_at` -/
def addAt (w : ℕ) (doc : Json) (path : String) (value : Json) : Except String Json := do
  let toks ← splitPointer path
  match toks.getLast? with
  | none => return value
  | some last => modifyAt w (addTo w last value) toks.dropLast doc

/-- The last step of `remove_at`. -/
def removeFrom (w : ℕ) (last : String) : Json → Except String Json
  | .object m =>
    match Assoc.get last m with
    | some _ => .ok (.object (Assoc.erase last m))
    | none => .error s!"no member '{last}'"
  | .array a =>
    match parseUsize w last with
    | none => .error s!"bad index '{last}'"
    | some i => if a.length ≤ i then .error s!"index {i} out of bounds ({a.length})" else .ok (.array (a.eraseIdx i))
  | _ => .error "cannot remove from a scalar"

/-- `remove_at` -/
def removeAt (w : ℕ) (doc : Json) (path : String) : Except String Json := do
  let toks ← splitPointer path
  match toks.getLast? with
  | none => .error "cannot remove the document root"
  | some last => modifyAt w (removeFrom w last) toks.dropLast doc

/-- `apply_one`: the document after the operation. -/
def applyOne (w : ℕ) (doc : Json) : PatchOp → Except String Json
  | .test path value => do
    let cur ← resolve w doc path
    if !cur.beq value then .error s!"test failed at '{path}'" else .ok doc
  | .replace path value => do modifyAt w (fun _ => .ok value) (← splitPointer path) doc
  | .remove path => removeAt w doc path
  | .add path value => addAt w doc path value

/-- The loop of `apply_patch`, from operation `i` on. -/
def applyOps (w i : ℕ) (doc : Json) : List PatchOp → Except PatchError Json
  | [] => .ok doc
  | op :: ops =>
    match applyOne w doc op with
    | .error message => .error { opIndex := i, message }
    | .ok doc => applyOps w (i + 1) doc ops

/-! ### The standard -/

/-- What RFC 6902 prescribes for an operation. -/
def rfcApply (doc : Json) : PatchOp → Option Json
  | .test path value => Patch.test path value doc
  | .replace path value => Patch.replace path value doc
  | .remove path => Patch.remove path doc
  | .add path value => Patch.add path value doc

/-- What RFC 6902 prescribes for a list of operations. -/
def rfcApplyAll (doc : Json) (ops : List PatchOp) : Option Json := ops.foldlM rfcApply doc

/-- The path is a JSON pointer, and on its way through the document every token that meets an
array is an index without sign or leading zero, or `-`. -/
def properPath (w : ℕ) (doc : Json) (path : String) : Bool :=
  (Pointer.parse path).any fun toks => doc.proper Pointer.index (parseUsize w) toks

/-- There is a place to add at: a member of an object, or an index up to the length or `-` of
an array. -/
def accepts (w : ℕ) (last : String) : Json → Bool
  | .object _ => true
  | .array a => last = "-" || (parseUsize w last).any fun i => i ≤ a.length
  | _ => false

/-- Where the operation's path leads somewhere, it is spelled as the standard asks, and a `test`
does not depend on an integer and a double of the same value being different. -/
def Conforming (w : ℕ) (doc : Json) : PatchOp → Prop
  | .test path value => ∀ v, resolve w doc path = .ok v →
      (v.beq value = true → properPath w doc path = true) ∧
        (v.beq value = false → v.same value = true → properPath w doc path = false)
  | .replace path _ => (∃ v, resolve w doc path = .ok v) → properPath w doc path = true
  | .remove path => (∃ v, resolve w doc path = .ok v) → properPath w doc path = true
  | .add path _ => (∃ toks last node, splitPointer path = .ok toks ∧ toks.getLast? = some last ∧
      toks.dropLast.foldlM (step w) doc = .ok node ∧ accepts w last node = true) → properPath w doc path = true

/-- Every operation that is reached conforms. -/
def ConformingAll (w : ℕ) (doc : Json) : List PatchOp → Prop
  | [] => True
  | op :: ops => Conforming w doc op ∧ ∀ doc', applyOne w doc op = .ok doc' → ConformingAll w doc' ops

/-! ### Splitting a path -/

/-- The two replacements decode what the standard decodes. -/
theorem replacePair_of_unescape {cs ds : List Char} (h : Pointer.unescape cs = some ds) :
    Text.replacePair '~' '0' '~' (Text.replacePair '~' '1' '/' cs) = ds := by
  induction cs using Pointer.unescape.induct generalizing ds with
  | case1 =>
    obtain rfl := Option.some.inj h
    simp
  | case2 cs ih =>
    obtain ⟨ds, hds, rfl⟩ := Option.map_eq_some_iff.mp h
    rw [Text.replacePair_skip (by decide), Text.replacePair_cons (c := '0') (by decide), Text.replacePair_pair, ih hds]
  | case3 cs ih =>
    obtain ⟨ds, hds, rfl⟩ := Option.map_eq_some_iff.mp h
    rw [Text.replacePair_pair, Text.replacePair_cons (by decide), ih hds]
  | case4 cs h0 h1 =>
    rw [Pointer.unescape] at h
    · cases h
    · exact h0
    · exact h1
  | case5 c cs h0 h1 hc ih =>
    rw [Pointer.unescape] at h
    · obtain ⟨ds, hds, rfl⟩ := Option.map_eq_some_iff.mp h
      rw [Text.replacePair_cons hc, Text.replacePair_cons hc, ih hds]
    · exact h0
    · exact h1
    · exact hc

theorem splitPointer_of_parse {path : String} {toks : List String} (h : Pointer.parse path = some toks) :
    splitPointer path = .ok toks := by
  unfold Pointer.parse at h
  unfold splitPointer
  generalize path.toList = cs at h ⊢
  rcases cs with _ | ⟨c, rest⟩
  · exact congrArg Except.ok (Option.some.inj h)
  by_cases hc : c = '/'
  · subst hc
    refine congrArg Except.ok ?_
    replace h : (rest.splitOn '/').mapM (fun t => (Pointer.unescape t).map String.ofList) = some toks := h
    generalize rest.splitOn '/' = ts at h
    induction ts generalizing toks with
    | nil => simpa using h
    | cons t ts ih =>
      simp only [List.mapM_cons, Option.pure_def, Option.bind_eq_bind, Option.bind_eq_some_iff] at h
      obtain ⟨u, hu, us, hus, h⟩ := h
      obtain ⟨ds, hds, rfl⟩ := Option.map_eq_some_iff.mp hu
      obtain rfl := Option.some.inj h
      rw [List.map_cons, ih hus, unescapeToken, replacePair_of_unescape hds]
  · simp [hc] at h

/-- A `usize` is read from every index of the standard that fits, and never from `-`. -/
theorem index_narrows (w : ℕ) : Json.Narrows (2 ^ w) Pointer.index (parseUsize w) where
  read {t i} h := by
    unfold Pointer.index at h
    dsimp only at h
    split_ifs at h with hdigits
    obtain ⟨hne, hall, -⟩ := hdigits
    obtain rfl := Option.some.inj h
    rw [parseUsize]
    generalize t.toList = cs at hne hall
    have hplain : Text.unsigned (2 ^ w) cs = Text.digits (2 ^ w) cs := by
      unfold Text.unsigned
      split
      · simp at hall
      · rfl
    rw [hplain, Text.digits]
    simp [hne, hall]
  append := by
    rw [parseUsize]
    simp [Text.unsigned, Text.digits]

/-! ### The operations without their messages -/

theorem step_toOption (w : ℕ) (node : Json) (tok : String) :
    (step w node tok).toOption = node.child (parseUsize w) tok := by
  cases node with
  | object m => cases h : Assoc.get tok m <;> simp [step, Json.child, h]
  | array a =>
    cases h : parseUsize w tok with
    | none => simp [step, Json.child, h]
    | some i => cases hi : a[i]? <;> simp [step, Json.child, h, hi]
  | _ => rfl

theorem foldlM_step_toOption (w : ℕ) (toks : List String) (doc : Json) :
    (toks.foldlM (step w) doc).toOption = doc.locate (parseUsize w) toks := by
  induction toks generalizing doc with
  | nil => rfl
  | cons tok toks ih => simp [Json.locate, step_toOption, ih]

theorem resolve_toOption (w : ℕ) (doc : Json) (path : String) :
    (resolve w doc path).toOption = (splitPointer path).toOption.bind fun toks => doc.locate (parseUsize w) toks := by
  simp [resolve, foldlM_step_toOption]

theorem modifyAt_toOption (w : ℕ) (f : Json → Except String Json) (toks : List String) (doc : Json) :
    (modifyAt w f toks doc).toOption = doc.modify (parseUsize w) (fun n => (f n).toOption) toks := by
  induction toks generalizing doc with
  | nil => rfl
  | cons tok toks ih =>
    rw [modifyAt, toOption_bind, step_toOption, Json.modify]
    congr 1
    funext c
    rw [toOption_bind, ih]
    cases Json.modify (parseUsize w) (fun n => (f n).toOption) toks c <;> rfl

theorem addTo_toOption (w : ℕ) (last : String) (v node : Json) :
    (addTo w last v node).toOption = Json.insertChild (parseUsize w) last v node := by
  cases node with
  | array a =>
    simp only [addTo, Json.insertChild]
    split_ifs
    · rfl
    · cases parseUsize w last with
      | none => rfl
      | some i =>
        by_cases hi : i ≤ a.length
        · simp [hi, Nat.not_lt.mpr hi]
        · simp [hi, Nat.not_le.mp hi]
  | _ => rfl

theorem removeFrom_toOption (w : ℕ) (last : String) (node : Json) :
    (removeFrom w last node).toOption = node.removeChild (parseUsize w) last := by
  cases node with
  | object m => cases h : Assoc.get last m <;> simp [removeFrom, Json.removeChild, h]
  | array a =>
    rw [removeFrom, Json.removeChild]
    cases parseUsize w last with
    | none => rfl
    | some i =>
      by_cases hi : i < a.length
      · simp [hi, Nat.not_le.mpr hi]
      · simp [hi, Nat.not_lt.mp hi]
  | _ => rfl

theorem addAt_toOption (w : ℕ) (doc : Json) (path : String) (v : Json) :
    (addAt w doc path v).toOption = (splitPointer path).toOption.bind fun toks =>
      doc.modifyParent (parseUsize w) (some v) (fun t => Json.insertChild (parseUsize w) t v) toks := by
  rw [addAt, toOption_bind]
  congr 1
  funext toks
  rw [Json.modifyParent]
  cases toks.getLast? with
  | none => rfl
  | some last => simp only [modifyAt_toOption, addTo_toOption]

theorem removeAt_toOption (w : ℕ) (doc : Json) (path : String) :
    (removeAt w doc path).toOption = (splitPointer path).toOption.bind fun toks =>
      doc.modifyParent (parseUsize w) none (Json.removeChild (parseUsize w)) toks := by
  rw [removeAt, toOption_bind]
  congr 1
  funext toks
  rw [Json.modifyParent]
  cases toks.getLast? with
  | none => rfl
  | some last => simp only [modifyAt_toOption, removeFrom_toOption]

/-! ### One operation -/

variable {w : ℕ} {doc : Json}

/-- Rewriting under the two readings of a path agrees exactly when the path is proper wherever
the lenient reading succeeds. -/
theorem path_agrees_iff {path : String} {lenient strict : List String → Option Json}
    (mono : ∀ toks d, strict toks = some d → lenient toks = some d)
    (exact : ∀ toks d, lenient toks = some d →
      (strict toks = some d ↔ doc.proper Pointer.index (parseUsize w) toks = true)) :
    (splitPointer path).toOption.bind lenient = (Pointer.parse path).bind strict ↔
      ((∃ d, (splitPointer path).toOption.bind lenient = some d) → properPath w doc path = true) := by
  have forward : ∀ d, (Pointer.parse path).bind strict = some d →
      (splitPointer path).toOption.bind lenient = some d := fun d h => by
    obtain ⟨toks, ht, hd⟩ := Option.bind_eq_some_iff.mp h
    rw [splitPointer_of_parse ht]
    exact mono toks d hd
  constructor
  · rintro heq ⟨d, hd⟩
    obtain ⟨toks, ht, hs⟩ := Option.bind_eq_some_iff.mp (heq ▸ hd)
    rw [properPath, ht]
    exact (exact toks d (mono toks d hs)).mp hs
  · intro hproper
    cases hl : (splitPointer path).toOption.bind lenient with
    | none =>
      cases hs : (Pointer.parse path).bind strict with
      | none => rfl
      | some d => rw [forward d hs] at hl; cases hl
    | some d =>
      obtain ⟨toks, ht, hp⟩ := (Option.any_eq_true _ _).mp (hproper ⟨d, hl⟩)
      rw [splitPointer_of_parse ht] at hl
      rw [ht]
      exact ((exact toks d hl).mpr hp).symm

/-- What the standard finds at a path, in terms of what the lenient reading finds. -/
theorem rfcLocate (hdoc : doc.Fits (2 ^ w)) (path : String) :
    ((Pointer.parse path).bind fun toks => doc.locate Pointer.index toks) =
      if properPath w doc path then (resolve w doc path).toOption else none := by
  have hn := index_narrows w
  rw [resolve_toOption]
  cases hp : Pointer.parse path with
  | none => simp [properPath, hp]
  | some toks =>
    simp only [properPath, hp, splitPointer_of_parse hp, Option.any_some, toOption_ok, Option.bind_some]
    split_ifs with hproper
    · cases hl : doc.locate (parseUsize w) toks with
      | some v => exact Json.locate_of_proper hn hproper hl
      | none =>
        cases hs : doc.locate Pointer.index toks with
        | none => rfl
        | some v =>
          rw [Json.locate_mono hn hdoc hs] at hl
          cases hl
    · cases hs : doc.locate Pointer.index toks with
      | none => rfl
      | some v => exact absurd (Json.proper_of_locate hn hdoc hs) hproper

/-- **test** -/
theorem test_agrees_iff (hdoc : doc.Fits (2 ^ w)) (path : String) (value : Json) :
    (applyOne w doc (.test path value)).toOption = rfcApply doc (.test path value) ↔
      Conforming w doc (.test path value) := by
  have hrfc : rfcApply doc (.test path value) =
      (if properPath w doc path then (resolve w doc path).toOption else none).bind fun v =>
        if v.same value then some doc else none := by
    rw [← rfcLocate hdoc path, rfcApply, Patch.test, Option.bind_assoc]
    rfl
  have hcode : (applyOne w doc (.test path value)).toOption =
      (resolve w doc path).toOption.bind fun v => if v.beq value then some doc else none := by
    rw [applyOne, toOption_bind]
    congr 1
    funext v
    cases v.beq value <;> rfl
  rw [hrfc, hcode, Conforming]
  cases hr : resolve w doc path with
  | error e => simp
  | ok v =>
    have hsame : v.beq value = true → v.same value = true := Json.same_of_beq
    cases hb : v.beq value <;> cases hp : properPath w doc path <;> cases hs : v.same value <;> simp_all

/-- **replace** -/
theorem replace_agrees_iff (hdoc : doc.Fits (2 ^ w)) (path : String) (value : Json) :
    (applyOne w doc (.replace path value)).toOption = rfcApply doc (.replace path value) ↔
      Conforming w doc (.replace path value) := by
  have hn := index_narrows w
  have hcode : (applyOne w doc (.replace path value)).toOption =
      (splitPointer path).toOption.bind fun toks => doc.modify (parseUsize w) (fun _ => some value) toks := by
    rw [applyOne, toOption_bind]
    simp only [modifyAt_toOption, toOption_ok]
  have hresolves : (∃ v, resolve w doc path = .ok v) ↔ ∃ d, (applyOne w doc (.replace path value)).toOption = some d := by
    simp only [← toOption_eq_some_iff, resolve_toOption, hcode, Option.bind_eq_some_iff]
    constructor
    · rintro ⟨v, toks, ht, hv⟩
      obtain ⟨d, hd⟩ := (Json.modify_isSome_iff (f := fun _ => some value)).mpr ⟨v, value, hv, rfl⟩
      exact ⟨d, toks, ht, hd⟩
    · rintro ⟨d, toks, ht, hd⟩
      obtain ⟨v, -, hv, -⟩ := Json.modify_isSome_iff.mp ⟨d, hd⟩
      exact ⟨v, toks, ht, hv⟩
  rw [Conforming, hresolves, hcode]
  refine path_agrees_iff (fun toks d h => Json.modify_mono hn hdoc (fun _ _ _ he => he) h) fun toks d h => ⟨fun hs => ?_, fun hp => ?_⟩
  · obtain ⟨v, -, hv, -⟩ := Json.modify_isSome_iff.mp ⟨d, hs⟩
    exact Json.proper_of_locate hn hdoc hv
  · exact Json.modify_of_proper hn hdoc hp (fun _ _ _ he => he) h

/-- The root path is proper. -/
theorem properPath_of_root {path : String} (h : splitPointer path = .ok []) : properPath w doc path = true := by
  unfold splitPointer at h
  unfold properPath Pointer.parse
  generalize path.toList = cs at h ⊢
  rcases cs with _ | ⟨c, rest⟩
  · rfl
  by_cases hc : c = '/'
  · subst hc
    replace h : (rest.splitOn '/').map unescapeToken = [] := Except.ok.inj h
    simp [List.map_eq_nil_iff.mp h, Json.proper]
  · simp [hc] at h

/-- **remove** -/
theorem remove_agrees_iff (hdoc : doc.Fits (2 ^ w)) (path : String) :
    (applyOne w doc (.remove path)).toOption = rfcApply doc (.remove path) ↔ Conforming w doc (.remove path) := by
  have hn := index_narrows w
  have hf := Json.removeChild_reads hn
  rw [applyOne, removeAt_toOption, rfcApply, Patch.remove, Conforming]
  refine (path_agrees_iff (fun toks d h => Json.modifyParent_mono hn hf hdoc h)
    fun toks d h => Json.modifyParent_iff_proper hn hf hdoc h).trans ?_
  simp only [← toOption_eq_some_iff, resolve_toOption, Option.bind_eq_some_iff]
  constructor
  · rintro h ⟨v, toks, ht, hv⟩
    by_cases hroot : toks = []
    · exact properPath_of_root (hroot ▸ toOption_eq_some_iff.mp ht)
    · obtain ⟨d, hd⟩ := Json.remove_isSome_iff.mpr ⟨hroot, v, hv⟩
      exact h ⟨d, toks, ht, hd⟩
  · rintro h ⟨d, toks, ht, hd⟩
    obtain ⟨-, v, hv⟩ := Json.remove_isSome_iff.mp ⟨d, hd⟩
    exact h ⟨v, toks, ht, hv⟩

theorem accepts_iff {last : String} (v : Json) {node : Json} :
    accepts w last node = true ↔ ∃ e, Json.insertChild (parseUsize w) last v node = some e := by
  cases node with
  | array a =>
    by_cases hd : last = "-"
    · simp [accepts, Json.insertChild, hd]
    · cases h : parseUsize w last <;> simp [accepts, Json.insertChild, hd, h]
  | _ => simp [accepts, Json.insertChild]

/-- **add** -/
theorem add_agrees_iff (hdoc : doc.Fits (2 ^ w)) (path : String) (value : Json) :
    (applyOne w doc (.add path value)).toOption = rfcApply doc (.add path value) ↔ Conforming w doc (.add path value) := by
  have hn := index_narrows w
  have hf := Json.insertChild_reads hn value
  rw [applyOne, addAt_toOption, rfcApply, Patch.add, Conforming]
  refine (path_agrees_iff (fun toks d h => Json.modifyParent_mono hn hf hdoc h)
    fun toks d h => Json.modifyParent_iff_proper hn hf hdoc h).trans ?_
  constructor
  · rintro h ⟨toks, last, node, ht, hlast, hnode, hacc⟩
    obtain ⟨e, he⟩ := (accepts_iff value).mp hacc
    rw [← toOption_eq_some_iff, foldlM_step_toOption] at hnode
    obtain ⟨d, hd⟩ := Json.modify_isSome_iff.mpr ⟨node, e, hnode, he⟩
    exact h ⟨d, by simp only [ht, toOption_ok, Option.bind_some, Json.modifyParent, hlast, hd]⟩
  · rintro h ⟨d, hd⟩
    obtain ⟨toks, ht, hd⟩ := Option.bind_eq_some_iff.mp hd
    rw [toOption_eq_some_iff] at ht
    cases hlast : toks.getLast? with
    | none =>
      rw [List.getLast?_eq_none_iff.mp hlast] at ht
      exact properPath_of_root ht
    | some last =>
      rw [Json.modifyParent, hlast] at hd
      obtain ⟨node, e, hnode, he⟩ := Json.modify_isSome_iff.mp ⟨d, hd⟩
      rw [← foldlM_step_toOption, toOption_eq_some_iff] at hnode
      exact h ⟨toks, last, node, ht, hlast, hnode, (accepts_iff value).mpr ⟨e, he⟩⟩

/-- **One operation** agrees with the standard exactly when it conforms. -/
theorem applyOne_agrees_iff (hdoc : doc.Fits (2 ^ w)) (op : PatchOp) :
    (applyOne w doc op).toOption = rfcApply doc op ↔ Conforming w doc op := by
  cases op with
  | add path value => exact add_agrees_iff hdoc path value
  | replace path value => exact replace_agrees_iff hdoc path value
  | remove path => exact remove_agrees_iff hdoc path
  | test path value => exact test_agrees_iff hdoc path value

/-! ### Lists of operations -/

theorem applyOps_cons_toOption (i : ℕ) (op : PatchOp) (ops : List PatchOp) :
    (applyOps w i doc (op :: ops)).toOption =
      (applyOne w doc op).toOption.bind fun d => (applyOps w (i + 1) d ops).toOption := by
  rw [applyOps]
  cases applyOne w doc op <;> rfl

/-- **Conformance to RFC 6902**: applying the operations one after the other agrees with the
standard, for the list and each of its prefixes, exactly when every operation that is reached
conforms. The documents of the run are values in memory, so their arrays are shorter than `2 ^ w`. -/
theorem patch_conforms_iff (w i : ℕ) (doc : Json) (ops : List PatchOp)
    (hfits : ∀ n d, applyOps w i doc (ops.take n) = .ok d → d.Fits (2 ^ w)) :
    (∀ n, (applyOps w i doc (ops.take n)).toOption = rfcApplyAll doc (ops.take n)) ↔ ConformingAll w doc ops := by
  induction ops generalizing i doc with
  | nil => simp [ConformingAll, applyOps, rfcApplyAll]
  | cons op ops ih =>
    have hdoc : doc.Fits (2 ^ w) := hfits 0 doc rfl
    have hrest : ∀ d, applyOne w doc op = .ok d → ∀ n d', applyOps w (i + 1) d (ops.take n) = .ok d' → d'.Fits (2 ^ w) :=
      fun d hd n d' h => hfits (n + 1) d' (by rw [List.take_succ_cons, applyOps, hd]; exact h)
    rw [ConformingAll, ← applyOne_agrees_iff hdoc]
    constructor
    · intro h
      have hone : (applyOne w doc op).toOption = rfcApply doc op := by
        have := h 1
        rw [List.take_succ_cons, List.take_zero, applyOps_cons_toOption, rfcApplyAll, List.foldlM_cons] at this
        simpa [applyOps] using this
      refine ⟨hone, fun d hd => (ih (i + 1) d (hrest d hd)).mp fun n => ?_⟩
      have := h (n + 1)
      rw [List.take_succ_cons, applyOps_cons_toOption, rfcApplyAll, List.foldlM_cons, ← hone, hd] at this
      exact this
    · rintro ⟨hone, hall⟩ n
      cases n with
      | zero => rfl
      | succ n =>
        rw [List.take_succ_cons, applyOps_cons_toOption, rfcApplyAll, List.foldlM_cons, ← hone]
        cases hd : applyOne w doc op with
        | error e => rfl
        | ok d => exact (ih (i + 1) d (hrest d hd)).mpr (hall d hd) n

/-- An append through a proper path agrees with the standard. -/
theorem patch_conforms_append :
    let doc : Json := .object [("a", .array [.null])]
    let ops : List PatchOp := [.add "/a/-" (.bool true)]
    (∀ n, (applyOps 64 0 doc (ops.take n)).toOption = rfcApplyAll doc (ops.take n)) ∧
      applyOps 64 0 doc ops = .ok (.object [("a", .array [.null, .bool true])]) := by
  refine ⟨(patch_conforms_iff 64 0 _ _ fun n d h => ?_).mpr ⟨fun _ => by decide +kernel, fun _ _ => trivial⟩,
    by decide +kernel⟩
  cases n with
  | zero =>
    obtain rfl := Except.ok.inj h
    simp [Json.Fits]
  | succ n =>
    have hrun : applyOps 64 0 (.object [("a", .array [.null])]) [.add "/a/-" (.bool true)] =
        .ok (.object [("a", .array [.null, .bool true])]) := by decide +kernel
    rw [List.take_succ_cons, List.take_nil, hrun] at h
    obtain rfl := Except.ok.inj h
    simp [Json.Fits]

/-- Against the standard, an index with a leading zero is accepted, and an integer does not pass
the test for the double of the same value. -/
theorem patch_diverges :
    (applyOps 64 0 (.object [("a", .array [.null, .null])]) [.remove "/a/01"] =
        .ok (.object [("a", .array [.null])]) ∧
      rfcApplyAll (.object [("a", .array [.null, .null])]) [.remove "/a/01"] = none) ∧
    (let one : Json := .number (.int 1 (by decide))
     let double : Json := .number (.float 1.0 (by decide +kernel))
     applyOps 64 0 one [.test "" double] = .error { opIndex := 0, message := "test failed at ''" } ∧
      rfcApplyAll one [.test "" double] = some one) := by
  refine ⟨⟨by decide +kernel, by decide +kernel⟩, by decide +kernel, by decide +kernel⟩

end Forge.Contract
