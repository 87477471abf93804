import Forge.Data.FloatValue
import Forge.Json.Value

/-!
# JSON pointers and patches

RFC 6901 and the operations add, replace, remove and test of RFC 6902, over the
value type of `Forge.Json.Value`.

A pointer is parsed into its reference tokens (`Pointer.parse`). The walk through
a document is stated for any reading `ix` of tokens as array indices, so that the
readings of two implementations can be compared: `locate` finds the value a list
of tokens leads to, `modify` rewrites it. The standard is the walk with
`Pointer.index`.

The **key results** compare a strict reading with a lenient one that it narrows
(`Narrows`): where the strict walk arrives, the lenient one arrives at the same
place (`locate_mono`, `modify_mono`), and where the lenient one arrives, the
strict one does exactly when the tokens are proper on the way (`proper_of_locate`,
`modify_of_proper`). Readings that agree on the tokens that meet an array modify alike
(`modify_congr`).
-/

namespace Forge

/-! ### Equality of values -/

/-- The number a JSON number stands for. -/
def Number.value : Number → ℚ
  | .int i _ => i
  | .float x _ => floatValue x

theorem Number.value_eq_of_beq {m n : Number} (h : m.beq n = true) : m.value = n.value := by
  cases m <;> cases n
  · rw [Number.beq, beq_iff_eq] at h
    simp [Number.value, h]
  · cases h
  · cases h
  · exact floatValue_eq_of_beq h

namespace Json

mutual

/-- Equality of values as `test` compares them: numbers by their numeric value. Objects are
sorted maps, so members are compared in order. -/
def same : Json → Json → Bool
  | .null, .null => true
  | .bool a, .bool b => a == b
  | .number a, .number b => a.value == b.value
  | .string a, .string b => a == b
  | .array xs, .array ys => sameList xs ys
  | .object ms, .object ns => sameMembers ms ns
  | _, _ => false

/-- `same` on arrays. -/
def sameList : List Json → List Json → Bool
  | [], [] => true
  | x :: xs, y :: ys => x.same y && sameList xs ys
  | _, _ => false

/-- `same` on the members of objects. -/
def sameMembers : List (String × Json) → List (String × Json) → Bool
  | [], [] => true
  | (k, v) :: ms, (l, w) :: ns => k == l && v.same w && sameMembers ms ns
  | _, _ => false

end

theorem sameList_of_beqList {xs ys : List Json} (ih : ∀ x ∈ xs, ∀ y, x.beq y = true → x.same y = true)
    (h : beqList xs ys = true) : sameList xs ys = true := by
  induction xs generalizing ys with
  | nil => cases ys <;> simp_all [beqList, sameList]
  | cons x xs ihs =>
    cases ys with
    | nil => simp [beqList] at h
    | cons y ys =>
      rw [beqList, Bool.and_eq_true] at h
      rw [sameList, ih x (by simp) y h.1, ihs (fun z hz => ih z (List.mem_cons_of_mem _ hz)) h.2]
      rfl

theorem sameMembers_of_beqMembers {ms ns : List (String × Json)}
    (ih : ∀ e ∈ ms, ∀ y, e.2.beq y = true → e.2.same y = true) (h : beqMembers ms ns = true) :
    sameMembers ms ns = true := by
  induction ms generalizing ns with
  | nil => cases ns <;> simp_all [beqMembers, sameMembers]
  | cons e ms ihs =>
    cases ns with
    | nil => simp [beqMembers] at h
    | cons f ns =>
      rw [beqMembers, Bool.and_eq_true, Bool.and_eq_true] at h
      rw [sameMembers, h.1.1, ih e (by simp) f.2 h.1.2, ihs (fun z hz => ih z (List.mem_cons_of_mem _ hz)) h.2]
      rfl

/-- The library's equality implies equality of values. -/
theorem same_of_beq {a b : Json} (h : a.beq b = true) : a.same b = true := by
  induction a generalizing b with
  | null => cases b <;> simp_all [beq, same]
  | bool a => cases b <;> simp_all [beq, same]
  | string a => cases b <;> simp_all [beq, same]
  | number a =>
    cases b with
    | number b =>
      rw [beq] at h
      simp [same, Number.value_eq_of_beq h]
    | _ => simp [beq] at h
  | array xs ih =>
    cases b with
    | array ys => exact sameList_of_beqList (fun x hx y hy => ih x hx hy) h
    | _ => simp [beq] at h
  | object ms ih =>
    cases b with
    | object ns => exact sameMembers_of_beqMembers (fun e he y hy => ih e he hy) h
    | _ => simp [beq] at h

end Json

/-! ### Pointers -/

namespace Pointer

/-- Decode the escapes of a token: `~0` is a tilde and `~1` a slash; a tilde stands in no other
place. -/
def unescape : List Char → Option (List Char)
  | [] => some []
  | '~' :: '0' :: cs => (unescape cs).map ('~' :: ·)
  | '~' :: '1' :: cs => (unescape cs).map ('/' :: ·)
  | '~' :: _ => none
  | c :: cs => (unescape cs).map (c :: ·)

/-- The reference tokens of a pointer, if it is one. -/
def parse (path : String) : Option (List String) :=
  match path.toList with
  | [] => some []
  | '/' :: rest => (rest.splitOn '/').mapM fun t => (unescape t).map String.ofList
  | _ => none

/-- The array index a token stands for: `0`, or digits without a leading zero. -/
def index (token : String) : Option ℕ :=
  let cs := token.toList
  if cs ≠ [] ∧ cs.all Char.isDigit ∧ (cs = ['0'] ∨ cs.head? ≠ some '0') then some (Nat.ofDigitChars 10 cs 0) else none

end Pointer

/-! ### Walking through a document -/

namespace Json

/-- The value a token refers to. -/
def child (ix : String → Option ℕ) (token : String) : Json → Option Json
  | .object ms => Assoc.get token ms
  | .array xs => (ix token).bind fun i => xs[i]?
  | _ => none

/-- The value with what a token refers to replaced. -/
def setChild (ix : String → Option ℕ) (token : String) (v : Json) : Json → Json
  | .object ms => .object (Assoc.insert token v ms)
  | .array xs => .array ((ix token).elim xs fun i => xs.set i v)
  | j => j

/-- The value that tokens lead to. -/
def locate (ix : String → Option ℕ) : List String → Json → Option Json
  | [], j => some j
  | t :: ts, j => (child ix t j).bind (locate ix ts)

/-- Rewrite the value that tokens lead to. -/
def modify (ix : String → Option ℕ) (f : Json → Option Json) : List String → Json → Option Json
  | [], j => f j
  | t :: ts, j => (child ix t j).bind fun c => (modify ix f ts c).map fun c' => setChild ix t c' j

/-- Add a value to a container: set a member, insert before an index, or append at `-`. -/
def insertChild (ix : String → Option ℕ) (token : String) (v : Json) : Json → Option Json
  | .object ms => some (.object (Assoc.insert token v ms))
  | .array xs =>
    if token = "-" then some (.array (xs ++ [v]))
    else (ix token).bind fun i => if i ≤ xs.length then some (.array (xs.insertIdx i v)) else none
  | _ => none

/-- Remove a member or an element that exists. -/
def removeChild (ix : String → Option ℕ) (token : String) : Json → Option Json
  | .object ms => (Assoc.get token ms).map fun _ => .object (Assoc.erase token ms)
  | .array xs => (ix token).bind fun i => if i < xs.length then some (.array (xs.eraseIdx i)) else none
  | _ => none

/-- Rewrite the container that holds the place tokens lead to; `root` is the result at the root. -/
def modifyParent (ix : String → Option ℕ) (root : Option Json) (f : String → Json → Option Json) (ts : List String)
    (doc : Json) : Option Json :=
  match ts.getLast? with
  | none => root
  | some last => modify ix (f last) ts.dropLast doc

end Json

/-! ### The operations -/

namespace Patch

/-- **add**: insert at an index, append, or set a member; at the root, replace the document. -/
def add (path : String) (v doc : Json) : Option Json := do
  Json.modifyParent Pointer.index (some v) (fun t => Json.insertChild Pointer.index t v) (← Pointer.parse path) doc

/-- **replace**: the target must exist. -/
def replace (path : String) (v doc : Json) : Option Json := do
  Json.modify Pointer.index (fun _ => some v) (← Pointer.parse path) doc

/-- **remove**: the target must exist, and nothing is left of a document without its root. -/
def remove (path : String) (doc : Json) : Option Json := do
  Json.modifyParent Pointer.index none (Json.removeChild Pointer.index) (← Pointer.parse path) doc

/-- **test**: the target must exist and equal the value. -/
def test (path : String) (v doc : Json) : Option Json := do
  let target ← Json.locate Pointer.index (← Pointer.parse path) doc
  if target.same v then some doc else none

end Patch

/-! ### Strict and lenient readings -/

namespace Json

/-- Every array of the document is shorter than `N`. -/
def Fits (N : ℕ) (j : Json) : Prop := Everywhere (fun | .array xs => xs.length < N | _ => True) j

/-- The strict reading narrows the lenient one: what it reads below `N` the lenient one reads
too, and what it reads above the lenient one refuses. Neither reads the append token. -/
structure Narrows (N : ℕ) (strict lenient : String → Option ℕ) : Prop where
  read : ∀ {t i}, strict t = some i → lenient t = if i < N then some i else none
  append : lenient "-" = none

/-- The token may stand where it does: on an array it is an index, or the append token. -/
def properToken (strict : String → Option ℕ) (t : String) : Json → Bool
  | .array _ => (strict t).isSome || t = "-"
  | _ => true

/-- The tokens are proper on the lenient way through the document. -/
def proper (strict lenient : String → Option ℕ) : List String → Json → Bool
  | [], _ => true
  | t :: ts, j => properToken strict t j && (child lenient t j).all (proper strict lenient ts)

variable {N : ℕ} {strict lenient : String → Option ℕ}

theorem Fits.child {j c : Json} (h : Fits N j) {ix : String → Option ℕ} {t : String} (hc : child ix t j = some c) :
    Fits N c := by
  cases j with
  | object ms => exact h.member hc
  | array xs =>
    obtain ⟨i, -, hi⟩ := Option.bind_eq_some_iff.mp hc
    exact h.element (List.mem_of_getElem? hi)
  | _ => cases hc

theorem Fits.length {xs : List Json} (h : Fits N (.array xs)) : xs.length < N := h.here

theorem child_mono (hn : Narrows N strict lenient) {j c : Json} (hj : Fits N j) {t : String}
    (hc : child strict t j = some c) : child lenient t j = some c := by
  cases j with
  | object ms => exact hc
  | array xs =>
    obtain ⟨i, hi, hx⟩ := Option.bind_eq_some_iff.mp hc
    have hlt : i < N := ((List.getElem?_eq_some_iff.mp hx).1).trans hj.length
    rw [child, hn.read hi, if_pos hlt]
    exact hx
  | _ => cases hc

/-- Where the two readings find a child, they write to the same place. -/
theorem setChild_eq (hn : Narrows N strict lenient) {j c v : Json} (hj : Fits N j) {t : String}
    (hc : child strict t j = some c) : setChild lenient t v j = setChild strict t v j := by
  cases j with
  | object ms => rfl
  | array xs =>
    obtain ⟨i, hi, hx⟩ := Option.bind_eq_some_iff.mp hc
    have hlt : i < N := ((List.getElem?_eq_some_iff.mp hx).1).trans hj.length
    simp only [setChild, hn.read hi, if_pos hlt, hi]
  | _ => cases hc

/-- A proper token leads both readings to the same child. -/
theorem child_of_proper (hn : Narrows N strict lenient) {j c : Json} {t : String} (ht : properToken strict t j = true)
    (hc : child lenient t j = some c) : child strict t j = some c := by
  cases j with
  | object ms => exact hc
  | array xs =>
    obtain ⟨i, hi, hx⟩ := Option.bind_eq_some_iff.mp hc
    rw [properToken, Bool.or_eq_true, decide_eq_true_eq] at ht
    rcases ht with ht | rfl
    · obtain ⟨k, hk⟩ := Option.isSome_iff_exists.mp ht
      rw [hn.read hk] at hi
      split_ifs at hi
      obtain rfl := Option.some.inj hi
      simp only [child, hk, Option.bind_some, hx]
    · rw [hn.append] at hi
      cases hi
  | _ => cases hc

/-- A token that leads the strict reading somewhere is proper. -/
theorem properToken_of_child {j c : Json} {t : String} (hc : child strict t j = some c) :
    properToken strict t j = true := by
  cases j with
  | array xs =>
    obtain ⟨i, hi, -⟩ := Option.bind_eq_some_iff.mp hc
    simp [properToken, hi]
  | _ => rfl

theorem locate_mono (hn : Narrows N strict lenient) {ts : List String} {j v : Json} (hj : Fits N j)
    (h : locate strict ts j = some v) : locate lenient ts j = some v := by
  induction ts generalizing j with
  | nil => exact h
  | cons t ts ih =>
    obtain ⟨c, hc, h⟩ := Option.bind_eq_some_iff.mp h
    exact Option.bind_eq_some_iff.mpr ⟨c, child_mono hn hj hc, ih (hj.child hc) h⟩

theorem locate_of_proper (hn : Narrows N strict lenient) {ts : List String} {j v : Json}
    (hp : proper strict lenient ts j = true) (h : locate lenient ts j = some v) : locate strict ts j = some v := by
  induction ts generalizing j with
  | nil => exact h
  | cons t ts ih =>
    obtain ⟨c, hc, h⟩ := Option.bind_eq_some_iff.mp h
    rw [proper, Bool.and_eq_true, hc, Option.all_some] at hp
    exact Option.bind_eq_some_iff.mpr ⟨c, child_of_proper hn hp.1 hc, ih hp.2 h⟩

theorem proper_of_locate (hn : Narrows N strict lenient) {ts : List String} {j v : Json} (hj : Fits N j)
    (h : locate strict ts j = some v) : proper strict lenient ts j = true := by
  induction ts generalizing j with
  | nil => rfl
  | cons t ts ih =>
    obtain ⟨c, hc, h⟩ := Option.bind_eq_some_iff.mp h
    rw [proper, properToken_of_child hc, child_mono hn hj hc, Option.all_some, ih (hj.child hc) h]
    rfl

/-- A value is modified exactly when it is located and can be rewritten. -/
theorem modify_isSome_iff {ix : String → Option ℕ} {f : Json → Option Json} {ts : List String} {j : Json} :
    (∃ d, modify ix f ts j = some d) ↔ ∃ v e, locate ix ts j = some v ∧ f v = some e := by
  induction ts generalizing j with
  | nil => simp [modify, locate]
  | cons t ts ih => cases h : child ix t j <;> simp [modify, locate, h, Option.map_eq_some_iff, ih]

theorem locate_append {ix : String → Option ℕ} {ts us : List String} {j : Json} :
    locate ix (ts ++ us) j = (locate ix ts j).bind (locate ix us) := by
  induction ts generalizing j with
  | nil => rfl
  | cons t ts ih => cases h : child ix t j <;> simp [locate, h, ih]

/-- Something is removed exactly when the place exists and is not the root. -/
theorem remove_isSome_iff {ix : String → Option ℕ} {ts : List String} {j : Json} :
    (∃ d, modifyParent ix none (removeChild ix) ts j = some d) ↔ ts ≠ [] ∧ ∃ v, locate ix ts j = some v := by
  have child_iff (t : String) (v : Json) : (∃ e, removeChild ix t v = some e) ↔ ∃ c, child ix t v = some c := by
    cases v with
    | object ms => cases h : Assoc.get t ms <;> simp [removeChild, child, h]
    | array xs =>
      cases h : ix t with
      | none => simp [removeChild, child, h]
      | some i => simp [removeChild, child, h, List.getElem?_eq_some_iff]
    | _ => simp [removeChild, child]
  unfold modifyParent
  cases hlast : ts.getLast? with
  | none => simp [List.getLast?_eq_none_iff.mp hlast]
  | some last =>
    obtain ⟨ps, rfl⟩ : ∃ ps, ts = ps ++ [last] := ⟨_, (List.dropLast_append_getLast? last hlast).symm⟩
    have hlocate (v : Json) : locate ix [last] v = child ix last v := by
      cases h : child ix last v <;> simp [locate, h]
    simp only [List.dropLast_concat, modify_isSome_iff, locate_append, Option.bind_eq_some_iff, hlocate]
    constructor
    · rintro ⟨v, e, hv, he⟩
      obtain ⟨c, hc⟩ := (child_iff last v).mp ⟨e, he⟩
      exact ⟨by simp, c, v, hv, hc⟩
    · rintro ⟨-, c, v, hv, hc⟩
      obtain ⟨e, he⟩ := (child_iff last v).mpr ⟨c, hc⟩
      exact ⟨v, e, hv, he⟩

theorem modify_mono (hn : Narrows N strict lenient) {f g : Json → Option Json} {ts : List String} {j d : Json}
    (hj : Fits N j) (hfg : ∀ v e, Fits N v → f v = some e → g v = some e) (h : modify strict f ts j = some d) :
    modify lenient g ts j = some d := by
  induction ts generalizing j d with
  | nil => exact hfg j d hj h
  | cons t ts ih =>
    obtain ⟨c, hc, h⟩ := Option.bind_eq_some_iff.mp h
    obtain ⟨d', hd', rfl⟩ := Option.map_eq_some_iff.mp h
    refine Option.bind_eq_some_iff.mpr ⟨c, child_mono hn hj hc, Option.map_eq_some_iff.mpr ⟨d', ?_, ?_⟩⟩
    · exact ih (hj.child hc) hd'
    · exact setChild_eq hn hj hc

theorem modify_of_proper (hn : Narrows N strict lenient) {f g : Json → Option Json} {ts : List String} {j d : Json}
    (hj : Fits N j) (hp : proper strict lenient ts j = true)
    (hfg : ∀ v e, locate lenient ts j = some v → f v = some e → g v = some e)
    (h : modify lenient f ts j = some d) : modify strict g ts j = some d := by
  induction ts generalizing j d with
  | nil => exact hfg j d rfl h
  | cons t ts ih =>
    obtain ⟨c, hc, h⟩ := Option.bind_eq_some_iff.mp h
    obtain ⟨d', hd', rfl⟩ := Option.map_eq_some_iff.mp h
    rw [proper, Bool.and_eq_true, hc, Option.all_some] at hp
    have hs := child_of_proper hn hp.1 hc
    refine Option.bind_eq_some_iff.mpr ⟨c, hs, Option.map_eq_some_iff.mpr ⟨d', ?_, ?_⟩⟩
    · exact ih (hj.child hc) hp.2 (fun v e hv he => hfg v e (Option.bind_eq_some_iff.mpr ⟨c, hc, hv⟩) he) hd'
    · exact (setChild_eq hn hj hs).symm

theorem proper_append {ts : List String} {t : String} {j : Json} : proper strict lenient (ts ++ [t]) j = true ↔
    proper strict lenient ts j = true ∧ ∀ v, locate lenient ts j = some v → properToken strict t v = true := by
  induction ts generalizing j with
  | nil => cases h : child lenient t j <;> simp [proper, locate, h]
  | cons s ts ih => cases h : child lenient s j <;> simp [proper, locate, h, ih, and_assoc]

/-- Rewriting a container by its token: `f` under the strict reading, `g` under the lenient one. -/
structure TokenReads (N : ℕ) (strict : String → Option ℕ) (f g : String → Json → Option Json) : Prop where
  mono : ∀ {t v e}, Fits N v → f t v = some e → g t v = some e
  of_proper : ∀ {t v e}, properToken strict t v = true → g t v = some e → f t v = some e
  proper : ∀ {t v e}, f t v = some e → properToken strict t v = true

theorem insertChild_reads (hn : Narrows N strict lenient) (x : Json) :
    TokenReads N strict (fun t => insertChild strict t x) (fun t => insertChild lenient t x) where
  mono {t v e} hv h := by
    cases v with
    | array xs =>
      simp only [insertChild] at h ⊢
      split_ifs with ht
      · rwa [if_pos ht] at h
      · rw [if_neg ht] at h
        obtain ⟨i, hi, h⟩ := Option.bind_eq_some_iff.mp h
        split_ifs at h with hlen
        rw [hn.read hi, if_pos (hlen.trans_lt hv.length), Option.bind_some, if_pos hlen]
        exact h
    | _ => exact h
  of_proper {t v e} ht h := by
    cases v with
    | array xs =>
      simp only [insertChild] at h ⊢
      split_ifs with hd
      · rwa [if_pos hd] at h
      · rw [if_neg hd] at h
        obtain ⟨i, hi, h⟩ := Option.bind_eq_some_iff.mp h
        obtain ⟨k, hk⟩ := Option.isSome_iff_exists.mp (by simpa [properToken, hd] using ht)
        rw [hn.read hk] at hi
        split_ifs at hi
        obtain rfl := Option.some.inj hi
        rw [hk, Option.bind_some]
        exact h
    | _ => exact h
  proper {t v e} h := by
    cases v with
    | array xs =>
      simp only [insertChild] at h
      split_ifs at h with hd
      · simp [properToken, hd]
      · obtain ⟨i, hi, -⟩ := Option.bind_eq_some_iff.mp h
        simp [properToken, hi]
    | _ => rfl

theorem removeChild_reads (hn : Narrows N strict lenient) :
    TokenReads N strict (removeChild strict) (removeChild lenient) where
  mono {t v e} hv h := by
    cases v with
    | array xs =>
      obtain ⟨i, hi, h⟩ := Option.bind_eq_some_iff.mp h
      split_ifs at h with hlen
      rw [removeChild, hn.read hi, if_pos (hlen.trans hv.length), Option.bind_some, if_pos hlen]
      exact h
    | _ => exact h
  of_proper {t v e} ht h := by
    cases v with
    | array xs =>
      obtain ⟨i, hi, h⟩ := Option.bind_eq_some_iff.mp h
      rw [properToken, Bool.or_eq_true, decide_eq_true_eq] at ht
      rcases ht with ht | rfl
      · obtain ⟨k, hk⟩ := Option.isSome_iff_exists.mp ht
        rw [hn.read hk] at hi
        split_ifs at hi
        obtain rfl := Option.some.inj hi
        rw [removeChild, hk, Option.bind_some]
        exact h
      · rw [hn.append] at hi
        cases hi
    | _ => exact h
  proper {t v e} h := by
    cases v with
    | array xs =>
      obtain ⟨i, hi, -⟩ := Option.bind_eq_some_iff.mp h
      simp [properToken, hi]
    | _ => rfl

variable {f g : String → Json → Option Json} {root : Option Json}

theorem modifyParent_mono (hn : Narrows N strict lenient) (hf : TokenReads N strict f g) {ts : List String} {j d : Json}
    (hj : Fits N j) (h : modifyParent strict root f ts j = some d) : modifyParent lenient root g ts j = some d := by
  unfold modifyParent at h ⊢
  split at h
  · exact h
  · exact modify_mono hn hj (fun _ _ hv => hf.mono hv) h

/-- Where the lenient reading succeeds, the strict one does exactly on proper tokens. -/
theorem modifyParent_iff_proper (hn : Narrows N strict lenient) (hf : TokenReads N strict f g) {ts : List String}
    {j d : Json} (hj : Fits N j) (h : modifyParent lenient root g ts j = some d) :
    modifyParent strict root f ts j = some d ↔ proper strict lenient ts j = true := by
  unfold modifyParent at h ⊢
  cases hlast : ts.getLast? with
  | none =>
    rw [hlast] at h
    simpa [List.getLast?_eq_none_iff.mp hlast, proper] using h
  | some last =>
    obtain ⟨ps, rfl⟩ : ∃ ps, ts = ps ++ [last] := ⟨_, (List.dropLast_append_getLast? last hlast).symm⟩
    simp only [List.getLast?_append_of_ne_nil _ (List.cons_ne_nil _ _), List.dropLast_concat, List.getLast?_singleton] at h ⊢
    rw [proper_append]
    constructor
    · intro hs
      obtain ⟨v, e, hv, he⟩ := modify_isSome_iff.mp ⟨d, hs⟩
      refine ⟨proper_of_locate hn hj hv, fun u hu => ?_⟩
      rw [locate_mono hn hj hv] at hu
      obtain rfl := Option.some.inj hu
      exact hf.proper he
    · rintro ⟨hp, ht⟩
      exact modify_of_proper hn hj hp (fun v e hv he => hf.of_proper (ht v hv) he) h

/-! ### Two readings that agree on the way -/

/-- Every token that meets an array on the way satisfies `P`. -/
def Meets (P : String → Prop) (ix : String → Option ℕ) : List String → Json → Prop
  | [], _ => True
  | t :: ts, j => (∀ xs, j = .array xs → P t) ∧ ∀ c, child ix t j = some c → Meets P ix ts c

section Congruence

variable {ix ix' : String → Option ℕ} {f : Json → Option Json} {P : String → Prop} {t : String} {j : Json}

theorem child_congr (hj : Fits N j) (h : ∀ xs, j = .array xs → ∀ i < N, ix t = some i ↔ ix' t = some i) :
    child ix t j = child ix' t j := by
  cases j with
  | array xs =>
    have h := h xs rfl
    refine Option.ext fun c => ?_
    rw [child, child, Option.bind_eq_some_iff, Option.bind_eq_some_iff]
    refine exists_congr fun i => and_congr_left fun hi => h i ?_
    exact (List.getElem?_eq_some_iff.mp hi).1.trans hj.length
  | _ => rfl

theorem setChild_congr (hj : Fits N j) (h : ∀ xs, j = .array xs → ∀ i < N, ix t = some i ↔ ix' t = some i)
    {c : Json} (hc : child ix t j = some c) (v : Json) : setChild ix t v j = setChild ix' t v j := by
  cases j with
  | array xs =>
    obtain ⟨i, hi, hx⟩ := Option.bind_eq_some_iff.mp hc
    have hi' := (h xs rfl i ((List.getElem?_eq_some_iff.mp hx).1.trans hj.length)).mp hi
    rw [setChild, setChild, hi, hi']
  | _ => rfl

/-- Readings that agree on every token that meets an array modify the same place. -/
theorem modify_congr (hP : ∀ t, P t → ∀ i < N, ix t = some i ↔ ix' t = some i) {ts : List String} (hj : Fits N j)
    (hm : Meets P ix' ts j) : modify ix f ts j = modify ix' f ts j := by
  induction ts generalizing j with
  | nil => rfl
  | cons t ts ih =>
    obtain ⟨ht, hrest⟩ := hm
    have hagree : ∀ xs, j = .array xs → ∀ i < N, ix t = some i ↔ ix' t = some i := fun xs hxs => hP t (ht xs hxs)
    rw [modify, modify, child_congr hj hagree]
    cases hc : child ix' t j with
    | none => rfl
    | some c =>
      rw [Option.bind_some, Option.bind_some, ih (hj.child hc) (hrest c hc)]
      have hc' : child ix t j = some c := (child_congr hj hagree).trans hc
      simp only [setChild_congr hj hagree hc']

end Congruence

theorem Fits.setChild {j v : Json} (hj : Fits N j) (hv : Fits N v) (ix : String → Option ℕ) (t : String) :
    Fits N (setChild ix t v j) := by
  cases j with
  | object ms =>
    refine everywhere_object.mpr ⟨trivial, fun e he => ?_⟩
    obtain rfl | he := Assoc.mem_insert he
    · exact hv
    · exact (everywhere_object.mp hj).2 e he
  | array xs =>
    rw [Json.setChild]
    cases ix t with
    | none => exact hj
    | some i =>
      refine everywhere_array.mpr ⟨?_, fun x hx => ?_⟩
      · show (xs.set i v).length < N
        rw [List.length_set]
        exact hj.length
      · obtain hx | rfl := List.mem_or_eq_of_mem_set hx
        · exact hj.element hx
        · exact hv
  | _ => exact hj

/-- Replacing a value by one that fits keeps the document fitting. -/
theorem Fits.replace {ix : String → Option ℕ} {v d : Json} {ts : List String} {j : Json} (hj : Fits N j)
    (hv : Fits N v) (h : modify ix (fun _ => some v) ts j = some d) : Fits N d := by
  induction ts generalizing j d with
  | nil =>
    obtain rfl := Option.some.inj h
    exact hv
  | cons t ts ih =>
    obtain ⟨c, hc, h⟩ := Option.bind_eq_some_iff.mp h
    obtain ⟨c', hc', rfl⟩ := Option.map_eq_some_iff.mp h
    exact hj.setChild (ih (hj.child hc) hc') ix t

end Json

end Forge
