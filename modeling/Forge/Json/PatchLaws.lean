import Forge.Json.Pointer

/-!
# Laws of patches

Laws of the walk through a document, for any reading `ix` of tokens as array indices: what is found after
something was written (`locate_modify`), two rewritings of one place (`modify_modify`), and rewriting a place to
what it is (`modify_eq_self`). **`removeChild_insertChild`**: a value that is added at a vacant place and removed
again leaves the container as it was.

`Pointer.format` spells a pointer; `parse_format` reads it back.
-/

namespace Forge

/-! ### Spelling pointers -/

namespace Pointer

/-- `~` is escaped as `~0` and `/` as `~1`. -/
def escapeChar : Char → List Char
  | '~' => ['~', '0']
  | '/' => ['~', '1']
  | c => [c]

def escape (cs : List Char) : List Char := cs.flatMap escapeChar

/-- The pointer with these reference tokens. -/
def format (tokens : List String) : String := String.ofList (tokens.flatMap fun t => '/' :: escape t.toList)

theorem escape_cons (c : Char) (cs : List Char) : escape (c :: cs) = escapeChar c ++ escape cs := List.flatMap_cons

theorem unescape_escape (cs : List Char) : unescape (escape cs) = some cs := by
  induction cs with
  | nil => rfl
  | cons c cs ih =>
    rw [escape_cons]
    by_cases htilde : c = '~'
    · subst htilde
      simp [escapeChar, unescape, ih]
    · by_cases hslash : c = '/'
      · subst hslash
        simp [escapeChar, unescape, ih]
      · have hplain : escapeChar c = [c] := by
          unfold escapeChar
          split <;> simp_all
        rw [hplain, List.singleton_append, unescape]
        · rw [ih]
          rfl
        · exact fun _ h => absurd h htilde
        · exact fun _ h => absurd h htilde
        · exact htilde

theorem slash_notMem_escape (cs : List Char) : '/' ∉ escape cs := by
  simp only [escape, List.mem_flatMap, not_exists, not_and]
  intro c _ h
  unfold escapeChar at h
  split at h
  · simp at h
  · simp at h
  · exact absurd (List.mem_singleton.mp h).symm ‹_›

theorem flatMap_slash {ts : List (List Char)} (h : ts ≠ []) :
    ts.flatMap (fun t => '/' :: t) = '/' :: ['/'].intercalate ts := by
  induction ts with
  | nil => exact absurd rfl h
  | cons t ts ih =>
    cases ts with
    | nil => simp [List.intercalate]
    | cons u ts =>
      rw [List.flatMap_cons, ih (List.cons_ne_nil _ _)]
      simp [List.intercalate, List.intersperse]

/-- **A pointer is read as the tokens it was made of.** -/
theorem parse_format (ts : List String) : parse (format ts) = some ts := by
  unfold parse format
  rw [String.toList_ofList]
  cases ts with
  | nil => rfl
  | cons t ts =>
    have hmap : ((t :: ts).flatMap fun t => '/' :: escape t.toList) =
        ((t :: ts).map fun t => escape t.toList).flatMap fun t => '/' :: t := by
      rw [List.flatMap_map]
    rw [hmap, flatMap_slash (List.map_eq_nil_iff.not.mpr (List.cons_ne_nil _ _))]
    change (List.splitOn '/' _).mapM _ = _
    rw [List.splitOn_intercalate]
    · rw [List.mapM_map]
      have hread : ∀ t : String, (unescape (escape t.toList)).map String.ofList = some t := by
        intro t
        rw [unescape_escape, Option.map_some, String.ofList_toList]
      induction t :: ts with
      | nil => rfl
      | cons t ts ih => simp [List.mapM_cons, hread, ih]
    · exact List.forall_mem_map.mpr fun t _ => slash_notMem_escape t.toList
    · exact List.cons_ne_nil _ _

end Pointer

namespace Json

variable {ix : String → Option ℕ} {t : String} {j c v : Json}

/-! ### One step -/

/-- What was written is found. -/
theorem child_setChild (h : child ix t j = some c) : child ix t (setChild ix t v j) = some v := by
  cases j with
  | object ms => exact (Assoc.get_insert _ _ _ _).trans (if_pos rfl)
  | array xs =>
    obtain ⟨i, hi, hx⟩ := Option.bind_eq_some_iff.mp h
    have hlt := (List.getElem?_eq_some_iff.mp hx).1
    simp [setChild, child, hi, hlt]
  | _ => cases h

theorem setChild_setChild (v w j : Json) : setChild ix t w (setChild ix t v j) = setChild ix t w j := by
  cases j with
  | object ms => exact congrArg Json.object (Assoc.insert_insert _ _ _ _)
  | array xs => cases h : ix t <;> simp [setChild, h]
  | _ => rfl

theorem setChild_child (hj : j.WF) (h : child ix t j = some c) : setChild ix t c j = j := by
  cases j with
  | object ms => exact congrArg Json.object (Assoc.insert_eq_self hj.here h)
  | array xs =>
    obtain ⟨i, hi, hx⟩ := Option.bind_eq_some_iff.mp h
    obtain ⟨hlt, rfl⟩ := List.getElem?_eq_some_iff.mp hx
    simp [setChild, hi]
  | _ => cases h

theorem WF.child (hj : j.WF) (h : child ix t j = some c) : c.WF := by
  cases j with
  | object ms => exact Everywhere.member hj h
  | array xs =>
    obtain ⟨i, -, hx⟩ := Option.bind_eq_some_iff.mp h
    exact Everywhere.element hj (List.mem_of_getElem? hx)
  | _ => cases h

/-! ### Walks -/

variable {f g : Json → Option Json} {ts : List String} {d : Json}

/-- What is found after a rewriting. -/
theorem locate_modify (h : modify ix f ts j = some d) :
    ∃ n e, locate ix ts j = some n ∧ f n = some e ∧ locate ix ts d = some e := by
  induction ts generalizing j d with
  | nil => exact ⟨j, d, rfl, h, rfl⟩
  | cons t ts ih =>
    obtain ⟨c, hc, h⟩ := Option.bind_eq_some_iff.mp h
    obtain ⟨c', hc', rfl⟩ := Option.map_eq_some_iff.mp h
    obtain ⟨n, e, hn, he, hd⟩ := ih hc'
    exact ⟨n, e, Option.bind_eq_some_iff.mpr ⟨c, hc, hn⟩, he, Option.bind_eq_some_iff.mpr ⟨c', child_setChild hc, hd⟩⟩

/-- **Two rewritings of one place are one.** -/
theorem modify_modify (h : modify ix f ts j = some d) :
    modify ix g ts d = modify ix (fun n => (f n).bind g) ts j := by
  induction ts generalizing j d with
  | nil =>
    rw [modify, modify, show f j = some d from h]
    rfl
  | cons t ts ih =>
    obtain ⟨c, hc, h⟩ := Option.bind_eq_some_iff.mp h
    obtain ⟨c', hc', rfl⟩ := Option.map_eq_some_iff.mp h
    rw [modify, modify, child_setChild hc, hc, Option.bind_some, Option.bind_some, ih hc']
    simp only [setChild_setChild]

/-- Rewriting a place to what it is changes nothing. -/
theorem modify_eq_self {n : Json} (hj : j.WF) (hn : locate ix ts j = some n) (hf : f n = some n) :
    modify ix f ts j = some j := by
  induction ts generalizing j with
  | nil =>
    obtain rfl := Option.some.inj hn
    exact hf
  | cons t ts ih =>
    obtain ⟨c, hc, hn⟩ := Option.bind_eq_some_iff.mp hn
    rw [modify, hc, Option.bind_some, ih (hj.child hc) hn, Option.map_some, setChild_child hj hc]

theorem WF.locate {n : Json} (hj : j.WF) (h : locate ix ts j = some n) : n.WF := by
  induction ts generalizing j with
  | nil =>
    obtain rfl := Option.some.inj h
    exact hj
  | cons t ts ih =>
    obtain ⟨c, hc, h⟩ := Option.bind_eq_some_iff.mp h
    exact ih (hj.child hc) h

/-! ### Adding and removing -/

/-- Nothing stands under a token: no member of an object has this name, or the token is an index of an array or its
length. -/
def Vacant (ix : String → Option ℕ) (t : String) : Json → Prop
  | .object ms => Assoc.get t ms = none
  | .array xs => ∃ i, ix t = some i ∧ i ≤ xs.length
  | _ => False

theorem insertChild_isSome (happend : ix "-" = none) (h : Vacant ix t j) (v : Json) :
    ∃ e, insertChild ix t v j = some e := by
  cases j with
  | object ms => exact ⟨_, rfl⟩
  | array xs =>
    obtain ⟨i, hi, hle⟩ := h
    have ht : t ≠ "-" := fun ht => by
      rw [ht, happend] at hi
      cases hi
    simp [insertChild, ht, hi, hle]
  | _ => exact h.elim

/-- **Adding and removing at a vacant place.** -/
theorem removeChild_insertChild (happend : ix "-" = none) (hj : j.WF) (h : Vacant ix t j) {e : Json}
    (he : insertChild ix t v j = some e) : removeChild ix t e = some j := by
  cases j with
  | object ms =>
    obtain rfl := Option.some.inj he
    rw [removeChild, Assoc.get_insert, if_pos rfl, Option.map_some, Assoc.erase_insert hj.here v h]
  | array xs =>
    obtain ⟨i, hi, hle⟩ := h
    have ht : t ≠ "-" := fun ht => by
      rw [ht, happend] at hi
      cases hi
    rw [insertChild, if_neg ht, hi, Option.bind_some, if_pos hle] at he
    obtain rfl := Option.some.inj he
    have hlt : i < (xs.insertIdx i v).length := by
      rw [List.length_insertIdx_of_le_length hle]
      exact Nat.lt_succ_of_le hle
    simp [removeChild, hi, hlt]
  | _ => exact h.elim

end Json

end Forge
