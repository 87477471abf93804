import Forge.Contract.Patch
import Forge.Json.PatchLaws

/-!
# Laws of contract patches

What an operation undoes and what it leaves alone. A pointer is given by its keys, which `Pointer.format` escapes.

`add` and then `remove` restores the document (`removeAt_addAt`), and what was replaced is found
(`resolve_replace`). A replacement leaves alone what stands at another place. Since an array index may be
spelled with a sign and with leading zeros, different keys can be one place: **`patchLaws_iff`** says that the
laws hold exactly where the two pointers lead to separate places (`SeparatePlaces`).
-/

namespace Forge.Contract

/-- A document of `serde_json`: its objects are sorted maps. -/
abbrev Document : Type := { d : Json // d.WF }

/-! ### Places -/

/-- Two tokens refer to different members or elements of a node. -/
def Parted (w : ℕ) (s t : String) : Json → Prop
  | .object _ => s ≠ t
  | .array _ => parseUsize w s ≠ parseUsize w t
  | _ => True

/-- On the way of two lists of keys through a document there comes a node where they part. -/
def Apart (w : ℕ) : List String → List String → Json → Prop
  | s :: ss, t :: ts, node => Parted w s t node ∨ ∃ child, step w node s = .ok child ∧ Apart w ss ts child
  | _, _, _ => False

/-- There is room under the last key: no member of this name, or an index up to the length. -/
def Room (w : ℕ) (last : String) : Json → Prop
  | .object m => Assoc.get last m = none
  | .array a => ∃ i, parseUsize w last = some i ∧ i ≤ a.length
  | _ => False

/-! ### The laws -/

/-- The laws of patches for a document, the keys of a pointer, and another pointer. -/
structure PatchLaws (w : ℕ) (d : Document) (keys : List String) (other : String) : Prop where
  /-- `add` where there is room, and then `remove`, restores the document. -/
  restore : ∀ parents last node value, keys = parents ++ [last] → resolve w d.val (Pointer.format parents) = .ok node →
    Room w last node → ∃ d', applyOne w d.val (.add (Pointer.format keys) value) = .ok d' ∧
      applyOne w d' (.remove (Pointer.format keys)) = .ok d.val
  /-- What was replaced is found. -/
  found : ∀ value d', applyOne w d.val (.replace (Pointer.format keys) value) = .ok d' →
    resolve w d' (Pointer.format keys) = .ok value
  /-- What a pointer finds that neither continues this one nor is continued by it is as before. -/
  frame : (∀ others, splitPointer other = .ok others → ¬keys <+: others ∧ ¬others <+: keys) → ∀ value d',
    applyOne w d.val (.replace (Pointer.format keys) value) = .ok d' → resolve w d' other = resolve w d.val other

/-- Pointers of which neither continues the other lead to separate places, if the first leads anywhere. -/
def SeparatePlaces (w : ℕ) (d : Document) (keys : List String) (other : String) : Prop :=
  ∀ others, splitPointer other = .ok others → ¬keys <+: others → ¬others <+: keys →
    (∃ x, resolve w d.val (Pointer.format keys) = .ok x) → Apart w keys others d.val

theorem splitPointer_format (keys : List String) : splitPointer (Pointer.format keys) = .ok keys :=
  splitPointer_of_parse (Pointer.parse_format keys)

theorem resolve_format (w : ℕ) (d : Json) (keys : List String) :
    resolve w d (Pointer.format keys) = keys.foldlM (step w) d := by
  rw [resolve, splitPointer_format]
  rfl

theorem replace_format (w : ℕ) (d value : Json) (keys : List String) :
    applyOne w d (.replace (Pointer.format keys) value) = modifyAt w (fun _ => .ok value) keys d := by
  rw [applyOne, splitPointer_format]
  rfl

section

variable {w : ℕ} {d : Document} {keys others : List String}

/-! ### Adding and removing -/

/-- What `removeAt_addAt` needs of a `usize`: `-` is none. -/
theorem parseUsize_append (w : ℕ) : parseUsize w "-" = none := (index_narrows w).append

theorem vacant_of_room {last : String} {node : Json} (h : Room w last node) :
    Json.Vacant (parseUsize w) last node := by
  cases node with
  | object m => exact h
  | array a => exact h
  | _ => exact h.elim

/-- **`add` and then `remove` restores the document.** -/
theorem removeAt_addAt {parents : List String} {last : String} {node : Json} (value : Json)
    (hkeys : keys = parents ++ [last]) (hnode : parents.foldlM (step w) d.val = .ok node) (hroom : Room w last node) :
    ∃ d', applyOne w d.val (.add (Pointer.format keys) value) = .ok d' ∧
      applyOne w d' (.remove (Pointer.format keys)) = .ok d.val := by
  subst hkeys
  have happend := parseUsize_append w
  have hvacant := vacant_of_room hroom
  have hlocate : d.val.locate (parseUsize w) parents = some node := by
    rw [← foldlM_step_toOption, hnode]
    rfl
  obtain ⟨e, he⟩ := Json.insertChild_isSome happend hvacant value
  obtain ⟨d', hd'⟩ := Json.modify_isSome_iff.mpr ⟨node, e, hlocate, he⟩
  have hnodeWf : node.WF := Json.WF.locate d.property hlocate
  have hback : (Json.insertChild (parseUsize w) last value node).bind (Json.removeChild (parseUsize w) last) = some node := by
    rw [he]
    exact Json.removeChild_insertChild happend hnodeWf hvacant he
  refine ⟨d', ?_, ?_⟩
  · rw [← toOption_eq_some_iff, applyOne, addAt_toOption, splitPointer_format]
    simp only [toOption_ok, Option.bind_some, Json.modifyParent, List.getLast?_concat, List.dropLast_concat]
    exact hd'
  · rw [← toOption_eq_some_iff, applyOne, removeAt_toOption, splitPointer_format]
    simp only [toOption_ok, Option.bind_some, Json.modifyParent, List.getLast?_concat, List.dropLast_concat]
    rw [Json.modify_modify hd']
    exact Json.modify_eq_self d.property hlocate hback

/-! ### Replacing -/

/-- **What was replaced is found.** -/
theorem resolve_replace {node value d' : Json} (h : modifyAt w (fun _ => .ok value) keys node = .ok d') :
    keys.foldlM (step w) d' = .ok value := by
  rw [← toOption_eq_some_iff, modifyAt_toOption] at h
  obtain ⟨n, e, -, he, hd'⟩ := Json.locate_modify h
  obtain rfl := Option.some.inj he
  rw [← toOption_eq_some_iff, foldlM_step_toOption]
  exact hd'

/-- A step to where nothing was written is as before. -/
theorem step_setChild_of_parted {s t : String} {node c c' : Json} (hc : step w node s = .ok c)
    (h : Parted w s t node) : step w (Json.setChild (parseUsize w) s c' node) t = step w node t := by
  cases node with
  | object m =>
    have hne : t ≠ s := fun hts => h hts.symm
    simp only [Json.setChild, step, Assoc.get_insert, if_neg hne]
  | array a =>
    cases hs : parseUsize w s with
    | none => simp [step, hs] at hc
    | some i =>
      have hne : parseUsize w t ≠ some i := fun ht => h (hs.trans ht.symm)
      cases ht : parseUsize w t with
      | none => simp [Json.setChild, step, hs, ht]
      | some k =>
        have hik : i ≠ k := fun hik => hne (ht.trans (congrArg some hik.symm))
        simp [Json.setChild, step, hs, ht, List.getElem?_set_ne hik]
  | _ => cases hc

/-- A step to where something was written leads to it. -/
theorem step_setChild_of_not_parted {s t : String} {node c u : Json} (hc : step w node s = .ok c)
    (h : ¬Parted w s t node) :
    step w node t = .ok c ∧ step w (Json.setChild (parseUsize w) s u node) t = .ok u := by
  cases node with
  | object m =>
    obtain rfl : s = t := not_not.mp h
    exact ⟨hc, by simp [Json.setChild, step]⟩
  | array a =>
    have hst : parseUsize w s = parseUsize w t := not_not.mp h
    cases hs : parseUsize w s with
    | none => simp [step, hs] at hc
    | some i =>
      have ht := hst.symm.trans hs
      have hsame : step w (.array a) t = step w (.array a) s := by
        cases hi : a[i]? with
        | none => simp [step, hs, hi] at hc
        | some x => simp [step, hs, ht, hi]
      refine ⟨hsame.trans hc, ?_⟩
      cases hi : a[i]? with
      | none => simp [step, hs, hi] at hc
      | some x =>
        have hlt := (List.getElem?_eq_some_iff.mp hi).1
        simp [Json.setChild, step, hs, ht, hlt]
  | _ => cases hc

/-- Taking a rewriting apart at its first step. -/
theorem modifyAt_cons_eq_ok {f : Json → Except String Json} {key : String} {node d' : Json} :
    modifyAt w f (key :: keys) node = .ok d' ↔ ∃ c c', step w node key = .ok c ∧ modifyAt w f keys c = .ok c' ∧
      d' = Json.setChild (parseUsize w) key c' node := by
  rw [modifyAt]
  constructor
  · intro h
    obtain ⟨c, hc, h⟩ := bind_eq_ok.mp h
    obtain ⟨c', hc', h⟩ := bind_eq_ok.mp h
    exact ⟨c, c', hc, hc', (pure_eq_ok.mp h).symm⟩
  · rintro ⟨c, c', hc, hc', rfl⟩
    exact bind_eq_ok.mpr ⟨c, hc, bind_eq_ok.mpr ⟨c', hc', rfl⟩⟩

theorem foldlM_step_cons_of_ok {key : String} {node c : Json} (h : step w node key = .ok c) :
    (key :: keys).foldlM (step w) node = keys.foldlM (step w) c := by
  rw [List.foldlM_cons, h]
  rfl

/-- **Separate places**: what stands at the other one is as before. -/
theorem frame_of_apart {node value d' : Json} (happart : Apart w keys others node)
    (h : modifyAt w (fun _ => .ok value) keys node = .ok d') :
    others.foldlM (step w) d' = others.foldlM (step w) node := by
  induction keys generalizing others node d' with
  | nil => exact happart.elim
  | cons s keys ih =>
    cases others with
    | nil => exact happart.elim
    | cons t others =>
      obtain ⟨c, c', hc, hc', rfl⟩ := modifyAt_cons_eq_ok.mp h
      by_cases hparted : Parted w s t node
      · rw [List.foldlM_cons, List.foldlM_cons, step_setChild_of_parted hc hparted]
      · obtain ⟨hbefore, hafter⟩ := step_setChild_of_not_parted (u := c') hc hparted
        obtain ⟨child, hchild, hrest⟩ := happart.resolve_left hparted
        obtain rfl : c = child := Except.ok.inj (hc.symm.trans hchild)
        rw [foldlM_step_cons_of_ok hafter, foldlM_step_cons_of_ok hbefore]
        exact ih hrest hc'

/-- Objects in one another, down to which these keys lead. -/
def nested : List String → Json
  | [] => .null
  | key :: keys => .object [(key, nested keys)]

theorem foldlM_step_nested (w : ℕ) (keys : List String) : keys.foldlM (step w) (nested keys) = .ok .null := by
  induction keys with
  | nil => rfl
  | cons key keys ih =>
    have hstep : step w (nested (key :: keys)) key = .ok (nested keys) := by simp [nested, step, Assoc.get]
    rw [foldlM_step_cons_of_ok hstep]
    exact ih

theorem foldlM_step_bool_ne (w : ℕ) (keys : List String) : keys.foldlM (step w) (.bool true) ≠ .ok .null := by
  cases keys with
  | nil => exact fun h => by cases h
  | cons key keys => exact fun h => by cases h

/-- A replacement can be made where something is found. -/
theorem exists_modifyAt {node x : Json} (h : keys.foldlM (step w) node = .ok x) (value : Json) :
    ∃ d', modifyAt w (fun _ => .ok value) keys node = .ok d' := by
  rw [← toOption_eq_some_iff, foldlM_step_toOption] at h
  obtain ⟨d', hd'⟩ : ∃ d', node.modify (parseUsize w) (fun _ => some value) keys = some d' :=
    Json.modify_isSome_iff.mpr ⟨x, value, h, rfl⟩
  refine ⟨d', ?_⟩
  rw [← toOption_eq_some_iff, modifyAt_toOption]
  exact hd'

/-- What is replaced was found. -/
theorem exists_found {node value d' : Json} (h : modifyAt w (fun _ => .ok value) keys node = .ok d') :
    ∃ x, keys.foldlM (step w) node = .ok x := by
  rw [← toOption_eq_some_iff, modifyAt_toOption] at h
  obtain ⟨x, -, hx, -, -⟩ := Json.locate_modify h
  refine ⟨x, ?_⟩
  rw [← toOption_eq_some_iff, foldlM_step_toOption]
  exact hx

/-- **One place inside the other**: some replacement changes what is found. -/
theorem exists_change {node x : Json} (hfound : keys.foldlM (step w) node = .ok x) (happart : ¬Apart w keys others node) :
    ∃ value d', modifyAt w (fun _ => .ok value) keys node = .ok d' ∧
      others.foldlM (step w) d' ≠ others.foldlM (step w) node := by
  induction keys generalizing others node with
  | nil =>
    -- the whole node is replaced, by one of two values between which the other pointer tells
    by_cases hnull : others.foldlM (step w) node = .ok .null
    · exact ⟨.bool true, .bool true, rfl, fun h => foldlM_step_bool_ne w others (h.trans hnull)⟩
    · exact ⟨nested others, nested others, rfl, fun h => hnull (h.symm.trans (foldlM_step_nested w others))⟩
  | cons s keys ih =>
    cases others with
    | nil =>
      obtain ⟨d₁, h₁⟩ := exists_modifyAt hfound (.bool true)
      obtain ⟨d₂, h₂⟩ := exists_modifyAt hfound .null
      have hne : d₁ ≠ d₂ := by
        rintro rfl
        have hr₁ := (resolve_replace h₁).symm.trans (resolve_replace h₂)
        cases hr₁
      by_cases hnode : d₁ = node
      · exact ⟨.null, d₂, h₂, fun h => hne (hnode.trans (Except.ok.inj h).symm)⟩
      · exact ⟨.bool true, d₁, h₁, fun h => hnode (Except.ok.inj h)⟩
    | cons t others =>
      rw [List.foldlM_cons] at hfound
      obtain ⟨c, hc, hfound⟩ := bind_eq_ok.mp hfound
      rw [Apart, not_or, not_exists] at happart
      obtain ⟨value, c', hc', hne⟩ := ih hfound fun h => happart.2 c ⟨hc, h⟩
      obtain ⟨hbefore, hafter⟩ := step_setChild_of_not_parted (u := c') hc happart.1
      refine ⟨value, _, modifyAt_cons_eq_ok.mpr ⟨c, c', hc, hc', rfl⟩, ?_⟩
      rw [foldlM_step_cons_of_ok hafter, foldlM_step_cons_of_ok hbefore]
      exact hne

theorem resolve_of_splitPointer {path : String} (h : splitPointer path = .ok others) (d : Json) :
    resolve w d path = others.foldlM (step w) d := by
  rw [resolve, h]
  rfl

theorem resolve_of_error {path e : String} (h : splitPointer path = .error e) (d : Json) :
    resolve w d path = .error e := by
  rw [resolve, h]
  rfl

end

/-- **The laws hold exactly where pointers of which neither continues the other lead to separate places.** -/
theorem patchLaws_iff (w : ℕ) (d : Document) (keys : List String) (other : String) :
    PatchLaws w d keys other ↔ SeparatePlaces w d keys other := by
  constructor
  · rintro ⟨-, -, hframe⟩ others hsplit hkeys hothers ⟨x, hx⟩
    by_contra happart
    rw [resolve_format] at hx
    obtain ⟨value, d', hd', hne⟩ := exists_change hx happart
    have hneither : ∀ others', splitPointer other = .ok others' → ¬keys <+: others' ∧ ¬others' <+: keys := by
      intro others' h
      obtain rfl := Except.ok.inj (hsplit.symm.trans h)
      exact ⟨hkeys, hothers⟩
    have heq := hframe hneither value d' ((replace_format w d.val value keys).trans hd')
    rw [resolve_of_splitPointer hsplit, resolve_of_splitPointer hsplit] at heq
    exact hne heq
  · intro happart
    refine ⟨?_, ?_, ?_⟩
    · intro parents last node value hkeys hnode hroom
      rw [resolve_format] at hnode
      exact removeAt_addAt value hkeys hnode hroom
    · intro value d' h
      rw [replace_format] at h
      rw [resolve_format]
      exact resolve_replace h
    · intro hneither value d' h
      rw [replace_format] at h
      cases hsplit : splitPointer other with
      | error e => rw [resolve_of_error hsplit, resolve_of_error hsplit]
      | ok others =>
        obtain ⟨hkeys, hothers⟩ := hneither others hsplit
        obtain ⟨x, hx⟩ := exists_found h
        have hplaces := happart others hsplit hkeys hothers ⟨x, (resolve_format w d.val keys).trans hx⟩
        rw [resolve_of_splitPointer hsplit, resolve_of_splitPointer hsplit]
        exact frame_of_apart hplaces h

/-- The same element under two spellings of its index. -/
theorem frame_fails_on_leading_zero : ¬PatchLaws 64 ⟨.array [.null], by decide⟩ ["0"] "/00" := by
  intro h
  have hsplit : splitPointer "/00" = .ok ["00"] := by decide +kernel
  have hneither : ∀ others, splitPointer "/00" = .ok others → ¬["0"] <+: others ∧ ¬others <+: ["0"] := by
    intro others ho
    obtain rfl := Except.ok.inj (hsplit.symm.trans ho)
    decide
  have hframe := h.frame hneither (.bool true) (.array [.bool true]) (by decide +kernel)
  have hafter : resolve 64 (.array [.bool true]) "/00" = .ok (.bool true) := by decide +kernel
  have hbefore : resolve 64 (.array [.null]) "/00" = .ok .null := by decide +kernel
  rw [hafter] at hframe
  exact absurd (hframe.trans hbefore) (by decide)

end Forge.Contract
