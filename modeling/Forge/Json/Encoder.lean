import Forge.Json.Tree
import Mathlib.Data.List.Lex
import Mathlib.Data.List.Pairwise
import Mathlib.Data.List.Sort

/-!
# Canonical encoders

A canonical encoder writes a document with the members of every object in an order
of its own: it spells leaves and names as tokens, and ranks names. Two encoders that
spell by the rules give the same text for a document exactly when they agree on what
is in it (`Encoder.text_eq_iff`): on the spelling of its leaves and names, and on the
order of the names of each object.
-/

namespace Forge

/-- How documents are written. -/
structure Encoder (κ α : Type) where
  leaf : α → List Char
  name : κ → List Char
  /-- Members are written in the order of the ranks of their names. -/
  rank : κ → List ℕ

namespace Encoder

variable {κ α τ : Type}

/-- The order of the members of an object. -/
def Before (E : Encoder κ α) (a b : κ × τ) : Prop := E.rank a.1 ≤ E.rank b.1

instance (E : Encoder κ α) : DecidableRel (E.Before (τ := τ)) := fun a b =>
  inferInstanceAs (Decidable (E.rank a.1 ≤ E.rank b.1))

/-- The members of an object as they are written. -/
def written (E : Encoder κ α) (ms : List (κ × τ)) : List (List Char × τ) :=
  (ms.insertionSort E.Before).map fun e => (E.name e.1, e.2)

mutual

/-- The tree of tokens that is written for a document. -/
def tokens (E : Encoder κ α) : Tree κ α → Tree (List Char) (List Char)
  | .leaf a => .leaf (E.leaf a)
  | .array ts => .array (tokensList E ts)
  | .object ms => .object (E.written (tokensMembers E ms))

/-- `tokens` on the elements of an array. -/
def tokensList (E : Encoder κ α) : List (Tree κ α) → List (Tree (List Char) (List Char))
  | [] => []
  | t :: ts => tokens E t :: tokensList E ts

/-- `tokens` on the members of an object. -/
def tokensMembers (E : Encoder κ α) : List (κ × Tree κ α) → List (κ × Tree (List Char) (List Char))
  | [] => []
  | (k, t) :: ms => (k, tokens E t) :: tokensMembers E ms

end

/-- The text of a document. -/
def text (E : Encoder κ α) (t : Tree κ α) : List Char := (E.tokens t).render

theorem tokensList_eq (E : Encoder κ α) (ts : List (Tree κ α)) : E.tokensList ts = ts.map E.tokens := by
  induction ts with
  | nil => simp [tokensList]
  | cons t ts ih => rw [tokensList, ih, List.map_cons]

theorem tokensMembers_eq (E : Encoder κ α) (ms : List (κ × Tree κ α)) :
    E.tokensMembers ms = ms.map fun e => (e.1, E.tokens e.2) := by
  induction ms with
  | nil => simp [tokensMembers]
  | cons e ms ih => rw [tokensMembers, ih, List.map_cons]

@[simp] theorem tokens_leaf (E : Encoder κ α) (a : α) : E.tokens (.leaf a) = .leaf (E.leaf a) := rfl

@[simp] theorem tokens_array (E : Encoder κ α) (ts : List (Tree κ α)) :
    E.tokens (.array ts) = .array (ts.map E.tokens) := congrArg _ (E.tokensList_eq ts)

/-- The members in order, each with the token of its name and the tree of its value. -/
@[simp] theorem tokens_object (E : Encoder κ α) (ms : List (κ × Tree κ α)) :
    E.tokens (.object ms) =
      .object ((ms.insertionSort E.Before).map fun e => (E.name e.1, E.tokens e.2)) := by
  rw [tokens, tokensMembers_eq, written,
    ← List.map_insertionSort E.Before E.Before (fun e => (e.1, E.tokens e.2)) ms fun _ _ _ _ => Iff.rfl, List.map_map]
  rfl

/-- The encoder spells by the rules of JSON, and ranks different names differently. -/
structure Lawful (E : Encoder κ α) : Prop where
  leaf : ∀ a, Token (E.leaf a)
  name : ∀ k, Quoted (E.name k)
  rank_injective : Function.Injective E.rank

/-- What a lawful encoder writes is spelled. -/
theorem Lawful.spelled {E : Encoder κ α} (h : E.Lawful) (t : Tree κ α) :
    (E.tokens t).Everywhere Tree.Spelled := by
  induction t with
  | leaf a =>
    rw [tokens_leaf, Tree.everywhere_leaf]
    exact h.leaf a
  | array ts ih =>
    rw [tokens_array, Tree.everywhere_array, List.forall_mem_map]
    exact ⟨trivial, ih⟩
  | object ms ih =>
    have hmem : ∀ e ∈ ms.insertionSort E.Before, e ∈ ms := fun e he =>
      (List.perm_insertionSort E.Before ms).mem_iff.mp he
    rw [tokens_object, Tree.everywhere_object, Tree.Spelled, List.forall_mem_map, List.forall_mem_map]
    exact ⟨fun e _ => h.name e.1, fun e he => ih e (hmem e he)⟩

/-! ### Documents with other leaves -/

section

variable {β : Type}

/-- Write the leaves of other documents, as `f` turns them into leaves. -/
def comap (f : α → β) (E : Encoder κ β) : Encoder κ α where
  leaf a := E.leaf (f a)
  name := E.name
  rank := E.rank

theorem Lawful.comap {E : Encoder κ β} (h : E.Lawful) (f : α → β) : (E.comap f).Lawful where
  leaf a := h.leaf (f a)
  name := h.name
  rank_injective := h.rank_injective

theorem tokens_mapLeaf (f : α → β) (E : Encoder κ β) (t : Tree κ α) :
    E.tokens (t.mapLeaf f) = (E.comap f).tokens t := by
  induction t with
  | leaf a => rfl
  | array ts ih =>
    rw [Tree.mapLeaf_array, tokens_array, tokens_array, List.map_map]
    exact congrArg _ (List.map_congr_left ih)
  | object ms ih =>
    have hsorted : (ms.map fun e => (e.1, e.2.mapLeaf f)).insertionSort E.Before =
        (ms.insertionSort (E.comap f).Before).map fun e => (e.1, e.2.mapLeaf f) :=
      (List.map_insertionSort (E.comap f).Before E.Before (fun e => (e.1, e.2.mapLeaf f)) ms fun _ _ _ _ =>
        Iff.rfl).symm
    rw [Tree.mapLeaf_object, tokens_object, tokens_object, hsorted, List.map_map]
    refine congrArg _ (List.map_congr_left fun e he => ?_)
    exact congrArg (Prod.mk (E.name e.1)) (ih e ((List.perm_insertionSort _ ms).mem_iff.mp he))

/-- The text of a document with other leaves. -/
theorem text_mapLeaf (f : α → β) (E : Encoder κ β) (t : Tree κ α) : E.text (t.mapLeaf f) = (E.comap f).text t :=
  congrArg Tree.render (tokens_mapLeaf f E t)

end

/-! ### When two encoders agree -/

/-- The names of each object are distinct. -/
def DistinctNames : Tree κ α → Prop
  | .leaf _ | .array _ => True
  | .object ms => (ms.map Prod.fst).Nodup

instance [DecidableEq κ] : DecidablePred (DistinctNames (κ := κ) (α := α))
  | .leaf _ | .array _ => isTrue trivial
  | .object ms => inferInstanceAs (Decidable (ms.map Prod.fst).Nodup)

/-- Two encoders agree about a leaf, or about the names of an object: how they are spelled, and which
comes first. -/
def Agree (E F : Encoder κ α) : Tree κ α → Prop
  | .leaf a => E.leaf a = F.leaf a
  | .array _ => True
  | .object ms => (∀ e ∈ ms, E.name e.1 = F.name e.1) ∧
      ∀ a ∈ ms, ∀ b ∈ ms, E.Before a b ↔ F.Before a b

instance (E F : Encoder κ α) : DecidablePred (E.Agree F)
  | .leaf a => inferInstanceAs (Decidable (E.leaf a = F.leaf a))
  | .array _ => isTrue trivial
  | .object ms => inferInstanceAs (Decidable ((∀ e ∈ ms, E.name e.1 = F.name e.1) ∧
      ∀ a ∈ ms, ∀ b ∈ ms, E.Before a b ↔ F.Before a b))

section

variable {E F : Encoder κ α} {ms : List (κ × τ)}

theorem before_total (E : Encoder κ α) (a b : κ × τ) : E.Before a b ∨ E.Before b a := le_total _ _

/-- Members are sorted by rank. -/
theorem sorted (E : Encoder κ α) (ms : List (κ × τ)) : (ms.insertionSort E.Before).Pairwise E.Before := by
  have htotal : Std.Total (E.Before (τ := τ)) := ⟨before_total E⟩
  have htrans : IsTrans (κ × τ) E.Before := ⟨fun _ _ _ h h' => le_trans (α := List ℕ) h h'⟩
  exact List.pairwise_insertionSort E.Before ms

/-- Distinct names name distinct members. -/
theorem eq_of_name_eq (hd : (ms.map Prod.fst).Nodup) {a b : κ × τ} (ha : a ∈ ms) (hb : b ∈ ms) (h : a.1 = b.1) :
    a = b := List.inj_on_of_nodup_map hd ha hb h

/-- Members in the order of both encoders are in the same order. -/
theorem insertionSort_eq (hF : F.Lawful) (hd : (ms.map Prod.fst).Nodup)
    (h : ∀ a ∈ ms, ∀ b ∈ ms, E.Before a b ↔ F.Before a b) :
    ms.insertionSort E.Before = ms.insertionSort F.Before := by
  have hE := List.perm_insertionSort E.Before ms
  have hF' := List.perm_insertionSort F.Before ms
  have hsorted : (ms.insertionSort E.Before).Pairwise F.Before :=
    (sorted E ms).imp_of_mem fun ha hb hab => (h _ (hE.mem_iff.mp ha) _ (hE.mem_iff.mp hb)).mp hab
  refine List.Perm.eq_of_pairwise (fun a b ha hb hab hba => ?_) hsorted (sorted F ms) (hE.trans hF'.symm)
  have hname : a.1 = b.1 := hF.rank_injective (le_antisymm (α := List ℕ) hab hba)
  exact eq_of_name_eq hd (hE.mem_iff.mp ha) (hF'.mem_iff.mp hb) hname

/-- One list that both encoders could have written is in the order of both. -/
theorem before_iff_of_sorted {l : List (κ × τ)} (hE : E.Lawful) (hF : F.Lawful) (hd : (l.map Prod.fst).Nodup)
    (hl : l.Pairwise E.Before) (hl' : l.Pairwise F.Before) {a b : κ × τ} (ha : a ∈ l) (hb : b ∈ l) :
    E.Before a b ↔ F.Before a b := by
  by_cases hab : a = b
  · subst hab
    exact ⟨fun _ => le_refl _, fun _ => le_refl _⟩
  · have hne : ∀ {G : Encoder κ α}, G.Lawful → G.Before a b → G.Before b a → False := fun hG h h' =>
      hab (eq_of_name_eq hd ha hb (hG.rank_injective (le_antisymm (α := List ℕ) h h')))
    have hboth : l.Pairwise fun x y => (E.Before x y ∧ F.Before x y) ∨ (E.Before y x ∧ F.Before y x) :=
      (hl.and hl').imp Or.inl
    have hsymm : Std.Symm fun x y : κ × τ => (E.Before x y ∧ F.Before x y) ∨ (E.Before y x ∧ F.Before y x) :=
      ⟨fun _ _ h => h.symm⟩
    -- whichever of the two stands first is before the other for both encoders
    rcases hboth.forall ha hb hab with ⟨h, h'⟩ | ⟨h, h'⟩
    · exact ⟨fun _ => h', fun _ => h⟩
    · exact ⟨fun h'' => (hne hE h'' h).elim, fun h'' => (hne hF h'' h').elim⟩

/-- Names that are spelled alike are alike. -/
theorem names_eq (hnames : ∀ k l, E.name k = F.name l → k = l) {l : List (κ × τ)} {σ : Type} {l' : List (κ × σ)}
    (h : l.map (fun e => E.name e.1) = l'.map fun e => F.name e.1) : l.map Prod.fst = l'.map Prod.fst := by
  induction l generalizing l' with
  | nil => rw [List.map_eq_nil_iff.mp h.symm]; rfl
  | cons e l ih =>
    cases l' with
    | nil => cases h
    | cons e' l' =>
      obtain ⟨hname, htail⟩ := List.cons.inj h
      rw [List.map_cons, List.map_cons, hnames e.1 e'.1 hname, ih htail]

/-- Lists of members of one object are equal when their names are. -/
theorem eq_of_names_eq (hd : (ms.map Prod.fst).Nodup) {l l' : List (κ × τ)} (hl : ∀ e ∈ l, e ∈ ms)
    (hl' : ∀ e ∈ l', e ∈ ms) (h : l.map Prod.fst = l'.map Prod.fst) : l = l' := by
  induction l generalizing l' with
  | nil => exact (List.map_eq_nil_iff.mp h.symm).symm
  | cons e l ih =>
    cases l' with
    | nil => cases h
    | cons e' l' =>
      obtain ⟨hname, htail⟩ := List.cons.inj h
      rw [eq_of_name_eq hd (hl e List.mem_cons_self) (hl' e' List.mem_cons_self) hname,
        ih (fun x hx => hl x (List.mem_cons_of_mem _ hx)) (fun x hx => hl' x (List.mem_cons_of_mem _ hx)) htail]

end

/-- **Where two encoders write the same tree**: everywhere in the document they agree. -/
theorem tokens_eq_iff {E F : Encoder κ α} (hE : E.Lawful) (hF : F.Lawful)
    (hnames : ∀ k l, E.name k = F.name l → k = l) {t : Tree κ α} (hd : t.Everywhere DistinctNames) :
    E.tokens t = F.tokens t ↔ t.Everywhere (E.Agree F) := by
  induction t with
  | leaf a => simp [Agree]
  | array ts ih =>
    rw [Tree.everywhere_array] at hd
    rw [tokens_array, tokens_array, Tree.everywhere_array, Tree.array.injEq, List.map_inj_left]
    constructor
    · exact fun h => ⟨trivial, fun t ht => (ih t ht (hd.2 t ht)).mp (h t ht)⟩
    · exact fun h t ht => (ih t ht (hd.2 t ht)).mpr (h.2 t ht)
  | object ms ih =>
    rw [Tree.everywhere_object] at hd
    have hdistinct : (ms.map Prod.fst).Nodup := hd.1
    have hmE : ∀ e, e ∈ ms.insertionSort E.Before ↔ e ∈ ms := fun e =>
      (List.perm_insertionSort E.Before ms).mem_iff
    have hmF : ∀ e, e ∈ ms.insertionSort F.Before ↔ e ∈ ms := fun e =>
      (List.perm_insertionSort F.Before ms).mem_iff
    rw [tokens_object, tokens_object, Tree.everywhere_object, Tree.object.injEq]
    constructor
    · intro h
      -- the names are written in one order, so the members are
      have hkeys : (ms.insertionSort E.Before).map Prod.fst = (ms.insertionSort F.Before).map Prod.fst := by
        have hspelled := congrArg (List.map Prod.fst) h
        rw [List.map_map, List.map_map] at hspelled
        exact names_eq hnames hspelled
      have hsame := eq_of_names_eq hdistinct (fun e he => (hmE e).mp he) (fun e he => (hmF e).mp he) hkeys
      rw [hsame, List.map_inj_left] at h
      have hF' := sorted F ms
      have hE' := sorted E ms
      rw [hsame] at hE'
      refine ⟨⟨fun e he => congrArg Prod.fst (h e ((hmF e).mpr he)), fun a ha b hb => ?_⟩, fun e he => ?_⟩
      · have hnodup := ((List.perm_insertionSort F.Before ms).map Prod.fst).nodup_iff.mpr hdistinct
        exact before_iff_of_sorted hE hF hnodup hE' hF' ((hmF a).mpr ha) ((hmF b).mpr hb)
      · exact (ih e he (hd.2 e he)).mp (congrArg Prod.snd (h e ((hmF e).mpr he)))
    · rintro ⟨⟨hspelled, horder⟩, hvalues⟩
      rw [insertionSort_eq hF hdistinct horder, List.map_inj_left]
      intro e he
      rw [hspelled e ((hmF e).mp he), (ih e ((hmF e).mp he) (hd.2 e ((hmF e).mp he))).mpr (hvalues e ((hmF e).mp he))]

/-- **Two encoders give a document the same text exactly when they agree everywhere in it.** -/
theorem text_eq_iff {E F : Encoder κ α} (hE : E.Lawful) (hF : F.Lawful)
    (hnames : ∀ k l, E.name k = F.name l → k = l) {t : Tree κ α} (hd : t.Everywhere DistinctNames) :
    E.text t = F.text t ↔ t.Everywhere (E.Agree F) := by
  rw [← tokens_eq_iff hE hF hnames hd]
  exact ⟨Tree.render_injective (hE.spelled t) (hF.spelled t), congrArg Tree.render⟩

end Encoder

end Forge
