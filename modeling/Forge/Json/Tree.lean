import Forge.Data.Numerals
import Mathlib.Data.List.Basic

/-!
# Trees of tokens

A JSON text is a tree of arrays and objects written down: its leaves and the names
of its members are tokens, and brackets, commas and colons stand between them. The
text is unambiguous (`Tree.render_injective`): if names are quoted and every leaf is
a quoted string or a word without punctuation, two trees with the same text are the
same tree.

The type of trees is generic in names and leaves, so that it also serves for the
documents that are written.
-/

namespace Forge

/-- A tree of arrays and objects, with names of type `κ` and leaves of type `α`. -/
inductive Tree (κ α : Type) where
  | leaf (a : α)
  | array (ts : List (Tree κ α))
  | object (ms : List (κ × Tree κ α))

namespace Tree

variable {κ α : Type}

/-- Induction over trees: arrays and objects with the hypothesis for what they hold. -/
@[elab_as_elim, induction_eliminator]
theorem induction {P : Tree κ α → Prop} (leaf : ∀ a, P (.leaf a)) (array : ∀ ts, (∀ t ∈ ts, P t) → P (.array ts))
    (object : ∀ ms, (∀ e ∈ ms, P e.2) → P (.object ms)) (t : Tree κ α) : P t :=
  Tree.rec (motive_1 := P) (motive_2 := fun ts => ∀ t ∈ ts, P t) (motive_3 := fun ms => ∀ e ∈ ms, P e.2)
    (motive_4 := fun e => P e.2) leaf array object
    (fun _ h => absurd h List.not_mem_nil)
    (fun _ _ ht hts _ hu => (List.mem_cons.mp hu).elim (fun h => h ▸ ht) (hts _))
    (fun _ h => absurd h List.not_mem_nil)
    (fun _ _ he hms _ ha => (List.mem_cons.mp ha).elim (fun h => h ▸ he) (hms _))
    (fun _ _ h => h) t

/-! ### Hereditary properties -/

mutual

/-- `P` holds of the tree and of every tree inside it. -/
def Everywhere (P : Tree κ α → Prop) : Tree κ α → Prop
  | .leaf a => P (.leaf a)
  | .array ts => P (.array ts) ∧ EverywhereList P ts
  | .object ms => P (.object ms) ∧ EverywhereMembers P ms

/-- `Everywhere` on the elements of an array. -/
def EverywhereList (P : Tree κ α → Prop) : List (Tree κ α) → Prop
  | [] => True
  | t :: ts => Everywhere P t ∧ EverywhereList P ts

/-- `Everywhere` on the members of an object. -/
def EverywhereMembers (P : Tree κ α → Prop) : List (κ × Tree κ α) → Prop
  | [] => True
  | (_, t) :: ms => Everywhere P t ∧ EverywhereMembers P ms

end

variable {P : Tree κ α → Prop}

theorem everywhereList_iff {ts : List (Tree κ α)} : EverywhereList P ts ↔ ∀ t ∈ ts, Everywhere P t := by
  induction ts with
  | nil => exact iff_of_true trivial fun _ h => absurd h List.not_mem_nil
  | cons t ts ih => exact (and_congr_right' ih).trans List.forall_mem_cons.symm

theorem everywhereMembers_iff {ms : List (κ × Tree κ α)} :
    EverywhereMembers P ms ↔ ∀ e ∈ ms, Everywhere P e.2 := by
  induction ms with
  | nil => exact iff_of_true trivial fun _ h => absurd h List.not_mem_nil
  | cons e ms ih =>
    rw [List.forall_mem_cons, ← ih]
    exact Iff.rfl

@[simp] theorem everywhere_leaf (a : α) : Everywhere P (.leaf a) ↔ P (.leaf a) := Iff.rfl

@[simp] theorem everywhere_array {ts : List (Tree κ α)} :
    Everywhere P (.array ts) ↔ P (.array ts) ∧ ∀ t ∈ ts, Everywhere P t :=
  and_congr_right' everywhereList_iff

@[simp] theorem everywhere_object {ms : List (κ × Tree κ α)} :
    Everywhere P (.object ms) ↔ P (.object ms) ∧ ∀ e ∈ ms, Everywhere P e.2 :=
  and_congr_right' everywhereMembers_iff

theorem Everywhere.imp {P Q : Tree κ α → Prop} (h : ∀ t, P t → Q t) {t : Tree κ α}
    (ht : t.Everywhere P) : t.Everywhere Q := by
  induction t with
  | leaf a => exact h _ ht
  | array ts ih =>
    rw [everywhere_array] at ht ⊢
    exact ⟨h _ ht.1, fun t hmem => ih t hmem (ht.2 t hmem)⟩
  | object ms ih =>
    rw [everywhere_object] at ht ⊢
    exact ⟨h _ ht.1, fun e hmem => ih e hmem (ht.2 e hmem)⟩

theorem everywhere_and {Q : Tree κ α → Prop} (t : Tree κ α) :
    t.Everywhere (fun t => P t ∧ Q t) ↔ t.Everywhere P ∧ t.Everywhere Q := by
  induction t with
  | leaf a => exact Iff.rfl
  | array ts ih =>
    simp only [everywhere_array]
    rw [forall₂_congr ih]
    exact ⟨fun h => ⟨⟨h.1.1, fun t ht => (h.2 t ht).1⟩, h.1.2, fun t ht => (h.2 t ht).2⟩,
      fun h => ⟨⟨h.1.1, h.2.1⟩, fun t ht => ⟨h.1.2 t ht, h.2.2 t ht⟩⟩⟩
  | object ms ih =>
    simp only [everywhere_object]
    rw [forall₂_congr ih]
    exact ⟨fun h => ⟨⟨h.1.1, fun e he => (h.2 e he).1⟩, h.1.2, fun e he => (h.2 e he).2⟩,
      fun h => ⟨⟨h.1.1, h.2.1⟩, fun e he => ⟨h.1.2 e he, h.2.2 e he⟩⟩⟩

mutual

/-- A decidable property is decided everywhere. -/
def decEverywhere (P : Tree κ α → Prop) [DecidablePred P] : (t : Tree κ α) → Decidable (Everywhere P t)
  | .leaf a => decidable_of_iff (P (.leaf a)) (everywhere_leaf a).symm
  | .array ts => @decidable_of_iff _ (P (.array ts) ∧ EverywhereList P ts) Iff.rfl
      (@instDecidableAnd _ _ inferInstance (decEverywhereList P ts))
  | .object ms => @decidable_of_iff _ (P (.object ms) ∧ EverywhereMembers P ms) Iff.rfl
      (@instDecidableAnd _ _ inferInstance (decEverywhereMembers P ms))

/-- `decEverywhere` on the elements of an array. -/
def decEverywhereList (P : Tree κ α → Prop) [DecidablePred P] :
    (ts : List (Tree κ α)) → Decidable (EverywhereList P ts)
  | [] => isTrue trivial
  | t :: ts => @instDecidableAnd _ _ (decEverywhere P t) (decEverywhereList P ts)

/-- `decEverywhere` on the members of an object. -/
def decEverywhereMembers (P : Tree κ α → Prop) [DecidablePred P] :
    (ms : List (κ × Tree κ α)) → Decidable (EverywhereMembers P ms)
  | [] => isTrue trivial
  | (_, t) :: ms => @instDecidableAnd _ _ (decEverywhere P t) (decEverywhereMembers P ms)

end

instance (P : Tree κ α → Prop) [DecidablePred P] (t : Tree κ α) : Decidable (Everywhere P t) := decEverywhere P t

/-! ### Size -/

mutual

/-- The number of values in a tree, the tree itself included. -/
def nodes : Tree κ α → ℕ
  | .leaf _ => 1
  | .array ts => 1 + nodesList ts
  | .object ms => 1 + nodesMembers ms

/-- The number of values in the elements of an array. -/
def nodesList : List (Tree κ α) → ℕ
  | [] => 0
  | t :: ts => nodes t + nodesList ts

/-- The number of values in the members of an object. -/
def nodesMembers : List (κ × Tree κ α) → ℕ
  | [] => 0
  | (_, t) :: ms => nodes t + nodesMembers ms

end

mutual

/-- How deep the deepest value lies. -/
def depth : Tree κ α → ℕ
  | .leaf _ => 0
  | .array ts => depthList ts
  | .object ms => depthMembers ms

/-- How deep the deepest value in the elements of an array lies. -/
def depthList : List (Tree κ α) → ℕ
  | [] => 0
  | t :: ts => max (depth t + 1) (depthList ts)

/-- How deep the deepest value in the members of an object lies. -/
def depthMembers : List (κ × Tree κ α) → ℕ
  | [] => 0
  | (_, t) :: ms => max (depth t + 1) (depthMembers ms)

end

/-! ### Other leaves -/

section

variable {β : Type}

mutual

/-- Replace every leaf. -/
def mapLeaf (f : α → β) : Tree κ α → Tree κ β
  | .leaf a => .leaf (f a)
  | .array ts => .array (mapLeafList f ts)
  | .object ms => .object (mapLeafMembers f ms)

/-- `mapLeaf` on the elements of an array. -/
def mapLeafList (f : α → β) : List (Tree κ α) → List (Tree κ β)
  | [] => []
  | t :: ts => mapLeaf f t :: mapLeafList f ts

/-- `mapLeaf` on the members of an object. -/
def mapLeafMembers (f : α → β) : List (κ × Tree κ α) → List (κ × Tree κ β)
  | [] => []
  | (k, t) :: ms => (k, mapLeaf f t) :: mapLeafMembers f ms

end

theorem mapLeafList_eq (f : α → β) (ts : List (Tree κ α)) : mapLeafList f ts = ts.map (mapLeaf f) := by
  induction ts with
  | nil => rfl
  | cons t ts ih => exact congrArg (mapLeaf f t :: ·) ih

theorem mapLeafMembers_eq (f : α → β) (ms : List (κ × Tree κ α)) :
    mapLeafMembers f ms = ms.map fun e => (e.1, mapLeaf f e.2) := by
  induction ms with
  | nil => rfl
  | cons e ms ih => exact congrArg ((e.1, mapLeaf f e.2) :: ·) ih

@[simp] theorem mapLeaf_leaf (f : α → β) (a : α) : mapLeaf f (.leaf a : Tree κ α) = .leaf (f a) := rfl

@[simp] theorem mapLeaf_array (f : α → β) (ts : List (Tree κ α)) :
    mapLeaf f (.array ts) = .array (ts.map (mapLeaf f)) := congrArg _ (mapLeafList_eq f ts)

@[simp] theorem mapLeaf_object (f : α → β) (ms : List (κ × Tree κ α)) :
    mapLeaf f (.object ms) = .object (ms.map fun e => (e.1, mapLeaf f e.2)) := congrArg _ (mapLeafMembers_eq f ms)

/-- What is everywhere in a tree with other leaves is, read back, everywhere in the tree. -/
theorem everywhere_mapLeaf {f : α → β} {P : Tree κ α → Prop} {Q : Tree κ β → Prop}
    (h : ∀ t, Q (mapLeaf f t) ↔ P t) (t : Tree κ α) : (mapLeaf f t).Everywhere Q ↔ t.Everywhere P := by
  induction t with
  | leaf a => exact h (.leaf a)
  | array ts ih =>
    rw [mapLeaf_array, everywhere_array, everywhere_array, List.forall_mem_map, ← mapLeaf_array, h]
    exact and_congr_right' (forall₂_congr ih)
  | object ms ih =>
    rw [mapLeaf_object, everywhere_object, everywhere_object, List.forall_mem_map, ← mapLeaf_object, h]
    exact and_congr_right' (forall₂_congr ih)

end

/-! ### Texts -/

/-- The texts that follow the first one, each after a comma, and the closing bracket. -/
def restText (close : Char) : List (List Char) → List Char
  | [] => [close]
  | t :: ts => ',' :: (t ++ restText close ts)

/-- Texts between commas, and the closing bracket. -/
def itemsText (close : Char) : List (List Char) → List Char
  | [] => [close]
  | t :: ts => t ++ restText close ts

/-- The text of a member. -/
def memberText (name value : List Char) : List Char := name ++ ':' :: value

mutual

/-- The text of a tree of tokens. -/
def render : Tree (List Char) (List Char) → List Char
  | .leaf t => t
  | .array ts => '[' :: itemsText ']' (renderList ts)
  | .object ms => '{' :: itemsText '}' (renderMembers ms)

/-- The texts of the elements of an array. -/
def renderList : List (Tree (List Char) (List Char)) → List (List Char)
  | [] => []
  | t :: ts => render t :: renderList ts

/-- The texts of the members of an object. -/
def renderMembers : List (List Char × Tree (List Char) (List Char)) → List (List Char)
  | [] => []
  | (name, t) :: ms => memberText name (render t) :: renderMembers ms

end

theorem renderList_eq (ts : List (Tree (List Char) (List Char))) : renderList ts = ts.map render := by
  induction ts with
  | nil => simp [renderList]
  | cons t ts ih => rw [renderList, ih, List.map_cons]

theorem renderMembers_eq (ms : List (List Char × Tree (List Char) (List Char))) :
    renderMembers ms = ms.map fun e => memberText e.1 (render e.2) := by
  induction ms with
  | nil => simp [renderMembers]
  | cons e ms ih => rw [renderMembers, ih, List.map_cons]

@[simp] theorem render_leaf (t : List Char) : render (.leaf t) = t := rfl

@[simp] theorem render_array (ts : List (Tree (List Char) (List Char))) :
    render (.array ts) = '[' :: itemsText ']' (ts.map render) :=
  congrArg (fun items => '[' :: itemsText ']' items) (renderList_eq ts)

@[simp] theorem render_object (ms : List (List Char × Tree (List Char) (List Char))) :
    render (.object ms) = '{' :: itemsText '}' (ms.map fun e => memberText e.1 (render e.2)) := by
  rw [render, renderMembers_eq]

end Tree

/-! ### Tokens -/

/-- The characters that stand between tokens, and the quote. -/
def punctuation : List Char := ['"', ',', ':', '[', ']', '{', '}']

/-- A number or one of the words `null`, `true` and `false`: no punctuation in it. -/
structure Word (t : List Char) : Prop where
  nonempty : t ≠ []
  plain : ∀ c ∈ t, c ∉ punctuation

/-- What may stand between the quotes of a string: a quote only after a backslash. -/
inductive Escaped : List Char → Prop where
  | nil : Escaped []
  | plain {c : Char} {t : List Char} (quote : c ≠ '"') (backslash : c ≠ '\\') (rest : Escaped t) : Escaped (c :: t)
  | escape {c : Char} {t : List Char} (rest : Escaped t) : Escaped ('\\' :: c :: t)

/-- A string with its quotes. -/
def Quoted (t : List Char) : Prop := ∃ body, Escaped body ∧ t = '"' :: (body ++ ['"'])

/-- A leaf is a word or a quoted string. -/
def Token (t : List Char) : Prop := Word t ∨ Quoted t

theorem Escaped.append {t u : List Char} (ht : Escaped t) (hu : Escaped u) : Escaped (t ++ u) := by
  induction ht with
  | nil => exact hu
  | plain quote backslash _ ih => exact .plain quote backslash ih
  | escape _ ih => exact .escape ih

/-- The first quote that is not escaped ends the string. -/
theorem Escaped.unique {t u r s : List Char} (ht : Escaped t) (hu : Escaped u) (h : t ++ '"' :: r = u ++ '"' :: s) :
    t = u ∧ r = s := by
  induction ht generalizing u with
  | nil =>
    cases hu with
    | nil => exact ⟨rfl, (List.cons.inj h).2⟩
    | plain quote _ _ => exact absurd (List.cons.inj h).1.symm quote
    | escape _ => exact absurd (List.cons.inj h).1 (by decide)
  | plain quote backslash _ ih =>
    cases hu with
    | nil => exact absurd (List.cons.inj h).1 quote
    | plain _ _ hu =>
      obtain ⟨rfl, htail⟩ := List.cons.inj h
      obtain ⟨rfl, hr⟩ := ih hu htail
      exact ⟨rfl, hr⟩
    | escape _ => exact absurd (List.cons.inj h).1 backslash
  | escape _ ih =>
    cases hu with
    | nil => exact absurd (List.cons.inj h).1 (by decide)
    | plain _ backslash _ => exact absurd (List.cons.inj h).1.symm backslash
    | escape hu =>
      obtain ⟨rfl, htail⟩ := List.cons.inj (List.cons.inj h).2
      obtain ⟨rfl, hr⟩ := ih hu htail
      exact ⟨rfl, hr⟩

theorem Quoted.unique {t u r s : List Char} (ht : Quoted t) (hu : Quoted u) (h : t ++ r = u ++ s) : t = u ∧ r = s := by
  obtain ⟨body, hbody, rfl⟩ := ht
  obtain ⟨body', hbody', rfl⟩ := hu
  have h' : body ++ '"' :: r = body' ++ '"' :: s := by simpa using h
  obtain ⟨rfl, hr⟩ := hbody.unique hbody' h'
  exact ⟨rfl, hr⟩

/-- Where a value has ended: at the end of the text, or before punctuation. -/
def Stops (r : List Char) : Prop := ∀ c ∈ r.head?, c ∈ punctuation

/-- A word ends where punctuation begins. -/
theorem Word.unique {t u r s : List Char} (ht : ∀ c ∈ t, c ∉ punctuation) (hu : ∀ c ∈ u, c ∉ punctuation)
    (hr : Stops r) (hs : Stops s) (h : t ++ r = u ++ s) : t = u ∧ r = s := by
  induction t generalizing u with
  | nil =>
    cases u with
    | nil => exact ⟨rfl, h⟩
    | cons c u => exact absurd (hr c (by rw [show r = c :: (u ++ s) from h]; rfl)) (hu c List.mem_cons_self)
  | cons c t ih =>
    cases u with
    | nil => exact absurd (hs c (by rw [show s = c :: (t ++ r) from h.symm]; rfl)) (ht c List.mem_cons_self)
    | cons d u =>
      obtain ⟨rfl, htail⟩ := List.cons.inj h
      obtain ⟨rfl, hrs⟩ := ih (fun e he => ht e (List.mem_cons_of_mem _ he))
        (fun e he => hu e (List.mem_cons_of_mem _ he)) htail
      exact ⟨rfl, hrs⟩

/-- A word and a quoted string begin differently. -/
theorem Word.not_quoted {t u r s : List Char} (ht : Word t) (hu : Quoted u) : t ++ r ≠ u ++ s := by
  obtain ⟨body, -, rfl⟩ := hu
  cases t with
  | nil => exact absurd rfl ht.nonempty
  | cons c t =>
    intro h
    have hc : c = '"' := (List.cons.inj h).1
    exact ht.plain c List.mem_cons_self (hc ▸ by decide)

theorem Token.unique {t u r s : List Char} (ht : Token t) (hu : Token u) (hr : Stops r) (hs : Stops s)
    (h : t ++ r = u ++ s) : t = u ∧ r = s := by
  rcases ht with ht | ht <;> rcases hu with hu | hu
  · exact Word.unique ht.plain hu.plain hr hs h
  · exact absurd h (ht.not_quoted hu)
  · exact absurd h.symm (hu.not_quoted ht)
  · exact ht.unique hu h

namespace Tree

/-! ### Unique readability -/

/-- The leaves are tokens and the names are quoted. -/
def Spelled : Tree (List Char) (List Char) → Prop
  | .leaf t => Token t
  | .array _ => True
  | .object ms => ∀ e ∈ ms, Quoted e.1

/-- What a value begins with. -/
def Begins (c : Char) : Prop := c = '"' ∨ c = '[' ∨ c = '{' ∨ c ∉ punctuation

instance : DecidablePred Begins := fun c => inferInstanceAs (Decidable (c = '"' ∨ c = '[' ∨ c = '{' ∨ c ∉ punctuation))

theorem render_begins {t : Tree (List Char) (List Char)} (h : Everywhere Spelled t) (r : List Char) :
    ∃ c s, t.render ++ r = c :: s ∧ Begins c := by
  cases t with
  | leaf t =>
    rw [everywhere_leaf] at h
    rcases h with h | ⟨body, -, rfl⟩
    · cases t with
      | nil => exact absurd rfl h.nonempty
      | cons c t => exact ⟨c, t ++ r, by simp, .inr (.inr (.inr (h.plain c List.mem_cons_self)))⟩
    · exact ⟨'"', body ++ ['"'] ++ r, by simp, .inl rfl⟩
  | array ts => exact ⟨'[', itemsText ']' (ts.map render) ++ r, by simp, .inr (.inl rfl)⟩
  | object ms => exact ⟨'{', _, by rw [render_object]; rfl, .inr (.inr (.inl rfl))⟩

/-- A token is not bracketed. -/
theorem token_ne {t r s : List Char} {c : Char} (ht : Token t) (hc : c = '[' ∨ c = '{') : t ++ r ≠ c :: s := by
  intro h
  rcases ht with ht | ⟨body, -, rfl⟩
  · cases t with
    | nil => exact ht.nonempty rfl
    | cons d t =>
      obtain rfl : d = c := (List.cons.inj h).1
      exact ht.plain d List.mem_cons_self (by rcases hc with rfl | rfl <;> decide)
  · have hd : '"' = c := (List.cons.inj h).1
    rcases hc with rfl | rfl <;> exact absurd hd (by decide)

theorem stops_cons {c : Char} (hc : c ∈ punctuation) (r : List Char) : Stops (c :: r) := by
  intro d hd
  cases hd
  exact hc

/-- What follows an item stops it. -/
theorem restText_stops {close : Char} (hc : close ∈ punctuation) (ts : List (List Char)) (r : List Char) :
    Stops (restText close ts ++ r) := by
  cases ts with
  | nil => exact stops_cons hc r
  | cons t ts => exact stops_cons (by decide) _

section

variable {β : Type} {text : β → List Char} {V : β → Prop} {close : Char} {r s : List Char}

/-- An item is told from every other by its text, whatever stops it. -/
def Readable (text : β → List Char) (V : β → Prop) (x : β) : Prop :=
  ∀ y, V y → ∀ r s, Stops r → Stops s → text x ++ r = text y ++ s → x = y ∧ r = s

/-- A list of items that are told apart is itself told apart, from its second item on. -/
theorem restText_unique (hclose : close ∈ punctuation) (hcomma : close ≠ ',') {xs ys : List β}
    (hx : ∀ x ∈ xs, Readable text V x) (hy : ∀ y ∈ ys, V y)
    (h : restText close (xs.map text) ++ r = restText close (ys.map text) ++ s) : xs = ys ∧ r = s := by
  induction xs generalizing ys with
  | nil =>
    cases ys with
    | nil => exact ⟨rfl, (List.cons.inj h).2⟩
    | cons y ys => exact absurd (List.cons.inj h).1 hcomma
  | cons x xs ih =>
    cases ys with
    | nil => exact absurd (List.cons.inj h).1.symm hcomma
    | cons y ys =>
      have h' : text x ++ (restText close (xs.map text) ++ r) = text y ++ (restText close (ys.map text) ++ s) := by
        simpa [restText] using h
      obtain ⟨rfl, htail⟩ := hx x List.mem_cons_self y (hy y List.mem_cons_self) _ _
        (restText_stops hclose _ _) (restText_stops hclose _ _) h'
      obtain ⟨rfl, hrs⟩ := ih (fun z hz => hx z (List.mem_cons_of_mem _ hz))
        (fun z hz => hy z (List.mem_cons_of_mem _ hz)) htail
      exact ⟨rfl, hrs⟩

/-- **Items between commas are told apart**, if each is and none begins like the closing bracket. -/
theorem itemsText_unique (hclose : close ∈ punctuation) (hcomma : close ≠ ',') {xs ys : List β}
    (hx : ∀ x ∈ xs, Readable text V x) (hy : ∀ y ∈ ys, V y)
    (hbegins : ∀ x, x ∈ xs ∨ x ∈ ys → ∀ r, ∃ c t, text x ++ r = c :: t ∧ c ≠ close)
    (h : itemsText close (xs.map text) ++ r = itemsText close (ys.map text) ++ s) : xs = ys ∧ r = s := by
  cases xs with
  | nil =>
    cases ys with
    | nil => exact ⟨rfl, (List.cons.inj h).2⟩
    | cons y ys =>
      obtain ⟨c, t, hc, hne⟩ := hbegins y (.inr List.mem_cons_self) (restText close (ys.map text) ++ s)
      have h' : close :: r = c :: t := by simpa [itemsText, ← hc] using h
      exact absurd (List.cons.inj h').1.symm hne
  | cons x xs =>
    cases ys with
    | nil =>
      obtain ⟨c, t, hc, hne⟩ := hbegins x (.inl List.mem_cons_self) (restText close (xs.map text) ++ r)
      have h' : c :: t = close :: s := by simpa [itemsText, ← hc] using h
      exact absurd (List.cons.inj h').1 hne
    | cons y ys =>
      refine restText_unique hclose hcomma hx hy ?_
      simpa [itemsText, restText] using h

end

/-- A name and what follows its colon are told apart. -/
theorem memberText_readable {name : List Char} {t : Tree (List Char) (List Char)} (hname : Quoted name)
    (ht : Readable render (Everywhere Spelled) t) :
    Readable (fun e => memberText e.1 (render e.2)) (fun e => Quoted e.1 ∧ Everywhere Spelled e.2) (name, t) := by
  rintro ⟨name', u⟩ ⟨hname', hu⟩ r s hr hs h
  have h' : name ++ ':' :: (render t ++ r) = name' ++ ':' :: (render u ++ s) := by simpa [memberText] using h
  obtain ⟨rfl, hvalue⟩ := hname.unique hname' h'
  obtain ⟨rfl, hrs⟩ := ht u hu r s hr hs (List.cons.inj hvalue).2
  exact ⟨rfl, hrs⟩

/-- **Unique readability**: the text of a tree, whatever stops it, is the text of no other. -/
theorem render_readable {t : Tree (List Char) (List Char)} (ht : Everywhere Spelled t) :
    Readable render (Everywhere Spelled) t := by
  induction t with
  | leaf t =>
    rw [everywhere_leaf] at ht
    intro u hu r s hr hs h
    rw [render_leaf] at h
    cases u with
    | leaf u =>
      rw [everywhere_leaf] at hu
      rw [render_leaf] at h
      obtain ⟨rfl, hrs⟩ := Token.unique ht hu hr hs h
      exact ⟨rfl, hrs⟩
    | array us => exact absurd (h.trans (by rw [render_array]; rfl)) (token_ne ht (.inl rfl))
    | object ns => exact absurd (h.trans (by rw [render_object]; rfl)) (token_ne ht (.inr rfl))
  | array ts ih =>
    rw [everywhere_array] at ht
    intro u hu r s hr hs h
    rw [render_array] at h
    cases u with
    | leaf u =>
      rw [render_leaf] at h
      exact absurd h.symm (token_ne ((everywhere_leaf u).mp hu) (.inl rfl))
    | array us =>
      rw [everywhere_array] at hu
      rw [render_array] at h
      have hbegins : ∀ x, x ∈ ts ∨ x ∈ us → ∀ r, ∃ c t, render x ++ r = c :: t ∧ c ≠ ']' := by
        intro x hx r
        obtain ⟨c, t, he, hc⟩ := render_begins (hx.elim (ht.2 x) (hu.2 x)) r
        exact ⟨c, t, he, fun hc' => absurd (hc' ▸ hc) (by decide)⟩
      obtain ⟨rfl, hrs⟩ := itemsText_unique (by decide) (by decide) (fun t h' => ih t h' (ht.2 t h')) hu.2 hbegins
        (List.cons.inj h).2
      exact ⟨rfl, hrs⟩
    | object ns =>
      rw [render_object] at h
      exact absurd (List.cons.inj h).1 (by decide)
  | object ms ih =>
    rw [everywhere_object] at ht
    intro u hu r s hr hs h
    rw [render_object] at h
    cases u with
    | leaf u =>
      rw [render_leaf] at h
      exact absurd h.symm (token_ne ((everywhere_leaf u).mp hu) (.inr rfl))
    | array us =>
      rw [render_array] at h
      exact absurd (List.cons.inj h).1 (by decide)
    | object ns =>
      rw [everywhere_object] at hu
      rw [render_object] at h
      -- a member begins with the quote of its name
      have hbegins : ∀ e, e ∈ ms ∨ e ∈ ns → ∀ r, ∃ c t, memberText e.1 (render e.2) ++ r = c :: t ∧ c ≠ '}' := by
        intro e he r
        obtain ⟨body, -, hname⟩ := he.elim (ht.1 e) (hu.1 e)
        rw [hname]
        exact ⟨'"', _, rfl, by decide⟩
      obtain ⟨rfl, hrs⟩ := itemsText_unique (by decide) (by decide)
        (fun e he => memberText_readable (ht.1 e he) (ih e he (ht.2 e he))) (fun e he => ⟨hu.1 e he, hu.2 e he⟩)
        hbegins (List.cons.inj h).2
      exact ⟨rfl, hrs⟩

/-- **Two trees of tokens with the same text are the same.** -/
theorem render_injective {t u : Tree (List Char) (List Char)} (ht : Everywhere Spelled t) (hu : Everywhere Spelled u)
    (h : t.render = u.render) : t = u := by
  have hstops : Stops [] := fun c hc => by cases hc
  exact (render_readable ht u hu [] [] hstops hstops (by rw [h])).1

end Tree

end Forge
