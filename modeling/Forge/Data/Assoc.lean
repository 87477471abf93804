import Forge.Data.Numerals
import Mathlib.Data.String.Basic
import Mathlib.Order.Basic

/-!
# Sorted association lists

A `BTreeMap` iterates its entries in key order, so its content is a list of
entries with strictly increasing keys. The operations are defined on plain
entry lists (`get`, `insert`, `erase`, `ofList`), because a recursive type may
nest a list of entries but not a subtype of it; `BTreeMap` then packages the
entries with the proof that they are sorted.

The **key results** are the read-after-write laws (`get_insert`, `get_erase`,
`get_ofList`), which need no sortedness, and extensionality (`ext_get`): two
sorted lists that answer every lookup alike are equal.
-/

namespace Forge.Assoc

variable {κ ν μ : Type} [LinearOrder κ]

/-- The first value stored under `k`. -/
def get (k : κ) : List (κ × ν) → Option ν
  | [] => none
  | e :: m => if k = e.1 then some e.2 else get k m

/-- Write `v` under `k`, keeping key order. -/
def insert (k : κ) (v : ν) : List (κ × ν) → List (κ × ν)
  | [] => [(k, v)]
  | e :: m =>
    if k < e.1 then (k, v) :: e :: m
    else if k = e.1 then (k, v) :: m
    else e :: insert k v m

/-- Drop every entry under `k`. -/
def erase (k : κ) (m : List (κ × ν)) : List (κ × ν) := m.filter fun e => e.1 ≠ k

/-- The sorted list holding `es`, a later entry replacing an earlier one. -/
def ofList (es : List (κ × ν)) : List (κ × ν) := es.foldl (fun m e => insert e.1 e.2 m) []

/-- The keys, in order. -/
def keys (m : List (κ × ν)) : List κ := m.map Prod.fst

/-- Strictly increasing keys. -/
def Sorted (m : List (κ × ν)) : Prop := m.Pairwise fun a b => a.1 < b.1

instance (m : List (κ × ν)) : Decidable (Sorted m) := inferInstanceAs (Decidable (List.Pairwise _ _))

/-- Apply `f` to every value. -/
def mapVals (f : ν → μ) (m : List (κ × ν)) : List (κ × μ) := m.map fun e => (e.1, f e.2)

/-! ### Lookups -/

@[simp] theorem get_nil (k : κ) : get k ([] : List (κ × ν)) = none := rfl

theorem get_cons (k : κ) (e : κ × ν) (m : List (κ × ν)) :
    get k (e :: m) = if k = e.1 then some e.2 else get k m := rfl

omit [LinearOrder κ] in
@[simp] theorem keys_nil : keys ([] : List (κ × ν)) = [] := rfl

omit [LinearOrder κ] in
@[simp] theorem keys_cons (e : κ × ν) (m : List (κ × ν)) : keys (e :: m) = e.1 :: keys m := rfl

theorem get_eq_none_iff {k : κ} {m : List (κ × ν)} : get k m = none ↔ k ∉ keys m := by
  induction m with
  | nil => simp
  | cons e m ih =>
    by_cases h : k = e.1
    · simp [get_cons, h]
    · simp [get_cons, h, ih]

theorem get_isSome_iff {k : κ} {m : List (κ × ν)} : (get k m).isSome ↔ k ∈ keys m := by
  rw [← not_iff_not, ← get_eq_none_iff, Option.not_isSome_iff_eq_none]

theorem mem_of_get {k : κ} {v : ν} {m : List (κ × ν)} (h : get k m = some v) : (k, v) ∈ m := by
  induction m with
  | nil => simp at h
  | cons e m ih =>
    rw [get_cons] at h
    by_cases hk : k = e.1
    · rw [if_pos hk] at h
      obtain rfl := Option.some.inj h
      subst hk
      exact List.mem_cons_self
    · rw [if_neg hk] at h
      exact List.mem_cons_of_mem _ (ih h)

omit [LinearOrder κ] in
theorem mem_keys_of_mem {e : κ × ν} {m : List (κ × ν)} (h : e ∈ m) : e.1 ∈ keys m := List.mem_map_of_mem h

/-- With distinct keys an entry is what its key looks up. -/
theorem get_of_mem {e : κ × ν} {m : List (κ × ν)} (hm : (keys m).Nodup) (h : e ∈ m) : get e.1 m = some e.2 := by
  induction m with
  | nil => simp at h
  | cons a m ih =>
    rw [keys_cons, List.nodup_cons] at hm
    rw [get_cons]
    rcases List.mem_cons.mp h with rfl | h
    · rw [if_pos rfl]
    · rw [if_neg fun (hk : e.1 = a.1) => hm.1 (hk ▸ mem_keys_of_mem h)]
      exact ih hm.2 h

theorem get_mapVals (f : ν → μ) (k : κ) (m : List (κ × ν)) : get k (mapVals f m) = (get k m).map f := by
  induction m with
  | nil => rfl
  | cons e m ih =>
    change get k ((e.1, f e.2) :: mapVals f m) = _
    rw [get_cons, get_cons]
    split_ifs
    · rfl
    · exact ih

/-! ### Writes -/

@[simp] theorem get_insert_self (k : κ) (v : ν) (m : List (κ × ν)) : get k (insert k v m) = some v := by
  induction m with
  | nil => simp [insert, get_cons]
  | cons e m ih =>
    rw [insert]
    split_ifs with h1 h2
    · simp [get_cons]
    · simp [get_cons]
    · rw [get_cons, if_neg h2, ih]

theorem get_insert_of_ne {k k' : κ} (h : k' ≠ k) (v : ν) (m : List (κ × ν)) :
    get k' (insert k v m) = get k' m := by
  induction m with
  | nil => simp [insert, get_cons, h]
  | cons e m ih =>
    rw [insert]
    split_ifs with h1 h2
    · rw [get_cons, if_neg h]
    · rw [get_cons, if_neg h, get_cons, if_neg fun h' => h (h'.trans h2.symm)]
    · rw [get_cons, get_cons, ih]

/-- Reading after a write. -/
theorem get_insert (k k' : κ) (v : ν) (m : List (κ × ν)) :
    get k' (insert k v m) = if k' = k then some v else get k' m := by
  split_ifs with h
  · rw [h, get_insert_self]
  · exact get_insert_of_ne h v m

theorem mem_keys_insert {k k' : κ} {v : ν} {m : List (κ × ν)} :
    k' ∈ keys (insert k v m) ↔ k' = k ∨ k' ∈ keys m := by
  rw [← get_isSome_iff, ← get_isSome_iff, get_insert]
  by_cases h : k' = k <;> simp [h]

theorem mem_insert {k : κ} {v : ν} {e : κ × ν} {m : List (κ × ν)} (h : e ∈ insert k v m) : e = (k, v) ∨ e ∈ m := by
  induction m with
  | nil => exact Or.inl (List.mem_singleton.mp h)
  | cons a m ih =>
    rw [insert] at h
    split_ifs at h with h1 h2
    · exact List.mem_cons.mp h
    · exact (List.mem_cons.mp h).imp_right (List.mem_cons_of_mem _)
    · rcases List.mem_cons.mp h with rfl | h
      · exact Or.inr List.mem_cons_self
      · exact (ih h).imp_right (List.mem_cons_of_mem _)

/-- Reading after a removal. -/
theorem get_erase (k k' : κ) (m : List (κ × ν)) : get k' (erase k m) = if k' = k then none else get k' m := by
  induction m with
  | nil => simp [erase]
  | cons e m ih =>
    rw [erase] at ih ⊢
    by_cases h : e.1 = k
    · rw [List.filter_cons_of_neg (by simpa using h), ih, get_cons]
      split_ifs with h1 h2
      · rfl
      · exact absurd (h2.trans h) h1
      · rfl
    · rw [List.filter_cons_of_pos (by simpa using h), get_cons, get_cons, ih]
      by_cases h1 : k' = e.1
      · rw [if_pos h1, if_pos h1, if_neg fun h2 => h (h1.symm.trans h2)]
      · rw [if_neg h1, if_neg h1]

theorem keys_erase (k : κ) (m : List (κ × ν)) : keys (erase k m) = (keys m).filter (· ≠ k) := by
  simp [keys, erase, List.filter_map, Function.comp_def]

omit [LinearOrder κ] in
@[simp] theorem keys_mapVals (f : ν → μ) (m : List (κ × ν)) : keys (mapVals f m) = keys m := by
  simp [keys, mapVals]

omit [LinearOrder κ] in
theorem forall_mem_mapVals {f : ν → μ} {m : List (κ × ν)} {P : μ → Prop} :
    (∀ e ∈ mapVals f m, P e.2) ↔ ∀ e ∈ m, P (f e.2) :=
  List.forall_mem_map

/-! ### Sortedness -/

theorem sorted_nil : Sorted ([] : List (κ × ν)) := List.Pairwise.nil

theorem sorted_cons {e : κ × ν} {m : List (κ × ν)} : Sorted (e :: m) ↔ (∀ a ∈ m, e.1 < a.1) ∧ Sorted m :=
  List.pairwise_cons

theorem Sorted.insert {m : List (κ × ν)} (h : Sorted m) (k : κ) (v : ν) : Sorted (insert k v m) := by
  induction m with
  | nil => exact List.pairwise_singleton _ _
  | cons e m ih =>
    obtain ⟨he, hm⟩ := sorted_cons.mp h
    rw [Assoc.insert]
    split_ifs with h1 h2
    · refine sorted_cons.mpr ⟨fun a ha => ?_, h⟩
      rcases List.mem_cons.mp ha with rfl | ha
      · exact h1
      · exact h1.trans (he a ha)
    · exact sorted_cons.mpr ⟨fun a ha => h2 ▸ he a ha, hm⟩
    · refine sorted_cons.mpr ⟨fun a ha => ?_, ih hm⟩
      rcases mem_insert ha with rfl | ha
      · exact lt_of_le_of_ne (not_lt.mp h1) fun h3 => h2 h3.symm
      · exact he a ha

theorem Sorted.erase {m : List (κ × ν)} (h : Sorted m) (k : κ) : Sorted (erase k m) := List.Pairwise.filter _ h

theorem Sorted.mapVals {m : List (κ × ν)} (h : Sorted m) (f : ν → μ) : Sorted (mapVals f m) :=
  List.Pairwise.map _ (fun _ _ h => h) h

theorem Sorted.nodup_keys {m : List (κ × ν)} (h : Sorted m) : (keys m).Nodup :=
  List.Pairwise.map _ (fun _ _ h => ne_of_lt h) h

/-- Sorted lists with the same lookups are the same list. -/
theorem ext_get {m n : List (κ × ν)} (hm : Sorted m) (hn : Sorted n) (h : ∀ k, get k m = get k n) : m = n := by
  induction m generalizing n with
  | nil =>
    cases n with
    | nil => rfl
    | cons b n => simpa [get_cons] using h b.1
  | cons a m ih =>
    cases n with
    | nil => simpa [get_cons] using h a.1
    | cons b n =>
      obtain ⟨ha, hm⟩ := sorted_cons.mp hm
      obtain ⟨hb, hn⟩ := sorted_cons.mp hn
      have below : ∀ {c : κ × ν} {l : List (κ × ν)} {k : κ}, (∀ e ∈ l, c.1 < e.1) → k ≤ c.1 → get k l = none :=
        fun hl hk => get_eq_none_iff.mpr fun hmem => by
          obtain ⟨e, he, rfl⟩ := List.mem_map.mp hmem
          exact absurd (hl e he) (not_lt.mpr hk)
      -- the head keys agree: the smaller of the two would be missing from the other list
      have hk : a.1 = b.1 := by
        rcases lt_trichotomy a.1 b.1 with hlt | heq | hlt
        · have := h a.1
          rw [get_cons, if_pos rfl, get_cons, if_neg (ne_of_lt hlt), below hb hlt.le] at this
          exact absurd this (by simp)
        · exact heq
        · have := h b.1
          rw [get_cons, if_neg (ne_of_lt hlt), get_cons, if_pos rfl, below ha hlt.le] at this
          exact absurd this (by simp)
      have hv : a.2 = b.2 := by
        have := h a.1
        rw [get_cons, if_pos rfl, get_cons, if_pos hk] at this
        exact Option.some.inj this
      have htl : m = n := ih hm hn fun k => by
        by_cases hka : k = a.1
        · rw [below ha hka.le, below hb (hka.trans hk).le]
        · have := h k
          rwa [get_cons, if_neg hka, get_cons, if_neg fun h' => hka (h'.trans hk.symm)] at this
      rw [htl, Prod.ext hk hv]

theorem insert_eq_self {k : κ} {v : ν} {m : List (κ × ν)} (hm : Sorted m) (h : get k m = some v) :
    insert k v m = m :=
  ext_get (hm.insert k v) hm fun k' => by
    rw [get_insert]
    split_ifs with hk
    · rw [hk, h]
    · rfl

theorem insert_insert (k : κ) (v w : ν) (m : List (κ × ν)) : insert k w (insert k v m) = insert k w m := by
  induction m with
  | nil => simp [insert]
  | cons e m ih =>
    simp only [insert]
    split_ifs with hlt heq
    · simp [insert]
    · simp [insert]
    · simp [insert, hlt, heq, ih]

theorem erase_insert {k : κ} {m : List (κ × ν)} (hm : Sorted m) (v : ν) (h : get k m = none) :
    erase k (insert k v m) = m := by
  refine ext_get ((hm.insert k v).erase k) hm fun k' => ?_
  rw [get_erase, get_insert]
  split_ifs with hk
  · rw [hk, h]
  · rfl

/-! ### Building from entries -/

theorem sorted_foldl_insert (es : List (κ × ν)) {m : List (κ × ν)} (hm : Sorted m) :
    Sorted (es.foldl (fun m e => insert e.1 e.2 m) m) := by
  induction es generalizing m with
  | nil => exact hm
  | cons e es ih => exact ih (hm.insert e.1 e.2)

theorem sorted_ofList (es : List (κ × ν)) : Sorted (ofList es) := sorted_foldl_insert es sorted_nil

theorem get_foldl_insert {es : List (κ × ν)} (hes : (keys es).Nodup) (k : κ) (m : List (κ × ν)) :
    get k (es.foldl (fun m e => insert e.1 e.2 m) m) = (get k es).or (get k m) := by
  induction es generalizing m with
  | nil => simp
  | cons e es ih =>
    rw [keys_cons, List.nodup_cons] at hes
    rw [List.foldl_cons, ih hes.2, get_insert, get_cons]
    split_ifs with h
    · rw [h, get_eq_none_iff.mpr hes.1]
      rfl
    · rfl

/-- A map built from entries with distinct keys looks up what the entries say. -/
theorem get_ofList {es : List (κ × ν)} (hes : (keys es).Nodup) (k : κ) : get k (ofList es) = get k es := by
  rw [ofList, get_foldl_insert hes, get_nil, Option.or_none]

theorem mem_of_mem_ofList {es : List (κ × ν)} {e : κ × ν} (h : e ∈ ofList es) : e ∈ es := by
  have hfold : ∀ (es m : List (κ × ν)), e ∈ es.foldl (fun m e => insert e.1 e.2 m) m → e ∈ es ∨ e ∈ m := by
    intro es
    induction es with
    | nil => exact fun m hm => .inr hm
    | cons f es ih =>
      intro m hm
      rcases ih _ hm with he | he
      · exact .inl (List.mem_cons_of_mem _ he)
      · rcases mem_insert he with rfl | he
        · exact .inl List.mem_cons_self
        · exact .inr he
  simpa using hfold es [] h

/-- Entries with distinct keys are only reordered. -/
theorem ofList_perm {es : List (κ × ν)} (hes : (keys es).Nodup) : (ofList es).Perm es := by
  have hnodup {m : List (κ × ν)} (hm : (keys m).Nodup) : m.Nodup :=
    List.Pairwise.of_map Prod.fst (fun _ _ hne heq => hne (congrArg Prod.fst heq)) hm
  refine (List.perm_ext_iff_of_nodup (hnodup (sorted_ofList es).nodup_keys) (hnodup hes)).mpr fun e => ?_
  refine ⟨mem_of_mem_ofList, fun he => ?_⟩
  exact mem_of_get ((get_ofList hes e.1).trans (get_of_mem hes he))

/-- Rebuilding a sorted list gives it back. -/
theorem ofList_eq_self {m : List (κ × ν)} (hm : Sorted m) : ofList m = m :=
  ext_get (sorted_ofList m) hm fun k => get_ofList hm.nodup_keys k

end Forge.Assoc

namespace Forge

/-- A map with ordered keys: its entries, with the proof that the keys strictly increase. -/
structure BTreeMap (κ ν : Type) [LinearOrder κ] where
  /-- The entries in iteration order. -/
  entries : List (κ × ν)
  /-- The keys strictly increase. -/
  sorted : Assoc.Sorted entries

namespace BTreeMap

variable {κ ν : Type} [LinearOrder κ]

instance [DecidableEq ν] : DecidableEq (BTreeMap κ ν) := fun m n =>
  decidable_of_iff (m.entries = n.entries) ⟨fun h => by cases m; cases n; cases h; rfl, fun h => h ▸ rfl⟩

/-- The map without entries. -/
def empty : BTreeMap κ ν := ⟨[], Assoc.sorted_nil⟩

/-- The value under `k`. -/
def get (m : BTreeMap κ ν) (k : κ) : Option ν := Assoc.get k m.entries

/-- The map with `v` under `k`. -/
def insert (m : BTreeMap κ ν) (k : κ) (v : ν) : BTreeMap κ ν := ⟨Assoc.insert k v m.entries, m.sorted.insert k v⟩

/-- The map without `k`. -/
def erase (m : BTreeMap κ ν) (k : κ) : BTreeMap κ ν := ⟨Assoc.erase k m.entries, m.sorted.erase k⟩

/-- The map built by inserting `es` in order. -/
def ofList (es : List (κ × ν)) : BTreeMap κ ν := ⟨Assoc.ofList es, Assoc.sorted_ofList es⟩

/-- The keys in order. -/
def keys (m : BTreeMap κ ν) : List κ := Assoc.keys m.entries

/-- Whether the map has no entry. -/
def isEmpty (m : BTreeMap κ ν) : Bool := m.entries.isEmpty

theorem isEmpty_iff {m : BTreeMap κ ν} : m.isEmpty = true ↔ m = empty := by
  rw [isEmpty, List.isEmpty_iff]
  obtain ⟨es, hes⟩ := m
  simp [empty]

@[simp] theorem get_empty (k : κ) : (empty : BTreeMap κ ν).get k = none := rfl

@[simp] theorem keys_empty : (empty : BTreeMap κ ν).keys = [] := rfl

theorem get_insert (m : BTreeMap κ ν) (k k' : κ) (v : ν) :
    (m.insert k v).get k' = if k' = k then some v else m.get k' := Assoc.get_insert k k' v m.entries

theorem mem_keys_insert {m : BTreeMap κ ν} {k k' : κ} {v : ν} :
    k' ∈ (m.insert k v).keys ↔ k' = k ∨ k' ∈ m.keys := Assoc.mem_keys_insert

theorem get_eq_none_iff {m : BTreeMap κ ν} {k : κ} : m.get k = none ↔ k ∉ m.keys := Assoc.get_eq_none_iff

theorem nodup_keys (m : BTreeMap κ ν) : m.keys.Nodup := m.sorted.nodup_keys

/-- Maps with the same lookups are equal. -/
@[ext] theorem ext {m n : BTreeMap κ ν} (h : ∀ k, m.get k = n.get k) : m = n := by
  cases m with
  | mk es hes => cases n with
    | mk fs hfs =>
      obtain rfl := Assoc.ext_get hes hfs h
      rfl

end BTreeMap

end Forge
