import Forge.Data.Assoc

/-!
# Maps in insertion order

A `Map` that iterates its entries in the order their keys were first written is a list of entries with distinct keys.
It is read by `Assoc.get`; `set` keeps the place of a key that is there, and `dropOldest` deletes entries from the
front until few enough are left.
-/

namespace Forge.Insertion

open Assoc (get keys)

variable {κ ν : Type} [LinearOrder κ]

/-- Write `v` under `k`: a key that is there keeps its place, a new one comes last. -/
def set (k : κ) (v : ν) : List (κ × ν) → List (κ × ν)
  | [] => [(k, v)]
  | e :: m => if k = e.1 then (k, v) :: m else e :: set k v m

/-- Delete the first entry until at most `n` are left. -/
def dropOldest (n : ℕ) : List (κ × ν) → List (κ × ν)
  | [] => []
  | e :: m => if n < m.length + 1 then dropOldest n m else e :: m

/-- Reading after a write. -/
theorem get_set (k k' : κ) (v : ν) (m : List (κ × ν)) : get k' (set k v m) = if k' = k then some v else get k' m := by
  induction m with
  | nil => rw [set, Assoc.get_cons]
  | cons e m ih =>
    rw [set]
    by_cases h : k = e.1
    · rw [if_pos h, Assoc.get_cons, Assoc.get_cons, ← h]
      split_ifs <;> rfl
    · rw [if_neg h, Assoc.get_cons, Assoc.get_cons, ih]
      by_cases hk : k' = e.1
      · rw [if_pos hk, if_pos hk, if_neg fun hk' => h (hk'.symm.trans hk)]
      · rw [if_neg hk, if_neg hk]

theorem mem_set {k : κ} {v : ν} {e : κ × ν} {m : List (κ × ν)} (h : e ∈ set k v m) : e = (k, v) ∨ e ∈ m := by
  induction m with
  | nil => exact Or.inl (List.mem_singleton.mp h)
  | cons a m ih =>
    rw [set] at h
    split_ifs at h
    · exact (List.mem_cons.mp h).imp_right (List.mem_cons_of_mem _)
    · rcases List.mem_cons.mp h with rfl | h
      · exact Or.inr List.mem_cons_self
      · exact (ih h).imp_right (List.mem_cons_of_mem _)

theorem mem_keys_set {k k' : κ} {v : ν} {m : List (κ × ν)} : k' ∈ keys (set k v m) ↔ k' = k ∨ k' ∈ keys m := by
  rw [← Assoc.get_isSome_iff, ← Assoc.get_isSome_iff, get_set]
  by_cases h : k' = k <;> simp [h]

theorem nodup_keys_set {m : List (κ × ν)} (h : (keys m).Nodup) (k : κ) (v : ν) : (keys (set k v m)).Nodup := by
  induction m with
  | nil => exact List.pairwise_singleton _ _
  | cons e m ih =>
    rw [Assoc.keys_cons, List.nodup_cons] at h
    rw [set]
    by_cases hk : k = e.1
    · rw [if_pos hk, Assoc.keys_cons, List.nodup_cons]
      exact ⟨hk ▸ h.1, h.2⟩
    · rw [if_neg hk, Assoc.keys_cons, List.nodup_cons, mem_keys_set, not_or]
      exact ⟨⟨fun h' => hk h'.symm, h.1⟩, ih h.2⟩

omit [LinearOrder κ] in
theorem dropOldest_suffix (n : ℕ) (m : List (κ × ν)) : dropOldest n m <:+ m := by
  induction m with
  | nil => exact List.suffix_refl []
  | cons e m ih =>
    rw [dropOldest]
    split_ifs
    · exact ih.trans (List.suffix_cons e m)
    · exact List.suffix_refl _

omit [LinearOrder κ] in
theorem length_dropOldest_le (n : ℕ) (m : List (κ × ν)) : (dropOldest n m).length ≤ n := by
  induction m with
  | nil => exact Nat.zero_le n
  | cons e m ih =>
    rw [dropOldest]
    split_ifs with h
    · exact ih
    · exact not_lt.mp h

omit [LinearOrder κ] in
theorem dropOldest_eq_self {n : ℕ} {m : List (κ × ν)} (h : m.length ≤ n) : dropOldest n m = m := by
  cases m with
  | nil => rfl
  | cons e m => exact if_neg (not_lt.mpr h)

/-- With distinct keys, some of the entries answer as all of them do or not at all. -/
theorem get_of_sublist {m n : List (κ × ν)} (hn : (keys n).Nodup) (h : m.Sublist n) (k : κ) :
    get k m = none ∨ get k m = get k n := by
  cases hk : get k m with
  | none => exact Or.inl rfl
  | some v => exact Or.inr (Assoc.get_of_mem hn (h.subset (Assoc.mem_of_get hk))).symm

omit [LinearOrder κ] in
theorem nodup_keys_of_sublist {m n : List (κ × ν)} (h : m.Sublist n) (hn : (keys n).Nodup) : (keys m).Nodup :=
  List.Nodup.sublist (h.map Prod.fst) hn

end Forge.Insertion
