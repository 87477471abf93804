import Forge.Data.Numerals
import Mathlib.Data.List.Nodup

/-!
# Tables

A table is the list of its rows. `UPDATE … SET f WHERE p` rewrites the rows that
satisfy `p`, a key column is a function of the row, and a row is found by its key.
The lemmas say what an update does to one row (`mem_update`), that it keeps
whatever column its assignment keeps (`map_update`), and that under a unique key
a row is what its key finds (`find?_eq_some_iff`).
-/

namespace Forge.Table

variable {ρ κ : Type} [DecidableEq κ]

/-- `UPDATE … SET f WHERE p` -/
def update (p : ρ → Bool) (f : ρ → ρ) (t : List ρ) : List ρ := t.map fun r => if p r then f r else r

/-- The row with key `k`. -/
def find (key : ρ → κ) (k : κ) (t : List ρ) : Option ρ := t.find? fun r => key r = k

omit [DecidableEq κ] in
theorem mem_update {p : ρ → Bool} {f : ρ → ρ} {t : List ρ} {r : ρ} :
    r ∈ update p f t ↔ ∃ s ∈ t, (if p s then f s else s) = r := List.mem_map

omit [DecidableEq κ] in
/-- An update keeps every column that its assignment keeps. -/
theorem map_update {g : ρ → κ} {p : ρ → Bool} {f : ρ → ρ} (h : ∀ r, p r = true → g (f r) = g r) (t : List ρ) :
    (update p f t).map g = t.map g := by
  rw [update, List.map_map]
  refine List.map_congr_left fun r _ => ?_
  simp only [Function.comp]
  split_ifs with hp
  · exact h r hp
  · rfl

theorem find_some {key : ρ → κ} {k : κ} {t : List ρ} {r : ρ} (h : find key k t = some r) : r ∈ t ∧ key r = k :=
  ⟨List.mem_of_find?_eq_some h, by simpa using List.find?_some h⟩

/-- With unique keys, a row is what its key finds. -/
theorem find_eq_some_iff {key : ρ → κ} {k : κ} {t : List ρ} (ht : (t.map key).Nodup) {r : ρ} :
    find key k t = some r ↔ r ∈ t ∧ key r = k := by
  refine ⟨find_some, fun ⟨hr, hk⟩ => ?_⟩
  cases h : find key k t with
  | none => exact absurd (List.find?_eq_none.mp h r hr) (by simp [hk])
  | some s =>
    obtain ⟨hs, hks⟩ := find_some h
    rw [List.inj_on_of_nodup_map ht hs hr (hks.trans hk.symm)]

theorem find_eq_none_iff {key : ρ → κ} {k : κ} {t : List ρ} : find key k t = none ↔ k ∉ t.map key := by
  rw [find, List.find?_eq_none, List.mem_map]
  constructor
  · rintro h ⟨r, hr, hk⟩
    exact absurd (h r hr) (by simp [hk])
  · intro h r hr hk
    exact h ⟨r, hr, by simpa using hk⟩

/-- An update that keeps the key keeps what the key finds, updated. -/
theorem find_update {key : ρ → κ} {k : κ} {p : ρ → Bool} {f : ρ → ρ} (h : ∀ r, p r = true → key (f r) = key r)
    (t : List ρ) : find key k (update p f t) = (find key k t).map fun r => if p r then f r else r := by
  induction t with
  | nil => rfl
  | cons r t ih =>
    have hkey : key (if p r then f r else r) = key r := by
      split_ifs with hp
      · exact h r hp
      · rfl
    simp only [find, update] at ih ⊢
    rw [List.map_cons, List.find?_cons, List.find?_cons, ih, hkey]
    by_cases hk : key r = k <;> simp [hk]

/-- Selecting rows commutes with an update that does not change whether they are selected. -/
theorem filter_update {p q : ρ → Bool} {f : ρ → ρ} (hq : ∀ r, p r = true → q (f r) = q r) (t : List ρ) :
    (update p f t).filter q = update p f (t.filter q) := by
  induction t with
  | nil => rfl
  | cons r t ih =>
    rw [update] at ih ⊢
    rw [List.map_cons, List.filter_cons, List.filter_cons, ih]
    by_cases hp : p r = true
    · by_cases hqr : q r = true
      · simp [hp, hq r hp, hqr, update]
      · simp [hp, hq r hp, hqr]
    · by_cases hqr : q r = true
      · simp [hp, hqr, update]
      · simp [hp, hqr]

omit [DecidableEq κ] in
/-- A row that an update does not select stays. -/
theorem mem_update_of_not {p : ρ → Bool} {f : ρ → ρ} {t : List ρ} {r : ρ} (hr : r ∈ t) (hp : p r = false) :
    r ∈ update p f t := mem_update.mpr ⟨r, hr, by simp [hp]⟩

omit [DecidableEq κ] in
/-- Selected rows that an update leaves alone, and that it moves none into, are selected as before. -/
theorem filter_update_eq {p q : ρ → Bool} {f : ρ → ρ} {t : List ρ} (hq : ∀ r ∈ t, p r = true → q (f r) = q r)
    (h : ∀ r ∈ t, q r = true → p r = false) : (update p f t).filter q = t.filter q := by
  induction t with
  | nil => rfl
  | cons r t ih =>
    have ih := ih (fun s hs => hq s (List.mem_cons_of_mem _ hs)) fun s hs => h s (List.mem_cons_of_mem _ hs)
    rw [update] at ih ⊢
    rw [List.map_cons, List.filter_cons, List.filter_cons, ih]
    by_cases hp : p r = true
    · have hqr : q r = false := by
        by_contra hc
        rw [h r List.mem_cons_self (by simpa using hc)] at hp
        cases hp
      simp [hp, hq r List.mem_cons_self hp, hqr]
    · simp [hp]

theorem find_append {key : ρ → κ} {k : κ} {t u : List ρ} :
    find key k (t ++ u) = (find key k t).or (find key k u) := by
  rw [find, List.find?_append]
  rfl

end Forge.Table
