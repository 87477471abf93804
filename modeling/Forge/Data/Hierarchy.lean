import Forge.Data.Numerals
import Mathlib.Data.List.Basic
import Mathlib.Order.Bounds.Basic

/-!
# Hierarchies of bounds

A binary tree over items: every node has bounds, and the leaves have the items. Two trees meet where two leaves with
overlapping bounds have a pair of items that passes a test. Bounds are any preorder, `box i` are the bounds of an
item, and overlapping is monotone.

**`meets_branch_left`**, **`meets_branch_right`** and **`not_meets`** are the three cases of a search for a pair:
to go down on either side, and to leave out two nodes whose bounds do not overlap. **`meets_of_box`** says which pairs
no search can miss.
-/

namespace Forge

inductive Hierarchy (β ι : Type) where
  | leaf (bounds : β) (items : List ι)
  | branch (bounds : β) (left right : Hierarchy β ι)

namespace Hierarchy

variable {β ι κ : Type}

def bounds : Hierarchy β ι → β
  | leaf b _ => b
  | branch b _ _ => b

/-- The number of nodes. -/
def size : Hierarchy β ι → ℕ
  | leaf _ _ => 1
  | branch _ l r => l.size + r.size + 1

def leaves : Hierarchy β ι → List (β × List ι)
  | leaf b items => [(b, items)]
  | branch _ l r => l.leaves ++ r.leaves

/-- The items of the leaves, from left to right. -/
def items : Hierarchy β ι → List ι
  | leaf _ items => items
  | branch _ l r => l.items ++ r.items

theorem size_pos (t : Hierarchy β ι) : 0 < t.size := by
  cases t <;> simp [size]

theorem mem_items {t : Hierarchy β ι} {i : ι} : i ∈ t.items ↔ ∃ x ∈ t.leaves, i ∈ x.2 := by
  induction t with
  | leaf b its => simp [items, leaves]
  | branch b l r ihl ihr => simp [items, leaves, ihl, ihr, or_and_right, exists_or]

/-! ### Pairs of items -/

section

variable (overlaps : β → β → Bool) (test : ι → κ → Bool)

/-- Two leaves with overlapping bounds have a pair that passes the test. -/
def Meets (s : Hierarchy β ι) (t : Hierarchy β κ) : Prop :=
  ∃ x ∈ s.leaves, ∃ y ∈ t.leaves, overlaps x.1 y.1 = true ∧ ∃ i ∈ x.2, ∃ j ∈ y.2, test i j = true

variable {overlaps test} {s l r : Hierarchy β ι} {t l' r' : Hierarchy β κ} {b : β}

theorem meets_branch_left :
    Meets overlaps test (branch b l r) t ↔ Meets overlaps test l t ∨ Meets overlaps test r t := by
  simp only [Meets, leaves, List.mem_append, or_and_right, exists_or]

theorem meets_branch_right :
    Meets overlaps test s (branch b l' r') ↔ Meets overlaps test s l' ∨ Meets overlaps test s r' := by
  simp only [Meets, leaves, List.mem_append, or_and_right, and_or_left, exists_or]

theorem Meets.exists_test (h : Meets overlaps test s t) : ∃ i ∈ s.items, ∃ j ∈ t.items, test i j = true := by
  obtain ⟨x, hx, y, hy, -, i, hi, j, hj, htest⟩ := h
  exact ⟨i, mem_items.mpr ⟨x, hx, hi⟩, j, mem_items.mpr ⟨y, hy, hj⟩, htest⟩

end

/-! ### Bounds -/

variable (box : ι → Set β)

/-- The bounds of items. -/
def boxes (items : List ι) : Set β := {b | ∃ i ∈ items, b ∈ box i}

theorem boxes_mono {items items' : List ι} (h : items ⊆ items') : boxes box items ⊆ boxes box items' :=
  fun _ ⟨i, hi, hb⟩ => ⟨i, h hi, hb⟩

theorem boxes_perm {items items' : List ι} (h : items.Perm items') : boxes box items = boxes box items' :=
  Set.Subset.antisymm (boxes_mono box h.subset) (boxes_mono box h.symm.subset)

variable [Preorder β]

/-- Every node has the least bounds of its items. -/
def Tight : Hierarchy β ι → Prop
  | leaf b items => IsLUB (boxes box items) b
  | branch b l r => IsLUB (boxes box (l.items ++ r.items)) b ∧ l.Tight ∧ r.Tight

variable {box}

theorem Tight.isLUB {t : Hierarchy β ι} (h : t.Tight box) : IsLUB (boxes box t.items) t.bounds := by
  cases t with
  | leaf => exact h
  | branch => exact h.1

/-- The bounds of a node cover those of its leaves, which cover those of their items. -/
theorem Tight.leaves {t : Hierarchy β ι} (h : t.Tight box) {x : β × List ι} (hx : x ∈ t.leaves) :
    x.1 ≤ t.bounds ∧ ∀ i ∈ x.2, ∀ b ∈ box i, b ≤ x.1 := by
  induction t with
  | leaf b items =>
    obtain rfl := List.mem_singleton.mp hx
    exact ⟨le_refl _, fun i hi b' hb => h.1 ⟨i, hi, hb⟩⟩
  | branch b l r ihl ihr =>
    obtain ⟨hb, hl, hr⟩ := h
    rcases List.mem_append.mp hx with hx | hx
    · have hle := hl.isLUB.mono hb (boxes_mono box fun i hi => List.mem_append_left _ hi)
      exact ⟨(ihl hl hx).1.trans hle, (ihl hl hx).2⟩
    · have hle := hr.isLUB.mono hb (boxes_mono box fun i hi => List.mem_append_right _ hi)
      exact ⟨(ihr hr hx).1.trans hle, (ihr hr hx).2⟩

variable {overlaps : β → β → Bool} {test : ι → κ → Bool} {s : Hierarchy β ι} {t : Hierarchy β κ}

/-- Overlapping bounds overlap when they grow. -/
def Monotone (overlaps : β → β → Bool) : Prop :=
  ∀ a a' b b', a ≤ a' → b ≤ b' → overlaps a b = true → overlaps a' b' = true

variable {box' : κ → Set β}

/-- Nodes whose bounds do not overlap have no pair under them. -/
theorem not_meets (hmono : Monotone overlaps) (hs : s.Tight box) (ht : t.Tight box')
    (h : overlaps s.bounds t.bounds = false) : ¬Meets overlaps test s t := by
  rintro ⟨x, hx, y, hy, hover, -⟩
  have hroot := hmono _ _ _ _ (hs.leaves hx).1 (ht.leaves hy).1 hover
  rw [h] at hroot
  cases hroot

/-- A pair that passes the test and whose own bounds overlap is met. -/
theorem meets_of_box (hmono : Monotone overlaps) (hs : s.Tight box) (ht : t.Tight box') {i : ι} {j : κ}
    (hi : i ∈ s.items) (hj : j ∈ t.items) {b b' : β} (hb : b ∈ box i) (hb' : b' ∈ box' j)
    (hover : overlaps b b' = true) (htest : test i j = true) : Meets overlaps test s t := by
  obtain ⟨x, hx, hix⟩ := mem_items.mp hi
  obtain ⟨y, hy, hjy⟩ := mem_items.mp hj
  exact ⟨x, hx, y, hy, hmono _ _ _ _ ((hs.leaves hx).2 i hix b hb) ((ht.leaves hy).2 j hjy b' hb') hover,
    i, hix, j, hjy, htest⟩

end Hierarchy

end Forge
