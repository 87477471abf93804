import Forge.Data.Numerals
import Mathlib.Order.Basic

/-!
# Choosing a least element

`minBy` is the choice that an iterator makes with a comparison: the first element that no later one is less than. The
comparison needs no laws for the **key result** `minBy_iff`: if it prefers the elements with some property to all
others, an element with that property is chosen whenever there is one.
-/

namespace Forge.Choice

variable {α : Type} {cmp : α → α → Ordering} {P : α → Prop}

/-- The better of two elements; the first one, where they are equal. -/
def better (cmp : α → α → Ordering) (x y : α) : α := if cmp x y = .gt then y else x

/-- `min_by` -/
def minBy (cmp : α → α → Ordering) : List α → Option α
  | [] => none
  | a :: as => some (as.foldl (better cmp) a)

/-- Elements with a property come before all others. -/
structure Prefers (cmp : α → α → Ordering) (P : α → Prop) : Prop where
  lt : ∀ {x y}, P x → ¬ P y → cmp x y = .lt
  gt : ∀ {x y}, ¬ P x → P y → cmp x y = .gt

theorem Prefers.better_iff (h : Prefers cmp P) (x y : α) : P (better cmp x y) ↔ P x ∨ P y := by
  rw [better]
  by_cases hx : P x
  · by_cases hy : P y
    · split <;> simp [hx, hy]
    · rw [h.lt hx hy, if_neg (by decide)]
      simp [hx]
  · by_cases hy : P y
    · rw [h.gt hx hy, if_pos rfl]
      simp [hy]
    · split <;> simp [hx, hy]

theorem Prefers.foldl_iff (h : Prefers cmp P) (a : α) (as : List α) :
    P (as.foldl (better cmp) a) ↔ ∃ x ∈ a :: as, P x := by
  induction as generalizing a with
  | nil => simp
  | cons b as ih =>
    rw [List.foldl_cons, ih]
    simp only [List.mem_cons, exists_eq_or_imp, h.better_iff, or_assoc]

/-- **What is preferred is chosen**, whenever there is some. -/
theorem minBy_iff (h : Prefers cmp P) {l : List α} {m : α} (hm : minBy cmp l = some m) : P m ↔ ∃ x ∈ l, P x := by
  cases l with
  | nil => cases hm
  | cons a as =>
    obtain rfl := Option.some.inj hm
    exact h.foldl_iff a as

end Forge.Choice
