import Forge.Data.Numerals
import Mathlib.Data.Fintype.Card
import Mathlib.Data.Set.Finite.List

/-!
# Fronts

The front of a list, for a relation by which an element may dominate another: the elements that nothing in the list
dominates. If the relation is transitive and irreflexive then every element is on the front or dominated from it
(`mem_or_dominated`). The front does not depend on the order of the list (`front_perm`).
-/

namespace Front

variable {α : Type} (D : α → α → Prop) [DecidableRel D]

/-- The elements that nothing dominates. -/
def front (as : List α) : List α := as.filter fun a => ∀ b ∈ as, ¬D b a

variable {D} {as bs : List α} {a : α}

theorem mem_front : a ∈ front D as ↔ a ∈ as ∧ ∀ b ∈ as, ¬D b a := by simp [front]

theorem front_perm (h : as.Perm bs) : (front D as).Perm (front D bs) := by
  have hsame : (fun a => decide (∀ b ∈ as, ¬D b a)) = fun a => decide (∀ b ∈ bs, ¬D b a) :=
    funext fun a => decide_eq_decide.mpr ⟨fun hd b hb => hd b (h.mem_iff.mpr hb), fun hd b hb => hd b (h.mem_iff.mp hb)⟩
  rw [front, front, hsame]
  exact h.filter _

/-- **What is not on the front is dominated from the front.** -/
theorem mem_or_dominated [IsTrans α D] [Std.Irrefl D] (ha : a ∈ as) : a ∈ front D as ∨ ∃ b ∈ front D as, D b a := by
  have : Finite {x // x ∈ as} := as.finite_toSet
  let R : {x // x ∈ as} → {x // x ∈ as} → Prop := fun x y => D x.1 y.1
  have : IsTrans _ R := ⟨fun x y z hxy hyz => IsTrans.trans x.1 y.1 z.1 hxy hyz⟩
  have : Std.Irrefl R := ⟨fun x hx => Std.Irrefl.irrefl x.1 hx⟩
  have hwf : WellFounded R := Finite.wellFounded_of_trans_of_irrefl R
  -- Among the dominators of `a` and `a` itself there is one that nothing dominates.
  obtain ⟨m, hm, hleast⟩ := hwf.has_min {x | x.1 = a ∨ D x.1 a} ⟨⟨a, ha⟩, .inl rfl⟩
  have hfront : m.1 ∈ front D as := by
    refine mem_front.mpr ⟨m.2, fun b hb hbm => hleast ⟨b, hb⟩ (.inr ?_) hbm⟩
    rcases hm with hm | hm
    · exact hm ▸ hbm
    · exact IsTrans.trans b m.1 a hbm hm
  rcases hm with hm | hm
  · exact .inl (hm ▸ hfront)
  · exact .inr ⟨m.1, hfront, hm⟩

theorem front_ne_nil [IsTrans α D] [Std.Irrefl D] (h : as ≠ []) : front D as ≠ [] := by
  obtain ⟨a, ha⟩ := List.exists_mem_of_ne_nil as h
  rcases mem_or_dominated (D := D) ha with hfront | ⟨b, hfront, -⟩
  · exact List.ne_nil_of_mem hfront
  · exact List.ne_nil_of_mem hfront

end Front
