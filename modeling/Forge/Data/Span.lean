import Forge.Data.Numerals
import Mathlib.Algebra.Order.Group.MinMax
import Mathlib.Order.WithBot

/-!
# Spans

The least and the greatest of some values, and the distance between them. The least of no values is above everything,
the greatest below everything, and the distance between these is below everything. The **key results** are that the
distance is not changed by a shift of all values (`span_add`) or a reflection (`span_neg`).
-/

namespace Forge.Span

variable {K : Type} [LinearOrder K]

def lowest (values : List K) : WithTop K := values.foldl (fun (m : WithTop K) (v : K) => min m v) ⊤

def highest (values : List K) : WithBot K := values.foldl (fun (m : WithBot K) (v : K) => max m v) ⊥

/-- A value that is not infinite. -/
def finite : WithBot K → Option K
  | none => none
  | some v => some v

/-- The order of the values does not matter. -/
theorem lowest_perm {values values' : List K} (h : values.Perm values') : lowest values = lowest values' :=
  h.foldl_eq' (fun a _ b _ m => min_right_comm m (a : WithTop K) b) ⊤

theorem lowest_map {f : K → K} (hf : Monotone f) (values : List K) :
    lowest (values.map f) = (lowest values).map f := by
  have hstep (values : List K) (m : WithTop K) :
      (values.map f).foldl (fun (m : WithTop K) (v : K) => min m v) (m.map f) =
        (values.foldl (fun (m : WithTop K) (v : K) => min m v) m).map f := by
    induction values generalizing m with
    | nil => rfl
    | cons v values ih =>
      rw [List.map_cons, List.foldl_cons, List.foldl_cons, ← ih, (WithTop.monotone_map_iff.mpr hf).map_min]
      rfl
  exact hstep values ⊤

theorem highest_map {f : K → K} (hf : Monotone f) (values : List K) :
    highest (values.map f) = (highest values).map f := by
  have hstep (values : List K) (m : WithBot K) :
      (values.map f).foldl (fun (m : WithBot K) (v : K) => max m v) (m.map f) =
        (values.foldl (fun (m : WithBot K) (v : K) => max m v) m).map f := by
    induction values generalizing m with
    | nil => rfl
    | cons v values ih =>
      rw [List.map_cons, List.foldl_cons, List.foldl_cons, ← ih, (WithBot.monotone_map_iff.mpr hf).map_max]
      rfl
  exact hstep values ⊥

variable [AddCommGroup K]

/-- The distance from a least to a greatest value. -/
def between : WithBot K → WithTop K → WithBot K
  | some hi, some lo => some (hi - lo)
  | _, _ => ⊥

def span (values : List K) : WithBot K := between (highest values) (lowest values)

variable [IsOrderedAddMonoid K]

theorem span_add (values : List K) (c : K) : span (values.map (· + c)) = span values := by
  have hmono : Monotone (· + c) := fun a b hab => add_le_add_left hab c
  rw [span, lowest_map hmono, highest_map hmono, span]
  cases highest values with
  | bot => rfl
  | coe hi =>
    cases lowest values with
    | top => rfl
    | coe lo => exact congrArg WithBot.some (add_sub_add_right_eq_sub hi lo c)

/-- The other end of the order. -/
def flip : WithBot K → WithTop K
  | none => ⊤
  | some v => some (-v)

theorem flip_max (a b : WithBot K) : flip (max a b) = min (flip a) (flip b) := by
  cases a with
  | bot => rw [max_eq_right bot_le]; exact (min_eq_right le_top).symm
  | coe a =>
    cases b with
    | bot => rw [max_eq_left bot_le]; exact (min_eq_left le_top).symm
    | coe b =>
      rw [← WithBot.coe_max]
      exact (congrArg WithTop.some (min_neg_neg a b).symm).trans (WithTop.coe_min _ _)

theorem lowest_neg (values : List K) : lowest (values.map Neg.neg) = flip (highest values) := by
  have hstep (values : List K) (m : WithBot K) :
      (values.map Neg.neg).foldl (fun (m : WithTop K) (v : K) => min m v) (flip m) =
        flip (values.foldl (fun (m : WithBot K) (v : K) => max m v) m) := by
    induction values generalizing m with
    | nil => rfl
    | cons v values ih =>
      rw [List.map_cons, List.foldl_cons, List.foldl_cons, ← ih, flip_max]
      rfl
  exact hstep values ⊥

theorem span_neg (values : List K) : span (values.map Neg.neg) = span values := by
  have hhighest : flip (highest (values.map Neg.neg)) = lowest values := by
    rw [← lowest_neg, List.map_map]
    simp
  rw [span, lowest_neg, span, ← hhighest]
  cases highest (values.map Neg.neg) with
  | bot => cases highest values <;> rfl
  | coe hi =>
    cases highest values with
    | bot => rfl
    | coe hi' => exact congrArg WithBot.some (by rw [sub_neg_eq_add, sub_neg_eq_add, add_comm])

end Forge.Span
