import Forge.Data.Numerals
import Mathlib.Data.Nat.Notation
import Mathlib.Tactic.Common

/-!
# Bisection for the last place

`bisectLast p lo hi` looks between `lo` and `hi` for the last place where `p` holds, by halving. When `p` holds
at `lo` and everywhere before a place where it holds, it finds it (`bisectLast_spec`).
-/

namespace Forge

/-- The last place between `lo` and `hi` where `p` holds. -/
def bisectLast (p : ℕ → Bool) (lo hi : ℕ) : ℕ :=
  if lo < hi then
    if p ((lo + hi + 1) / 2) then bisectLast p ((lo + hi + 1) / 2) hi
    else bisectLast p lo ((lo + hi + 1) / 2 - 1)
  else lo
termination_by hi - lo
decreasing_by all_goals omega

theorem bisectLast_spec {p : ℕ → Bool} {lo hi : ℕ} (hle : lo ≤ hi) (hlo : p lo)
    (hdown : ∀ i j, i ≤ j → j ≤ hi → p j → p i) :
    lo ≤ bisectLast p lo hi ∧ bisectLast p lo hi ≤ hi ∧ p (bisectLast p lo hi) ∧
      ∀ i, bisectLast p lo hi < i → i ≤ hi → p i = false := by
  induction lo, hi using bisectLast.induct p with
  | case1 lo hi hlt hmid ih =>
    rw [bisectLast, if_pos hlt, if_pos hmid]
    obtain ⟨h1, h2, h3, h4⟩ := ih (by omega) hmid hdown
    exact ⟨by omega, h2, h3, h4⟩
  | case2 lo hi hlt hmid ih =>
    rw [bisectLast, if_pos hlt, if_neg hmid]
    obtain ⟨h1, h2, h3, h4⟩ := ih (by omega) hlo fun i j hij hj => hdown i j hij (by omega)
    refine ⟨h1, by omega, h3, fun i hi' hile => ?_⟩
    by_cases hmiddle : i ≤ (lo + hi + 1) / 2 - 1
    · exact h4 i hi' hmiddle
    · exact Bool.eq_false_iff.mpr fun hp => hmid (hdown _ i (by omega) hile hp)
  | case3 lo hi hge =>
    rw [bisectLast, if_neg hge]
    exact ⟨Nat.le_refl _, by omega, hlo, fun i hi' hile => by omega⟩

end Forge
