import Mathlib.Algebra.GroupWithZero.Nat
import Mathlib.Algebra.Ring.Int.Defs
import Mathlib.Data.Nat.Cast.Defs

/-!
# Small numerals

A numeral of `Fin n` or of a ring rests on a proof about its size. The proofs for the numerals that occur
throughout are instances here, and so the same term wherever such a numeral is written.
-/

namespace Forge

instance (priority := 2000) neZero_three : NeZero 3 := ⟨by decide⟩

instance (priority := 2000) atLeastTwo_two : Nat.AtLeastTwo 2 := ⟨by decide⟩

instance (priority := 2000) atLeastTwo_ten : Nat.AtLeastTwo 10 := ⟨by decide⟩

end Forge
