import Forge.Json.Decimal
import Mathlib.Algebra.Order.Floor.Semiring
import Mathlib.Data.Rat.Floor

/-!
# Doubles with a fixed number of decimals

`formatFixed` writes a double the way a format string `{:.6}` does: the decimal with this
many digits after the point that is nearest to the double, ties to even.
-/

namespace Forge

/-- The natural number nearest to `q`, ties to even. -/
def roundHalfEven (q : ℚ) : ℕ :=
  let below := ⌊q⌋₊
  if q - below < 1 / 2 ∨ (q - below = 1 / 2 ∧ below % 2 = 0) then below else below + 1

/-- The digits of `n` with at least `width` of them. -/
def padded (width n : ℕ) : List Char := (Nat.toDigits 10 n).leftpad width '0'

/-- A decimal of `n / 10 ^ digits`. -/
def fixedDigits (digits n : ℕ) : List Char :=
  let ds := padded (digits + 1) n
  let whole := ds.take (ds.length - digits)
  if digits = 0 then whole else whole ++ '.' :: ds.drop (ds.length - digits)

/-- `format!("{x:.digits}")` -/
def formatFixed (digits : ℕ) (x : Float) : List Char :=
  if x.isNaN then "NaN".toList
  else
    let magnitude := if x.isFinite then fixedDigits digits (roundHalfEven (|floatValue x| * 10 ^ digits)) else "inf".toList
    if signBit x then '-' :: magnitude else magnitude

example : formatFixed 6 (-0.25) = "-0.250000".toList := by decide +kernel

end Forge
