import Forge.Data.Text
import Forge.Json.Decimal

/-!
# Text: searching and reading numbers

Searching for a piece of text (`cut`), cutting at white space, counting occurrences, and what a
standard library reads as a floating-point number (`parseFloat`).
-/

namespace Forge.Text

/-- What stands before and after the first occurrence of `pat`. -/
def cut (pat : List Char) : List Char → Option (List Char × List Char)
  | [] => if pat = [] then some ([], []) else none
  | c :: cs =>
    if pat.isPrefixOf (c :: cs) then some ([], (c :: cs).drop pat.length)
    else (cut pat cs).map fun p => (c :: p.1, p.2)

/-- Number of occurrences that do not overlap; `fuel` bounds the rounds. -/
def occurrences (pat : List Char) : ℕ → List Char → ℕ
  | 0, _ => 0
  | fuel + 1, s =>
    match cut pat s with
    | none => 0
    | some (_, after) => occurrences pat fuel after + 1

/-- `str::split_whitespace`; `word` is the word so far, the last character first. -/
def wordsFrom (word : List Char) : List Char → List (List Char)
  | [] => if word = [] then [] else [word.reverse]
  | c :: cs =>
    if isWhiteSpace c then (if word = [] then wordsFrom [] cs else word.reverse :: wordsFrom [] cs)
    else wordsFrom (c :: word) cs

def words (s : List Char) : List (List Char) := wordsFrom [] s

/-- The exponent after the digits: none, or `e` with a sign and digits. -/
def parseExponent : List Char → Option ℤ
  | [] => some 0
  | c :: cs =>
    if c = 'e' ∨ c = 'E' then
      let digits := match cs with
        | '+' :: ds => ds
        | '-' :: ds => ds
        | ds => ds
      let magnitude := (Nat.ofDigitChars 10 digits 0 : ℤ)
      if digits = [] ∨ digits.all Char.isDigit = false then none
      else some (if cs.head? = some '-' then -magnitude else magnitude)
    else none

/-- Digits with at most one point among them, and an exponent. -/
def parseDecimal (s : List Char) : Option Float :=
  let whole := s.takeWhile Char.isDigit
  let rest := s.dropWhile Char.isDigit
  let fraction := if rest.head? = some '.' then rest.tail.takeWhile Char.isDigit else []
  let tail := if rest.head? = some '.' then rest.tail.dropWhile Char.isDigit else rest
  if whole ++ fraction = [] then none
  else (parseExponent tail).map fun e => Decimal.nearest (Nat.ofDigitChars 10 (whole ++ fraction) 0) (e - fraction.length)

/-- A number without a sign: the names of what is not finite, or a decimal. -/
def parseMagnitude (s : List Char) : Option Float :=
  let name := s.map Char.toLower
  if name = "inf".toList ∨ name = "infinity".toList then some (1.0 / 0.0)
  else if name = "nan".toList then some (0.0 / 0.0)
  else parseDecimal s

/-- `str::parse::<f64>` -/
def parseFloat : List Char → Option Float
  | '+' :: cs => parseMagnitude cs
  | '-' :: cs => (parseMagnitude cs).map fun x => -x
  | cs => parseMagnitude cs

end Forge.Text
