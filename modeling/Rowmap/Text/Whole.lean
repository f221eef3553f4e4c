import Rowmap.Text.Blank
import Rowmap.Text.Digit

/-!
# Whole numbers in text

A whole number is written with an optional sign and decimal digits of any script; single underscores
may stand between digits and blanks around the whole. More digits than `maxDigits` are refused, in
reading and in writing.
-/

namespace Rowmap.Text

/-- The most digits that a whole number in text may have. -/
def maxDigits : Nat := 4300

/-- Whether a whole number can be written: it has no more than `maxDigits` digits. The first test
settles every number of ordinary size. -/
def canWrite (n : Int) : Bool := n.natAbs < Nat.pow 2 64 || n.natAbs < Nat.pow 10 maxDigits

/-- The digits of a numeral without its underscores, or `none` unless every underscore stands
between two digits. -/
def dropSeparators : List Char → Option (List Char)
  | [] => none
  | [c] => if isDigit c then some [c] else none
  | c :: '_' :: rest => if isDigit c then (dropSeparators rest).map (c :: ·) else none
  | c :: rest => if isDigit c then (dropSeparators rest).map (c :: ·) else none

/-- A sign, if one is written, and the rest: `true` for a minus. -/
def splitSign : List Char → Bool × List Char
  | '-' :: rest => (true, rest)
  | '+' :: rest => (false, rest)
  | cs => (false, cs)

/-- The number with a sign and a magnitude. -/
def signed (negative : Bool) (n : Nat) : Int := if negative then -(n : Int) else n

/-- A text without the blanks around it, its digits those of ASCII. -/
def tidied (s : String) : List Char :=
  (trimBlank s.toList).map fun c ↦ ((digit? c).map Nat.digitChar).getD c

/-- The whole number that a text writes. -/
def whole? (s : String) : Option Int :=
  let (negative, body) := splitSign (trimBlank s.toList)
  match dropSeparators body with
  | some ds => if ds.length ≤ maxDigits then some (signed negative (digitsValue ds)) else none
  | none => none

end Rowmap.Text
