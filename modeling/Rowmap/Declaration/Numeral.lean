import Rowmap.Failure.Issue
import Rowmap.Text.Whole

/-!
# Numerals in declarations

A whole number in a declaration is a plain numeral, or a text that becomes one when it is tidied:
blanks at either end, a plus sign, zeros in front, a fraction of zeros and separators between digits
are taken away. A plain numeral of too many digits is too large. A tidied one of as many is no
number at all.
-/

namespace Rowmap.Numeral

/-- The whole number that a plain numeral writes: a minus sign or none, and digits without a zero in
front. -/
def plain (cs : List Char) : Except Problem Int :=
  let (negative, body) : Bool × List Char := match cs with
    | '-' :: rest => (true, rest)
    | rest => (false, rest)
  let digits := body.takeWhile Char.isDigit
  if digits.isEmpty || (digits.head? == some '0' && 1 < digits.length) then .error .badInt
  else if Text.maxDigits < digits.length then .error .intTooLarge
  else if digits.length = body.length then .ok (Text.signed negative (Text.digitsValue digits))
  else .error .badInt

/-- Whether a character starts a numeral without zeros in front. -/
def startsNumeral (c : Char) : Bool := c == '-' || ('1' ≤ c && c ≤ '9')

/-- What is left of a text after zeros and separators, the last of which is at hand: it stays where
nothing or a point comes next. -/
def afterZeros (last : Char) : List Char → Option (List Char)
  | [] => some [last]
  | c :: cs =>
    if c == '0' || c == '_' then afterZeros c cs
    else if startsNumeral c then some (c :: cs)
    else if c == '.' then some (last :: c :: cs)
    else none

/-- A text without zeros in front. It has to start with a digit. -/
def withoutZeros : List Char → Option (List Char)
  | [] => none
  | c :: cs =>
    if c == '0' then afterZeros c cs else if c.isDigit then some (c :: cs) else none

/-- A text without zeros in front or behind its minus sign. -/
def withoutSignedZeros : List Char → Option (List Char)
  | '-' :: cs => (withoutZeros cs).map ('-' :: ·)
  | cs => withoutZeros cs

/-- A text without a point and the zeros behind it. -/
def withoutFraction (cs : List Char) : List Char :=
  match cs.dropWhile (· != '.') with
  | _ :: zero :: zeros => if (zero :: zeros).all (· == '0') then cs.takeWhile (· != '.') else cs
  | _ => cs

/-- A text without the separators inside it, where each stands between other characters. -/
def withoutSeparators (cs : List Char) : List Char :=
  if cs.head? == some '_' || cs.getLast? == some '_' || (cs.zip cs.tail).contains ('_', '_') then cs
  else cs.filter (· != '_')

/-- A text without a plus sign in front, which no minus sign may follow. -/
def withoutPlus : List Char → Option (List Char)
  | '+' :: '-' :: _ => none
  | '+' :: cs => some cs
  | cs => some cs

/-- A text with everything taken away that a numeral does not need. -/
def tidied (cs : List Char) : Option (List Char) := do
  let cs ← withoutSignedZeros (← withoutPlus (Text.trimBlank cs))
  some (withoutSeparators (withoutFraction cs))

/-- The whole number that a text writes. -/
def read (s : String) : Except Problem Int :=
  match plain s.toList with
  | .error .badInt =>
    match tidied s.toList with
    | some cs => (plain cs).mapError fun _ ↦ .badInt
    | none => .error .badInt
  | answer => answer

end Rowmap.Numeral
