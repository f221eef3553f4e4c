import Rowmap.Text.Whole

/-!
# Decimal notation

A number in decimal notation, with the digits that were written: a sign, a coefficient and a power
of ten. It is what a binary number and a decimal number are both read from.
-/

namespace Rowmap

open Text

/-- A number as it is written: `coefficient` times ten to the `exponent`. -/
structure Scientific where
  negative : Bool
  coefficient : Nat
  exponent : Int
  deriving DecidableEq, Repr

namespace Scientific

/-- The exponent after an `e`, or zero when nothing follows. -/
def exponentOf? : List Char → Option Int
  | [] => some 0
  | c :: rest =>
    if c == 'e' || c == 'E' then
      let (negative, ds) := splitSign rest
      if ds.isEmpty || !ds.all Char.isDigit then none else some (signed negative (digitsValue ds))
    else none

/-- A number without its sign: digits, perhaps with a point, and perhaps an exponent. At least one
digit stands before the exponent. -/
def ofUnsigned? (negative : Bool) (cs : List Char) : Option Scientific :=
  let before := cs.takeWhile Char.isDigit
  let rest := cs.dropWhile Char.isDigit
  let (after, tail) :=
    match rest with
    | '.' :: r => (r.takeWhile Char.isDigit, r.dropWhile Char.isDigit)
    | r => ([], r)
  if before.isEmpty && after.isEmpty then none
  else (exponentOf? tail).map fun e ↦ ⟨negative, digitsValue (before ++ after), e - after.length⟩

end Scientific

/-- What the text of a number can write: a number in decimal notation, an infinity, or no number. -/
inductive NumberText where
  | finite (n : Scientific)
  | infinite (negative : Bool)
  | notANumber (negative signals : Bool) (payload : String)

/-- Reads the text of a number; the words for the special values are read in any case. -/
def NumberText.ofChars? (cs : List Char) : Option NumberText :=
  let (negative, body) := splitSign cs
  let word := body.map Char.toLower
  if word == "inf".toList || word == "infinity".toList then some (.infinite negative)
  else if word.take 3 == "nan".toList && (word.drop 3).all Char.isDigit then
    some (.notANumber negative false (String.ofList (word.drop 3)))
  else if word.take 4 == "snan".toList && (word.drop 4).all Char.isDigit then
    some (.notANumber negative true (String.ofList (word.drop 4)))
  else (Scientific.ofUnsigned? negative body).map .finite

end Rowmap
