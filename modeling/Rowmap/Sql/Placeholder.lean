import Rowmap.Text.Whole

/-!
# Placeholders

A placeholder is a dollar sign and decimal digits, as many as follow. A text is split into its
placeholders and the characters between them; shifting adds to the number of every placeholder and
leaves the characters as they are. No shift at all leaves also the placeholders as they were
written; for any other, no number may have too many digits.
-/

namespace Rowmap.Sql

/-- A piece of a text: one character, or the digits of a placeholder. -/
inductive Piece where
  | char (c : Char)
  | placeholder (digits : List Char)
  deriving DecidableEq, Repr

namespace Piece

/-- A text from its end on: the digits that it starts with, which may yet turn out to belong to a
placeholder, and the pieces after them. -/
def scan : List Char → List Char × List Piece
  | [] => ([], [])
  | c :: cs =>
    let (digits, pieces) := scan cs
    if Text.isDigit c then (c :: digits, pieces)
    else if c = '$' && !digits.isEmpty then ([], placeholder digits :: pieces)
    else ([], char c :: digits.map char ++ pieces)

/-- The pieces of a text. -/
def ofChars (cs : List Char) : List Piece :=
  let (digits, pieces) := scan cs
  digits.map char ++ pieces

/-- The characters of a piece after so many more bound parameters. -/
def shifted (b : Int) : Piece → List Char
  | .char c => [c]
  | .placeholder digits => '$' :: (toString (Text.digitsValue digits + b)).toList

/-- Whether the number of a piece has too many digits, before or after so many more bound
parameters. -/
def isTooLong (b : Int) : Piece → Bool
  | .char _ => false
  | .placeholder digits =>
    Text.maxDigits < digits.length || !Text.canWrite (Text.digitsValue digits + b)

end Piece

/-- The placeholder of the parameter with a given number. -/
def placeholder (n : Int) : String := "$" ++ toString n

/-- The placeholders of so many parameters, after those bound before. -/
def placeholders (bound : Int) (count : Nat) : String :=
  ", ".intercalate ((List.range count).map fun (i : Nat) ↦ placeholder (bound + i + 1))

/-- Whether placeholders after so many bound parameters may get numbers with too many digits. No
statement binds that many itself; it takes a caller who says that they are bound. -/
def isFar (bound : Int) : Bool := Nat.pow 2 64 ≤ bound.natAbs

/-- Whether so many placeholders, after those bound before, have numbers that can be written. -/
def canNumber (bound : Int) (count : Nat) : Bool :=
  count = 0 || (Text.canWrite (bound + 1) && Text.canWrite (bound + count))

/-- A text with every placeholder moved up by the number of parameters bound before it. -/
def shift (b : Int) (s : String) : String :=
  if b = 0 then s else String.ofList ((Piece.ofChars s.toList).flatMap (Piece.shifted b))

/-- Whether every placeholder of a text can be moved up by a number of parameters. -/
def canShift (b : Int) (s : String) : Bool :=
  b = 0 || !(Piece.ofChars s.toList).any (Piece.isTooLong b)

end Rowmap.Sql
