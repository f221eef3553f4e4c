import Rowmap.Failure.Basic

/-!
# Whole numbers from values

Where a whole number is asked for, other values count for one: truth values, fractions towards zero,
and texts that write one.
-/

namespace Rowmap

namespace Value

def asciiText? (bs : List UInt8) : Option String :=
  if bs.all (· < 128) then some (String.ofList (bs.map fun b ↦ Char.ofNat b.toNat)) else none

/-- The whole number that a number is, towards zero. -/
def truncated (truncate? : Option Int) (infinite : Bool) : Except Failure Int :=
  match truncate? with
  | some n => .ok n
  | none => .error (if infinite then .tooLarge else .badValue)

/-- The whole number that a text writes. -/
def wholeOfText (s : Option String) : Except Failure Int :=
  match s.bind Text.whole? with
  | some n => .ok n
  | none => .error .badValue

/-- The whole number that a value counts for. -/
def toWhole (v : Value) : Except Failure Int :=
  match v, v.asText? with
  | _, some s => wholeOfText (some s)
  | .bool b, _ => .ok (if b then 1 else 0)
  | .int n, _ => .ok n
  | .float x, _ => truncated x.truncate? (match x with | .infinite _ => true | _ => false)
  | .decimal x, _ => truncated x.truncate? (match x with | .infinite _ => true | _ => false)
  | .bytes bs, _ => wholeOfText (asciiText? bs)
  | .uuid n, _ => .ok n
  | _, _ => .error (.wrongType none)

/-- A whole number in decimal; one of too many digits is refused. -/
def wholeText (n : Int) : Except Failure String :=
  if Text.canWrite n then .ok (toString n) else .error .badValue

end Value

end Rowmap
