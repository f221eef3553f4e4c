import Rowmap.Failure.Basic
import Rowmap.Value.Equality

/-!
# Comparing values

To compare two values is a question that fails when it meets a number that signals. A container asks
it of its elements one by one and stops at the first that matches, so a number that signals behind
that one does no harm.
-/

namespace Rowmap.Value

/-- The answer to a comparison, which fails when a number signalled. -/
def answered : Option Bool → Except Failure Bool
  | some b => .ok b
  | none => .error .signalled

def isEqualTo (a b : Value) : Except Failure Bool := answered (compare? a b)

/-- Whether an element of a container matches a value: it is the same object, or equal. -/
def isMatch (element v : Value) : Except Failure Bool :=
  if same element v then .ok true else isEqualTo element v

/-- The position of the first element that matches a value, if one does. -/
def firstMatch? (v : Value) : List Value → Except Failure (Option Nat)
  | [] => .ok none
  | x :: xs => do
    if ← isMatch x v then .ok (some 0) else .ok ((← firstMatch? v xs).map (· + 1))

/-- Whether a value is a number greater than a count. A decimal that is no number has no place among
the others. -/
def exceeds (v : Value) (n : Nat) : Except Failure Bool :=
  match v, v.number? with
  | .int m, _ => .ok (n < m)
  | _, some (.exact x) => .ok (x.exceeds n)
  | _, some (.infinite negative) => .ok !negative
  | .decimal _, some (.notANumber _) => .error .signalled
  | _, some (.notANumber _) => .ok false
  | _, none => .error (.wrongType none)

end Rowmap.Value
