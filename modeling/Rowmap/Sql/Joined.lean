import Rowmap.Value.Iterate

/-!
# Joined conditions

Conditions joined by a connective. Parentheses are written only where they are needed: around a
group that has more than one part and stands beside other conditions.
-/

namespace Rowmap.Sql

/-- The parts that are not empty, joined by a connective, in parentheses when there are several of
them and the group has siblings. -/
def joinParts (parts : List String) (connective : String) (siblings : Int) : String :=
  let parts := parts.filter (!·.isEmpty)
  let joined := (" " ++ connective ++ " ").intercalate parts
  if 1 < parts.length && 0 < siblings then "(" ++ joined ++ ")" else joined

/-- The parts that a value has, joined. Those that count as false are left out, and the others have
to be texts. -/
def joinElements (parts : Value) (connective : String) (siblings : Int) :
    Except Failure String := do
  let texts ← ((← parts.iterate).filter Value.truthy).mapM fun v ↦
    match v.asText? with
    | some s => .ok s
    | none => .error (.wrongType none)
  .ok (joinParts texts connective siblings)

/-- The parts that are not empty, with a blank between them. -/
def words (parts : List String) : String := " ".intercalate (parts.filter (!·.isEmpty))

end Rowmap.Sql
