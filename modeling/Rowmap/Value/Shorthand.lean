import Rowmap.Text.LowerCase
import Rowmap.Value.Basic

/-!
# Shorthands

A value can be put under a comparison by name: each comparison has a shorthand that wraps a value
under it, bound unless told otherwise, and one more shorthand inlines a value as it is.
-/

namespace Rowmap

namespace Comparison

def shorthand (c : Comparison) : String := Text.lowerAscii c.memberName

def shorthandHelp (c : Comparison) : String := "Compare with " ++ "``" ++ c.label ++ "``."

/-- The shorthands whose names are taken; they are called with an underscore at the end. -/
def takenNames : List String := ["in", "any", "all"]

/-- The name that the shorthand for a comparison is called by. -/
def callName (c : Comparison) : String :=
  if takenNames.contains c.shorthand then c.shorthand ++ "_" else c.shorthand

end Comparison

namespace Value

/-- A value inlined as it is, or as a literal. -/
def raw (v : Value) (quote : Bool := false) : Value := .wrapped v false none quote

def compared (v : Value) (c : Comparison) (bind : Bool := true) (quote : Bool := false) : Value :=
  .wrapped v bind (some c) quote

def shorthand? (name : String) (v : Value) (bind quote : Bool) : Option Value :=
  if name == "raw" then some (v.raw quote)
  else (Comparison.members.find? (·.callName == name)).map (v.compared · bind quote)

end Value

end Rowmap
