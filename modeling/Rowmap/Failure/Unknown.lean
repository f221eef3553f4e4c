import Rowmap.Text.Similarity
import Rowmap.Value.Equality
import Rowmap.Value.Iterate

/-!
# Unknown fields

The failure for a key that a record type does not declare, with the declared keys that are most like
it. Keys are compared as sequences of characters, so a key that is no sequence, or that holds what
cannot be looked up, is of the wrong type instead.
-/

namespace Rowmap

namespace Fault

/-- How alike a declared key has to be to be suggested. -/
def suggestionCutoff : Rat := ((Binary64.ofRatio false 6 10).toRat?).getD 0

/-- How many suggestions a fault makes. -/
def suggestionCount : Nat := 5

/-- The character that a value is, if it is a text of one character. -/
def character? (v : Value) : Option Char :=
  match v.asText?.map String.toList with
  | some [c] => some c
  | _ => none

/-- The elements of a key as a word to look up. -/
def wordOf (key : Value) : Except Failure Text.Word := do
  let elements ← key.iterate
  if elements.all Value.hashable then .ok (elements.map character?) else .error (.wrongType none)

/-- What looking at a single position of a key ends in, if it has no positions. -/
def withoutPositions? : Value → Option Failure
  | .set .. => some (.wrongType none)
  | .map _ => some .missingKey
  | _ => none

/-- Whether a likeness, rounded to a double, reaches a cutoff. -/
def reaches (cutoff : Rat) (likeness : Nat × Nat) : Bool :=
  match (Binary64.ofRatio false likeness.1 likeness.2).toRat? with
  | some r => cutoff ≤ r
  | none => false

/-- The keys to suggest for one that is not declared. -/
def suggestions (cutoff : Rat) (key : Value) (available : List Value) :
    Except Failure (List Value) := do
  let word ← wordOf key
  let looksInside (v : Value) : Bool := Text.looksInside (reaches cutoff) word v.label
  match (withoutPositions? key).filter fun _ ↦ available.any looksInside with
  | some e => .error e
  | none =>
    if available.all (·.asText?.isSome) then
      .ok (Text.closeMatches Value.label (reaches cutoff) suggestionCount word available)
    else .error (.wrongType none)

/-- The fault for a key that is not among given ones. -/
def unknownAmong (cutoff : Rat) (key record : Value) (available : List Value) :
    Except Failure Fault := do
  .ok (.unknownField key record available (← suggestions cutoff key available))

end Fault

namespace Failure

/-- The failure for a key that a record type does not declare. What cannot be a key at all is of the
wrong type. -/
def unknownField (key : Value) (record : String) (available : List String) : Failure :=
  if key.hashable then
    match Fault.unknownAmong Fault.suggestionCutoff key (.text record) (available.map .text) with
    | .ok f => .fault f
    | .error e => e
  else .wrongType none

end Failure

end Rowmap
