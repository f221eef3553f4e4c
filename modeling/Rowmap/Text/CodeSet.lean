/-!
# Sets of code points

A property of characters that a standard fixes by a table is kept as the sorted list of code points
at which membership changes. Code points below the first are outside, and each later one crosses
over, so membership is the parity of how many have been passed.
-/

namespace Rowmap.Text

/-- A set of code points, by the places where membership changes. -/
structure CodeSet where
  /-- The code points at which membership changes, in increasing order. -/
  changes : List Nat

namespace CodeSet

/-- Whether a character belongs: an odd number of changes lie at or before it. -/
def has (s : CodeSet) (c : Char) : Bool := s.changes.countP (· ≤ c.toNat) % 2 == 1

/-- The empty table describes the empty set. -/
@[simp] theorem has_nil (c : Char) : has ⟨[]⟩ c = false := rfl

end CodeSet

end Rowmap.Text
