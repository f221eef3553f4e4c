import Rowmap.Table
import Rowmap.Vocabulary

/-!
# Selections

The parts of a `SELECT` over one record type, over any type `α` of values. They are kept apart from
the statement's text because a selection may itself stand as a value in a condition tree, so values
and selections contain each other.
-/

namespace Rowmap

/-- What a query returns of each row: all of it, the value of one key, or the values of several. -/
inductive Selector (α : Type) where
  | everything
  | one (key : α)
  | several (keys : List α)

/-- The shape of rows that a selector implies: a value for one key and a map for several. -/
def Selector.implied? {α : Type} : Selector α → Option OutputType
  | .everything => none
  | .one _ => some .value
  | .several _ => some .object

/-- A selection of rows. `loaded` says that the rows at hand answer it as it stands. -/
structure Select (α : Type) where
  table : Table α
  wheres : List α := []
  orderBys : List (α × SortDirection) := []
  limit : Option α := none
  offset : Option α := none
  output : OutputType := .record
  returns : Selector α := .everything
  loaded : Bool := false
  rows : List α := []
  /-- What was asked for in the matter of streaming; a selection that streams keeps no rows. -/
  streaming : Option α := none

end Rowmap
