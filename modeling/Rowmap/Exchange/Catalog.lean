import Rowmap.FieldType
import Rowmap.Vocabulary

/-!
# Catalog

The vocabularies as plain data, for interfaces that list what can be asked for: the members of each
by name and by text, and the families of comparisons.
-/

namespace Rowmap.Catalog

/-- A member of a vocabulary: its name and its text. -/
structure Entry where
  name : String
  label : String
  deriving DecidableEq, Repr

/-- The members of the vocabularies, by the names of the vocabularies. -/
def vocabularies : List (String × List Entry) := [
  ("Comparison", Comparison.members.map fun c ↦ ⟨c.memberName, c.label⟩),
  ("Connective", Connective.members.map fun c ↦ ⟨c.label, c.label⟩),
  ("SortDirection", SortDirection.members.map fun d ↦ ⟨d.memberName, d.label⟩),
  ("OutputType", OutputType.members.map fun o ↦ ⟨o.memberName, o.label⟩),
  ("Sentinel", Marker.members.map fun m ↦ ⟨m.memberName, m.label⟩),
  ("FieldType", FieldType.members.map fun t ↦ ⟨t.memberName, t.label⟩)]

/-- The member of a vocabulary with a given text. -/
def entry? (vocabulary label : String) : Option Entry :=
  (vocabularies.lookup vocabulary).bind fun entries ↦ entries.find? (·.label == label)

/-- The families of comparisons, by name. -/
def families : List (String × (Comparison → Bool)) := [
  ("PARENS", Comparison.parenthesizes), ("LIST", Comparison.bindsEach),
  ("ARRAY", Comparison.bindsArray), ("TEXT", Comparison.comparesText),
  ("RHS_ONLY", Comparison.rightOnly), ("LHS_ONLY", Comparison.leftOnly)]

/-- The names of the families that a comparison belongs to. -/
def familiesOf (c : Comparison) : List String :=
  (families.filter fun (_, holds) ↦ holds c).map (·.1)

end Rowmap.Catalog
