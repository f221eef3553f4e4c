import Rowmap.Value.Iterate

/-!
# Renditions

A rendition is a fragment of a statement with the values bound in it, in the order of their numbers.
Its parts are whatever a caller's own sub-query answers; `Rendition.ofValue` says which answers
count as renditions.
-/

namespace Rowmap

/-- A fragment of a statement, its values, and the comparison that it asks for. -/
structure Rendition where
  query : Value
  values : List Value := []
  comparison : Value := .null

namespace Rendition

def ofText (query : String) (values : List Value) : Rendition := ⟨.text query, values, .null⟩

def comparisonValue : Option Comparison → Value
  | some c => .comparison c
  | none => .null

/-- The values of an answer that may leave them out. -/
def boundValues (v : Value) : Except Failure (List Value) :=
  if v.truthy then v.iterate else .ok []

/-- The rendition that an answer stands for: a rendered fragment, a map with the parts by name, or a
tuple of the parts. -/
def ofValue : Value → Except Failure Rendition
  | .rendered query values comparison => .ok ⟨.text query, values, comparisonValue comparison⟩
  | .map entries =>
    match entries.lookup "query" with
    | some query => do
      let values ← boundValues ((entries.lookup "values").getD .null)
      .ok ⟨query, values, (entries.lookup "comparison").getD .null⟩
    | none => .error .missingKey
  | .tuple [query, values] => do .ok ⟨query, ← values.iterate, .null⟩
  | .tuple [query, values, comparison] => do .ok ⟨query, ← values.iterate, comparison⟩
  | v => .error (.wrongType (some ("Cannot interpret " ++ v.printed ++ " as rendered SQL")))

end Rendition

end Rowmap
