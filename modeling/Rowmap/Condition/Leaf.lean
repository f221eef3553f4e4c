import Rowmap.Logged
import Rowmap.Rendition
import Rowmap.Sql.Placeholder
import Rowmap.Sql.Quoting

/-!
# Leaves

A leaf is one `field: value` pair of a condition tree, resolved: the operator, what stands on its
right, the values bound there, and what stands on its left when that is not the column. The
functions here say how each kind of value becomes a leaf under a comparison.
-/

namespace Rowmap

/-- A resolved leaf. The comparison is absent when the operator is none of the known ones. -/
structure Leaf where
  comparison : Option Comparison
  operator : String
  right : String := ""
  values : List Value := []
  left : Option String := none

namespace Leaf

/-- The right-hand side of a comparison, in parentheses where the comparison asks for them. -/
def wrapRight (right : String) (c : Comparison) : String :=
  if c.parenthesizes then "(" ++ right ++ ")" else right

/-- A leaf that writes a comparison, with its right-hand side wrapped. -/
def compare (c : Comparison) (right : String) (values : List Value := []) : Leaf :=
  { comparison := some c, operator := c.label, right := wrapRight right c, values }

/-- A leaf that writes a comparison and a right-hand side in parentheses. -/
def among (c : Comparison) (right : String) (values : List Value := []) : Leaf :=
  { comparison := some c, operator := c.label, right := "(" ++ right ++ ")", values }

/-- A comparison without a right-hand side. -/
def leftOnly (c : Comparison) : Leaf := { comparison := some c, operator := c.label }

def isNull : Leaf := { comparison := some .equal, operator := "IS", right := "NULL" }

/-- A test for null, as an inequality with non-null. -/
def isNullUnequal : Leaf := { comparison := some .notEqual, operator := "IS", right := "NULL" }

def isNotNull : Leaf := { comparison := some .equal, operator := "IS NOT", right := "NULL" }

/-- A test for non-null, as an inequality with null. -/
def isNotNullUnequal : Leaf :=
  { comparison := some .notEqual, operator := "IS NOT", right := "NULL" }

/-- A comparison with one bound value, after those bound before. -/
def bindOne (bound : Int) (c : Comparison) (v : Value) : Leaf :=
  compare c (Sql.placeholders bound 1) [v]

/-- A marker writes its own text and binds nothing. -/
def ofMarker (c : Comparison) (m : Marker) : Leaf := compare c m.label

/-- A comparison with no elements is a constant: none of them matches, so nothing is among them and
everything is not. -/
def ofEmpty (c : Comparison) : Leaf :=
  { comparison := some .equal, operator := Comparison.equal.label
    right := if c = .notOneOf then "true" else "false", left := some "true" }

/-- A list of values binds one parameter for each under a comparison with a list, and a single one
otherwise. It cannot hold a sub-query. -/
def bindList (bound : Int) (c : Comparison) (items : List Value) : Except Failure Leaf :=
  if items.any Value.isRenderable then .error (.fault (.condition .subqueryInList))
  else if c.bindsArray then .ok (among c (Sql.placeholders bound 1) [.list items])
  else if !c.bindsEach then .ok (bindOne bound c (.list items))
  else if items.isEmpty then .ok (ofEmpty c)
  else .ok (among c (Sql.placeholders bound items.length) items)

/-- The comparison that a list of values is compared by. -/
def listComparison (c : Option Comparison) : Comparison :=
  match c with
  | some c => if c.bindsEach || c.bindsArray then c else .oneOf
  | none => .oneOf

/-- What an object that is no comparison writes when it is used as one: a text, or nothing where the
text would be empty. -/
def strangeOperator (operator : Value) : Except Failure String :=
  match operator.asText? with
  | some s => .ok s
  | none => if operator.truthy then .error (.wrongType none) else .ok ""

/-- What a rendition's own comparison writes, if it has one: comparisons write themselves, and so do
the members of other vocabularies and objects that have an attribute for it. -/
def ownComparison (v : Value) : Except Failure (Option (Option Comparison × String)) :=
  if !v.truthy then .ok none
  else
    match v with
    | .comparison c => .ok (some (some c, c.label))
    | .direction d => .ok (some (none, d.label))
    | .output o => .ok (some (none, o.label))
    | .marker m => .ok (some (none, m.label))
    | .object _ _ _ attributes =>
      match attributes.lookup Value.operatorName with
      | some operator => do .ok (some (none, ← strangeOperator operator))
      | none => .error .missingPart
    | .recordType _ accessors =>
      .error (if accessors.contains Value.operatorName then .wrongType none else .missingPart)
    | .wrapped .. => .error (.wrongType none)
    | _ => .error .missingPart

/-- A sub-query stands in parentheses. An explicit comparison wins over its own. -/
def splice (explicit : Option Comparison) (r : Rendition) : Except Failure Leaf :=
  match explicit with
  | some c => .ok (among c r.query.inline r.values)
  | none => do
    match ← ownComparison r.comparison with
    | some (comparison, operator) =>
      .ok { comparison, operator, right := "(" ++ r.query.inline ++ ")", values := r.values }
    | none => .ok (among .oneOf r.query.inline r.values)

/-- A value as a part of the text. -/
def inlined (quote : Bool) : Value → Except Failure String
  | .marker m => .ok m.label
  | v => if quote then Sql.literal v else .ok (if v.isNull then "NULL" else v.inline)

/-- A list of values as a part of the text. -/
def inlineList (quote : Bool) (c : Comparison) (items : List Value) : Except Failure Leaf :=
  if items.isEmpty && c.bindsEach then .ok (ofEmpty c)
  else do
    let texts ← items.mapM (inlined quote)
    .ok (among c (", ".intercalate texts))

/-- Whether a value under a comparison is a test for null. -/
def testsNull (c : Option Comparison) (v : Value) : Bool :=
  v.isNull && (c = none || c = some .equal || c = some .notEqual)

def nullTest (c : Option Comparison) : Leaf :=
  if c = some .notEqual then isNotNullUnequal else isNull

/-- The test for non-null under a comparison, which has to be one of equality. -/
def notNullTest (key : String) (c : Option Comparison) : Except Failure Leaf :=
  match c with
  | none | some .equal => .ok isNotNull
  | some .notEqual => .ok isNullUnequal
  | some c => .error (.fault (.condition (.notNullUnder c key)))

end Leaf

end Rowmap
