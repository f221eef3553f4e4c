import Rowmap.Condition.Leaf

/-!
# Leaf rules

A leaf rule recognizes one kind of value and resolves it. Rules are tried in order and the first
that matches decides, so the order of the standard rules is the precedence between kinds of values.
Rules are known by name, several may share one, and a new rule goes before the first of a name or to
the end.
-/

namespace Rowmap

/-- What a rule knows of a leaf besides its value: its field, the comparison in force, how many
values are bound before it, whether that may be too many to number further ones, and how the
sub-query that the value is, or wraps, renders. -/
structure LeafContext where
  key : String
  field : Field
  comparison : Option Comparison
  bound : Int
  isFar : Bool := false
  render : Int → Logged Rendition

/-- A leaf whose values can be numbered after those bound before it. -/
def LeafContext.numbered (ctx : LeafContext) (leaf : Leaf) : Except Failure Leaf :=
  if ctx.isFar && !Sql.canNumber ctx.bound leaf.values.length then .error .badValue else .ok leaf

structure LeafRule where
  name : String
  applies : Value → LeafContext → Bool
  resolve : Value → LeafContext → Logged Leaf

namespace LeafRule

/-- Under a comparison without a right-hand side, the value is ignored. -/
def leftOnly : LeafRule where
  name := "lhs_only"
  applies _ ctx := ctx.comparison.any (·.leftOnly)
  resolve _ ctx := .ok (Leaf.leftOnly (ctx.comparison.getD .equal))

/-- An absent value is a test for null. -/
def null : LeafRule where
  name := "null"
  applies v ctx := Leaf.testsNull ctx.comparison v
  resolve _ ctx := .ok (Leaf.nullTest ctx.comparison)

/-- The marker for non-null is a test for it. -/
def notNull : LeafRule where
  name := "not_null"
  applies v _ := match v with | .marker .notNull => true | _ => false
  resolve _ ctx := .ofExcept (Leaf.notNullTest ctx.key ctx.comparison)

def marker : LeafRule where
  name := "sentinel"
  applies v _ := match v with | .marker _ => true | _ => false
  resolve v ctx :=
    match v with
    | .marker m => .ok (Leaf.ofMarker (ctx.comparison.getD .equal) m)
    | _ => .fail .missingPart

def valueList : LeafRule where
  name := "value_list"
  applies v _ := v.elements?.isSome
  resolve v ctx :=
    .ofExcept do
      ctx.numbered (← Leaf.bindList ctx.bound (Leaf.listComparison ctx.comparison)
        (v.elements?.getD []))

/-- What a wrapped value is bound to or inlined as, when it is no sub-query and no test for null. -/
def plainWrapped (bound : Int) (c : Comparison) (inner : Value) (bind quote : Bool) :
    Except Failure Leaf :=
  match inner.elements?, bind with
  | some items, true => Leaf.bindList bound c items
  | none, true => .ok (Leaf.bindOne bound c inner)
  | some items, false => Leaf.inlineList quote c items
  | none, false => do .ok (Leaf.compare c (← Leaf.inlined quote inner))

/-- A wrapped value under the comparison in force for it. -/
def resolveWrapped (inner : Value) (bind : Bool) (own : Option Comparison) (quote : Bool)
    (ctx : LeafContext) : Logged Leaf :=
  let c := own <|> ctx.comparison
  if c.any (·.leftOnly) then .ok (Leaf.leftOnly (c.getD .equal))
  else if inner.isRenderable then do .ofExcept (Leaf.splice own (← ctx.render ctx.bound))
  else if Leaf.testsNull c inner then .ok (Leaf.nullTest c)
  else
    match inner with
    | .marker .notNull => .ofExcept (Leaf.notNullTest ctx.key c)
    | .marker m => .ok (Leaf.ofMarker (c.getD .equal) m)
    | inner => .ofExcept do
      ctx.numbered (← plainWrapped ctx.bound (c.getD .equal) inner bind quote)

/-- A value with rendering instructions. -/
def wrapped : LeafRule where
  name := "sql_value"
  applies v _ := match v with | .wrapped .. => true | _ => false
  resolve v ctx :=
    match v with
    | .wrapped inner bind own quote => resolveWrapped inner bind own quote ctx
    | _ => .fail .missingPart

/-- A sub-query. -/
def subquery : LeafRule where
  name := "sub_query"
  applies v _ := v.isRenderable
  resolve _ ctx := do .ofExcept (Leaf.splice none (← ctx.render ctx.bound))

/-- Any other value is bound. -/
def scalar : LeafRule where
  name := "scalar"
  applies _ _ := true
  resolve v ctx :=
    .ofExcept (ctx.numbered (Leaf.bindOne ctx.bound (ctx.comparison.getD .equal) v))

end LeafRule

/-- Rules in the order in which they are tried. -/
abbrev LeafRules := List LeafRule

namespace LeafRules

/-- The standard rules, in their order of precedence. -/
def standard : LeafRules :=
  [.leftOnly, .null, .notNull, .marker, .valueList, .wrapped, .subquery, .scalar]

/-- The names of the rules, in order. -/
def names (rules : LeafRules) : List String := rules.map (·.name)

/-- The rules with a new one: before the first of a given name, or at the end. -/
def register (rules : LeafRules) (rule : LeafRule) (before : Option String) : LeafRules :=
  match before with
  | none => rules ++ [rule]
  | some name => rules.takeWhile (·.name != name) ++ rule :: rules.dropWhile (·.name != name)

def unregister (rules : LeafRules) (name : String) : LeafRules := rules.filter (·.name != name)

/-- The leaf that the first matching rule makes of a value. -/
def resolve (rules : LeafRules) (v : Value) (ctx : LeafContext) : Logged Leaf :=
  match rules.find? fun rule ↦ rule.applies v ctx with
  | some rule => rule.resolve v ctx
  | none => .fail (.fault (.condition (.unmatched v.printed ctx.key)))

end LeafRules

end Rowmap
