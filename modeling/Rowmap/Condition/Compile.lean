import Rowmap.Condition.Rule
import Rowmap.Condition.Tree
import Rowmap.Select.Columns

/-!
# Compiling condition trees

A condition tree is compiled in two steps: its leaves are resolved from left to right, each knowing
how many values are bound before it, and the resolved conditions are written out. A selection
renders by the same recursion, since it may hold condition trees and stand in one.

A value at the position of a node has no field to be compared with; only a test for rows can stand
there. A value under a key is compared with that field, and so is each value of a group under it.
-/

namespace Rowmap

/-- What a tree is compiled against: a record type and the leaf rules, and whether so many values
are said to be bound before the tree that its own may be impossible to number. -/
structure Scope where
  table : Table Value
  rules : LeafRules
  isFar : Bool := false

namespace Condition

/-- The faulty use of a value where a condition belongs. -/
def bareValue (v : Value) : Failure := .fault (.condition (.bareValue v.printed))

/-- A value at the position of a node. -/
def ofBare (v : Value) (renderable : Bool) (render : Int → Logged Rendition)
    (c : Option Comparison) (bound : Int) : Logged Condition :=
  match c with
  | some c =>
    if c.rightOnly && renderable then do
      let r ← render bound
      .ok (.atom (c.label ++ " (" ++ r.query.inline ++ ")") r.values)
    else .fail (bareValue v)
  | none => .fail (bareValue v)

/-- The field of a key, which has to be declared. -/
def fieldOf (s : Scope) (key : String) : Except Failure Field :=
  match s.table.field? key with
  | some field => .ok field
  | none => .error (s.table.unknown (.text key))

/-- The left-hand side of a leaf: its own, or the column, cast to text where texts are compared. -/
def leftOf (field : Field) (key : String) (leaf : Leaf) : String :=
  match leaf.left with
  | some left => left
  | none =>
    Sql.quoteIdentifier (field.column key) ++
      (if leaf.comparison.any (·.comparesText) && !field.type.isText then "::text" else "")

def ofLeaf (field : Field) (key : String) (leaf : Leaf) : Except Failure Condition :=
  match leaf.comparison.filter (·.rightOnly) with
  | some c => .error (.fault (.condition (.rightOnlyOnField c.label key)))
  | none => .ok (.atom (Sql.words [leftOf field key leaf, leaf.operator, leaf.right]) leaf.values)

/-- A value under a key that is neither a map nor a group. -/
def ofScalar (s : Scope) (key : String) (v : Value) (render : Int → Logged Rendition)
    (c : Option Comparison) (bound : Int) : Logged Condition := do
  let field ← .ofExcept (fieldOf s key)
  if v.isUnset then
    Logged.tell (.skippedUnset key s.table.recordName)
    .ok .skipped
  else
    let leaf ← s.rules.resolve v { key, field, comparison := c, bound, isFar := s.isFar, render }
    .ofExcept (ofLeaf field key leaf)

/-- What renders without further conditions: hand-written SQL and a caller's own sub-query. What
only has an attribute of the right name cannot be asked to. -/
def renderPlain (v : Value) (bound : Int) : Logged Rendition :=
  match v with
  | .rawSql _ query values comparison =>
    if Sql.canShift bound query then
      .ok ⟨.text (Sql.shift bound query), values, Rendition.comparisonValue comparison⟩
    else .fail .badValue
  | .renderable _ render => .ofExcept (Rendition.ofValue (render bound))
  | v => .fail (if v.isRenderable then .wrongType none else .missingPart)

/-- A selection whose conditions compile to a given statement part. -/
def assemble (s : Select Value) (isSubquery : Bool) (where_ : Logged Statement) :
    Logged Statement := do
  let columns ← .ofExcept s.columnList
  let head := ["SELECT " ++ columns ++ " FROM", ← .ofExcept (Sql.quoteName s.table.name)]
  let condition ← if s.wheres.isEmpty then .ok none else some <$> where_
  let tail ← .ofExcept (s.tailClauses isSubquery)
  let middle := match condition with
    | some w => ["WHERE", w.text]
    | none => []
  .ok ⟨" ".intercalate (head ++ middle ++ tail), (condition.map (·.values)).getD []⟩

mutual

/-- The condition of a node; a map at this position is joined by a given connective. -/
def ofNode (s : Scope) (connective : Connective) :
    Value → Option Comparison → Int → Logged Condition
  | .group _ groupKind items own, c, b =>
    .group groupKind.connective <$> ofNodes s items (own <|> c) b
  | .list items, c, b => .group .and <$> ofNodes s items c b
  | .tuple items, c, b => .group .and <$> ofNodes s items c b
  | .map entries, c, b => .fields connective <$> ofEntries s entries c b
  | .wrapped inner bind own quote, c, b =>
    ofBare (.wrapped inner bind own quote) inner.isRenderable (render s.isFar inner) (own <|> c) b
  | .query id select, c, b => ofBare (.query id select) true (renderSelect s.isFar select) c b
  | v, c, b => ofBare v v.isRenderable (renderPlain v) c b
termination_by structural v => v

def ofNodes (s : Scope) : List Value → Option Comparison → Int → Logged (List Condition)
  | [], _, _ => .ok []
  | v :: vs, c, b => do
    let part ← ofNode s .and v c b
    let parts ← ofNodes s vs c (b + part.values.length)
    .ok (part :: parts)
termination_by structural vs => vs

/-- The conditions of the entries of a map of fields. -/
def ofEntries (s : Scope) :
    List (String × Value) → Option Comparison → Int → Logged (List Condition)
  | [], _, _ => .ok []
  | (key, v) :: es, c, b => do
    let _ ← .ofExcept (fieldOf s key)
    let part ← ofField s key v c b
    let parts ← ofEntries s es c (b + part.values.length)
    .ok (part :: parts)
termination_by structural es => es

def ofField (s : Scope) (key : String) : Value → Option Comparison → Int → Logged Condition
  | .map _, _, _ => .fail (.fault (.condition (.nestedMap key s.table.recordName)))
  | .group _ groupKind items own, c, b =>
    .group groupKind.connective <$> ofFieldItems s key items (own <|> c) b
  | .wrapped inner bind own quote, c, b =>
    ofScalar s key (.wrapped inner bind own quote) (render s.isFar inner) c b
  | .query id select, c, b => ofScalar s key (.query id select) (renderSelect s.isFar select) c b
  | v, c, b => ofScalar s key v (renderPlain v) c b
termination_by structural v => v

/-- The conditions of several values under a key. -/
def ofFieldItems (s : Scope) (key : String) :
    List Value → Option Comparison → Int → Logged (List Condition)
  | [], _, _ => .ok []
  | v :: vs, c, b => do
    let part ← ofField s key v c b
    let parts ← ofFieldItems s key vs c (b + part.values.length)
    .ok (part :: parts)
termination_by structural vs => vs

def render (isFar : Bool) : Value → Int → Logged Rendition
  | .query _ select, b => renderSelect isFar select b
  | v, b => renderPlain v b
termination_by structural v => v

def renderSelect (isFar : Bool) : Select Value → Int → Logged Rendition
  | ⟨table, wheres, orderBys, limit, offset, output, returns, loaded, rows, streaming⟩, b => do
    let where_ : Logged Statement := do
      let parts ← ofNodes ⟨table, .standard, isFar⟩ wheres none b
      .ok (Condition.statement (.group .and parts) 0)
    let statement ← assemble
      ⟨table, wheres, orderBys, limit, offset, output, returns, loaded, rows, streaming⟩ true where_
    .ok statement.rendition
termination_by structural s => s

end

end Condition

/-- How a whole tree is compiled: the comparison for bare values, the connective of a map at the
top, how many values are bound and how many conditions stand beside it, and the key that the tree is
the value of, if it is one. -/
structure CompileOptions where
  comparison : Option Comparison := none
  connective : Connective := .and
  bound : Int := 0
  siblings : Int := 0
  key : Option String := none

namespace Scope

def condition (s : Scope) (tree : Value) (o : CompileOptions) : Logged Condition :=
  match o.key with
  | some key => Condition.ofField s key tree o.comparison o.bound
  | none => Condition.ofNode s o.connective tree o.comparison o.bound

/-- A whole tree as a statement part. -/
def compile (s : Scope) (tree : Value) (o : CompileOptions := {}) : Logged Statement := do
  .ok ((← s.condition tree o).statement o.siblings)

end Scope

namespace Table

/-- A tree over a record type, compiled with the standard rules, after the values that its statement
binds before it. -/
def compile (t : Table Value) (tree : Value) (bound : Int := 0) : Logged Statement :=
  Scope.compile ⟨t, .standard, false⟩ tree { bound }

/-- A tree over a record type, compiled with given rules. -/
def compileWith (t : Table Value) (rules : LeafRules) (tree : Value) (o : CompileOptions) :
    Logged Statement :=
  Scope.compile ⟨t, rules, Sql.isFar o.bound⟩ tree o

end Table

namespace Select

/-- A selection as a statement, or as one that counts its rows. -/
def statement (s : Select Value) (count isSubquery : Bool) (bound : Int) : Logged Statement := do
  let scope : Scope := ⟨s.table, .standard, Sql.isFar bound⟩
  let statement ← Condition.assemble s isSubquery (scope.compile (.list s.wheres) { bound })
  .ok (if count then { statement with text := countOf statement.text } else statement)

end Select

end Rowmap
