import Rowmap.Failure.Unknown
import Rowmap.Select
import Rowmap.Sql.Quoting
import Rowmap.Value.Whole

/-!
# The text of a selection

A selection's text but for its conditions: the columns, each renamed to its key when the two differ,
the order, which is that of the primary key unless one was given, and the window of rows.
-/

namespace Rowmap

/-- How a key fails to have a snake case that is no text, by what its first element is. -/
def snakeFailure : Value → Failure
  | .list (first :: _) | .tuple (first :: _) =>
    if first.asText?.isSome then .wrongType none else .missingPart
  | .bytes _ => .missingPart
  | .map _ => .missingKey
  | _ => .wrongType none

/-- The snake case of a key. One that counts as false is left as it is. -/
def snakeCaseOf (key : Value) : Except Failure Value :=
  if !key.truthy then .ok key
  else match key.asText? with
    | some s => .ok (.text (snakeCase s))
    | none => .error (snakeFailure key)

namespace Table

variable {α : Type}

def unknown (t : Table α) (key : Value) : Failure :=
  Failure.unknownField key t.recordName t.keys

/-- The column of a key, which has to be declared. -/
def column (t : Table α) (key : Value) : Except Failure String :=
  match key.asText?.bind fun k ↦ (t.field? k).map (·.column k) with
  | some column => .ok column
  | none => .error (t.unknown key)

/-- The order of rows as a statement writes it. -/
def orderText (t : Table α) (orders : List (Value × SortDirection)) : Except Failure String := do
  let texts ← orders.mapM fun (key, direction) ↦ do
    .ok (Sql.quoteIdentifier (← t.column key) ++ " " ++ direction.memberName)
  .ok (", ".intercalate texts)

end Table

namespace Select

def namedColumn (t : Table Value) (key : Value) : Except Failure String := do
  let column ← t.column key
  let name := key.asText?.getD ""
  .ok (if column == name then Sql.quoteIdentifier column
    else Sql.quoteIdentifier column ++ " AS " ++ Sql.quoteIdentifier name)

/-- The keys that a selection returns when its rows are no records. -/
def returnedKeys (s : Select Value) : List Value :=
  match s.returns with
  | .everything => s.table.keys.map .text
  | .one key => [key]
  | .several keys => keys

/-- The columns of a selection; a record needs them all. -/
def columnList (s : Select Value) : Except Failure String :=
  match s.output with
  | .record => .ok "*"
  | _ => do .ok (", ".intercalate (← s.returnedKeys.mapM (namedColumn s.table)))

/-- Whether a selection bounds its rows. -/
def hasWindow (s : Select Value) : Bool := s.limit.isSome || s.offset.isSome

/-- The order that a selection asks for: its own, or that of the primary key. -/
def effectiveOrder (s : Select Value) : List (Value × SortDirection) :=
  if s.orderBys.isEmpty then s.table.primaryKey.map fun key ↦ (key, .ascending)
  else s.orderBys

/-- The order clause. Order is irrelevant to a sub-query without a window. -/
def orderClause (s : Select Value) (isSubquery : Bool) : Except Failure (List String) :=
  if (isSubquery && !s.hasWindow) || s.effectiveOrder.isEmpty then .ok []
  else do .ok ["ORDER BY " ++ (← s.table.orderText s.effectiveOrder)]

def windowClause (word : String) (bound : Option Value) : Except Failure (List String) :=
  match bound with
  | none => .ok []
  | some v => do .ok [word ++ " " ++ (← Value.wholeText (← v.toWhole))]

def tailClauses (s : Select Value) (isSubquery : Bool) : Except Failure (List String) := do
  let order ← s.orderClause isSubquery
  let limit ← windowClause "LIMIT" s.limit
  let offset ← windowClause "OFFSET" s.offset
  .ok (order ++ limit ++ offset)

/-- The query that counts the rows of another; a window stays inside, so it bounds the count. -/
def countOf (query : String) : String := "SELECT count(*)::int FROM (" ++ query ++ ") AS a"

end Select

end Rowmap
