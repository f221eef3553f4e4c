import Rowmap.Query.State
import Rowmap.Record.Data
import Rowmap.Session.Basic
import Rowmap.Value.Iterate
import Rowmap.Value.Sequence

/-!
# Rows of queries

The rows that a query loaded, as a sequence and as plain data. A streaming query keeps no rows, so
nothing here is available from one.
-/

namespace Rowmap.Query

/-- Checks that a query keeps its rows. -/
def requireBuffered (q : Query) (what : String) : Except Failure Unit :=
  if q.isStreaming then .error (.fault (.unavailableInStream what)) else .ok ()

/-! ## As a sequence -/

/-- The rows, one after the other. They have to have been loaded. -/
def iterate (q : Query) : Except Failure (List Value) := do
  q.requireBuffered "Synchronous iteration"
  if q.isLoaded then .ok q.rows else .error (.fault .notLoaded)

def length (q : Query) : Except Failure Nat := do
  q.requireBuffered "len()"
  .ok q.rows.length

def item (q : Query) (position : Value) : Except Failure Value := do
  q.requireBuffered "Indexing"
  Sequence.pick q.rows (← Sequence.position position)

def slice (q : Query) (arguments : List Value) : Except Failure (List Value) := do
  q.requireBuffered "Indexing"
  Sequence.sliceOf q.rows arguments

/-- Whether a value is among the rows. -/
def contains (q : Query) (v : Value) : Except Failure Bool := do
  q.requireBuffered "Membership testing"
  .ok (← v.firstMatch? q.rows).isSome

/-- The rows from the last to the first. -/
def reversed (q : Query) : Except Failure (List Value) := do
  q.requireBuffered "reversed()"
  .ok q.rows.reverse

/-- The position of a value among the rows. -/
def indexOf (q : Query) (v : Value) (arguments : List Value) : Except Failure Nat := do
  q.requireBuffered "index()"
  Sequence.indexOf q.rows v arguments

/-! ## As plain data -/

/-- The pair that a value stands for. Its key has to be one that a key can be. -/
def pairOf (v : Value) : Except Failure (Value × Value) := do
  let (key, value) ← v.asPair
  if key.hashable then .ok (key, value) else .error (.wrongType none)

/-- The pairs of a row: those of a map, or those that it goes through. -/
def pairsOf (row : Value) : Except Failure Pairs := do
  match row with
  | .map es => .ok (.ofEntries es)
  | v => do .ok (Pairs.override [] (← (← v.iterate).mapM pairOf))

/-- Values that can be elements of a set. -/
def setOf (vs : List Value) : Except Failure (List Value) :=
  if vs.all Value.hashable then .ok vs else .error (.wrongType none)

def isAmong (vs : List Value) (v : Value) : Bool := vs.any (·.matchesElement v)

/-- The keys that the options let through, or `none` when all pass. -/
def allowedKeys (t : RecordType) (o : DataOptions) : Except Failure (Option (List Value)) := do
  if o.fields.isNone && o.includePrivate then .ok none
  else
    let keys ← setOf (← Record.chosenKeys t o)
    if o.includePrivate then .ok (some keys)
    else
      let hidden ← setOf t.privateFields
      .ok (some (keys.filter (!isAmong hidden ·)))

/-- A value, or the default of a key in the place of null. -/
def orDefault (t : RecordType) (o : DataOptions) (key : String) (v : Value) : Value :=
  if o.includeDefaults && v.isNull then t.default key else v

/-- A row of single values as plain data. -/
def valueData (q : Query) (o : DataOptions) (allowed : Option (List Value)) (row : Value) :
    Except Failure Value := do
  let key := returnsValue q.select.returns
  let passes ← match allowed with
    | none => .ok true
    | some keys => if key.hashable then .ok (isAmong keys key) else .error (.wrongType none)
  .ok (orDefault q.type o key.inline (if passes then row else .null))

/-- A row of several values as plain data. -/
def objectData (q : Query) (o : DataOptions) (allowed : Option (List Value)) (row : Value) :
    Except Failure Pairs := do
  let ps ← pairsOf row
  let kept : Pairs := match allowed with
    | some keys => ps.filter fun p ↦ isAmong keys p.1
    | none => ps
  .ok (kept.map fun (key, v) ↦ (key, (key.asText?.map (orDefault q.type o · v)).getD v))

def recordData (records : Numbered Record) (o : DataOptions) (row : Value) :
    Except Failure Pairs :=
  match row with
  | .object id .. =>
    match records.lookup id with
    | some r => r.data o
    | none => .error .missingPart
  | _ => .error .missingPart

/-- A row as plain data: a single value, or several by key. -/
inductive RowData where
  | value (v : Value)
  | pairs (ps : Pairs)

/-- Checks that the options fit the shape of the rows. -/
def checkDataOptions (q : Query) (o : DataOptions) : Except Failure Unit := do
  if q.isStreaming then .error (.fault (.unavailableInStream "data()"))
  else if q.select.output = .value ∧ o.fields.isSome then
    .error (.fault (.invalidOptions "output=value does not support fields"))
  else if q.select.output ≠ .record ∧ (o.onlyDirty || o.onlySet) then
    .error (.fault (.invalidOptions
      "only_dirty and only_set are only supported with record output"))
  else .ok ()

def data (q : Query) (records : Numbered Record) (o : DataOptions) :
    Except Failure (List RowData) := do
  q.checkDataOptions o
  match q.select.output with
  | .record => q.rows.mapM fun row ↦ .pairs <$> recordData records o row
  | .value => do
    let allowed ← allowedKeys q.type o
    q.rows.mapM fun row ↦ .value <$> q.valueData o allowed row
  | .object => do
    let allowed ← allowedKeys q.type o
    q.rows.mapM fun row ↦ .pairs <$> q.objectData o allowed row

/-- The state of a query as plain data. -/
def summary (q : Query) : Entries := [
  ("loaded", .bool q.isLoaded), ("output", .text q.select.output.label),
  ("returns", returnsValue q.select.returns), ("limit", optionValue q.select.limit),
  ("offset", optionValue q.select.offset),
  ("order_by", .list (q.select.orderBys.map fun (key, d) ↦ .list [key, .text d.label])),
  ("stream_mode", q.streaming), ("stream_open", .bool q.stream.isSome),
  ("rows", .int q.rows.length), ("conn", .ofText? (q.conn.map (·.name))),
  ("pool", .ofText? (q.pool.map (·.name)))]

end Rowmap.Query
