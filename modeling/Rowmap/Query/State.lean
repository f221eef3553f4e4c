import Rowmap.Change
import Rowmap.Database.Source
import Rowmap.Declaration.RecordType
import Rowmap.Select.OrderBy
import Rowmap.Value.Matching

/-!
# Queries

A query is a selection over one record type with the rows that it loaded. Its setters say when the
rows no longer answer it: whatever changes the statement or the shape of the rows makes it stale.
The shape of the rows agrees with what is returned: a value for one key, a map for several.
-/

namespace Rowmap

structure Query where
  type : RecordType
  select : Select Value
  /-- The number of the stream that the query holds. -/
  stream : Option Nat := none
  conn : Option Connection := none
  pool : Option Pool := none

namespace Query

def rows (q : Query) : List Value := q.select.rows

/-- Whether the rows are streamed, as it was asked for. -/
def streaming (q : Query) : Value := q.select.streaming.getD (.bool false)

def isStreaming (q : Query) : Bool := q.streaming.truthy

/-- Whether the rows at hand answer the query as it stands. -/
def isLoaded (q : Query) : Bool := q.select.loaded

/-- The query with its rows declared to answer it, or not to. -/
def withLoaded (q : Query) (loaded : Bool) : Query :=
  { q with select := { q.select with loaded } }

/-- Declares that the rows answer the query, or that they do not. -/
def setLoaded (loaded : Bool) : Change Query Unit := Change.modify (·.withLoaded loaded)

/-- Declares that the rows do not answer the query when something about it has changed. -/
def staleIf (changed : Bool) : Change Query Unit :=
  if changed then setLoaded false else .ok ()

/-- Declares that the rows do not answer the query when a value differs from what it was. -/
def staleUnlessEqual (v old : Value) : Change Query Unit := do
  staleIf (!(← Change.ofExcept (v.isEqualTo old)))

def modifySelect (f : Select Value → Select Value) : Change Query Unit :=
  Change.modify fun q ↦ { q with select := f q.select }

/-! ## Setters -/

def where_ (tree : Value) : Change Query Unit := do
  modifySelect fun s ↦ { s with wheres := s.wheres ++ [tree] }
  setLoaded false

def addOrder (v : Value) : Change Query Unit := do
  let order ← Change.ofExcept (OrderBy.ofValue v)
  modifySelect fun s ↦ { s with orderBys := s.orderBys ++ [order] }

/-- Adds orders, one after the other. -/
def orderBy (specs : List Value) : Change Query Unit := do
  specs.forM addOrder
  setLoaded false

def optionValue (v : Option Value) : Value := v.getD .null

/-- A value as an option; null stands for none. -/
def valueOption (v : Value) : Option Value := if v.isNull then none else some v

/-- Sets the greatest number of rows. -/
def limit (v : Value) : Change Query Unit := do
  staleUnlessEqual v (optionValue (← Change.get).select.limit)
  modifySelect fun s ↦ { s with limit := valueOption v }

/-- Sets the number of rows to skip. -/
def offset (v : Value) : Change Query Unit := do
  staleUnlessEqual v (optionValue (← Change.get).select.offset)
  modifySelect fun s ↦ { s with offset := valueOption v }

/-- What is returned, as a value. -/
def returnsValue : Selector Value → Value
  | .everything => .null
  | .one key => key
  | .several keys => .list keys

/-- What a value asks to return: everything, one key, or several. -/
def selectorOf (v : Value) : Except Failure (Selector Value) :=
  match v, v.asText? with
  | .null, _ => .ok .everything
  | v, some _ => .ok (.one v)
  | v, none => do .ok (.several (← v.iterate))

def outputOf (v : Value) : Except Failure OutputType :=
  match v.asText?.bind OutputType.ofLabel? with
  | some o => .ok o
  | none => .error (.fault (.invalidOutput v (OutputType.members.map (·.label))))

/-- The fault of an output type that does not agree with what is returned. -/
def incompatible (output : OutputType) (returns : Selector Value) : Failure :=
  .fault (.incompatibleOutput output.label (returnsValue returns))

/-- Checks that an output type agrees with what is returned. -/
def checkReturns (returns : Selector Value) (output : OutputType) : Except Failure Unit :=
  match returns.implied? with
  | some implied => if output = implied then .ok () else .error (incompatible output returns)
  | none => .ok ()

/-- Sets the shape of the rows. -/
def output (v : Value) : Change Query Unit := do
  let output ← Change.ofExcept (outputOf v)
  let q ← Change.get
  Change.ofExcept (checkReturns q.select.returns output)
  staleIf (output ≠ q.select.output)
  modifySelect fun s ↦ { s with output }

/-- Sets what is returned, and with it the shape of the rows. -/
def returns (v : Value) : Change Query Unit := do
  let returns ← Change.ofExcept (selectorOf v)
  staleUnlessEqual (returnsValue returns) (returnsValue (← Change.get).select.returns)
  modifySelect fun s ↦ { s with returns }
  match returns.implied? with
  | some implied => output (.output implied)
  | none => .ok ()

/-- Sets whether the rows are streamed. -/
def stream_ (v : Value) : Change Query Unit := do
  staleUnlessEqual v (← Change.get).streaming
  modifySelect fun s ↦ { s with streaming := some v }

/-- A setter for an option that is null when it is left as it is. -/
def unlessNull (v : Value) (setter : Value → Change Query Unit) : Change Query Unit :=
  if v.isNull then .ok () else setter v

/-- Sets several options; those that are null stay as they are. -/
def options (outputType returning streaming : Value) : Change Query Unit := do
  unlessNull streaming stream_
  unlessNull returning returns
  unlessNull outputType output

/-! ## New queries -/

/-- A query over a record type, before any option is set. -/
def blank (t : RecordType) (conn : Option Connection) (pool : Option Pool) : Query :=
  { type := t, select := { table := t.table }, conn, pool }

def make (t : RecordType) (source : Source) (outputType returning streaming : Value) :
    Except Failure Query := do
  let (conn, pool) ← source.split
  match options outputType returning streaming (blank t conn pool) with
  | (.ok _, q) => .ok q
  | (.error e, _) => .error e

/-- A new query over what is given for its record type, which has to be one. Record types are known
by name. -/
def makeOver (types : String → Option RecordType) (type : Value) (source : Source)
    (outputType returning streaming : Value) : Except Failure Query :=
  match RecordType.ofValue? types type with
  | some t => make t source outputType returning streaming
  | none => .error (.fault (.recordTypeRequired type))

/-! ## Checks before a run -/

/-- Checks that a query can be run. -/
def checkRunnable (q : Query) : Except Failure Unit := do
  checkReturns q.select.returns q.select.output
  if q.select.output = .value ∧ q.select.returns.implied? = none then
    .error (incompatible .value .everything)
  else if q.isStreaming then
    if q.select.returns.implied?.isSome then .error (.fault (.unavailableInStream "Option returns"))
    else if q.select.output ≠ .record then
      .error (.fault (.unavailableInStream "Output other than record"))
    else .ok ()
  else .ok ()

end Query

end Rowmap
