import Rowmap.Condition.Compile
import Rowmap.Session.Refresh
import Rowmap.Stream.Pull

/-!
# Running queries

Running a query sends its statement and keeps the rows, or opens a stream over them. The records
that it makes are handed the source that was given for the run, or else the query's own. A query
that opens a stream on a connection of a pool gives the connection back when the stream closes.
-/

namespace Rowmap.Query

variable {σ : Type}

/-- The statement of a query, as its conditions are now. -/
def statement (q : Query) (count isSubquery : Bool) (bound : Int) : App σ Statement := do
  let select ← App.refreshSelect q.select
  App.logged (select.statement count isSubquery bound)

variable [Backend σ]

/-- Closes the stream of a query, if it holds one. -/
def close : On Query σ Unit := do
  match (← On.object).stream with
  | none => .ok ()
  | some id =>
    On.own (Change.modify fun q ↦ { q with stream := none })
    On.beside (App.withStream id (RowStream.close false))

/-- What is done while a live query is in use. The query is closed after it. -/
def within {α : Type} (id : Nat) (body : App σ α) : App σ α :=
  body.finally_ fun _ ↦ App.withQuery id close

def cell (row : Row) (column : Value) : Except Failure Value :=
  match column.asText?.bind fun c ↦ row.lookup c with
  | some v => .ok v
  | none => .error .missingKey

def recordsOf (t : RecordType) (source : Source) : List Row → App σ (List Value)
  | [] => .ok []
  | row :: rows => do
    let id ← App.addRecord (← Change.ofExcept (Record.ofRow t source row))
    let v ← App.recordValue id
    let vs ← recordsOf t source rows
    .ok (v :: vs)

def shapeRows (q : Query) (source : Source) (rows : List Row) : App σ (List Value) :=
  match q.select.output with
  | .record => recordsOf q.type source rows
  | .value => .ofExcept (rows.mapM fun row ↦ cell row (returnsValue q.select.returns))
  | .object => .ok (rows.map .map)

def streamOn (q : Query) (c : Connection) (statement : Statement) (source : Source) : RowStream :=
  { conn := c, sql := statement.text, values := statement.values
    shape := .record q.type source
    onClose := if q.conn.isSome then .nothing else .release
    batchSize := RowStream.defaultBatchSize }

def openStream (statement : Statement) (source : Source) : On Query σ Unit := do
  let q ← On.object
  let c ← match q.conn with
    | some c => .ok c
    | none => On.beside (do App.usableConnection (← App.poolOrDefault q.pool))
  let id ← On.beside (App.addStream (q.streamOn c statement source))
  On.beside (App.withStream id RowStream.open_)
  On.own (Change.modify fun q ↦ { q with stream := some id })

def run (given : Source) : On Query σ Unit := do
  Change.ofExcept (← On.object).checkRunnable
  close
  let q ← On.object
  let source := given.orElse (Source.ofParts q.conn q.pool)
  let statement ← On.beside (q.statement false false 0)
  if q.isStreaming then openStream statement source
  else
    let outcome : Outcome ← On.beside
      (App.checkout q.conn q.pool false fun c ↦ App.execute c statement.text statement.values)
    let rows ← On.beside (q.shapeRows source outcome.rows)
    On.own (modifySelect fun s ↦ { s with rows })
  On.own (setLoaded true)

/-- How many rows a query would return. -/
def count : On Query σ Int := do
  let q ← On.object
  let statement ← On.beside (q.statement true false 0)
  On.beside (App.checkout q.conn q.pool false fun c ↦ do
    let outcome : Outcome ← App.execute c statement.text statement.values
    .ofExcept outcome.scalar.toWhole)

/-- Gives a query another connection, and releases the one that it had. -/
def setConnection (conn : Option Connection) (releaseOld : Bool) : On Query σ Unit := do
  let old := (← On.object).conn
  On.own (Change.modify fun q ↦ { q with conn })
  match old with
  | some c => if releaseOld && old ≠ conn then On.beside (App.release c false) else .ok ()
  | none => .ok ()

/-- Gives a query another pool, and releases the connection that it had. -/
def setPool (pool : Option Pool) (releaseOld : Bool) : On Query σ Unit := do
  On.own (Change.modify fun q ↦ { q with pool })
  setConnection none releaseOld

/-! ## Passing over a stream -/

/-- How far a pass over the rows of a streaming query has come. -/
inductive Pass where
  | waiting
  | over (stream : Nat)
  | done

/-- Checks that a query can be passed over. -/
def startPass (q : Query) : Except Failure Pass :=
  if q.isStreaming then .ok .waiting else .error (.fault .iterationNeedsStream)

/-- The stream that a pass goes over: the one that the query holds if its rows are up to date, and
otherwise that of a new run. -/
def streamOfPass : On Query σ Nat := do
  let q ← On.object
  if !q.isLoaded || q.stream.isNone then run .absent
  match (← On.object).stream with
  | some id => .ok id
  | none => .fail .missingPart

/-- The next row of a pass over a stream; the stream is closed when there is none or pulling fails.
-/
def pullFrom (id : Nat) : On Query σ (Option Value) := do
  match ← (On.beside (App.withStream id RowStream.pull)).attempt with
  | .ok v => .ok (some v)
  | .error e =>
    On.beside (App.withStream id (RowStream.close false))
    match e with
    | .ended => .ok none
    | e => .fail e

/-- The next row of a pass, if there is one, and how far the pass has come. -/
def advance (pass : Pass) : On Query σ (Option (Value × Pass)) := do
  match pass with
  | .done => .ok none
  | .waiting =>
    let id ← streamOfPass
    .ok ((← pullFrom id).map (·, .over id))
  | .over id => .ok ((← pullFrom id).map (·, .over id))

/-- Gives up a pass, and closes the stream that it goes over. -/
def abandon (pass : Pass) : App σ Unit :=
  match pass with
  | .over id => App.withStream id (RowStream.close false)
  | _ => .ok ()

end Rowmap.Query
