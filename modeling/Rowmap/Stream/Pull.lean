import Rowmap.Database.Checkout
import Rowmap.Record.New

/-!
# Pulling rows from a stream

A stream opens a cursor on the driver under its connection, in a transaction of its own unless one
is open already, and hands out one row at a pull. It is closed once: when its rows are exhausted,
when fetching fails, or when its user closes it. Closing finishes the transaction and tells whoever
made the stream.
-/

namespace Rowmap.RowStream

variable {σ : Type} [Backend σ]

/-- Tells whoever made a stream that it was closed. -/
def announce (failed : Bool) : On RowStream σ Unit := do
  let s ← On.object
  match s.onClose with
  | .nothing => .ok ()
  | .release => On.beside (App.release s.conn failed)
  | .notify => On.beside (App.note (.streamClosed failed))

/-- Finishes the transaction that a stream has of its own. -/
def finishTransaction (failed : Bool) : On RowStream σ Unit := do
  let s ← On.object
  if s.ownsTransaction then
    if failed then On.beside (App.call (.rollbackTransaction s.conn))
    else On.beside (App.call (.commitTransaction s.conn))

/-- Closes a stream, unless it is closed. -/
def close (failed : Bool) : On RowStream σ Unit := do
  if (← On.object).closed then .ok ()
  else
    On.own (Change.modify shut)
    (finishTransaction failed).finally_ fun _ ↦ do
      On.own (Change.modify fun s ↦ { s with ownsTransaction := false })
      announce failed

/-- What is done while a live stream is in use. The stream is closed after it, as one that failed if
that did. -/
def within {α : Type} (id : Nat) (body : App σ α) : App σ α :=
  body.finally_ fun r ↦ App.withStream id (close (r matches .error _))

/-- A use of the driver after which the stream is closed if it failed. -/
def guarded {α : Type} (x : On RowStream σ α) : On RowStream σ α := do
  match ← (x.mapFailure Failure.recast).attempt with
  | .ok a => .ok a
  | .error e =>
    close true
    .fail e

/-- Starts a transaction for a cursor, unless the driver is in one. -/
def startTransaction : On RowStream σ Unit := do
  let c := (← On.object).conn
  let present : Bool ← On.beside (App.call (.driver c))
  if !present then .fail .missingPart
  else
    let busy : Bool ← On.beside (App.call (.driverInTransaction c))
    if !busy then
      On.own (Change.modify fun s ↦ { s with ownsTransaction := true })
      On.beside (App.call (.startTransaction c))

def open_ : On RowStream σ Unit := do
  let s ← On.object
  On.beside (App.tell (.streaming s.sql s.values))
  guarded do
    startTransaction
    On.beside (App.call (.openCursor s.conn s.sql s.values))
    On.own (Change.modify fun s ↦ { s with hasCursor := true })

/-- Fetches the next batch of rows, if there is nothing to hand out and more may come. -/
def fill : On RowStream σ Unit := do
  let s ← On.object
  if s.wantsFetch then
    let batch : List Row ← guarded
      (if s.hasCursor then On.beside (App.call (.fetch s.conn s.batchSize)) else .fail .missingPart)
    On.own (do Change.set (← Change.ofExcept ((← Change.get).receive batch)))

/-- What a stream makes of a row. -/
def shapeRow (shape : RowShape) (row : Row) : App σ Value :=
  match shape with
  | .entries => .ok (.map row)
  | .record type source => do
    let id ← App.addRecord (← Change.ofExcept (Record.ofRow type source row))
    App.recordValue id

/-- The next row; with none left the stream is closed and the pull has ended. -/
def pull : On RowStream σ Value := do
  fill
  let s ← On.object
  match s.buffer with
  | [] =>
    close false
    .fail .ended
  | row :: rest =>
    On.own (Change.modify fun s ↦ { s with buffer := rest })
    On.beside (shapeRow s.shape row)

end Rowmap.RowStream
