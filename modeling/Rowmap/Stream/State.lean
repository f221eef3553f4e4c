import Rowmap.Database.Source
import Rowmap.Declaration.RecordType
import Rowmap.Value.Iterate
import Rowmap.Value.Matching

/-!
# Streams

The state of a stream of rows over a cursor: what it was opened for, the rows fetched but not yet
pulled, and how far its life has come.
-/

namespace Rowmap

/-- What a stream makes of a row. -/
inductive RowShape where
  /-- Its columns with their values. -/
  | entries
  /-- A record that matches it. -/
  | record (type : RecordType) (source : Source)

/-- What happens when a stream is closed. -/
inductive OnClose where
  | nothing
  /-- The connection is released, and destroyed if the stream failed. -/
  | release
  /-- Whoever made the stream is told. -/
  | notify
  deriving DecidableEq, Repr

structure RowStream where
  conn : Connection
  sql : String
  values : List Value
  shape : RowShape
  onClose : OnClose
  /-- How many rows are fetched at once, as it was asked for. -/
  batchSize : Value
  buffer : List Row := []
  hasCursor : Bool := false
  /-- Whether the stream has a transaction of its own to finish. -/
  ownsTransaction : Bool := false
  exhausted : Bool := false
  closed : Bool := false

namespace RowStream

/-- How many rows a stream fetches at once unless told otherwise. -/
def defaultBatchSize : Value := .int 100

/-- A new stream over what a statement gives back, with the values that there are to go through in
a value. -/
def make (conn : Connection) (sql : String) (values : Value) (shape : RowShape) (onClose : OnClose)
    (batchSize : Value := defaultBatchSize) : Except Failure RowStream := do
  .ok { conn, sql, values := ← values.iterate, shape, onClose, batchSize }

/-- Whether a pull fetches: there is nothing to hand out, and more may come. -/
def wantsFetch (s : RowStream) : Bool := s.buffer.isEmpty && !s.closed && !s.exhausted

/-- The stream with a fetched batch; a short one is the last. -/
def receive (s : RowStream) (batch : List Row) : Except Failure RowStream := do
  let short ← s.batchSize.exceeds batch.length
  .ok { s with buffer := s.buffer ++ batch, exhausted := s.exhausted || short }

/-- The stream as a closed one, with its transaction still to be finished. -/
def shut (s : RowStream) : RowStream :=
  { s with closed := true, buffer := [], hasCursor := false }

end RowStream

end Rowmap
