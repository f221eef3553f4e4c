import Rowmap.Database.Call

/-!
# Scripted databases

A backend that answers from a script: what each pool hands out, what each connection gives back for
one statement after the other, and which calls fail. It makes whatever a database may do happen on
purpose.
-/

namespace Rowmap

/-- How the driver under a connection behaves. A failure is kept under the name of the call that it
ends, and one of a single statement under its text. -/
structure DriverScript where
  closed : Bool := false
  inTransaction : Bool := false
  batches : List (Except Failure (List Row)) := []
  failures : List (String × Failure) := []

/-- How a connection behaves. A failure is kept under the name of the call that it ends. -/
structure ConnectionScript where
  results : List (Except Failure Outcome) := []
  inTransaction : Bool := false
  failures : List (String × Failure) := []
  hasDriver : Bool := true
  driver : DriverScript := {}

structure Scripted where
  connections : List (String × ConnectionScript) := []
  pools : List (String × List Connection) := []

namespace Scripted

/-- The failure of a pool that has nothing left to hand out. -/
def exhausted : Failure :=
  .raised { kind := .other "RuntimeError", message := "pool exhausted", graph := [], node := 0 }

/-- What a statement without rows gives back. -/
def noRows : Outcome := { rows := [], rowCount := .int 0, returnsRows := true, scalar := .null }

/-- A list of things by name with another one under a name. -/
def replace {α : Type} (name : String) (a : α) (things : List (String × α)) : List (String × α) :=
  things.map fun (n, b) ↦ if n == name then (n, a) else (n, b)

def script (s : Scripted) (c : Connection) : ConnectionScript :=
  (s.connections.lookup c.name).getD {}

/-- The database with another behaviour of a connection. -/
def withScript (s : Scripted) (c : Connection) (script : ConnectionScript) : Scripted :=
  { s with connections := replace c.name script s.connections }

/-- The next of several results, and those after it. -/
def next {α : Type} (otherwise : α) :
    List (Except Failure α) → Except Failure α × List (Except Failure α)
  | [] => (.ok otherwise, [])
  | r :: rs => (r, rs)

/-- The database with a connection in a transaction, or outside one. -/
def switch (s : Scripted) (c : Connection) (inTransaction : Bool) : Scripted :=
  s.withScript c { s.script c with inTransaction }

/-- The database with the driver of a connection in a transaction, or outside one. -/
def switchDriver (s : Scripted) (c : Connection) (inTransaction : Bool) : Scripted :=
  let script := s.script c
  s.withScript c { script with driver := { script.driver with inTransaction } }

def connect (s : Scripted) (p : Pool) : Except Failure Connection × Scripted :=
  match s.pools.lookup p.name with
  | some (c :: rest) => (.ok c, { s with pools := replace p.name rest s.pools })
  | _ => (.error exhausted, s)

/-- The result of a statement, which opens a transaction. -/
def exec (s : Scripted) (c : Connection) : Except Failure Outcome × Scripted :=
  let script := s.script c
  let (result, results) := next noRows script.results
  (result, s.withScript c { script with results, inTransaction := true })

/-- The next batch of a cursor. -/
def fetch (s : Scripted) (c : Connection) : Except Failure (List Row) × Scripted :=
  let script := s.script c
  let (batch, batches) := next [] script.driver.batches
  (batch, s.withScript c { script with driver := { script.driver with batches } })

/-- Whether a call goes to a pool, or to a connection, that there is. -/
def knows (s : Scripted) (call : Call) : Bool :=
  match call with
  | .connect p | .dispose p => (s.pools.lookup p.name).isSome
  | call => (s.connections.lookup call.target).isSome

/-- How a call ends early, if its script says so. -/
def failure? (s : Scripted) (call : Call) : Option Failure :=
  let ofConnection (c : Connection) := (s.script c).failures.lookup call.name
  let ofDriver (c : Connection) := (s.script c).driver.failures.lookup call.name
  match call with
  | .exec c _ _ | .begin c | .commit c | .rollback c | .invalidate c | .close c | .driver c =>
    ofConnection c
  | .startTransaction c | .commitTransaction c | .rollbackTransaction c | .openCursor c _ _
  | .fetch c _ => ofDriver c
  | .driverExecute c sql _ => ofDriver c <|> (s.script c).driver.failures.lookup sql
  | .connect _ | .dispose _ | .inTransaction _ | .driverClosed _ | .driverInTransaction _ => none

/-- What a scripted database answers to a call that its script lets pass. -/
def answer : (call : Call) → Scripted → Except Failure call.Reply × Scripted
  | .connect p, s => s.connect p
  | .exec c _ _, s => s.exec c
  | .inTransaction c, s => (.ok (s.script c).inTransaction, s)
  | .begin c, s => (.ok (), s.switch c true)
  | .commit c, s | .rollback c, s | .close c, s => (.ok (), s.switch c false)
  | .driver c, s => (.ok (s.script c).hasDriver, s)
  | .driverClosed c, s => (.ok (s.script c).driver.closed, s)
  | .driverInTransaction c, s => (.ok (s.script c).driver.inTransaction, s)
  | .startTransaction c, s => (.ok (), s.switchDriver c true)
  | .commitTransaction c, s | .rollbackTransaction c, s => (.ok (), s.switchDriver c false)
  | .fetch c _, s => s.fetch c
  | .dispose _, s | .invalidate _, s | .openCursor _ _ _, s | .driverExecute _ _ _, s => (.ok (), s)

instance : Backend Scripted where
  perform call s :=
    match if s.knows call then s.failure? call else some .missingPart with
    | some e => (.error e, s)
    | none => answer call s

end Scripted

end Rowmap
