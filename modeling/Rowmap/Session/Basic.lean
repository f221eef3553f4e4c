import Rowmap.Logged
import Rowmap.Query.State
import Rowmap.Record.Attribute
import Rowmap.Stream.State

/-!
# Sessions

A session holds the live objects (records, queries and streams, by number), the registered pools,
and what happened so far: the calls to the database and the logged events. What is done in a session
is a change of it, so a failure keeps everything that happened before.
-/

namespace Rowmap

/-- Pools by name, in the order in which the names were first registered. Any value can be a name.
-/
abbrev PoolRegistry := List (Value × Pool)

abbrev Numbered (α : Type) := List (Nat × α)

def Numbered.put {α : Type} (objects : Numbered α) (id : Nat) (a : α) : Numbered α :=
  (id, a) :: objects.filter (·.1 != id)

structure Session (σ : Type) where
  db : σ
  events : List Event := []
  log : List LogEvent := []
  /-- The number of the next live object. -/
  next : Nat := 1
  records : Numbered Record := []
  queries : Numbered Query := []
  streams : Numbered RowStream := []
  /-- Registries of pools; the first is the one that serves by default. -/
  registries : Numbered PoolRegistry := []

/-- What is done in a session. -/
abbrev App (σ : Type) (α : Type) : Type := Change (Session σ) α

/-- What is done in a session to one object. -/
abbrev On (τ σ : Type) (α : Type) : Type := Change (τ × Session σ) α

namespace App

variable {σ τ α : Type}

/-- A call to the database, noted as an event with its reply. -/
def call [Backend σ] (c : Call) : App σ c.Reply := fun s ↦
  let (reply, db) := Backend.perform c s.db
  (reply, { s with db, events := s.events ++ [.called c reply.toOption] })

def note (e : Event) : App σ Unit := Change.modify fun s ↦ { s with events := s.events ++ [e] }

def tell (e : LogEvent) : App σ Unit := Change.modify fun s ↦ { s with log := s.log ++ [e] }

def logged (x : Logged α) : App σ α := fun s ↦ (x.result, { s with log := s.log ++ x.log })

/-- A number for a new live object. -/
def fresh : App σ Nat := fun s ↦ (.ok s.next, { s with next := s.next + 1 })

/-- What is done in a session, with failures as callers of the database see them. -/
def recast (x : App σ α) : App σ α := Change.mapFailure Failure.recast x

/-- A record as a live object. -/
def addRecord (r : Record) : App σ Nat := do
  let id ← fresh
  Change.modify fun s ↦ { s with records := s.records.put id r }
  .ok id

/-- A query as a live object. -/
def addQuery (q : Query) : App σ Nat := do
  let id ← fresh
  Change.modify fun s ↦ { s with queries := s.queries.put id q }
  .ok id

/-- A stream as a live object. -/
def addStream (s : RowStream) : App σ Nat := do
  let id ← fresh
  Change.modify fun t ↦ { t with streams := t.streams.put id s }
  .ok id

/-- What is done to a live stream. -/
def withStream (id : Nat) (x : On RowStream σ α) : App σ α := fun s ↦
  match s.streams.lookup id with
  | some stream =>
    let (r, stream, s) := x (stream, s)
    (r, { s with streams := s.streams.put id stream })
  | none => (.error .missingPart, s)

/-- What is done to a live record. -/
def withRecord (id : Nat) (x : On Record σ α) : App σ α := fun s ↦
  match s.records.lookup id with
  | some record =>
    let (r, record, s) := x (record, s)
    (r, { s with records := s.records.put id record })
  | none => (.error .missingPart, s)

def recordValue (id : Nat) : App σ Value := withRecord id do
  let r ← Change.gets (·.1)
  .ok (r.toValue id)

/-- What is done to a live query. -/
def withQuery (id : Nat) (x : On Query σ α) : App σ α := fun s ↦
  match s.queries.lookup id with
  | some query =>
    let (r, query, s) := x (query, s)
    (r, { s with queries := s.queries.put id query })
  | none => (.error .missingPart, s)

def queryValue (id : Nat) : App σ Value := withQuery id do
  .ok (.query id (← Change.gets (·.1)).select)

end App

namespace On

variable {σ τ α : Type}

/-- A change of the object alone. -/
def own (x : Change τ α) : On τ σ α := Change.onFirst x

/-- What is done in the session beside the object. -/
def beside (x : App σ α) : On τ σ α := Change.onSecond x

def object : On τ σ τ := Change.gets (·.1)

end On

end Rowmap
