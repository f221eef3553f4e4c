import Rowmap.Database.Registry
import Rowmap.Value.Iterate
import Rowmap.Value.Sequence

/-!
# Checking out connections

A connection of a pool is used by one caller at a time. It is handed out only when it is open and
outside a transaction; it is committed when its use succeeded, released on every way out, and
discarded when its use ended in a database error.
-/

namespace Rowmap.App

variable {σ α : Type} [Backend σ]

def execute (c : Connection) (sql : String) (values : List Value) : App σ Outcome := do
  tell (.statement sql values)
  call (.exec c sql values)

/-- Sends a statement with the values that there are to go through in a value. -/
def executeOver (c : Connection) (sql : String) (values : Value) : App σ Outcome := do
  execute c sql (← Change.ofExcept values.iterate)

/-- Gives a connection back to its pool, or discards it. -/
def release (c : Connection) (destroy : Bool) : App σ Unit := do
  if destroy then call (.invalidate c)
  call (.close c)

/-- Why a connection cannot be used, if it cannot. -/
def unusableReason (c : Connection) : App σ (Option String) := do
  let present : Bool ← call (.driver c)
  let closed : Bool ← if present then call (.driverClosed c) else .ok true
  if closed then .ok (some "connection is closed")
  else
    let busy : Bool ← call (.driverInTransaction c)
    .ok (if busy then some "connection was checked out with an open transaction" else none)

/-- Why a connection cannot be used; an ordinary failure of looking is a reason too. -/
def probe (c : Connection) : App σ (Option String) := do
  match ← (unusableReason c).attempt with
  | .ok reason => .ok reason
  | .error e => if e.isOrdinary then .ok (some e.reason) else .fail e

/-- How many connections are tried unless told otherwise. -/
def defaultAttempts : Value := .int 100

/-- The first usable connection of a pool among so many more attempts out of a number of them; those
before it are discarded. -/
def usableAmong (p : Pool) (attempts : Value) (limit : Int) : Nat → App σ Connection
  | 0 => .fail (.fault (.noUsableConnection attempts))
  | n + 1 => do
    let c : Connection ← call (.connect p)
    match ← probe c with
    | none => .ok c
    | some reason =>
      tell (.pruned reason (limit - n) limit)
      release c true
      usableAmong p attempts limit n

def usableConnection (p : Pool) (attempts : Value := defaultAttempts) : App σ Connection := do
  let limit ← Change.ofExcept (Sequence.position attempts)
  usableAmong p attempts limit limit.toNat

/-- A use of a connection that is committed when it succeeds and leaves a transaction open. -/
def committed (c : Connection) (body : Connection → App σ α) : App σ α := do
  let a ← body c
  let open_ : Bool ← call (.inTransaction c)
  if open_ then call (.commit c)
  .ok a

def endedInDatabaseError : Except Failure α → Bool
  | .ok _ => false
  | .error e => e.isDatabase

/-- A use of a given connection, or of one of a pool, which is released after it. -/
def checkout (conn : Option Connection) (pool : Option Pool) (destroy : Bool)
    (body : Connection → App σ α) : App σ α := do
  match conn with
  | some c => recast (body c)
  | none =>
    let c ← usableConnection (← poolOrDefault pool)
    (recast (committed c body)).finally_ fun r ↦ release c (destroy || endedInDatabaseError r)

def connected (pool : Option Pool) (destroy : Bool) (body : Option (Connection → App σ α)) :
    App σ α :=
  match body with
  | none => .fail (.fault (.missingArgument (.text "callback")))
  | some body => checkout none pool destroy body

/-! ## Transactions -/

/-- A use of a connection between the beginning of a transaction and its end: a commit when it
succeeds and, where the transaction is still open, a rollback when it does not. -/
def bracketed (c : Connection) (body : Connection → App σ α) : App σ α := do
  call (.begin c)
  let r ← Change.attempt (do
    let a ← body c
    call (.commit c)
    pure a)
  match r with
  | .ok a => .ok a
  | .error e =>
    let open_ : Bool ← call (.inTransaction c)
    if open_ then call (.rollback c)
    .fail e

/-- A use of a connection inside a transaction. A transaction that is open already is joined only
when that is allowed. -/
def transaction (conn : Option Connection) (pool : Option Pool) (allowNested destroy : Bool)
    (body : Option (Connection → App σ α)) : App σ α :=
  match body with
  | none => .fail (.fault (.missingArgument (.text "callback")))
  | some body => do
    let c ← match conn with
      | some c => .ok c
      | none => do usableConnection (← poolOrDefault pool)
    let joined : Bool ← call (.inTransaction c)
    let use : App σ α :=
      if joined && !allowNested then .fail (.fault .nestedTransaction)
      else recast (if joined then body c else bracketed c body)
    use.finally_ fun r ↦
      if conn.isNone || destroy then release c (destroy || endedInDatabaseError r) else .ok ()

/-- The rows of one statement sent on a connection of a pool, with the values that there are to go
through in a value that counts as true. -/
def queryRows (sql : String) (values : Value) (pool : Option Pool) (destroy : Bool) :
    App σ (List Row) :=
  connected pool destroy <| some fun c ↦ do
    let outcome : Outcome ← executeOver c sql (if values.truthy then values else .list [])
    .ok (if outcome.returnsRows then outcome.rows else [])

end Rowmap.App
