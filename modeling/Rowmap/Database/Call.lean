import Rowmap.Failure.Basic

/-!
# Calls to the database

Everything that the library asks of the database layer, each call with the kind of its reply. A
backend is whatever answers the calls. Some calls only look at a connection; the others are what a
session is seen to do.
-/

namespace Rowmap

structure Connection where
  name : String
  deriving DecidableEq, Repr

structure Pool where
  name : String
  deriving DecidableEq, Repr

/-- A row of a result: columns with their values, in order. -/
abbrev Row := List (String × Value)

/-- What a statement gives back. -/
structure Outcome where
  rows : List Row
  rowCount : Value
  returnsRows : Bool
  scalar : Value

/-- A call to the database. The calls from `driver` on go to the driver under a connection: whether
there is one, its state, its transactions and its cursors. -/
inductive Call where
  | connect (pool : Pool)
  | dispose (pool : Pool)
  | exec (conn : Connection) (sql : String) (values : List Value)
  | inTransaction (conn : Connection)
  | begin (conn : Connection)
  | commit (conn : Connection)
  | rollback (conn : Connection)
  | invalidate (conn : Connection)
  | close (conn : Connection)
  | driver (conn : Connection)
  | driverClosed (conn : Connection)
  | driverInTransaction (conn : Connection)
  | startTransaction (conn : Connection)
  | commitTransaction (conn : Connection)
  | rollbackTransaction (conn : Connection)
  | openCursor (conn : Connection) (sql : String) (values : List Value)
  | fetch (conn : Connection) (count : Value)
  | driverExecute (conn : Connection) (sql : String) (values : List Value)

namespace Call

def Reply : Call → Type
  | .connect _ => Connection
  | .exec .. => Outcome
  | .inTransaction _ | .driver _ | .driverClosed _ | .driverInTransaction _ => Bool
  | .fetch .. => List Row
  | .dispose _ | .begin _ | .commit _ | .rollback _ | .invalidate _ | .close _
  | .startTransaction _ | .commitTransaction _ | .rollbackTransaction _ | .openCursor ..
  | .driverExecute .. => Unit

/-- Whether a call only looks. -/
def isProbe : Call → Bool
  | .inTransaction _ | .driver _ | .driverClosed _ | .driverInTransaction _ => true
  | _ => false

def name : Call → String
  | .connect _ => "connect"
  | .dispose _ => "dispose"
  | .exec .. => "exec"
  | .inTransaction _ => "in_transaction"
  | .begin _ => "begin"
  | .commit _ => "commit"
  | .rollback _ => "rollback"
  | .invalidate _ => "invalidate"
  | .close _ => "close"
  | .driver _ => "raw"
  | .driverClosed _ => "closed"
  | .driverInTransaction _ => "tx"
  | .startTransaction _ => "tx.start"
  | .commitTransaction _ => "tx.commit"
  | .rollbackTransaction _ => "tx.rollback"
  | .openCursor .. => "cursor"
  | .fetch .. => "fetch"
  | .driverExecute .. => "driver.execute"

/-- The name of the pool or the connection that a call goes to. -/
def target : Call → String
  | .connect p | .dispose p => p.name
  | .exec c _ _ | .inTransaction c | .begin c | .commit c | .rollback c | .invalidate c | .close c
  | .driver c | .driverClosed c | .driverInTransaction c | .startTransaction c
  | .commitTransaction c | .rollbackTransaction c | .openCursor c _ _ | .fetch c _
  | .driverExecute c _ _ => c.name

/-- What a call is given besides its target. -/
def arguments : Call → List Value
  | .exec _ sql values | .openCursor _ sql values | .driverExecute _ sql values =>
    [.text sql, .list values]
  | .fetch _ count => [count]
  | _ => []

end Call

/-- What answers calls, with a state of its own. -/
class Backend (σ : Type) where
  perform : (call : Call) → σ → Except Failure call.Reply × σ

/-- What happened in a session. -/
inductive Event where
  /-- A call was made, and replied to unless it failed. -/
  | called (call : Call) (reply : Option call.Reply)
  /-- A caller's callback was given a connection. -/
  | entered (conn : Connection)
  /-- A stream told that it was closed, and whether it had failed. -/
  | streamClosed (failed : Bool)

end Rowmap
