import Rowmap.Failure.Chain
import Rowmap.Failure.Fault
import Rowmap.Failure.Issue

/-!
# Failures

Everything that can end an operation early: the library's own faults, values of the wrong kind,
failed checks of declarations, and errors raised by the database layer or by a caller's callback.
-/

namespace Rowmap

/-- What kind of error was raised outside the library. -/
inductive RaisedKind where
  /-- An error that the database layer reports for a statement. -/
  | database
  /-- The task was cancelled: no ordinary error, so nothing recasts or swallows it. -/
  | cancelled
  /-- Any other error, by the name of its kind. -/
  | other (name : String)
  deriving DecidableEq, Repr

/-- An error raised outside the library. -/
structure Raised where
  kind : RaisedKind
  message : String
  graph : ErrorGraph
  /-- The error itself among the linked ones. -/
  node : Nat

/-- The name of the kind of an error raised outside the library. -/
def Raised.kindName (e : Raised) : String :=
  match e.kind with
  | .database => "DBAPIError"
  | .cancelled => "CancelledError"
  | .other name => name

/-- An early end. -/
inductive Failure where
  | fault (f : Fault)
  /-- A value of the wrong type, with words where the library has its own. -/
  | wrongType (message : Option String)
  | badValue
  | missingKey
  | badIndex
  | missingPart
  | tooLarge
  | tooDeep
  /-- A number that signals was compared. -/
  | signalled
  /-- A value has no literal in a statement. -/
  | noLiteral
  /-- There is nothing left to pull. -/
  | ended
  | noDirectory
  | notAFile
  | invalid (issues : List Issue)
  | raised (e : Raised)

namespace Failure

/-- Whether a failure is an error that the database layer reported. -/
def isDatabase : Failure → Bool
  | .raised e => e.kind == .database
  | _ => false

/-- Whether a failure is an ordinary error, not a cancellation. -/
def isOrdinary : Failure → Bool
  | .raised e => e.kind != .cancelled
  | _ => true

def state? : Failure → Option String
  | .raised e => e.graph.state? e.node
  | _ => none

/-- Whether a failure tells that a statement ran out of time. -/
def isTimeout (f : Failure) : Bool := f.state? == some timeoutState

/-- The words of a failure, or the name of its kind when it has none. -/
def reason : Failure → String
  | .fault f => f.message
  | .raised e => if e.message.isEmpty then e.kindName else e.message
  | .wrongType (some message) => message
  | _ => ""

/-- A failure as callers of the database see it: an ordinary one that tells of a timeout becomes the
fault for that, caused by it, and any other stays. -/
def recast (f : Failure) : Failure :=
  match f with
  | .raised e =>
    if f.isOrdinary && f.isTimeout then .fault (.statementTimeout (some e.kindName)) else f
  | _ => f

end Failure

end Rowmap
