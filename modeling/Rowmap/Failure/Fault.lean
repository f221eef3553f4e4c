import Rowmap.Value.Printed

/-!
# Faults

The ways in which a caller misuses records, queries, condition trees and pools. A fault is a cause;
its wording is in `message`, and what interfaces are told about it in `report`.
-/

namespace Rowmap

inductive FaultFamily where
  | general | query | record | pool
  deriving DecidableEq, Repr

/-- Why a condition tree cannot be expressed. -/
inductive ConditionProblem where
  /-- A field has a map of fields as its value. -/
  | nestedMap (key record : String)
  /-- A list of values holds a sub-query. -/
  | subqueryInList
  /-- The non-null marker meets a comparison that cannot test for null. -/
  | notNullUnder (comparison : Comparison) (key : String)
  /-- A comparison without a left-hand side is used on a field. -/
  | rightOnlyOnField (operator key : String)
  /-- No rule of the registry accepts the value of a field. -/
  | unmatched (printed key : String)
  /-- A bare value stands where a condition belongs. -/
  | bareValue (printed : String)
  /-- Any other problem, in the words of whoever found it. -/
  | other (message field : Value)

namespace ConditionProblem

def message : ConditionProblem → String
  | .nestedMap key record =>
    "Field '" ++ key ++ "' of " ++ record ++
      " has a nested field map as its value; combine field maps with and_() / or_() instead"
  | .subqueryInList => "A value list cannot contain a sub-query; use the sub-query alone"
  | .notNullUnder comparison _ => "NOT_NULL cannot be used with comparison " ++ comparison.label
  | .rightOnlyOnField operator key =>
    operator ++ " takes no left-hand side but was used on field '" ++ key ++
      "'; place it outside any field map"
  | .unmatched printed _ => "No rule can render value " ++ printed
  | .bareValue printed =>
    "Value " ++ printed ++
      " has no field to compare against; wrap it in a field map such as \x7b'field': value\x7d"
  | .other message _ => message.inline

/-- The field that a problem is about, or null. -/
def field : ConditionProblem → Value
  | .nestedMap key _ | .notNullUnder _ key | .rightOnlyOnField _ key | .unmatched _ key => .text key
  | .subqueryInList | .bareValue _ => .null
  | .other _ field => field

/-- The wording of a problem as it was given. -/
def statedMessage : ConditionProblem → Value
  | .other message _ => message
  | problem => .text problem.message

end ConditionProblem

/-- A misuse. -/
inductive Fault where
  /-- A fault known only by its family and its words. -/
  | general (family : FaultFamily) (message : String)
  | missingArgument (name : Value)
  | unknownField (key record : Value) (available suggestions : List Value)
  | condition (problem : ConditionProblem)
  | incompatibleOutput (output : String) (returns : Value)
  | invalidOutput (output : Value) (valid : List String)
  | unavailableInStream (what : String)
  | invalidOptions (message : String)
  | notLoaded
  | iterationNeedsStream
  | recordTypeRequired (got : Value)
  | noPrimaryKey (record : String)
  | missingKeyValue (record field : String)
  | incorrectFields (message : String)
  | noPool (name : Value)
  | noUsableConnection (attempts : Value)
  | prunedConnection (reason : String)
  | nestedTransaction
  /-- A statement timed out; the name of the kind of error that told so, if one did. -/
  | statementTimeout (cause : Option String)

namespace Fault

def family : Fault → FaultFamily
  | .general family _ => family
  | .missingArgument _ | .unknownField .. | .condition _ => .general
  | .incompatibleOutput .. | .invalidOutput .. | .unavailableInStream _ | .invalidOptions _
  | .notLoaded | .iterationNeedsStream => .query
  | .recordTypeRequired _ | .noPrimaryKey _ | .missingKeyValue .. | .incorrectFields _ => .record
  | .noPool _ | .noUsableConnection _ | .prunedConnection _ | .nestedTransaction
  | .statementTimeout _ => .pool

/-- How many fields the message for an unknown one lists. -/
def listedFields : Nat := 15

/-- The declared fields, sorted, as far as a message lists them. -/
def fieldPreview (available : List String) : String :=
  let sorted := available.mergeSort fun a b ↦ !(b < a)
  ", ".intercalate (sorted.take listedFields) ++
    (if listedFields < sorted.length then ", ..." else "")

def unknownFieldLines (key record : Value) (available suggestions : List Value) : List String :=
  ["Invalid field '" ++ key.inline ++ "' on '" ++ record.inline ++ "'."] ++
    (if suggestions.isEmpty then []
      else "Did you mean one of these?" :: suggestions.map ("  • " ++ ·.inline)) ++
    ["Available fields: " ++ fieldPreview (available.map Value.label)]

def message : Fault → String
  | .general _ message => message
  | .missingArgument name => "Missing required argument: " ++ name.inline
  | .unknownField key record available suggestions =>
    "\n".intercalate (unknownFieldLines key record available suggestions)
  | .condition problem => problem.message
  | .incompatibleOutput output returns =>
    "Output type '" ++ output ++ "' is incompatible with returns=" ++ returns.printed
  | .invalidOutput output valid =>
    "Invalid output type " ++ output.printed ++ ". Valid output types: " ++ ", ".intercalate valid
  | .unavailableInStream what => what ++ " is unavailable in stream mode"
  | .invalidOptions message => message
  | .notLoaded => "Query must be run before iterating over its rows"
  | .iterationNeedsStream => "Async iteration is only available in stream mode"
  | .recordTypeRequired got => "A Record subclass is required, got " ++ got.printed
  | .noPrimaryKey record => record ++ " declares no primary key fields"
  | .missingKeyValue record field =>
    record ++ " is missing a value for primary key '" ++ field ++ "'"
  | .incorrectFields message => message
  | .noPool name => "No pool registered under '" ++ name.inline ++ "'"
  | .noUsableConnection attempts =>
    "No usable pool connection found after " ++ attempts.inline ++ " attempts"
  | .prunedConnection reason => "Pruned unusable pool connection: " ++ reason
  | .nestedTransaction =>
    "Connection is already in a transaction; pass allow_nested=True to join it"
  | .statementTimeout _ => "Statement timed out"

/-! ## Reports -/

/-- The name of the faults of a family that have none of their own. -/
def familyName : FaultFamily → String
  | .general => "SuppleSqlError"
  | .query => "QueryError"
  | .record => "RecordError"
  | .pool => "PoolError"

def name : Fault → String
  | .general family _ => familyName family
  | .missingArgument _ => "MissingRequiredArgError"
  | .unknownField .. => "FieldNotFoundError"
  | .condition _ => "StructuralWhereError"
  | .incompatibleOutput .. => "IncompatibleOutputSpecifiedError"
  | .invalidOutput .. => "InvalidOutputTypeError"
  | .unavailableInStream _ => "UnavailableInStreamModeError"
  | .invalidOptions _ => "InvalidOptionCombinationError"
  | .notLoaded => "QueryNotLoadedIterationError"
  | .iterationNeedsStream => "AsyncIterationUnavailableError"
  | .recordTypeRequired _ => "RecordTypeRequiredError"
  | .noPrimaryKey _ => "RecordMissingPrimaryKeyError"
  | .missingKeyValue .. => "PrimaryKeyValueMissingError"
  | .incorrectFields _ => "IncorrectFieldsError"
  | .noPool _ => "NoPoolSetError"
  | .noUsableConnection _ => "FailedToFindUsablePoolConnectionError"
  | .prunedConnection _ => "AutoPrunedUnusablePoolConnectionError"
  | .nestedTransaction => "ImplicitNestedTransactionError"
  | .statementTimeout _ => "StatementTimeoutError"

/-- The names of the more general faults that a fault is one of, nearest first. -/
def generalNames (f : Fault) : List String :=
  [familyName f.family, familyName .general].eraseDups.filter (· != f.name)

/-- What interfaces are told about a fault: a code, which is its name unless it has one of its own,
and its wording or what it is about. -/
def report (f : Fault) : List (String × Value) :=
  match f with
  | .missingArgument name =>
    [("error", .text "MISSING_REQUIRED_ARG"), ("message", .text f.message), ("arg", name)]
  | .unknownField key record _ suggestions =>
    [("error", .text "FIELD_NOT_FOUND"), ("field", key), ("record", record),
      ("suggestions", .list suggestions)]
  | .condition problem =>
    [("error", .text "STRUCTURAL_WHERE_ERROR"), ("message", problem.statedMessage),
      ("field", problem.field)]
  | _ => [("error", .text f.name), ("message", .text f.message)]

end Fault

end Rowmap
