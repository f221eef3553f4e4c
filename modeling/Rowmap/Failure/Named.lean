import Rowmap.Failure.Unknown
import Rowmap.Value.Entries

/-!
# Faults by name

A fault can be made from plain data: by its name, with arguments in order or by name. The arguments
are kept where the fault reports them, taken as texts where it only speaks of them, and refused
where they do not fit.
-/

namespace Rowmap.Fault

/-- A parameter of a fault: its name, and whether it may be left out. -/
structure Parameter where
  name : String
  isOptional : Bool := false

/-- The parameters of the faults that have a name of their own. -/
def parameters : List (String × List Parameter) := [
  ("MissingRequiredArgError", [⟨"arg_name", false⟩]),
  ("FieldNotFoundError", [⟨"invalid_field", false⟩, ⟨"record_name", false⟩,
    ⟨"available_fields", false⟩, ⟨"cutoff", true⟩]),
  ("StructuralWhereError", [⟨"message", false⟩, ⟨"field", true⟩]),
  ("IncompatibleOutputSpecifiedError", [⟨"output", false⟩, ⟨"returns", false⟩]),
  ("InvalidOutputTypeError", [⟨"output", false⟩, ⟨"valid", false⟩]),
  ("UnavailableInStreamModeError", [⟨"what", false⟩]),
  ("InvalidOptionCombinationError", [⟨"message", false⟩]),
  ("QueryNotLoadedIterationError", []),
  ("AsyncIterationUnavailableError", []),
  ("RecordTypeRequiredError", [⟨"got", false⟩]),
  ("RecordMissingPrimaryKeyError", [⟨"record_name", false⟩]),
  ("PrimaryKeyValueMissingError", [⟨"record_name", false⟩, ⟨"field", false⟩]),
  ("IncorrectFieldsError", [⟨"message", false⟩]),
  ("NoPoolSetError", [⟨"name", true⟩]),
  ("FailedToFindUsablePoolConnectionError", [⟨"attempts", false⟩]),
  ("AutoPrunedUnusablePoolConnectionError", [⟨"reason", false⟩]),
  ("ImplicitNestedTransactionError", []),
  ("StatementTimeoutError", [])]

/-- The arguments for parameters, each given in order or by name. None is given twice, none is
unknown, and only those that may be are left out. -/
def bindArguments (ps : List Parameter) (args : List Value) (named : Entries) :
    Except Failure (List (Option Value)) :=
  let unplaced := (ps.drop args.length).map (·.name)
  if ps.length < args.length || named.any fun (name, _) ↦ !unplaced.contains name then
    .error (.wrongType none)
  else
    let bound := ps.zipIdx.map fun (p, i) ↦ args[i]? <|> named.lookup p.name
    if (ps.zip bound).any fun (p, v) ↦ v.isNone && !p.isOptional then .error (.wrongType none)
    else .ok bound

/-- The texts that a value goes through, which have to be texts. -/
def textsOf (v : Value) : Except Failure (List String) := do
  (← v.iterate).mapM fun v ↦
    match v.asText? with
    | some s => .ok s
    | none => .error (.wrongType none)

def familyNamed? (name : String) : Option FaultFamily :=
  [FaultFamily.general, .query, .record, .pool].find? (familyName · == name)

/-- What a fault of a family says about its arguments: nothing, the only one, or all of them. -/
def generalMessage : List Value → String
  | [] => ""
  | [v] => v.inline
  | vs => (Value.tuple vs).printed

/-- A cutoff for suggestions, which lies between zero and one. A decimal that is no number cannot be
ordered at all. -/
def cutoffOf (v : Value) : Except Failure Rat :=
  match v, v.number? with
  | _, some (.exact x) => if x.isInUnit then .ok x.magnitude else .error .badValue
  | .decimal _, some (.notANumber _) => .error .signalled
  | _, some _ => .error .badValue
  | _, none => .error (.wrongType none)

/-- The fault for a key that is not declared among given ones. -/
def unknownGiven (key record available : Value) (cutoff : Option Value) : Except Failure Fault := do
  let cutoff ← (cutoff.map cutoffOf).getD (.ok suggestionCutoff)
  let _ ← wordOf key
  unknownAmong cutoff key record (← available.iterate)

/-- The fault of a name with arguments for its parameters. -/
def ofBound (name : String) (args : List (Option Value)) : Except Failure Fault :=
  match name, args with
  | "MissingRequiredArgError", [some arg] => .ok (.missingArgument arg)
  | "FieldNotFoundError", [some key, some record, some available, cutoff] =>
    unknownGiven key record available cutoff
  | "StructuralWhereError", [some message, field] =>
    .ok (.condition (.other message (field.getD .null)))
  | "IncompatibleOutputSpecifiedError", [some output, some returns] =>
    .ok (.incompatibleOutput output.inline returns)
  | "InvalidOutputTypeError", [some output, some valid] =>
    do .ok (.invalidOutput output (← textsOf valid))
  | "UnavailableInStreamModeError", [some what] => .ok (.unavailableInStream what.inline)
  | "InvalidOptionCombinationError", [some message] => .ok (.invalidOptions message.inline)
  | "QueryNotLoadedIterationError", [] => .ok .notLoaded
  | "AsyncIterationUnavailableError", [] => .ok .iterationNeedsStream
  | "RecordTypeRequiredError", [some got] => .ok (.recordTypeRequired got)
  | "RecordMissingPrimaryKeyError", [some record] => .ok (.noPrimaryKey record.inline)
  | "PrimaryKeyValueMissingError", [some record, some field] =>
    .ok (.missingKeyValue record.inline field.inline)
  | "IncorrectFieldsError", [some message] => .ok (.incorrectFields message.inline)
  | "NoPoolSetError", [name] => .ok (.noPool (name.getD (.text "default")))
  | "FailedToFindUsablePoolConnectionError", [some attempts] => .ok (.noUsableConnection attempts)
  | "AutoPrunedUnusablePoolConnectionError", [some reason] => .ok (.prunedConnection reason.inline)
  | "ImplicitNestedTransactionError", [] => .ok .nestedTransaction
  | "StatementTimeoutError", [] => .ok (.statementTimeout none)
  | _, _ => .error .missingKey

/-- The fault of a name with arguments in order and by name. -/
def ofArguments (name : String) (args : List Value) (named : Entries) : Except Failure Fault := do
  match familyNamed? name with
  | some family =>
    if named.isEmpty then .ok (.general family (generalMessage args)) else .error (.wrongType none)
  | none =>
    match parameters.lookup name with
    | some ps => ofBound name (← bindArguments ps args named)
    | none => .error .missingKey

end Rowmap.Fault
