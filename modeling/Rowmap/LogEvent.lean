import Rowmap.Value.Printed

/-!
# Log events

What the library logs. An event is a cause; its level, the part of the library that logs it and its
wording are functions of it.
-/

namespace Rowmap

/-- How much an event matters. -/
inductive LogLevel where
  | debug | info | warning | error
  deriving DecidableEq, Repr

namespace LogLevel

def label : LogLevel → String
  | .debug => "DEBUG"
  | .info => "INFO"
  | .warning => "WARNING"
  | .error => "ERROR"

/-- The levels, from the one that matters least. -/
def members : List LogLevel := [.debug, .info, .warning, .error]

def ofName? (name : String) : Option LogLevel :=
  if name == "WARN" then some .warning else members.find? (·.label == name)

/-- Whether an event of a level is worth showing where only those from a named level on are. A name
that is no level's shows nothing. -/
def reaches (level : LogLevel) (least : String) : Bool :=
  match ofName? least with
  | some l => (members.dropWhile (· != l)).contains level
  | none => false

end LogLevel

/-- The part of the library that logs. -/
inductive LogSource where
  | conditions | records | connections | streams | migrations
  deriving DecidableEq, Repr

/-- An event worth logging. -/
inductive LogEvent where
  /-- A field of a condition tree was skipped because it was never given a value. -/
  | skippedUnset (key record : String)
  /-- A statement was sent. -/
  | statement (sql : String) (values : List Value)
  /-- A statement was sent for streaming. -/
  | streaming (sql : String) (values : List Value)
  /-- A connection of a pool was discarded. -/
  | pruned (reason : String) (attempt limit : Int)
  /-- A load matched more than one row. -/
  | severalMatches (record : String) (fields : Value)
  /-- So many migrations are to be applied. -/
  | pendingMigrations (count : Nat)
  /-- A migration is applied. -/
  | runningMigration (index count : Nat) (name : String)

namespace LogEvent

def level : LogEvent → LogLevel
  | .skippedUnset .. | .severalMatches .. => .warning
  | .statement .. | .streaming .. => .debug
  | .pruned .. => .error
  | .pendingMigrations _ | .runningMigration .. => .info

/-- The part of the library that logs an event. -/
def source : LogEvent → LogSource
  | .skippedUnset .. => .conditions
  | .statement .. | .pruned .. => .connections
  | .streaming .. => .streams
  | .severalMatches .. => .records
  | .pendingMigrations _ | .runningMigration .. => .migrations

/-- The warning for a load that matched more than one row. -/
def severalMatchesWarning (record : String) : String :=
  "Multiple results matched load() attempt on " ++ record

def message : LogEvent → String
  | .skippedUnset key record =>
    "Skipped unset value for " ++ key ++ " while processing wheres for " ++ record
  | .statement sql values => "QUERY " ++ sql ++ " VALUES " ++ (Value.list values).printed
  | .streaming sql values => "STREAM " ++ sql ++ " VALUES " ++ (Value.list values).printed
  | .pruned reason attempt limit =>
    "Pruned unusable pool connection: " ++ reason ++ " (attempt " ++ toString attempt ++ " of " ++
      toString limit ++ ")"
  | .severalMatches record fields => severalMatchesWarning record ++ ": " ++ fields.printed
  | .pendingMigrations count => "Migrations to run: " ++ toString count
  | .runningMigration index count name =>
    "Running migration " ++ padded (toString count).length index ++ "/" ++ toString count ++ ": " ++
      name

end LogEvent

end Rowmap
