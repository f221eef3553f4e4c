import Rowmap.Declaration.Check
import Rowmap.Failure.Basic

/-!
# Pool settings

The settings of a connection pool and what an engine is made with. An address may name its scheme in
any of the accepted ways; it is stored with the one scheme that the driver understands.
-/

namespace Rowmap

/-- The settings of a pool; the statement and idle limits are in milliseconds, and null where none
is set. -/
structure PoolSettings where
  dsn : String
  poolSize : Value
  maxOverflow : Value
  poolTimeout : Binary64
  poolPrePing : Bool
  statementTimeout : Value
  idleTimeout : Value
  echo : Bool

namespace PoolSettings

/-- The scheme of an address, which ends at the first `://`, and what follows it. -/
def splitScheme : List Char → Option (List Char × List Char)
  | ':' :: '/' :: '/' :: rest => some ([], rest)
  | c :: cs => (splitScheme cs).map fun (scheme, rest) ↦ (c :: scheme, rest)
  | [] => none

def driverScheme : String := "postgresql+asyncpg"

/-- An address with the scheme of the driver. -/
def normalizeAddress (dsn : String) : Except Problem String :=
  match splitScheme dsn.toList with
  | none => .error (.refused ("Invalid DSN: " ++ Text.quoted dsn))
  | some (scheme, rest) =>
    let scheme := String.ofList scheme
    if scheme == "postgres" || scheme == "postgresql" then
      .ok (driverScheme ++ "://" ++ String.ofList rest)
    else if scheme != driverScheme then
      .error (.refused ("Unsupported DSN scheme " ++ Text.quoted scheme ++
        "; expected postgresql://"))
    else .ok dsn

def address : Check String := fun v ↦ do normalizeAddress (← Check.text v)

/-- The pool timeout unless another is set, in seconds. -/
def defaultTimeout : Binary64 := .ofInt 30

/-- The settings that plain data declares. -/
def ofEntries (es : List (String × Value)) : Except Failure PoolSettings :=
  let dsn := Check.required es "dsn" address
  let size := Check.optional es "pool_size" Check.whole (.int 10)
  let overflow := Check.optional es "max_overflow" Check.whole (.int 0)
  let timeout := Check.optional es "pool_timeout" Check.float defaultTimeout
  let ping := Check.optional es "pool_pre_ping" Check.bool true
  let statement := Check.optional es "statement_timeout_ms" (Check.orNull Check.whole) .null
  let idle :=
    Check.optional es "idle_in_transaction_session_timeout_ms" (Check.orNull Check.whole) .null
  let echo := Check.optional es "echo" Check.bool false
  match dsn, size, overflow, timeout, ping, statement, idle, echo with
  | .ok dsn, .ok size, .ok overflow, .ok timeout, .ok ping, .ok statement, .ok idle, .ok echo =>
    .ok ⟨dsn, size, overflow, timeout, ping, statement, idle, echo⟩
  | _, _, _, _, _, _, _, _ =>
    .error (.invalid (Check.issue dsn ++ Check.issue size ++ Check.issue overflow ++
      Check.issue timeout ++ Check.issue ping ++ Check.issue statement ++ Check.issue idle ++
      Check.issue echo))

/-- All settings, by name. -/
def entries (s : PoolSettings) : List (String × Value) := [
  ("dsn", .text s.dsn), ("pool_size", s.poolSize), ("max_overflow", s.maxOverflow),
  ("pool_timeout", .float s.poolTimeout), ("pool_pre_ping", .bool s.poolPrePing),
  ("statement_timeout_ms", s.statementTimeout),
  ("idle_in_transaction_session_timeout_ms", s.idleTimeout), ("echo", .bool s.echo)]

/-- The setting for a limit, if it is set. A number has to be one that can be written. -/
def limit (name : String) (v : Value) : Except Failure (List (String × Value)) :=
  match v with
  | .null => .ok []
  | .int n => if Text.canWrite n then .ok [(name, .text (toString n))] else .error .badValue
  | v => .ok [(name, .text v.label)]

/-- The settings for the server, for those limits that are set. -/
def serverSettings (s : PoolSettings) : Except Failure (List (String × Value)) := do
  let statement ← limit "statement_timeout" s.statementTimeout
  let idle ← limit "idle_in_transaction_session_timeout" s.idleTimeout
  .ok (statement ++ idle)

/-- What an engine is made with: its address and its named arguments. -/
structure EngineArguments where
  address : String
  named : List (String × Value)

/-- The named arguments that the settings determine, with the settings for the server. -/
def ownArguments (s : PoolSettings) (server : List (String × Value)) : List (String × Value) := [
  ("pool_size", s.poolSize), ("max_overflow", s.maxOverflow),
  ("pool_timeout", .float s.poolTimeout), ("pool_pre_ping", .bool s.poolPrePing),
  ("echo", .bool s.echo),
  ("connect_args", .map (if server.isEmpty then [] else [("server_settings", .map server)]))]

/-- What an engine is made with when further arguments are given; none of them may repeat one that
the settings determine. -/
def engineArguments (s : PoolSettings) (further : List (String × Value)) :
    Except Failure EngineArguments := do
  let own := s.ownArguments (← s.serverSettings)
  if further.any fun (name, _) ↦ name == "config" || (own.lookup name).isSome then
    .error (.wrongType none)
  else .ok ⟨s.dsn, own ++ further⟩

end PoolSettings

end Rowmap
