import Rowmap.Record.Key

/-!
# New records

A record is made without values, with those that a caller gives it by key, with the value of its
only primary key, or from a row that it matches. Its type has to have a primary key.
-/

namespace Rowmap.Record

/-- Accessors that displace a part of the state that every new record is given, in the order in
which it is given, and how its construction ends then if it does. -/
def displaced : List (String × Option Failure) := [
  ("_conn", some .missingPart), ("_pool", some .missingPart), ("_values", some .tooDeep),
  ("_clean", some .missingPart), (setKeysName, none), (rowKeyName, none)]

/-- How the construction of a record ends when accessors displace a part of its state. One that is
inherited without its field always ends it. -/
def displacement? (t : RecordType) : Option Failure :=
  (displaced.filter fun (name, _) ↦ t.accessors.contains name).findSome? fun (name, failure) ↦
    if t.declares name then failure else some (t.table.unknown (.text name))

/-- The accessor that makes a record type one of which there are no records. -/
def abstractName : String := "__abstractmethods__"

/-- A record of a type as it is before it is given any values: the parts of its state that fields
hold are empty. -/
def empty (t : RecordType) (conn : Option Connection) (pool : Option Pool) : Record :=
  let r : Record := { type := t, conn, pool }
  let r := if t.hasAccessor setKeysName then r.put setKeysName (setKeysValue []) else r
  if t.hasAccessor rowKeyName then r.put rowKeyName (.map []) else r

def blank (t : RecordType) (source : Source) : Except Failure Record := do
  if t.hasAccessor abstractName then .error (.wrongType none)
  else if t.table.primaryKey.isEmpty then .error (.fault (.noPrimaryKey t.name))
  else
    let (conn, pool) ← source.split
    match displacement? t with
    | some failure => .error failure
    | none => .ok (empty t conn pool)

/-- The values that a caller gives a new record: by key, or the value of its only primary key. -/
def initialValues (t : RecordType) : Value → Except Failure Pairs
  | .null => .ok []
  | .map es => .ok (.ofEntries es)
  | v =>
    match t.table.primaryKey with
    | [key] => .ok [(key, v)]
    | _ => .error (.fault (.incorrectFields (t.name ++ " has a composite primary key; pass a " ++
      "mapping of primary key values instead of a single value")))

/-- A new record with values, and with further ones put over them. -/
def make (t : RecordType) (source : Source) (values : Value) (further : Entries) :
    Except Failure Record := do
  let r ← blank t source
  let ps ← initialValues t values
  (ps.override (.ofEntries further)).foldlM (fun r (key, v) ↦ r.setBy key v) r

/-- The name under which a source is given among values by name. -/
def sourceName : String := "conn_or_pool"

/-- A new record from what a caller gives: values, and further ones by name. A source may be given
by its name as well. -/
def makeNamed (t : RecordType) (source : Source) (values : Value) (named : Entries) :
    Except Failure Record :=
  make t ((named.lookup sourceName).elim source Source.ofValue) values (named.without sourceName)

/-- A new record that matches a row. -/
def ofRow (t : RecordType) (source : Source) (row : Row) : Except Failure Record := do
  let r ← blank t source
  match loadRow row r with
  | (.ok _, r) => .ok r
  | (.error e, _) => .error e

/-- A new record that matches what is given for a row. -/
def ofRowValue (t : RecordType) (source : Source) (row : Value) : Except Failure Record := do
  let _ ← blank t source
  ofRow t source (← row.entries)

end Rowmap.Record
