import Rowmap.Change
import Rowmap.Database.Source
import Rowmap.Declaration.RecordType
import Rowmap.Select.Columns
import Rowmap.Value.Pairs

/-!
# Records

One row of a table, as far as it is known: the values of its fields, what they were when the record
last matched its row, and the primary key that the row had then. A field is dirty when its value
differs from the one at that time; a field that was never given one counts as unset on either side.

The accessor of a field may have the name under which a record keeps a part of its own state. That
part then is the value of the field, so it is seen, and changed, under the field's key.
-/

namespace Rowmap

structure Record where
  type : RecordType
  values : Entries := []
  /-- The values when the record last matched its row; none while it is not loaded. -/
  clean : Entries := []
  /-- The fields that were given a value. -/
  setKeys : List String := []
  /-- The primary key of the row that the record last matched. -/
  rowKey : Pairs := []
  loaded : Bool := false
  warnings : List String := []
  conn : Option Connection := none
  pool : Option Pool := none
  /-- What the record was given under names that are no fields. -/
  attributes : Entries := []

namespace Record

def unknown (r : Record) (key : Value) : Failure := r.type.table.unknown key

/-- The value of a field; null when it has none. -/
def get (r : Record) (key : String) : Except Failure Value :=
  if r.type.declares key then .ok (r.values.valueAt key) else .error (r.unknown (.text key))

/-- The value of a field whose key is a value. -/
def getBy (r : Record) (key : Value) : Except Failure Value :=
  match key.asText? with
  | some k => r.get k
  | none => .error (r.unknown key)

/-- The name under which a record keeps which of its fields were given a value. -/
def setKeysName : String := "_set_fields"

/-- The value of a field that holds which fields were given a value. -/
def setKeysValue (keys : List String) : Value := .set false (keys.map .text)

/-- Entries with the fields that were given a value, where they have a place for them. -/
def shareSetKeys (keys : List String) (es : Entries) : Entries :=
  if (es.lookup setKeysName).isSome then es.put setKeysName (setKeysValue keys) else es

/-- The record with a value in a declared field. -/
def put (r : Record) (key : String) (v : Value) : Record :=
  let values := r.values.put key v
  let setKeys := if r.setKeys.contains key then r.setKeys else r.setKeys ++ [key]
  if r.type.hasAccessor setKeysName then
    { r with
      values := shareSetKeys setKeys values, clean := shareSetKeys setKeys r.clean, setKeys }
  else { r with values, setKeys }

/-- The record with a value in a field, which has to be declared. -/
def set (r : Record) (key : String) (v : Value) : Except Failure Record :=
  if r.type.declares key then .ok (r.put key v) else .error (r.unknown (.text key))

/-- The record with a value in a field whose key is a value. -/
def setBy (r : Record) (key v : Value) : Except Failure Record :=
  match key.asText? with
  | some k => r.set k v
  | none => .error (r.unknown key)

/-- Whether a field was given a value. -/
def isSet (r : Record) (key : String) : Bool := r.setKeys.contains key

/-- Whether the value of a field differs from the one when the record last matched its row. -/
def isFieldDirty (r : Record) (key : String) : Bool :=
  !(r.values.valueOrUnset key).equal (r.clean.valueOrUnset key)

/-- Whether something holds of the field with a key, which has to be a value that can be one. It
holds of no field if the key is no text. -/
def holdsOf (p : String → Bool) (key : Value) : Except Failure Bool :=
  if key.hashable then .ok (key.asText?.any p) else .error (.wrongType none)

/-- Whether a field whose key is a value was given a value. -/
def isSetBy (r : Record) (key : Value) : Except Failure Bool := holdsOf r.isSet key

/-- Whether a field whose key is a value is dirty. -/
def isFieldDirtyBy (r : Record) (key : Value) : Except Failure Bool := holdsOf r.isFieldDirty key

def isDirty (r : Record) : Bool := r.type.keys.any r.isFieldDirty

/-- The dirty fields, in declaration order. -/
def dirtyKeys (r : Record) : List String := r.type.keys.filter r.isFieldDirty

/-- Sets several fields, one after the other. -/
def setAll (ps : Pairs) : Change Record Unit :=
  ps.forM fun (key, v) ↦ do Change.set (← Change.ofExcept ((← Change.get).setBy key v))

/-- Whether a field belongs to the primary key. -/
def keyHolds (r : Record) (key : String) : Bool :=
  r.type.table.primaryKey.any fun part ↦ part.asText? == some key

/-- The value of a part of the primary key; null when it has none. -/
def keyPart (r : Record) (key : Value) : Value := (key.asText?.map r.values.valueAt).getD .null

def printed (r : Record) : String :=
  "<" ++ r.type.name ++ " " ++ ", ".intercalate (r.type.table.primaryKey.map fun key ↦
    key.inline ++ "=" ++ (r.keyPart key).printed) ++ ">"

end Record

end Rowmap
