import Rowmap.Declaration.Check
import Rowmap.Declaration.Reserved
import Rowmap.Sql.Quoting
import Rowmap.Table
import Rowmap.Value.Iterate

/-!
# Record types

A record type declares a table with its fields, and beyond that the fields' defaults, the fields
that stay private, and the fields with an accessor of their own. A type may be based on another and
take over whatever it does not declare itself.

The primary key is the declared one unless that is empty, otherwise the fields flagged as such, and
otherwise the primary key of the base, unless an empty one was declared. The keys of a primary key,
the keys that stay private and the name of the table are kept as they were declared, whether or not
they make sense; what asks for a statement finds out.
-/

namespace Rowmap

structure RecordType where
  table : Table Value
  /-- The default of every field; null stands for none. -/
  defaults : List (String × Value)
  privateFields : List Value
  /-- The keys with an accessor, inherited ones included. -/
  accessors : List String

namespace RecordType

def name (t : RecordType) : String := t.table.recordName

/-- The keys of the fields, in declaration order. -/
def keys (t : RecordType) : List String := t.table.keys

def declares (t : RecordType) (key : String) : Bool := t.table.declares key

/-- The default of a field; null for a field without one, and for a key that is not declared. -/
def default (t : RecordType) (key : String) : Value := (t.defaults.lookup key).getD .null

/-- The columns of all fields with intervals as text, as a statement lists them. -/
def columnList (t : RecordType) : String :=
  ", ".intercalate (t.table.fields.map fun (key, field) ↦
    Sql.quoteIdentifier (field.column key) ++ (if field.type = .interval then "::text" else ""))

def hasAccessor (t : RecordType) (key : String) : Bool := t.declares key && t.accessors.contains key

def value (t : RecordType) : Value := .recordType t.name t.accessors

/-- The record type that a value is, where record types are known by name. -/
def ofValue? (types : String → Option RecordType) : Value → Option RecordType
  | .recordType name _ => types name
  | _ => none

/-- The record type that all others are based on. -/
def root : RecordType :=
  { table := { recordName := "Record", name := .text "", fields := [], primaryKey := [] }
    defaults := [], privateFields := [], accessors := [] }

end RecordType

structure FieldDeclaration where
  field : Field
  default : Value

namespace FieldDeclaration

/-- The field that plain data declares. -/
def ofValue (v : Value) : Except Failure FieldDeclaration :=
  match v with
  | .map es =>
    let type := Check.required es "type" Check.fieldType
    let name := Check.optional es "name" (Check.nullable Check.text) none
    let primaryKey := Check.optional es "primary_key" Check.bool false
    let nullable := Check.optional es "nullable" Check.bool true
    match type, name, primaryKey, nullable with
    | .ok type, .ok name, .ok primaryKey, .ok nullable =>
      .ok ⟨⟨type, name, primaryKey, nullable⟩, (es.lookup "default").getD .null⟩
    | _, _, _, _ =>
      .error (.invalid (Check.issue type ++ Check.issue name ++ Check.issue primaryKey ++
        Check.issue nullable))
  | _ => .error (.invalid [⟨[], .notModel⟩])

/-- The fields that plain data declares, in order. The first faulty one is refused. -/
def ofEntries (es : List (String × Value)) : Except Failure (List (String × FieldDeclaration)) :=
  es.mapM fun (key, v) ↦ do .ok (key, ← ofValue v)

end FieldDeclaration

structure TypeDeclaration where
  name : String
  table : Option Value := none
  fields : Option Value := none
  primaryKey : Option Value := none
  privateFields : Option Value := none

namespace TypeDeclaration

/-- The fields that a value declares, which has to be a map of them. -/
def fieldsOf : Value → Except Failure (List (String × FieldDeclaration))
  | .map es => FieldDeclaration.ofEntries es
  | _ => .error .missingPart

/-- The keys that a value lists, or others when it is not given. -/
def keysOr (given : Option Value) (otherwise : List Value) : Except Failure (List Value) :=
  match given with
  | some v => v.iterate
  | none => .ok otherwise

/-- The primary key of a type with given fields: the declared one unless that is empty, else the
flagged fields, else the empty one that was declared or that of the base. -/
def primaryKeyOf (declared : Option Value) (flagged inherited : List Value) :
    Except Failure (List Value) :=
  if flagged.isEmpty || declared.any Value.truthy then keysOr declared inherited else .ok flagged

/-- The record type that a declaration makes of its base. -/
def extend (d : TypeDeclaration) (base : RecordType) : Except Failure RecordType := do
  if d.name.contains '\x00' then .error .badValue
  let own ← d.fields.mapM fieldsOf
  let fields := match own with
    | some fields => fields.map fun (key, f) ↦ (key, f.field)
    | none => base.table.fields
  let defaults := match own with
    | some fields => fields.map fun (key, f) ↦ (key, f.default)
    | none => base.defaults
  let flagged := (fields.filter (·.2.primaryKey)).map (Value.text ·.1)
  let primaryKey ← primaryKeyOf d.primaryKey flagged base.table.primaryKey
  let privateFields ← keysOr d.privateFields base.privateFields
  let added := (fields.map (·.1)).filter fun key ↦
    Declaration.admitsAccessor key && !base.accessors.contains key
  .ok {
    table := { recordName := d.name, name := d.table.getD base.table.name, fields, primaryKey }
    defaults, privateFields
    accessors := base.accessors ++ added }

end TypeDeclaration

end Rowmap
