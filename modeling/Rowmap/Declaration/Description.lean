import Rowmap.Declaration.RecordType
import Rowmap.Value.Entries

/-!
# Descriptions of record types

What a record type declares, as plain data: each field with its column type, its name and its
default, and the type with its table, its keys and the columns that a statement lists.
-/

namespace Rowmap

/-- A field under a key as plain data. -/
def Field.description (f : Field) (key : String) (default : Value) : Value :=
  .list [.text key, .map [
    ("type", .text f.type.label), ("name", .ofText? f.name), ("primary_key", .bool f.primaryKey),
    ("nullable", .bool f.nullable), ("default", default), ("is_text", .bool f.type.isText),
    ("has_default", .bool !default.isNull)]]

def Field.printed (f : Field) (default : Value) : String :=
  "FieldSpec(type=" ++ memberText "FieldType" f.type.memberName f.type.label ++
    ", name=" ++ (Value.ofText? f.name).printed ++ ", primary_key=" ++ boolText f.primaryKey ++
    ", nullable=" ++ boolText f.nullable ++ ", default=" ++ default.printed ++ ")"

namespace RecordType

def printedFields (t : RecordType) : Entries :=
  t.table.fields.map fun (key, f) ↦
    (key, .object 0 "FieldSpec" (f.printed (t.default key)) [])

/-- The columns of the fields, in declaration order. -/
def columns (t : RecordType) : List String := t.table.fields.map fun (key, f) ↦ f.column key

def fieldAccessors (t : RecordType) : List String := t.keys.filter t.accessors.contains

/-- A record type as plain data, with the defaults of its fields and of further keys. -/
def description (t : RecordType) (further : List Value) : Entries := [
  ("table", t.table.name), ("primary_key_fields", .list t.table.primaryKey),
  ("private_fields", .list t.privateFields),
  ("fields", .list (t.table.fields.map fun (key, f) ↦ f.description key (t.default key))),
  ("columns", .ofTexts t.columns), ("select", .text t.columnList),
  ("properties", .ofTexts t.fieldAccessors),
  ("defaults", .list (t.keys.map t.default ++
    further.map fun key ↦ (key.asText?.map t.default).getD .null))]

end RecordType

end Rowmap
