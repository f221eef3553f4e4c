import Rowmap.Declaration.Description
import Rowmap.Record.Key
import Rowmap.Value.Iterate

/-!
# Attributes of records

What a record answers to a name: a field with an accessor, a part of its own state, something that
its type declares, or whatever it was given under that name. Fields win over the rest, and the
source of a record can be looked at but not changed this way.
-/

namespace Rowmap.Record

/-- The names under which a record shows its source, which nothing can be given under. -/
def sourceNames : List String := ["conn", "pool"]

/-- The name under which a record says whether it matches its row. -/
def loadedName : String := "is_loaded"

/-- The name under which a record keeps its warnings. -/
def warningsName : String := "warnings"

/-- The name under which a record finds the keys of its primary key. -/
def primaryKeyName : String := "primary_key_fields"

/-- The name under which a record finds its private keys. -/
def privateName : String := "private_fields"

/-- The parts of a record that have names: its source, its state, and what its type declares. -/
def parts (r : Record) : Entries :=
  let conn := Value.ofText? (r.conn.map (·.name))
  let pool := Value.ofText? (r.pool.map (·.name))
  [("conn", conn), ("pool", pool), ("_conn", conn), ("_pool", pool), (loadedName, .bool r.loaded),
    (warningsName, .ofTexts r.warnings), ("_values", .map r.values), ("_clean", .map r.clean),
    (setKeysName, setKeysValue r.setKeys), (rowKeyName, .map r.rowKey.split.1),
    ("table", r.type.table.name), ("fields", .map r.type.printedFields),
    (primaryKeyName, .tuple r.type.table.primaryKey),
    (privateName, .tuple r.type.privateFields)]

def readAttribute (r : Record) (name : String) : Except Failure Value :=
  if r.type.accessors.contains name then r.get name
  else
    let own := if sourceNames.contains name then none else r.attributes.lookup name
    match own <|> r.parts.lookup name with
    | some v => .ok v
    | none => .error .missingPart

/-- The record with keys of its own in the place of those that its type declares under a name. -/
def withOwnKeys (r : Record) (name : String) (keys : List Value) : Record :=
  if name == primaryKeyName then
    { r with type := { r.type with table := { r.type.table with primaryKey := keys } } }
  else if name == privateName then { r with type := { r.type with privateFields := keys } }
  else r

/-- The record with a value kept under a name. Keys that it goes through count where the name is
that of keys. -/
def keepAttribute (r : Record) (name : String) (v : Value) : Record :=
  let r := match v.iterate with
    | .ok keys => r.withOwnKeys name keys
    | .error _ => r
  { r with attributes := r.attributes.put name v }

/-- The warnings that a value is, if it is a list of texts. -/
def warningsOf? : Value → Option (List String)
  | .list vs => vs.mapM Value.asText?
  | _ => none

def writeAttribute (r : Record) (name : String) (v : Value) : Except Failure Record :=
  if r.type.accessors.contains name then r.set name v
  else if sourceNames.contains name then .error .missingPart
  else if name == loadedName then .ok { r with loaded := v.truthy }
  else
    match if name == warningsName then warningsOf? v else none with
    | some warnings => .ok { r with warnings }
    | none => .ok (r.keepAttribute name v)

/-- The attributes of a record by which a statement can take it for a sub-query or a comparison. A
field with an accessor always counts, and anything else unless it is null where that blocks it. -/
def statementAttributes (r : Record) : Entries :=
  [Value.renderName, Value.operatorName].filterMap fun name ↦
    if r.type.accessors.contains name then some (name, r.values.valueAt name)
    else
      (r.attributes.lookup name).bind fun v ↦
        if name == Value.renderName && v.isNull then none else some (name, v)

def toValue (r : Record) (id : Nat) : Value :=
  .object id r.type.name r.printed r.statementAttributes

end Rowmap.Record
