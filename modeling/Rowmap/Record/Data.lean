import Rowmap.Record.Key

/-!
# Data of records

The values of a record as plain data. Options choose the fields and put defaults in for values that
were never given; private fields are left out unless they are asked for.
-/

namespace Rowmap

/-- What to include in plain data. -/
structure DataOptions where
  fields : Option Value := none
  includeDefaults : Bool := false
  includePrivate : Bool := false
  onlyDirty : Bool := false
  onlySet : Bool := false

namespace Record

/-- The value that a field contributes, or `none` when the options leave it out. A field with a
default that is asked for is never left out. -/
def contribution (r : Record) (o : DataOptions) (key : String) : Except Failure (Option Value) :=
  let default := r.type.default key
  let hasDefault := o.includeDefaults && !default.isNull
  if o.onlyDirty && !r.isFieldDirty key && !hasDefault then .ok none
  else if o.onlySet && !r.isSet key && !hasDefault then .ok none
  else do
    let v ← r.get key
    .ok (some (if (r.values.lookup key).isNone && hasDefault then default else v))

/-- What a key contributes. One that is no text is never set and never dirty, and no field has it.
-/
def contributionBy (r : Record) (o : DataOptions) (key : Value) : Except Failure (Option Value) :=
  match key.asText? with
  | some k => r.contribution o k
  | none =>
    if key.hashable && (o.onlyDirty || o.onlySet) then .ok none else .error (r.unknown key)

def contribute (r : Record) (o : DataOptions) (ps : Pairs) (key : Value) :
    Except Failure Pairs := do
  match ← r.contributionBy o key with
  | some v => .ok (ps.put key v)
  | none => .ok ps

/-- The keys that the options ask for: all fields unless some are given. -/
def chosenKeys (t : RecordType) (o : DataOptions) : Except Failure (List Value) :=
  match o.fields with
  | some v => v.iterate
  | none => .ok (t.keys.map .text)

def withoutPrivate (keys : List Value) (ps : Pairs) : Except Failure Pairs :=
  if keys.all Value.hashable then .ok (keys.foldl Pairs.without ps) else .error (.wrongType none)

/-- The values of a record as plain data. -/
def data (r : Record) (o : DataOptions := {}) : Except Failure Pairs := do
  let keys ← chosenKeys r.type o
  let ps ← keys.foldlM (r.contribute o) []
  if o.includePrivate then .ok ps else withoutPrivate r.type.privateFields ps

/-- The state of a record as plain data. -/
def summary (r : Record) : Entries := [
  ("loaded", .bool r.loaded), ("set", .map (r.values.filter fun e ↦ r.isSet e.1)),
  ("dirty", .ofTexts r.dirtyKeys), ("warnings", .ofTexts r.warnings),
  ("conn", .ofText? (r.conn.map (·.name))), ("pool", .ofText? (r.pool.map (·.name)))]

end Record

end Rowmap
