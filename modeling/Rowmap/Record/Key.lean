import Rowmap.Record.State

/-!
# Primary keys of records

The primary key of a record by its current values, and the one that its row had when the record last
matched it. A record is marked as matching its row once every field of the key was given a value,
and from then on names that row by the key of that moment.
-/

namespace Rowmap.Record

/-- Whether a part of the primary key was given a value. -/
def isPartSet (r : Record) (key : Value) : Bool := key.asText?.any r.isSet

/-- Whether every field of the primary key was given a value. -/
def isKeySet (r : Record) : Bool := r.type.table.primaryKey.all r.isPartSet

/-- The parts of the primary key with given values. -/
def keyWith (r : Record) (part : Value → Value) : Pairs :=
  r.type.table.primaryKey.foldl (fun ps key ↦ ps.put key (part key)) []

/-- The primary key with its current values. -/
def currentKey (r : Record) : Pairs := r.keyWith r.keyPart

/-! ## The key of the row -/

/-- The name under which a record keeps the primary key of its row. -/
def rowKeyName : String := "_primary_key_internal"

/-- The primary key that a record keeps: that of its row, or what the field in its place holds. -/
def keptKey (r : Record) : Except Failure Pairs :=
  if r.type.hasAccessor rowKeyName then
    match r.values.valueAt rowKeyName with
    | .map es => .ok (.ofEntries es)
    | _ => .error .missingPart
  else .ok r.rowKey

/-- The primary key with the values that it had when the record last matched its row. -/
def lastKey (r : Record) : Except Failure Pairs := do
  let kept ← r.keptKey
  .ok (r.keyWith kept.valueAt)

/-- The primary key, with the values of its row or with the current ones. -/
def keyBy (r : Record) (ofRow : Bool) : Except Failure Pairs :=
  if ofRow then r.lastKey else .ok r.currentKey

/-- The record with its current primary key kept as that of its row. -/
def keepingKey (r : Record) : Except Failure Record :=
  if r.type.hasAccessor rowKeyName then
    match r.values.valueAt rowKeyName with
    | .map es =>
      let kept := (Pairs.ofEntries es).override r.currentKey
      .ok { r with values := r.values.put rowKeyName (.map kept.split.1) }
    | _ => .error (.wrongType none)
  else .ok { r with rowKey := r.rowKey.override r.currentKey }

/-! ## Matching a row -/

def matched (r : Record) : Except Failure Record := do
  let r ← r.keepingKey
  .ok { r with clean := r.values, loaded := true }

/-- The record as one that matches no row. -/
def unmatched (r : Record) : Record := { r with clean := [], loaded := false }

/-- The first part of the primary key that was never given a value. -/
def missingKey? (r : Record) : Option Value := r.type.table.primaryKey.find? (!r.isPartSet ·)

/-- The fault of a part of the primary key without a value. -/
def missingValue (r : Record) (key : Value) : Failure :=
  .fault (.missingKeyValue r.type.name key.inline)

/-- Marks a record as matching its row, or as matching none. The primary key of a row is known,
unless that is not to be checked. -/
def setLoaded (r : Record) (loaded skipCheck : Bool) : Except Failure Record :=
  if !loaded then .ok r.unmatched
  else
    match if skipCheck then none else r.missingKey? with
    | some key => .error (r.missingValue key)
    | none => r.matched

/-- The record with the values that a row has for its fields. -/
def takeRow (r : Record) (row : Row) : Record :=
  r.type.table.fields.foldl (fun r (key, field) ↦
    match row.lookup (field.column key) with
    | none | some .unset => r
    | some v => r.put key v) r

/-- Takes over a row, which the record matches from then on. -/
def loadRow (row : Row) : Change Record Unit := do
  Change.modify (·.takeRow row)
  Change.set (← Change.ofExcept ((← Change.get).setLoaded true false))

/-- Sets values that are known to match the row. -/
def restore (es : Entries) : Change Record Unit := do
  setAll (.ofEntries es)
  Change.set (← Change.ofExcept ((← Change.get).setLoaded true true))

end Rowmap.Record
