import Rowmap.Condition.Compile
import Rowmap.Database.Checkout
import Rowmap.Record.Data
import Rowmap.Session.Refresh

/-!
# Loading, saving and deleting records

A record is loaded by a condition on its fields, inserted or updated by its dirty fields, and
deleted by its primary key. An update and a deletion name the row by its primary key. Whatever goes
wrong on the way to the database leaves the record as it was.
-/

namespace Rowmap

/-- A column with what is assigned to it. -/
structure Assignment where
  column : String
  sql : String

namespace Record

variable {σ : Type}

/-- The text that a value is inlined as when it is assigned, unless it is bound. -/
def inlineAssigned? : Value → Option (Except Failure String)
  | .marker m => some (.ok m.label)
  | .wrapped inner false _ quote => some (if quote then Sql.literal inner else .ok inner.inline)
  | _ => none

/-- The value that is bound when a value is assigned. -/
def boundAssigned : Value → Value
  | .wrapped inner _ _ _ => inner
  | v => v

/-- Assignments of values to columns, with the values that they bind, numbered from one. -/
def assignmentsFrom (t : RecordType) (bound : List Value) :
    Pairs → Except Failure (List Assignment × List Value)
  | [] => .ok ([], bound)
  | (key, v) :: ps => do
    let column := Sql.quoteIdentifier (← t.table.column key)
    match inlineAssigned? v with
    | some sql => do
      let sql ← sql
      let (rest, bound) ← assignmentsFrom t bound ps
      .ok (⟨column, sql⟩ :: rest, bound)
    | none => do
      let bound := bound ++ [boundAssigned v]
      let sql := Sql.placeholder bound.length
      let (rest, bound) ← assignmentsFrom t bound ps
      .ok (⟨column, sql⟩ :: rest, bound)

/-- Assignments of values to columns, with the values that they bind. -/
def assignments (t : RecordType) (ps : Pairs) : Except Failure (List Assignment × List Value) :=
  assignmentsFrom t [] ps

/-! ## Statements -/

/-- The clause that gives the written row back. -/
def returning (t : RecordType) (skipReload : Bool) : String :=
  if skipReload then "" else " RETURNING " ++ t.columnList

/-- The statement that selects the rows of a table that meet a condition, two of them at most. -/
def selectStatement (t : RecordType) (table : String) (where_ : Statement) : Statement :=
  ⟨"SELECT " ++ t.columnList ++ " FROM " ++ table ++ " WHERE " ++ where_.text ++ " LIMIT 2",
    where_.values⟩

def insertStatement (t : RecordType) (table : String) (assigned : List Assignment)
    (bound : List Value) (skipReload ignoreConflict : Bool) : Statement :=
  let columns := ", ".intercalate (assigned.map (·.column))
  let texts := ", ".intercalate (assigned.map (·.sql))
  ⟨"INSERT INTO " ++ table ++
    (if assigned.isEmpty then " DEFAULT VALUES"
      else " (" ++ columns ++ ") VALUES (" ++ texts ++ ")") ++
    (if ignoreConflict then " ON CONFLICT DO NOTHING" else "") ++ returning t skipReload, bound⟩

/-- The statement that updates the rows of a table that meet a condition. -/
def updateStatement (t : RecordType) (table : String) (assigned : List Assignment)
    (bound : List Value) (where_ : Statement) (skipReload : Bool) : Statement :=
  let texts := ", ".intercalate (assigned.map fun a ↦ a.column ++ " = " ++ a.sql)
  ⟨"UPDATE " ++ table ++ " SET " ++ texts ++ " WHERE " ++ where_.text ++ returning t skipReload,
    bound ++ where_.values⟩

/-- The statement that deletes the rows of a table that meet a condition. -/
def deleteStatement (table : String) (where_ : Statement) : Statement :=
  ⟨"DELETE FROM " ++ table ++ " WHERE " ++ where_.text, where_.values⟩

/-! ## What a record asks of its row -/

/-- The table of a record type as a statement names it. -/
def tableName (t : RecordType) : Logged String := .ofExcept (Sql.quoteName t.table.name)

/-- The condition that a primary key has given values. Its keys have to be declared, one after the
other. -/
def keyCondition (t : RecordType) (key : Pairs) (bound : Int := 0) : Logged Statement := do
  let condition ← t.table.compile (.map key.split.1) bound
  match key.split.2 with
  | none => .ok condition
  | some strange => .fail (t.table.unknown strange)

def loadStatement (t : RecordType) (fields : Value) : Logged Statement := do
  let where_ ← t.table.compile fields
  .ok (selectStatement t (← tableName t) where_)

/-- The statement that updates the dirty fields of a record in its row, or `none` without any. -/
def changeStatement (r : Record) (skipReload : Bool) : Logged (Option Statement) := do
  let ps ← .ofExcept (r.data { includePrivate := true, onlyDirty := true })
  let (assigned, bound) ← .ofExcept (assignments r.type ps)
  if assigned.isEmpty then .ok none
  else
    let where_ ← keyCondition r.type (← .ofExcept r.lastKey) bound.length
    .ok (some (updateStatement r.type (← tableName r.type) assigned bound where_ skipReload))

/-- The statement that inserts a record: its dirty fields, with defaults for the fields that were
never given a value. -/
def additionStatement (r : Record) (skipReload ignoreConflict : Bool) : Logged Statement := do
  let ps ← .ofExcept
    (r.data { includeDefaults := true, includePrivate := true, onlyDirty := true })
  let (assigned, bound) ← .ofExcept (assignments r.type ps)
  .ok (insertStatement r.type (← tableName r.type) assigned bound skipReload ignoreConflict)

/-- The statement that saves a record, or `none` when there is nothing to save. A record that
matches a row updates it, and any other is inserted. -/
def saveStatement (r : Record) (skipReload ignoreConflict : Bool) : Logged (Option Statement) :=
  if r.loaded then r.changeStatement skipReload
  else some <$> r.additionStatement skipReload ignoreConflict

/-- The first part of the primary key that is null. -/
def nullKey? (r : Record) : Option Value := (r.currentKey.find? (·.2.isNull)).map (·.1)

/-- The statement that deletes the row of a record, whose primary key has to be known. -/
def removalStatement (r : Record) : Logged Statement :=
  match r.nullKey? with
  | some key => .fail (r.missingValue key)
  | none => do
    let where_ ← keyCondition r.type r.currentKey
    .ok (deleteStatement (← tableName r.type) where_)

/-! ## Operations -/

/-- A record with its values up to date. -/
def refreshed (r : Record) : App σ Record := do
  let values ← App.refreshEntries r.values
  let rowKey ← App.refreshPairs r.rowKey
  .ok { r with values, rowKey }

variable [Backend σ]

/-- What a statement sent on the connection of a record, or on one of its pool, gives back. -/
def send (r : Record) (statement : Statement) : App σ Outcome :=
  App.checkout r.conn r.pool false fun c ↦ App.execute c statement.text statement.values

/-- The fields that were given a value, with their values. -/
def givenFields (r : Record) : Value :=
  .map ((r.type.keys.filter r.isSet).map fun key ↦ (key, r.values.valueAt key))

/-- Takes over the row that was found for a condition, unless there are several. -/
def takeMatches (fields : Value) (rows : List Row) : On Record σ Bool := do
  match rows with
  | [row] =>
    On.own (loadRow row)
    .ok true
  | [] => .ok false
  | _ =>
    let t := (← On.object).type
    On.own (Change.modify fun r ↦
      { r with warnings := r.warnings ++ [LogEvent.severalMatchesWarning t.name] })
    On.beside (App.tell (.severalMatches t.name fields))
    .ok false

/-- Loads the one row that meets a condition, by default the row with the values given so far.
Whether there is exactly one. -/
def load (fields : Option Value) : On Record σ Bool := do
  let r ← On.object
  let fields ← On.beside (App.refresh (fields.getD r.givenFields))
  if !fields.truthy then .ok false
  else
    let statement ← On.beside (App.logged (loadStatement r.type fields))
    let outcome : Outcome ← On.beside (r.send statement)
    takeMatches fields outcome.rows

/-- Takes over the row that a written statement gave back. Whether a row was written. -/
def takeWritten (skipReload : Bool) (rows : List Row) : On Record σ Bool :=
  if skipReload then .ok true
  else
    match rows with
    | [] => .ok false
    | row :: _ => do
      On.own (loadRow row)
      .ok true

/-- Saves a record. Whether a row was written. -/
def save (skipReload ignoreConflict : Bool) : On Record σ Bool := do
  let r ← On.beside (refreshed (← On.object))
  match ← On.beside (App.logged (r.saveStatement skipReload ignoreConflict)) with
  | none => .ok false
  | some statement =>
    let outcome : Outcome ← On.beside (r.send statement)
    takeWritten skipReload outcome.rows

/-- Deletes the row of a record. Whether exactly one row was deleted; the record matches none then.
-/
def delete : On Record σ Bool := do
  let r ← On.beside (refreshed (← On.object))
  let statement ← On.beside (App.logged r.removalStatement)
  let outcome : Outcome ← On.beside (r.send statement)
  if outcome.rowCount.equal (.int 1) then
    On.own (Change.modify unmatched)
    .ok true
  else .ok false

/-! ## Connections -/

/-- Gives a record another connection, and releases the one that it had. -/
def setConnection (conn : Option Connection) (releaseOld : Bool) : On Record σ Unit := do
  let old := (← On.object).conn
  On.own (Change.modify fun r ↦ { r with conn })
  match old with
  | some c => if releaseOld && old ≠ conn then On.beside (App.release c false) else .ok ()
  | none => .ok ()

/-- Gives a record another pool, and releases the connection that it had. -/
def setPool (pool : Option Pool) (releaseOld : Bool) : On Record σ Unit := do
  On.own (Change.modify fun r ↦ { r with pool })
  setConnection none releaseOld

end Record

end Rowmap
