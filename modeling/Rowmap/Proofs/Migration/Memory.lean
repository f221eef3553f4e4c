import Rowmap.Proofs.Migration.Ledger

/-!
# A database in memory

A database that keeps the names of applied migrations in a list, and takes none a second time. It
shows that there are ledgers.
-/

namespace Rowmap

/-- The names of applied migrations, those that the open transaction has entered, and texts that
cannot be executed. -/
structure Memory where
  recorded : List String := []
  entered : List String := []
  failing : List String := []

namespace Memory

def refusal : Failure := .badValue

/-- A name among the applied migrations as a row. -/
def row (name : String) : Row := [("key", .text name)]

/-- Enters a name, if it is new. -/
def enter (db : Memory) (name : String) : Except Failure Unit × Memory :=
  if db.recorded.contains name then (.error refusal, db)
  else (.ok (), { db with entered := db.entered ++ [name] })

/-- Executes a text, which changes nothing here, or enters a name. -/
def execute (db : Memory) (sql : String) : List Value → Except Failure Unit × Memory
  | [.text name] =>
    if sql = Migration.entryStatement Migration.defaultTable then db.enter name
    else (.error refusal, db)
  | _ => (if db.failing.contains sql then .error refusal else .ok (), db)

theorem execute_entry (db : Memory) (name : String) :
    db.execute (Migration.entryStatement Migration.defaultTable) [.text name] = db.enter name := by
  rw [execute, if_pos rfl]

def answer : (call : Call) → Memory → Except Failure call.Reply × Memory
  | .connect _, db => (.ok ⟨"c"⟩, db)
  | .driver _, db => (.ok true, db)
  | .inTransaction _, db | .driverClosed _, db | .driverInTransaction _, db => (.ok false, db)
  | .exec _ sql _, db =>
    let names := if sql = Migration.listStatement Migration.defaultTable then db.recorded else []
    (.ok { rows := names.map row, rowCount := .null, returnsRows := true, scalar := .null }, db)
  | .fetch .., db => (.ok [], db)
  | .driverExecute _ sql values, db => db.execute sql values
  | .startTransaction _, db | .rollbackTransaction _, db => (.ok (), { db with entered := [] })
  | .commitTransaction _, db =>
    (.ok (), { db with recorded := db.recorded ++ db.entered, entered := [] })
  | .dispose _, db | .begin _, db | .commit _, db | .rollback _, db | .invalidate _, db
  | .close _, db | .openCursor .., db => (.ok (), db)

instance : Backend Memory where
  perform := answer

def ledger : Migration.Ledger Memory Migration.defaultTable where
  recorded db := db.recorded
  entered db _ := db.entered
  aside call h db := by cases call <;> first | rfl | exact absurd h Bool.false_ne_true
  starts _ _ := ⟨rfl, fun _ ↦ rfl⟩
  enters c name db := by
    show (db.execute _ _).2.recorded = _ ∧ ((db.execute _ _).1 = _ → (db.execute _ _).2.entered = _)
    rw [execute_entry, enter]
    split
    · exact ⟨rfl, nofun⟩
    · exact ⟨rfl, fun _ ↦ rfl⟩
  commits _ _ _ := rfl
  failsToCommit _ _ _ h := nomatch h
  rollsBack _ _ := rfl
  lists c db outcome h := by
    obtain rfl := Except.ok.inj h
    exact ⟨db.recorded, .refl _, by rw [if_pos rfl]; rfl⟩

theorem ledger_isUnique : ledger.IsUnique := by
  intro c name db h hmem
  replace h : (db.execute _ _).1 = .ok () := h
  have hrecorded : db.recorded.contains name = true := List.contains_iff_mem.mpr hmem
  rw [execute_entry, enter, if_pos hrecorded] at h
  exact nomatch h

theorem ledger_tame (text : String) : ledger.Tame text := fun _ _ ↦ ⟨rfl, fun _ ↦ rfl⟩

end Memory

end Rowmap
