import Rowmap.Database.Checkout
import Rowmap.Sql.Quoting

/-!
# Migrations

Migrations are the files of a directory with the extension `.sql`, applied in the order of their
names and each once: a table keeps the names, without the extension, of those that have been
applied. Each file runs in one transaction of the driver with the entry of its name.
-/

namespace Rowmap

/-- What stands under a name in a directory. -/
inductive DirectoryEntry where
  | file (text : String)
  | directory
  deriving DecidableEq, Repr

/-- A directory: what stands under each name. -/
abbrev Directory := List (String × DirectoryEntry)

namespace Migration

/-- The table that keeps the names of migrations unless another is given. -/
def defaultTable : String := "supple_migrations"

def extension : List Char := ".sql".toList

/-- The name of a migration without its extension, or `none` for any other file. A name that is all
extension has none. -/
def stem? (name : String) : Option String :=
  let cs := name.toList
  let size := cs.length - extension.length
  if cs.drop size = extension && 0 < size then some (String.ofList (cs.take size)) else none

/-- A text with every end of a line as a line feed. -/
def unixLines : List Char → List Char
  | '\r' :: '\n' :: cs => '\n' :: unixLines cs
  | '\r' :: cs => '\n' :: unixLines cs
  | c :: cs => c :: unixLines cs
  | [] => []

def textOf : DirectoryEntry → Except Failure String
  | .file text => .ok (String.ofList (unixLines text.toList))
  | .directory => .error .notAFile

/-- A migration: its name without the extension, and what stands under it. -/
abbrev Script := String × DirectoryEntry

/-- The migrations of a directory, in the order of their full names. -/
def scripts (d : Directory) : List Script :=
  (d.mergeSort fun a b ↦ !(b.1 < a.1)).filterMap fun (name, entry) ↦
    (stem? name).map (·, entry)

/-- The statement that makes the table of applied migrations. -/
def tableStatement (table : String) : String :=
  "CREATE TABLE IF NOT EXISTS " ++ Sql.quoteIdentifier table ++
    " (key TEXT PRIMARY KEY, created_at TIMESTAMP WITH TIME ZONE DEFAULT NOW())"

/-- The statement that lists the applied migrations. -/
def listStatement (table : String) : String := "SELECT key FROM " ++ Sql.quoteIdentifier table

/-- The statement that enters an applied migration. -/
def entryStatement (table : String) : String :=
  "INSERT INTO " ++ Sql.quoteIdentifier table ++ " (key) VALUES ($1)"

/-- The names in rows of applied migrations: the first value of each. -/
def namesIn (rows : List Row) : Except Failure (List Value) :=
  rows.mapM fun row ↦
    match row with
    | (_, v) :: _ => if v.hashable then .ok v else .error (.wrongType none)
    | [] => .error .badIndex

variable {σ : Type} [Backend σ]

/-- The names of the migrations that have been applied. -/
def applied (table : String) (c : Connection) : App σ (List Value) := do
  let _ ← App.execute c (tableStatement table) []
  let outcome : Outcome ← App.execute c (listStatement table) []
  .ofExcept (namesIn outcome.rows)

/-- A use of the driver inside a transaction of its own. -/
def inTransaction {α : Type} (c : Connection) (body : App σ α) : App σ α := do
  App.call (.startTransaction c)
  match ← body.attempt with
  | .ok a =>
    App.call (.commitTransaction c)
    .ok a
  | .error e =>
    App.call (.rollbackTransaction c)
    .fail e

/-- Applies a migration and enters its name. -/
def apply (table name text : String) (c : Connection) : App σ Unit := do
  let present : Bool ← App.call (.driver c)
  if !present then .fail .missingPart
  else inTransaction c do
    App.call (.driverExecute c text [])
    App.call (.driverExecute c (entryStatement table) [.text name])

/-- Applies migrations, one after the other: `index` of `count` is the first of them. -/
def applyAll (pool : Option Pool) (table : String) (count : Nat) : Nat → List Script → App σ Unit
  | _, [] => .ok ()
  | index, (name, entry) :: rest => do
    App.tell (.runningMigration index count name)
    let text ← Change.ofExcept (textOf entry)
    App.connected pool false (some (apply table name text))
    applyAll pool table count (index + 1) rest

/-- Whether a migration is not among the applied ones. -/
def isPending (done : List Value) (script : Script) : Bool :=
  !done.any fun v ↦ v.matchesElement (.text script.1)

/-- Applies the migrations of a directory that have not been applied. Their names. -/
def run (pool : Option Pool) (directory : Option Directory) (table : String := defaultTable) :
    App σ (List String) := do
  match directory with
  | none => .fail .noDirectory
  | some d =>
    let all := scripts d
    if all.isEmpty then
      App.tell (.pendingMigrations 0)
      .ok []
    else
      let done ← App.connected pool false (some (applied table))
      let pending := all.filter (isPending done)
      App.tell (.pendingMigrations pending.length)
      applyAll pool table pending.length 1 pending
      .ok (pending.map (·.1))

end Migration

end Rowmap
