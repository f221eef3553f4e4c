import Rowmap.Query.Run
import Rowmap.Record.New
import Rowmap.Record.Persistence

/-!
# Finding records

Lookups that a record type offers: the records that meet a condition, the one record with given
values, and the deletion of the one record with given values.
-/

namespace Rowmap

/-- How the records found are ordered and how many of them are wanted. -/
structure FindOptions where
  limit : Value := .null
  offset : Value := .null
  orderBy : Value := .null

namespace RecordType

variable {σ : Type}

/-- The orders that a value gives: a single one, or each of a list. -/
def ordersOf (v : Value) : Except Failure (List Value) :=
  if !v.truthy then .ok [] else if OrderBy.isSingle v then .ok [v] else v.iterate

/-- A query over a record type with a condition, unless that is null. -/
def query (t : RecordType) (where_ : Value) (source : Source)
    (outputType returning streaming : Value) : Except Failure Query := do
  let q ← Query.make t source outputType returning streaming
  .ok (if where_.isNull then q else ((Query.where_ where_) q).2)

/-- Sets what a lookup asks for besides its condition. -/
def refine (o : FindOptions) : Change Query Unit := do
  Query.limit o.limit
  Query.offset o.offset
  if o.orderBy.truthy then Query.orderBy (← Change.ofExcept (ordersOf o.orderBy))

def lookupQuery (t : RecordType) (where_ : Value) (source : Source) (o : FindOptions) :
    Except Failure Query := do
  let q ← t.query where_ source .null .null .null
  match refine o q with
  | (.ok _, q) => .ok q
  | (.error e, _) => .error e

variable [Backend σ]

/-- The records that meet a condition. -/
def find (t : RecordType) (where_ : Value) (source : Source) (o : FindOptions) :
    App σ (List Value) := do
  let id ← App.addQuery (← Change.ofExcept (t.lookupQuery where_ source o))
  App.withQuery id (Query.run .absent)
  App.withQuery id (do .ok (← On.object).rows)

def addNew (t : RecordType) (values : Value) (source : Source) : App σ Nat := do
  App.addRecord (← Change.ofExcept (Record.make t source values []))

/-- The record with given values, or null when there is none, or several. -/
def findOne (t : RecordType) (values : Value) (source : Source) : App σ Value := do
  let id ← t.addNew values source
  let found ← App.withRecord id (Record.load none)
  if found then App.recordValue id else .ok .null

/-- Deletes the record with given values. Whether one was deleted. -/
def deleteOne (t : RecordType) (values : Value) (source : Source) : App σ Bool := do
  let id ← t.addNew values source
  App.withRecord id Record.delete

end RecordType

end Rowmap
