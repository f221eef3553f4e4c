import Rowmap.Session.Basic

/-!
# Values with live objects

A value may hold a query or a record, and then stands for that object as it is now. Refreshing a
value brings it up to date: queries with the conditions that they have by now, records as they print
by now. Objects that hold each other in a circle have no finite form. A caller's own sub-query is
brought up to date when it is asked to render, and answers as it did where that is impossible.
-/

namespace Rowmap

namespace Value

mutual

/-- A value with its live objects replaced by what `current` says about them. -/
def refreshWith (current : Nat → Option (Except Failure Value)) : Value → Except Failure Value
  | .list xs => do .ok (.list (← refreshItems current xs))
  | .tuple xs => do .ok (.tuple (← refreshItems current xs))
  | .set frozen xs => do .ok (.set frozen (← refreshItems current xs))
  | .map es => do .ok (.map (← refreshEntries current es))
  | .wrapped v bind own quote => do .ok (.wrapped (← refreshWith current v) bind own quote)
  | .group id groupKind items own => do
    .ok (.group id groupKind (← refreshItems current items) own)
  | .rawSql id sql values own => do .ok (.rawSql id sql (← refreshItems current values) own)
  | .rendered sql values own => do .ok (.rendered sql (← refreshItems current values) own)
  | .renderable id render => .ok (.renderable id fun b ↦
      (refreshWith current (render b)).toOption.getD (render b))
  | .query id select => (current id).getD (.ok (.query id select))
  | .object id typeName face attributes =>
    (current id).getD (.ok (.object id typeName face attributes))
  | v => .ok v
termination_by structural v => v

/-- Several values with their live objects brought up to date. -/
def refreshItems (current : Nat → Option (Except Failure Value)) :
    List Value → Except Failure (List Value)
  | [] => .ok []
  | x :: xs => do .ok ((← refreshWith current x) :: (← refreshItems current xs))
termination_by structural xs => xs

/-- Entries with their live objects brought up to date. -/
def refreshEntries (current : Nat → Option (Except Failure Value)) :
    List (String × Value) → Except Failure (List (String × Value))
  | [] => .ok []
  | (k, x) :: es => do .ok ((k, ← refreshWith current x) :: (← refreshEntries current es))
termination_by structural es => es

end

end Value

namespace Session

variable {σ : Type}

/-- What a number stands for by now, if it is that of a query or a record. Along a way of more than
`n` objects some object holds itself. -/
def current (s : Session σ) : Nat → Nat → Option (Except Failure Value)
  | 0, _ => some (.error .tooDeep)
  | n + 1, id =>
    match s.queries.lookup id, s.records.lookup id with
    | some q, _ => some do
      let wheres ← Value.refreshItems (s.current n) q.select.wheres
      .ok (.query id { q.select with wheres })
    | none, some r => some do
      let values ← Value.refreshEntries (s.current n) (r.values.filter fun e ↦ r.keyHolds e.1)
      .ok (.object id r.type.name { r with values }.printed r.statementAttributes)
    | none, none => none

/-- The number of objects that a way can visit without visiting one twice. -/
def depth (s : Session σ) : Nat := s.queries.length + s.records.length + 1

end Session

namespace App

variable {σ : Type}

/-- A value as it is now. -/
def refresh (v : Value) : App σ Value := do
  let s ← Change.get
  .ofExcept (v.refreshWith (s.current s.depth))

def refreshEntries (es : Entries) : App σ Entries := do
  let s ← Change.get
  .ofExcept (Value.refreshEntries (s.current s.depth) es)

def refreshPairs (ps : Pairs) : App σ Pairs :=
  ps.mapM fun (key, v) ↦ do .ok (key, ← refresh v)

/-- A selection as it is now. -/
def refreshSelect (select : Select Value) : App σ (Select Value) := do
  let s ← Change.get
  let wheres ← Change.ofExcept (Value.refreshItems (s.current s.depth) select.wheres)
  .ok { select with wheres }

end App

end Rowmap
