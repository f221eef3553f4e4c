import Rowmap.Database.Call

/-!
# Sources

Where records and queries get their connections from: a connection of their own, a pool, or neither,
in which case the default pool serves.
-/

namespace Rowmap

/-- What a caller gives for a source. -/
inductive Source where
  | absent
  | connection (conn : Connection)
  | pool (pool : Pool)
  /-- Something that is no source. -/
  | other (v : Value)

namespace Source

def split : Source → Except Failure (Option Connection × Option Pool)
  | .absent => .ok (none, none)
  | .connection c => .ok (some c, none)
  | .pool p => .ok (none, some p)
  | .other v =>
    .error (.wrongType (some ("Expected an AsyncConnection or AsyncEngine, got " ++ v.typeName)))

/-- The source that any other value is; null stands for none. -/
def ofValue (v : Value) : Source := if v.isNull then .absent else .other v

/-- The connection that a source is where a connection is asked for. A pool in its place is taken
for one, which fails when it is used. -/
def asConnection : Source → Except Failure (Option Connection)
  | .absent => .ok none
  | .connection c => .ok (some c)
  | .pool p => .ok (some ⟨p.name⟩)
  | .other _ => .error .missingPart

/-- The pool that a source is where a pool is asked for. A connection in its place is taken for one,
which fails when it is used; a value that counts as false stands for none. -/
def asPool : Source → Except Failure (Option Pool)
  | .absent => .ok none
  | .pool p => .ok (some p)
  | .connection c => .ok (some ⟨c.name⟩)
  | .other v => if v.truthy then .error .missingPart else .ok none

def isGiven : Source → Bool
  | .absent => false
  | .other v => v.truthy
  | _ => true

/-- A connection if there is one, otherwise a pool if there is one. -/
def ofParts : Option Connection → Option Pool → Source
  | some c, _ => .connection c
  | none, some p => .pool p
  | none, none => .absent

/-- A source if it is given, and another otherwise. -/
def orElse (s t : Source) : Source := if s.isGiven then s else t

end Source

end Rowmap
