import Rowmap.Session.Basic

/-!
# Registries of pools

Pools are registered under names, which may be any values that can be keys. The first registry of a
session is the one whose pool of the name `default` serves records and queries that have neither a
connection nor a pool of their own.
-/

namespace Rowmap

namespace PoolRegistry

/-- The name under which a pool is registered unless another is given. -/
def defaultName : Value := .text "default"

/-- A name, which has to be a value that can be a key. -/
def keyOf (name : Value) : Except Failure Value :=
  if name.hashable then .ok name else .error (.wrongType none)

/-- The registry with a pool under a name: in the place of the one that had it, or at the end. -/
def put : PoolRegistry → Value → Pool → PoolRegistry
  | [], name, p => [(name, p)]
  | (n, q) :: rest, name, p =>
    if n.matchesElement name then (n, p) :: rest else (n, q) :: put rest name p

def register (r : PoolRegistry) (name : Value) (p : Pool) : Except Failure PoolRegistry := do
  .ok (r.put (← keyOf name) p)

/-- The pool of a name, if one is registered. -/
def find? (r : PoolRegistry) (name : Value) : Option Pool :=
  (List.find? (fun e ↦ e.1.matchesElement name) r).map (·.2)

/-- The pool of a name, which has to be registered. -/
def find (r : PoolRegistry) (name : Value) : Except Failure Pool := do
  match find? r (← keyOf name) with
  | some p => .ok p
  | none => .error (.fault (.noPool name))

def has (r : PoolRegistry) (name : Value) : Except Failure Bool := do
  .ok (find? r (← keyOf name)).isSome

end PoolRegistry

namespace App

variable {σ : Type}

/-- The number of the registry that serves by default. -/
def defaultRegistry : Nat := 0

def registry (id : Nat) : App σ PoolRegistry := Change.gets fun s ↦ (s.registries.lookup id).getD []

def setRegistry (id : Nat) (r : PoolRegistry) : App σ Unit :=
  Change.modify fun s ↦ { s with registries := s.registries.put id r }

def registerPool (id : Nat) (name : Value) (p : Pool) : App σ Unit := do
  let r ← registry id
  setRegistry id (← Change.ofExcept (r.register name p))

/-- Forgets the pools of a registry. They stay open, for the caller to close. -/
def clearRegistry (id : Nat) : App σ Unit := setRegistry id []

/-- Disposes of pools, one after the other. -/
def disposePools [Backend σ] (r : PoolRegistry) : App σ Unit :=
  r.forM fun (_, p) ↦ call (.dispose p)

/-- Forgets the pools of a registry and disposes of them. -/
def disposeRegistry [Backend σ] (id : Nat) : App σ Unit := do
  let r ← registry id
  setRegistry id []
  disposePools r

/-- Registers a pool as the one that serves by default. -/
def setDefaultPool (p : Pool) : App σ Unit :=
  registerPool defaultRegistry PoolRegistry.defaultName p

def defaultPool : App σ Pool := do
  .ofExcept ((← registry defaultRegistry).find PoolRegistry.defaultName)

/-- A given pool, or the one that serves by default. -/
def poolOrDefault : Option Pool → App σ Pool
  | some p => .ok p
  | none => defaultPool

end App

end Rowmap
