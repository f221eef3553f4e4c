import Rowmap.Value.Matching

/-!
# Positions in a sequence

Positions count from the start, or from the end when they are negative. A slice takes the elements
from one position up to another, in steps, and forgives positions outside the sequence; a single
position has to be inside.
-/

namespace Rowmap.Sequence

variable {α : Type}

def position (v : Value) : Except Failure Int :=
  match v with
  | .int n => .ok n
  | .bool b => .ok (if b then 1 else 0)
  | _ => .error (.wrongType none)

/-- The position that a value is, or none for null. -/
def position? (v : Value) : Except Failure (Option Int) :=
  if v.isNull then .ok none else some <$> position v

/-- A position counted from the start. -/
def fromStart (size i : Int) : Int := if i < 0 then i + size else i

/-- The element at a position. -/
def pick (xs : List α) (i : Int) : Except Failure α :=
  let i := fromStart xs.length i
  match if i < 0 then none else xs[i.toNat]? with
  | some a => .ok a
  | none => .error .badIndex

/-- A position counted from the start, inside given bounds. -/
def clamp (size lower upper i : Int) : Int := max lower (min upper (fromStart size i))

def slice (xs : List α) (start stop step : Option Int) : Except Failure (List α) :=
  let size : Int := xs.length
  let step := step.getD 1
  if step = 0 then .error .badValue
  else
    let (lower, upper) := if 0 < step then (0, size) else (-1, size - 1)
    let first := (start.map (clamp size lower upper)).getD (if 0 < step then lower else upper)
    let last := (stop.map (clamp size lower upper)).getD (if 0 < step then upper else lower)
    let span := if 0 < step then last - first else first - last
    let count := ((span + step.natAbs - 1) / step.natAbs).toNat
    .ok ((List.range count).filterMap fun (k : Nat) ↦ xs[(first + k * step).toNat]?)

/-- The elements that the arguments of a slice ask for: where it stops, or where it starts and
stops, and then perhaps its step. The step is looked at first. -/
def sliceOf (xs : List α) (arguments : List Value) : Except Failure (List α) := do
  match arguments with
  | [stop] => slice xs none (← position? stop) none
  | [start, stop] =>
    let start ← position? start
    slice xs start (← position? stop) none
  | [start, stop, step] =>
    let step ← position? step
    if step = some 0 then .error .badValue
    else
      let start ← position? start
      slice xs start (← position? stop) step
  | _ => .error (.wrongType none)

/-- The position of the first element that matches a value, in a part of a list. -/
def indexIn (xs : List Value) (v : Value) (start stop : Int) : Except Failure Nat :=
  let size : Int := xs.length
  let first := (max 0 (fromStart size start)).toNat
  let last := (max 0 (fromStart size stop)).toNat
  match Value.firstMatch? v ((xs.take last).drop first) with
  | .ok (some i) => .ok (first + i)
  | .ok none => .error .badValue
  | .error e => .error e

/-- The position of the first element that matches a value, from one position on or between two. -/
def indexOf (xs : List Value) (v : Value) (arguments : List Value) : Except Failure Nat := do
  match arguments with
  | [] => indexIn xs v 0 xs.length
  | [start] => indexIn xs v (← position start) xs.length
  | [start, stop] =>
    let start ← position start
    indexIn xs v start (← position stop)
  | _ => .error (.wrongType none)

end Rowmap.Sequence
