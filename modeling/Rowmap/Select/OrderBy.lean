import Rowmap.Select.Columns
import Rowmap.Value.Iterate

/-!
# Orders

A caller gives an order as a key, as a key behind a minus sign for descending order, or as a key and
a direction.
-/

namespace Rowmap

namespace OrderBy

/-- The direction that a value names, in any case. -/
def directionOf (v : Value) : Except Failure SortDirection :=
  match v.asText?.bind fun s ↦ SortDirection.ofLabel? (Text.lowerAscii s) with
  | some d => .ok d
  | none => .error .badValue

/-- The order that a text gives. -/
def ofText (v : Value) (s : String) : Value × SortDirection :=
  match s.toList with
  | '-' :: rest => (.text (String.ofList rest), .descending)
  | _ => (v, .ascending)

/-- The order that a value gives. -/
def ofValue (v : Value) : Except Failure (Value × SortDirection) :=
  match v.asText? with
  | some s => .ok (ofText v s)
  | none => do
    let (key, direction) ← v.asPair
    .ok (key, ← directionOf direction)

/-- Whether a value gives one order and is no list of several. -/
def isSingle (v : Value) : Bool :=
  match v, v.asText? with
  | _, some _ => true
  | .list [key, direction], _ | .tuple [key, direction], _ =>
    key.asText?.isSome && (directionOf direction).isOk
  | _, _ => false

end OrderBy

end Rowmap
