import Rowmap.Failure.Basic

/-!
# Going through values

What there is to go through in a value: the elements of a list, a tuple or a set, the characters of
a text, the bytes of a byte string, the keys of a map, the rows of a query.
-/

namespace Rowmap

namespace Value

/-- The characters of a text, each as a text. -/
def characters (s : String) : List Value := s.toList.map fun c ↦ .text (String.singleton c)

/-- The rows of a selection, one after the other. They have to have been loaded, and a selection
that streams keeps none. -/
def rowsOf (s : Select Value) : Except Failure (List Value) :=
  if s.streaming.any truthy then .error (.fault (.unavailableInStream "Synchronous iteration"))
  else if s.loaded then .ok s.rows
  else .error (.fault .notLoaded)

/-- What there is to go through in a value. -/
def iterate (v : Value) : Except Failure (List Value) :=
  match v, v.asText? with
  | _, some s => .ok (characters s)
  | .list xs, _ | .tuple xs, _ | .set _ xs, _ => .ok xs
  | .bytes bs, _ => .ok (bs.map fun b ↦ .int b.toNat)
  | .map es, _ => .ok (es.map fun (k, _) ↦ .text k)
  | .query _ select, _ => rowsOf select
  | _, _ => .error (.wrongType none)

def entries (v : Value) : Except Failure (List (String × Value)) :=
  match v with
  | .map es => .ok es
  | _ => .error .missingPart

/-- The two elements of a pair. -/
def asPair (v : Value) : Except Failure (Value × Value) := do
  match ← v.iterate with
  | [a, b] => pure (a, b)
  | _ => .error .badValue

end Value

end Rowmap
