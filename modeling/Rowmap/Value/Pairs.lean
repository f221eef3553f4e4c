import Rowmap.Value.Entries
import Rowmap.Value.Equality

/-!
# Pairs

Values by key where any value can be a key, in the order in which the keys were first put. A key
that matches an earlier one takes its place under the earlier one's name, so an entry keeps the key
that it was first put under.
-/

namespace Rowmap

abbrev Pairs := List (Value × Value)

namespace Pairs

def ofEntries (es : Entries) : Pairs := es.map fun (key, v) ↦ (.text key, v)

def find (ps : Pairs) (key : Value) : Option Value :=
  (ps.find? (·.1.matchesElement key)).map (·.2)

/-- The value under a key; null for none. -/
def valueAt (ps : Pairs) (key : Value) : Value := (ps.find key).getD .null

/-- The pairs with a value under a key: in its place, or at the end. -/
def put : Pairs → Value → Value → Pairs
  | [], key, v => [(key, v)]
  | (k, w) :: ps, key, v => if k.matchesElement key then (k, v) :: ps else (k, w) :: put ps key v

/-- The pairs of one list with those of another put over them. -/
def override (ps qs : Pairs) : Pairs := qs.foldl (fun ps (key, v) ↦ ps.put key v) ps

def without (ps : Pairs) (key : Value) : Pairs := ps.filter (!·.1.matchesElement key)

/-- The entries that pairs are up to the first key that is no text, and that key. -/
def split : Pairs → Entries × Option Value
  | [] => ([], none)
  | (key, v) :: ps =>
    match key.asText? with
    | some k => ((k, v) :: (split ps).1, (split ps).2)
    | none => ([], some key)

end Pairs

end Rowmap
