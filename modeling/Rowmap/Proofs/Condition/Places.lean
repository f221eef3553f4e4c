import Rowmap.Condition.Compile

/-!
# Leaves of condition trees

The leaves of a tree, from left to right, each with the key that it stands under and the comparison
that it gets from what holds it. They are found by recursion on the tree alone. A sub-query counts
as one leaf; the leaves of its own conditions may follow it.

What was never given is no leaf, since it leaves no trace in the text.
-/

namespace Rowmap

/-- A leaf of a condition tree, or a test for rows in it, which stands under no key. -/
structure Place where
  key : Option String
  value : Value
  comparison : Option Comparison

/-- Whether the value of a leaf is ignored, because its comparison has no right-hand side. -/
def Place.isIgnored (p : Place) : Bool :=
  p.key.isSome && (p.comparison.any (·.leftOnly) ||
    match p.value with
    | .wrapped _ _ own _ => own.any (·.leftOnly)
    | _ => false)

namespace Value

mutual

/-- The leaves of a node. With `deep` the leaves of a sub-query follow it. -/
def nodeLeaves (deep : Bool) : Value → Option Comparison → List Place
  | .group _ _ items own, c => nodesLeaves deep items (own <|> c)
  | .list items, c => nodesLeaves deep items c
  | .tuple items, c => nodesLeaves deep items c
  | .map entries, c => entriesLeaves deep entries c
  | .wrapped inner bind own quote, c =>
    ⟨none, .wrapped inner bind own quote, c⟩ :: if deep then rowLeaves deep inner else []
  | .query id select, c =>
    ⟨none, .query id select, c⟩ :: if deep then selectLeaves deep select else []
  | v, c => [⟨none, v, c⟩]
termination_by structural v => v

def nodesLeaves (deep : Bool) : List Value → Option Comparison → List Place
  | [], _ => []
  | v :: vs, c => nodeLeaves deep v c ++ nodesLeaves deep vs c
termination_by structural vs => vs

def entriesLeaves (deep : Bool) : List (String × Value) → Option Comparison → List Place
  | [], _ => []
  | (key, v) :: es, c => fieldLeaves deep key v c ++ entriesLeaves deep es c
termination_by structural es => es

def fieldLeaves (deep : Bool) (key : String) : Value → Option Comparison → List Place
  | .group _ _ items own, c => itemsLeaves deep key items (own <|> c)
  | .unset, _ => []
  | .wrapped inner bind own quote, c =>
    let place : Place := ⟨some key, .wrapped inner bind own quote, c⟩
    place :: if deep && !place.isIgnored then rowLeaves deep inner else []
  | .query id select, c =>
    let place : Place := ⟨some key, .query id select, c⟩
    place :: if deep && !place.isIgnored then selectLeaves deep select else []
  | v, c => [⟨some key, v, c⟩]
termination_by structural v => v

def itemsLeaves (deep : Bool) (key : String) : List Value → Option Comparison → List Place
  | [], _ => []
  | v :: vs, c => fieldLeaves deep key v c ++ itemsLeaves deep key vs c
termination_by structural vs => vs

def rowLeaves (deep : Bool) : Value → List Place
  | .query _ select => selectLeaves deep select
  | _ => []
termination_by structural v => v

def selectLeaves (deep : Bool) : Select Value → List Place
  | ⟨_, wheres, _, _, _, _, _, _, _, _⟩ => nodesLeaves deep wheres none
termination_by structural s => s

end

def treeLeaves (deep : Bool) (tree : Value) (o : CompileOptions) : List Place :=
  match o.key with
  | some key => tree.fieldLeaves deep key o.comparison
  | none => tree.nodeLeaves deep o.comparison

theorem nodesLeaves_eq_flatMap (deep : Bool) (vs : List Value) (c : Option Comparison) :
    nodesLeaves deep vs c = vs.flatMap (nodeLeaves deep · c) := by
  induction vs with
  | nil => rfl
  | cons v vs ih => rw [nodesLeaves, List.flatMap_cons, ih]

theorem entriesLeaves_eq_flatMap (deep : Bool) (es : List (String × Value))
    (c : Option Comparison) :
    entriesLeaves deep es c = es.flatMap fun e ↦ fieldLeaves deep e.1 e.2 c := by
  induction es with
  | nil => rfl
  | cons e es ih => rw [entriesLeaves, List.flatMap_cons, ih]

theorem itemsLeaves_eq_flatMap (deep : Bool) (key : String) (vs : List Value)
    (c : Option Comparison) :
    itemsLeaves deep key vs c = vs.flatMap (fieldLeaves deep key · c) := by
  induction vs with
  | nil => rfl
  | cons v vs ih => rw [itemsLeaves, List.flatMap_cons, ih]

end Value

end Rowmap
