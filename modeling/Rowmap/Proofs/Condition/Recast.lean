import Rowmap.Proofs.Condition.WellFormed

/-!
# Trees with other defaults

A group of conditions may have a default comparison, which the leaves below it get unless a nearer
group has one. Two trees of the same shape are compared here that differ in these defaults, and in
their leaves where a given relation allows it. The relation sees each leaf with the default in force
there, so it can tell what the one tree writes down at the leaf from what the other inherits.

The main fact is that such trees compile alike if related leaves do: to the same conditions, with
the same warnings, or to the same failure.
-/

namespace Rowmap

/-! ## Recast trees -/

/-- Which leaf may take the place of which, each under the default that is in force there: at the
position of a node, and under a key. -/
structure LeafRelation where
  node : Value → Option Comparison → Value → Option Comparison → Prop
  field : Value → Option Comparison → Value → Option Comparison → Prop

namespace Value

mutual

/-- A node under a default, recast as a node under another one. -/
inductive NodeRecast (R : LeafRelation) :
    Value → Option Comparison → Value → Option Comparison → Prop where
  | group {id : Nat} {kind : GroupKind} {items items' : List Value}
      {own own' c d : Option Comparison} (h : NodesRecast R items (own <|> c) items' (own' <|> d)) :
      NodeRecast R (.group id kind items own) c (.group id kind items' own') d
  | list {items items' : List Value} {c d : Option Comparison}
      (h : NodesRecast R items c items' d) :
      NodeRecast R (.list items) c (.list items') d
  | tuple {items items' : List Value} {c d : Option Comparison}
      (h : NodesRecast R items c items' d) : NodeRecast R (.tuple items) c (.tuple items') d
  | map {entries entries' : List (String × Value)} {c d : Option Comparison}
      (h : EntriesRecast R entries c entries' d) : NodeRecast R (.map entries) c (.map entries') d
  | leaf {v w : Value} {c d : Option Comparison} (h : R.node v c w d) : NodeRecast R v c w d

/-- Several nodes, recast one by one. -/
inductive NodesRecast (R : LeafRelation) :
    List Value → Option Comparison → List Value → Option Comparison → Prop where
  | nil {c d : Option Comparison} : NodesRecast R [] c [] d
  | cons {v w : Value} {vs ws : List Value} {c d : Option Comparison} (head : NodeRecast R v c w d)
      (tail : NodesRecast R vs c ws d) : NodesRecast R (v :: vs) c (w :: ws) d

/-- The entries of a map of fields, recast one by one under their keys. -/
inductive EntriesRecast (R : LeafRelation) :
    List (String × Value) → Option Comparison → List (String × Value) → Option Comparison →
      Prop where
  | nil {c d : Option Comparison} : EntriesRecast R [] c [] d
  | cons {key : String} {v w : Value} {es es' : List (String × Value)} {c d : Option Comparison}
      (head : FieldRecast R v c w d) (tail : EntriesRecast R es c es' d) :
      EntriesRecast R ((key, v) :: es) c ((key, w) :: es') d

/-- A value under a key and a default, recast as a value under another default. -/
inductive FieldRecast (R : LeafRelation) :
    Value → Option Comparison → Value → Option Comparison → Prop where
  | group {id : Nat} {kind : GroupKind} {items items' : List Value}
      {own own' c d : Option Comparison} (h : ItemsRecast R items (own <|> c) items' (own' <|> d)) :
      FieldRecast R (.group id kind items own) c (.group id kind items' own') d
  | leaf {v w : Value} {c d : Option Comparison} (h : R.field v c w d) : FieldRecast R v c w d

/-- Several values under a key, recast one by one. -/
inductive ItemsRecast (R : LeafRelation) :
    List Value → Option Comparison → List Value → Option Comparison → Prop where
  | nil {c d : Option Comparison} : ItemsRecast R [] c [] d
  | cons {v w : Value} {vs ws : List Value} {c d : Option Comparison} (head : FieldRecast R v c w d)
      (tail : ItemsRecast R vs c ws d) : ItemsRecast R (v :: vs) c (w :: ws) d

end

/-- A whole tree, recast as a tree that is compiled under another default. -/
def TreeRecast (R : LeafRelation) (tree : Value) (o : CompileOptions) (tree' : Value)
    (d : Option Comparison) : Prop :=
  match o.key with
  | some _ => FieldRecast R tree o.comparison tree' d
  | none => NodeRecast R tree o.comparison tree' d

end Value

/-! ## Leaves -/

/-- Whether a value at the position of a node has no nodes inside. -/
def Value.isBare : Value → Bool
  | .group .. | .list _ | .tuple _ | .map _ => false
  | _ => true

/-- Whether a value under a key is compared with its field. -/
def Value.isLeaf : Value → Bool
  | .group .. | .map _ | .unset => false
  | _ => true

namespace Condition

variable {s : Scope} {top : Connective} {key : String} {v w : Value} {c d : Option Comparison}
  {b : Int}

/-- A value at the position of a node is a test for rows by the comparison in force, or fails. -/
theorem ofNode_of_isBare (hv : v.isBare = true) :
    ofNode s top v c b = ofBare v (⟨none, v, c⟩ : Place).inner.isRenderable
      (renderInner s.isFar v) (⟨none, v, c⟩ : Place).inForce b := by
  cases v with
  | query id select =>
    rw [renderInner_query]
    rfl
  | wrapped => rfl
  | group | list | tuple | map => exact absurd hv Bool.false_ne_true
  | _ =>
    rw [renderInner_of_plain (by simp) (by simp)]
    rfl

theorem ofNode_of_own (hv : v.isBare = true) (hown : (⟨none, v, c⟩ : Place).own?.isSome = true)
    (d : Option Comparison) : ofNode s top v c b = ofNode s top v d b := by
  obtain ⟨own, hown⟩ := Option.isSome_iff_exists.mp hown
  have hforce (c : Option Comparison) : (⟨none, v, c⟩ : Place).inForce = some own := by
    rw [Place.inForce, show (⟨none, v, c⟩ : Place).own? = some own from hown]
    rfl
  rw [ofNode_of_isBare hv, ofNode_of_isBare hv, hforce, hforce]
  rfl

theorem ofBare_of_not_rightOnly {renderable : Bool} {render : Int → Logged Rendition}
    (h : c.any (·.rightOnly) = false) : ofBare v renderable render c b = .fail (bareValue v) := by
  cases c with
  | none => rfl
  | some test =>
    rw [ofBare, show test.rightOnly = false from h]
    rfl

theorem ofNode_of_not_rightOnly (hv : v.isBare = true)
    (hown : (⟨none, v, c⟩ : Place).own? = none) (hc : c.any (·.rightOnly) = false) :
    ofNode s top v c b = .fail (bareValue v) := by
  have hforce : (⟨none, v, c⟩ : Place).inForce = c := by
    rw [Place.inForce, hown]
    rfl
  rw [ofNode_of_isBare hv, hforce, ofBare_of_not_rightOnly hc]

theorem ofField_of_isLeaf (hv : v.isLeaf = true) : ofField s key v c b =
    (Logged.ofExcept (fieldOf s key) >>= fun field ↦
      s.rules.resolve v (leafContext s key field v c b) >>= fun leaf ↦
        .ofExcept (ofLeaf field key leaf)) := by
  have hset : v.isUnset = false := by cases v <;> first | rfl | cases hv
  rw [ofField_eq_ofScalar (by rintro _ _ _ _ rfl; cases hv) (by rintro _ rfl; cases hv), ofScalar,
    hset]
  rfl

/-- Two leaves under a key compile alike if the rules make the same of them. -/
theorem ofField_congr (hv : v.isLeaf = true) (hw : w.isLeaf = true)
    (h : ∀ field, s.rules.resolve v (leafContext s key field v c b) =
      s.rules.resolve w (leafContext s key field w d b)) :
    ofField s key v c b = ofField s key w d b := by
  rw [ofField_of_isLeaf hv, ofField_of_isLeaf hw]
  simp only [h]

end Condition

/-! ## They compile alike -/

/-- A leaf that takes the place of another compiles alike. -/
structure LeafRelation.Keeps (R : LeafRelation) (s : Scope) : Prop where
  node : ∀ {v c w d}, R.node v c w d → ∀ top b,
    Condition.ofNode s top v c b = Condition.ofNode s top w d b
  field : ∀ {v c w d}, R.field v c w d → ∀ key b,
    Condition.ofField s key v c b = Condition.ofField s key w d b

namespace Condition

variable {R : LeafRelation} {s : Scope}

mutual

theorem ofNode_recast (hR : R.Keeps s) : ∀ {v c w d}, Value.NodeRecast R v c w d → ∀ top b,
    ofNode s top v c b = ofNode s top w d b
  | _, _, _, _, .group h, _, b => by rw [ofNode, ofNode, ofNodes_recast hR h b]
  | _, _, _, _, .list h, _, b => by rw [ofNode, ofNode, ofNodes_recast hR h b]
  | _, _, _, _, .tuple h, _, b => by rw [ofNode, ofNode, ofNodes_recast hR h b]
  | _, _, _, _, .map h, _, b => by rw [ofNode, ofNode, ofEntries_recast hR h b]
  | _, _, _, _, .leaf h, top, b => hR.node h top b

theorem ofNodes_recast (hR : R.Keeps s) : ∀ {vs c ws d}, Value.NodesRecast R vs c ws d → ∀ b,
    ofNodes s vs c b = ofNodes s ws d b
  | _, _, _, _, .nil, _ => rfl
  | _, _, _, _, .cons head tail, b => by
    simp only [ofNodes, ofNode_recast hR head, ofNodes_recast hR tail]

theorem ofEntries_recast (hR : R.Keeps s) : ∀ {es c es' d}, Value.EntriesRecast R es c es' d → ∀ b,
    ofEntries s es c b = ofEntries s es' d b
  | _, _, _, _, .nil, _ => rfl
  | _, _, _, _, .cons head tail, b => by
    simp only [ofEntries, ofField_recast hR head, ofEntries_recast hR tail]

theorem ofField_recast (hR : R.Keeps s) : ∀ {v c w d}, Value.FieldRecast R v c w d → ∀ key b,
    ofField s key v c b = ofField s key w d b
  | _, _, _, _, .group h, key, b => by rw [ofField, ofField, ofFieldItems_recast hR h key b]
  | _, _, _, _, .leaf h, key, b => hR.field h key b

theorem ofFieldItems_recast (hR : R.Keeps s) : ∀ {vs c ws d}, Value.ItemsRecast R vs c ws d →
    ∀ key b, ofFieldItems s key vs c b = ofFieldItems s key ws d b
  | _, _, _, _, .nil, _, _ => rfl
  | _, _, _, _, .cons head tail, key, b => by
    simp only [ofFieldItems, ofField_recast hR head, ofFieldItems_recast hR tail]

end

end Condition

/-- **Recast trees compile alike**, to the same text, values and warnings or to the same failure. -/
theorem LeafRelation.Keeps.compile_eq {R : LeafRelation} {s : Scope} (hR : R.Keeps s)
    {tree tree' : Value} {o : CompileOptions} {d : Option Comparison}
    (h : tree.TreeRecast R o tree' d) :
    s.compile tree o = s.compile tree' { o with comparison := d } := by
  rw [Value.TreeRecast] at h
  rw [Scope.compile, Scope.compile, Scope.condition, Scope.condition]
  dsimp only
  cases hkey : o.key with
  | some key =>
    rw [hkey] at h
    simp only [Condition.ofField_recast hR h]
  | none =>
    rw [hkey] at h
    simp only [Condition.ofNode_recast hR h]

end Rowmap
