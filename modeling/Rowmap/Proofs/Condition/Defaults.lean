import Rowmap.Proofs.Condition.Lists
import Rowmap.Proofs.Condition.Recast

/-!
# Default comparisons

A default comparison is a way of writing less. It can be written down at each leaf that gets it, in
a wrapper that binds the leaf's value, and then be left out of the groups and of the call; the tree
compiles as before.

So what a leaf becomes by the default in force there and what its wrapper makes of the same
comparison are two ways to one leaf, although the one goes through all rules and the other through
the rule for wrappers, which makes its own cases. They are compared one kind of value at a time, and
the tree around them follows.
-/

namespace Rowmap

/-! ## Writing defaults down -/

namespace Value

/-- What a value is compared by under a default. For a list that is membership, unless the default
is for lists or ignores the value. -/
def comparedBy (v : Value) (c : Comparison) : Comparison :=
  if c.leftOnly || v.elements?.isNone then c else Leaf.listComparison (some c)

/-- A leaf with the default that is in force there written down on it, in a wrapper that binds it. A
wrapper that is there already takes the default if it has no comparison of its own. A sub-query,
bare or wrapped, has no use for a default unless that ignores the value. -/
def leafPushed (v : Value) (c : Comparison) : Value :=
  if c.leftOnly then .wrapped v true (some (v.comparedBy c)) false
  else
    match v with
    | .wrapped inner bind own quote =>
      if inner.isRenderable then v else .wrapped inner bind (own <|> some c) quote
    | v => if v.isRenderable then v else .wrapped v true (some (v.comparedBy c)) false

mutual

/-- A node under a default, with all defaults written down at the leaves and left out elsewhere. -/
def nodePushed : Value → Option Comparison → Value
  | .group id kind items own, c => .group id kind (nodesPushed items (own <|> c)) none
  | .list items, c => .list (nodesPushed items c)
  | .tuple items, c => .tuple (nodesPushed items c)
  | .map entries, c => .map (entriesPushed entries c)
  | v, _ => v
termination_by structural v => v

/-- Several nodes with all defaults written down. -/
def nodesPushed : List Value → Option Comparison → List Value
  | [], _ => []
  | v :: vs, c => nodePushed v c :: nodesPushed vs c
termination_by structural vs => vs

/-- The entries of a map of fields with all defaults written down. -/
def entriesPushed : List (String × Value) → Option Comparison → List (String × Value)
  | [], _ => []
  | (key, v) :: es, c => (key, fieldPushed v c) :: entriesPushed es c
termination_by structural es => es

/-- A value under a key with all defaults written down. What is no leaf has no use for them. -/
def fieldPushed : Value → Option Comparison → Value
  | .group id kind items own, c => .group id kind (itemsPushed items (own <|> c)) none
  | .map entries, _ => .map entries
  | .unset, _ => .unset
  | v, some c => v.leafPushed c
  | v, none => v
termination_by structural v => v

/-- Several values under a key with all defaults written down. -/
def itemsPushed : List Value → Option Comparison → List Value
  | [], _ => []
  | v :: vs, c => fieldPushed v c :: itemsPushed vs c
termination_by structural vs => vs

end

/-- A whole tree with all defaults written down, that of the call among them. -/
def pushed (tree : Value) (o : CompileOptions) : Value :=
  match o.key with
  | some _ => tree.fieldPushed o.comparison
  | none => tree.nodePushed o.comparison

end Value

/-- Plain data and lists of it, null and the markers are wrapped. -/
theorem Value.leafPushed_of_plain {v : Value} (hv : v.isRenderable = false)
    (hwrapped : ∀ inner bind own quote, v ≠ .wrapped inner bind own quote) (c : Comparison) :
    v.leafPushed c = .wrapped v true (some (v.comparedBy c)) false := by
  rw [leafPushed.eq_def]
  split
  · rfl
  split
  · exact absurd rfl (hwrapped _ _ _ _)
  · rw [hv, if_neg Bool.false_ne_true]

/-! ## Leaves -/

theorem Leaf.leftOnly_listComparison (c : Option Comparison) :
    (listComparison c).leftOnly = false := by
  cases c with
  | none => rfl
  | some c => cases c <;> rfl

theorem Value.leftOnly_comparedBy (v : Value) {c : Comparison} (h : c.leftOnly = false) :
    (v.comparedBy c).leftOnly = false := by
  rw [comparedBy]
  split
  · exact h
  · exact Leaf.leftOnly_listComparison _

/-- What a wrapped value that is no sub-query becomes under the comparison in force for it. -/
def LeafRule.underComparison (ctx : LeafContext) (c : Comparison) (inner : Value)
    (bind quote : Bool) : Logged Leaf :=
  if Leaf.testsNull (some c) inner then .ok (Leaf.nullTest (some c))
  else
    match inner with
    | .marker .notNull => .ofExcept (Leaf.notNullTest ctx.key (some c))
    | .marker m => .ok (Leaf.ofMarker c m)
    | inner => .ofExcept do ctx.numbered (← plainWrapped ctx.bound c inner bind quote)

namespace LeafRules

variable {ctx : LeafContext} {v inner : Value} {c : Comparison} {bind quote : Bool}
  {own : Option Comparison}

theorem resolveWrapped_eq_underComparison (hc : (own <|> ctx.comparison) = some c)
    (hleft : c.leftOnly = false) (hinner : inner.isRenderable = false) :
    LeafRule.resolveWrapped inner bind own quote ctx =
      LeafRule.underComparison ctx c inner bind quote := by
  rw [LeafRule.resolveWrapped.eq_def]
  dsimp only
  rw [hc, Option.any_some, hleft, if_neg Bool.false_ne_true, hinner, if_neg Bool.false_ne_true]
  rfl

theorem underComparison_of_not_marker (hnull : Leaf.testsNull (some c) inner = false)
    (hmarker : ∀ m, inner ≠ .marker m) : LeafRule.underComparison ctx c inner bind quote =
      .ofExcept (do ctx.numbered (← LeafRule.plainWrapped ctx.bound c inner bind quote)) := by
  rw [LeafRule.underComparison.eq_def, hnull, if_neg Bool.false_ne_true]
  split
  · exact absurd rfl (hmarker _)
  · exact absurd rfl (hmarker _)
  · rfl

theorem resolve_standard_of_marker (hleft : ctx.comparison.any (·.leftOnly) = false)
    (hc : ctx.comparison = some c) (m : Marker) :
    standard.resolve (.marker m) ctx =
      LeafRule.underComparison ctx c (.marker m) bind quote := by
  rw [resolve_standard_of_not_null hleft rfl]
  cases m with
  | notNull =>
    rw [resolve_of_applies _ rfl]
    show Logged.ofExcept (Leaf.notNullTest ctx.key ctx.comparison) = _
    rw [hc]
    rfl
  | now =>
    rw [resolve_of_not_applies _ rfl, resolve_of_applies _ rfl]
    show Logged.ok (Leaf.ofMarker (ctx.comparison.getD .equal) .now) = _
    rw [hc]
    rfl

/-- A value that is neither wrapped nor a sub-query becomes under a default what it becomes in a
wrapper with that comparison. -/
theorem resolve_standard_eq_underComparison (hc : ctx.comparison = some c)
    (hleft : c.leftOnly = false) (hv : v.isRenderable = false)
    (hwrapped : ∀ inner bind own quote, v ≠ .wrapped inner bind own quote) :
    standard.resolve v ctx = LeafRule.underComparison ctx (v.comparedBy c) v true false := by
  have hany : ctx.comparison.any (·.leftOnly) = false := by rw [hc, Option.any_some, hleft]
  cases hitems : v.elements? with
  | some items =>
    have hnull (c : Comparison) : Leaf.testsNull (some c) v = false := by
      cases v <;> first | rfl | exact nomatch hitems
    have hcompared : v.comparedBy c = Leaf.listComparison (some c) := by
      rw [Value.comparedBy, hitems, hleft]
      rfl
    rw [resolve_standard_of_elements? hany hitems, hc, hcompared,
      underComparison_of_not_marker (hnull _) (Value.ne_marker_of_elements? hitems),
      LeafRule.plainWrapped_of_elements? hitems, if_pos rfl]
  | none =>
    rw [Value.comparedBy, hitems, Option.isNone_none, Bool.or_true, if_pos rfl]
    by_cases hmarker : ∃ m, v = .marker m
    · obtain ⟨m, rfl⟩ := hmarker
      exact resolve_standard_of_marker hany hc m
    push Not at hmarker
    cases hnull : Leaf.testsNull (some c) v with
    | true =>
      rw [resolve_standard_of_not_leftOnly hany,
        resolve_of_applies _ (show Leaf.testsNull ctx.comparison v = true by rw [hc, hnull]),
        LeafRule.underComparison.eq_def, if_pos hnull, ← hc]
      rfl
    | false =>
      rw [resolve_standard_of_scalar hany (by rw [hc, hnull]) hmarker hitems hwrapped hv,
        underComparison_of_not_marker hnull hmarker, LeafRule.plainWrapped.eq_def, hitems, hc]
      rfl

/-- Under a comparison without a right-hand side a wrapped value is ignored as well. -/
theorem resolveWrapped_of_leftOnly (hc : (own <|> ctx.comparison) = some c)
    (hleft : c.leftOnly = true) :
    LeafRule.resolveWrapped inner bind own quote ctx = .ok (Leaf.leftOnly c) := by
  rw [LeafRule.resolveWrapped.eq_def]
  dsimp only
  rw [hc, if_pos (by simpa using hleft)]
  rfl

/-- A wrapped sub-query becomes the same under all defaults that do not ignore it. -/
theorem resolveWrapped_of_isRenderable_under {d : Option Comparison}
    (hinner : inner.isRenderable = true) (hleft : ctx.comparison.any (·.leftOnly) = false)
    (hd : d.any (·.leftOnly) = false) : LeafRule.resolveWrapped inner bind own quote ctx =
      LeafRule.resolveWrapped inner bind own quote { ctx with comparison := d } := by
  cases own with
  | none =>
    rw [LeafRule.resolveWrapped_of_isRenderable (by simpa using hleft) hinner,
      LeafRule.resolveWrapped_of_isRenderable (by simpa using hd) hinner]
  | some test => rfl

/-- A wrapped value that is no sub-query becomes the same by the same comparison in force, whether
the wrapper or what holds it gives that. -/
theorem resolveWrapped_of_inForce {ctx' : LeafContext} {own' : Option Comparison}
    (hinForce : (own <|> ctx.comparison) = (own' <|> ctx'.comparison))
    (hinner : inner.isRenderable = false) (hkey : ctx.key = ctx'.key)
    (hbound : ctx.bound = ctx'.bound) (hfar : ctx.isFar = ctx'.isFar) :
    LeafRule.resolveWrapped inner bind own quote ctx =
      LeafRule.resolveWrapped inner bind own' quote ctx' := by
  have hnumbered : ctx.numbered = ctx'.numbered := by
    funext leaf
    rw [LeafContext.numbered, LeafContext.numbered, hbound, hfar]
  rw [LeafRule.resolveWrapped.eq_def, LeafRule.resolveWrapped.eq_def]
  dsimp only
  rw [hinForce, hinner, hkey, hbound, hnumbered]
  rfl

end LeafRules

namespace Condition

open LeafRules

variable {s : Scope} {key : String} {b : Int}

/-- **A default can be written down at a leaf.** -/
theorem resolve_standard_leafPushed (field : Field) (v : Value) (c : Comparison) :
    LeafRules.standard.resolve v (leafContext s key field v (some c) b) =
      LeafRules.standard.resolve (v.leafPushed c)
        (leafContext s key field (v.leafPushed c) none b) := by
  cases hleft : c.leftOnly with
  | true =>
    have hcompared : v.comparedBy c = c := by rw [Value.comparedBy, hleft, Bool.true_or, if_pos rfl]
    rw [Value.leafPushed.eq_def, if_pos hleft, resolve_standard_of_leftOnly rfl hleft,
      resolve_standard_wrapped rfl, hcompared, resolveWrapped_of_leftOnly rfl hleft]
  | false =>
    have hany : (some c).any (·.leftOnly) = false := hleft
    by_cases hwrapped : ∃ inner bind own quote, v = .wrapped inner bind own quote
    · obtain ⟨inner, bind, own, quote, rfl⟩ := hwrapped
      rw [Value.leafPushed, hleft, if_neg Bool.false_ne_true]
      cases hinner : inner.isRenderable with
      | true =>
        rw [if_pos rfl, resolve_standard_wrapped hany, resolve_standard_wrapped rfl]
        exact resolveWrapped_of_isRenderable_under hinner hany rfl
      | false =>
        rw [if_neg Bool.false_ne_true, resolve_standard_wrapped hany, resolve_standard_wrapped rfl]
        exact resolveWrapped_of_inForce (by cases own <;> rfl) hinner rfl rfl rfl
    push Not at hwrapped
    cases hv : v.isRenderable with
    | true =>
      have hsame : v.leafPushed c = v := by
        rw [Value.leafPushed.eq_def, hleft, if_neg Bool.false_ne_true]
        split
        · exact absurd rfl (hwrapped _ _ _ _)
        · rw [if_pos hv]
      rw [hsame, resolve_standard_of_isRenderable hany hv, resolve_standard_of_isRenderable rfl hv]
      rfl
    | false =>
      rw [Value.leafPushed_of_plain hv hwrapped,
        resolve_standard_eq_underComparison rfl hleft hv hwrapped, resolve_standard_wrapped rfl,
        resolveWrapped_eq_underComparison rfl (Value.leftOnly_comparedBy v hleft) hv]
      rfl

end Condition

/-! ## Trees -/

/-- A leaf that takes the default in force for it. At the position of a node it is a test for rows
by its own wrapper, or no test by that default. -/
def LeafRelation.pushed : LeafRelation where
  node v c w d := v = w ∧ d = none ∧ v.isBare = true ∧
    ((⟨none, v, c⟩ : Place).own?.isSome = true ∨ c.any (·.rightOnly) = false)
  field v c w d := w = v.fieldPushed c ∧ d = none ∧
    ∀ id kind items own, v ≠ .group id kind items own

theorem Value.isLeaf_leafPushed {v : Value} (hv : v.isLeaf = true) (c : Comparison) :
    (v.leafPushed c).isLeaf = true := by
  rw [leafPushed.eq_def]
  repeat' split
  all_goals first | rfl | exact hv

theorem Condition.ofField_fieldPushed {s : Scope} (hrules : s.rules = .standard) {v : Value}
    (hgroup : ∀ id kind items own, v ≠ .group id kind items own) (c : Option Comparison)
    (key : String) (b : Int) : ofField s key v c b = ofField s key (v.fieldPushed c) none b := by
  have hleaf (hv : v.isLeaf = true) (hpushed : v.fieldPushed c = (c.map v.leafPushed).getD v) :
      ofField s key v c b = ofField s key (v.fieldPushed c) none b := by
    rw [hpushed]
    cases c with
    | none => rfl
    | some c =>
      refine ofField_congr hv (Value.isLeaf_leafPushed hv c) fun field ↦ ?_
      rw [hrules]
      exact resolve_standard_leafPushed field v c
  cases v with
  | group => exact absurd rfl (hgroup _ _ _ _)
  | map => rfl
  | unset => rfl
  | _ => exact hleaf rfl (by cases c <;> rfl)

/-- **A default can be written down at each leaf** that takes it. -/
theorem LeafRelation.keeps_pushed {s : Scope} (hrules : s.rules = .standard) :
    pushed.Keeps s where
  node := by
    rintro v c _ _ ⟨rfl, rfl, hbare, howns⟩ top b
    cases hown : (⟨none, v, c⟩ : Place).own? with
    | some own => exact Condition.ofNode_of_own hbare (by rw [hown]; rfl) none
    | none =>
      have hright : c.any (·.rightOnly) = false :=
        howns.resolve_left (by rw [hown]; exact Bool.false_ne_true)
      have hnone : (⟨none, v, none⟩ : Place).own? = none := hown
      rw [Condition.ofNode_of_not_rightOnly hbare hown hright,
        Condition.ofNode_of_not_rightOnly hbare hnone rfl]
  field := by
    rintro v c _ _ ⟨rfl, rfl, hgroup⟩ key b
    exact Condition.ofField_fieldPushed hrules hgroup c key b

namespace Value

theorem itemsRecast_pushed {vs : List Value} {c : Option Comparison}
    (h : ∀ v ∈ vs, FieldRecast .pushed v c (v.fieldPushed c) none) :
    ItemsRecast .pushed vs c (itemsPushed vs c) none := by
  induction vs with
  | nil => exact .nil
  | cons v vs ih =>
    rw [List.forall_mem_cons] at h
    exact .cons h.1 (ih h.2)

theorem fieldRecast_pushed (v : Value) (c : Option Comparison) :
    FieldRecast .pushed v c (v.fieldPushed c) none := by
  induction v using induction_on_parts generalizing c with
  | step v ih =>
    cases v with
    | group id kind items own => exact .group (itemsRecast_pushed fun w hw ↦ ih w hw _)
    | _ => exact .leaf ⟨rfl, rfl, by simp⟩

theorem entriesRecast_pushed (es : List (String × Value)) (c : Option Comparison) :
    EntriesRecast .pushed es c (entriesPushed es c) none := by
  induction es with
  | nil => exact .nil
  | cons e es ih => exact .cons (fieldRecast_pushed e.2 c) ih

theorem nodesRecast_pushed {vs : List Value} {c : Option Comparison}
    (h : ∀ v ∈ vs, NodeRecast .pushed v c (v.nodePushed c) none) :
    NodesRecast .pushed vs c (nodesPushed vs c) none := by
  induction vs with
  | nil => exact .nil
  | cons v vs ih =>
    rw [List.forall_mem_cons] at h
    exact .cons h.1 (ih h.2)

/-- Whether the leaves at the positions of nodes, among given ones, have comparisons of their own,
or no default that could make a test for rows of them. A bare sub-query there has none of its own,
since nothing asks it what it renders with. -/
def OwnTests (leaves : List Place) : Prop :=
  ∀ p ∈ leaves, p.key = none → p.own?.isSome = true ∨ p.comparison.any (·.rightOnly) = false

instance (leaves : List Place) : Decidable (OwnTests leaves) :=
  inferInstanceAs (Decidable (∀ p ∈ leaves, p.key = none →
    p.own?.isSome = true ∨ p.comparison.any (·.rightOnly) = false))

theorem nodeRecast_pushed {v : Value} {c : Option Comparison}
    (h : OwnTests (v.nodeLeaves false c)) : NodeRecast .pushed v c (v.nodePushed c) none := by
  induction v using induction_on_parts generalizing c with
  | step v ih =>
    have hnodes {items : List Value} (hparts : ∀ w ∈ items, w ∈ v.parts) {c : Option Comparison}
        (h : OwnTests (nodesLeaves false items c)) :
        NodesRecast .pushed items c (nodesPushed items c) none := by
      rw [nodesLeaves_eq_flatMap] at h
      refine nodesRecast_pushed fun w hw ↦ ih w (hparts w hw) fun p hp ↦ h p ?_
      exact List.mem_flatMap_of_mem hw hp
    cases v with
    | group id kind items own => exact .group (hnodes (fun _ h ↦ h) h)
    | list items => exact .list (hnodes (fun _ h ↦ h) h)
    | tuple items => exact .tuple (hnodes (fun _ h ↦ h) h)
    | map entries => exact .map (entriesRecast_pushed entries c)
    | _ => exact .leaf ⟨rfl, rfl, rfl, h _ List.mem_cons_self rfl⟩

theorem treeRecast_pushed {tree : Value} {o : CompileOptions}
    (h : OwnTests (tree.treeLeaves false o)) : tree.TreeRecast .pushed o (tree.pushed o) none := by
  rw [TreeRecast, pushed]
  rw [treeLeaves] at h
  cases hkey : o.key with
  | some key => exact fieldRecast_pushed tree _
  | none =>
    rw [hkey] at h
    exact nodeRecast_pushed h

end Value

/-- **Defaults can be pushed to the leaves.** With each leaf wrapped under the default in force
there, and without the defaults of the groups and of the call, a tree compiles to the same text,
values and warnings, or to the same failure. -/
theorem Scope.compile_pushed {s : Scope} (hrules : s.rules = .standard) {tree : Value}
    {o : CompileOptions} (howns : Value.OwnTests (tree.treeLeaves false o)) :
    s.compile tree o = s.compile (tree.pushed o) { o with comparison := none } :=
  (LeafRelation.keeps_pushed hrules).compile_eq (Value.treeRecast_pushed howns)

/-- A conjunction that gets a default from the call, with a disjunction in it that has one, which a
group under a key replaces again. -/
def Value.inheritingTree : Value :=
  .list [.map [("b", .text "y")], .group 0 .any [
    .map [("a", .group 1 .all [.list [.int 1, .int 2], .marker .now] none)],
    .wrapped (.rawSql 2 "SELECT 1" [] none) false (some .hasRow) false,
    .map [("b", .group 3 .any [.null] (some .notEqual))]] (some .greater)]

/-- The tree above with its defaults written down. -/
def Value.explicitTree : Value :=
  .list [.map [("b", .wrapped (.text "y") true (some .unknown) false)], .group 0 .any [
    .map [("a", .group 1 .all [.wrapped (.list [.int 1, .int 2]) true (some .oneOf) false,
        .wrapped (.marker .now) true (some .greater) false] none)],
    .wrapped (.rawSql 2 "SELECT 1" [] none) false (some .hasRow) false,
    .map [("b", .group 3 .any [.wrapped .null true (some .notEqual) false] none)]] none]

/-- What both compile to after one bound value. -/
def Statement.inheritingTree : Statement where
  text := "\"b\" IS UNKNOWN AND ((\"a\" IN ($2, $3) AND \"a\" > NOW()) OR " ++
    "EXISTS (SELECT 1) OR \"b\" IS NOT NULL)"
  values := [.int 1, .int 2]

/-- The condition that they become on the way. -/
def Condition.inheritingTree : Condition :=
  .group .and [.fields .and [.atom "\"b\" IS UNKNOWN" []], .group .or [
    .fields .and [.group .and [.atom "\"a\" IN ($2, $3)" [.int 1, .int 2],
      .atom "\"a\" > NOW()" []]],
    .atom "EXISTS (SELECT 1)" [], .fields .and [.group .or [.atom "\"b\" IS NOT NULL" []]]]]

theorem Scope.compile_pushed_inheritingTree :
    Scope.compile ⟨.letters, .standard, false⟩ .inheritingTree ⟨some .unknown, .and, 1, 0, none⟩ =
      Scope.compile ⟨.letters, .standard, false⟩ .explicitTree ⟨none, .and, 1, 0, none⟩ ∧
    (Scope.compile ⟨.letters, .standard, false⟩ .explicitTree ⟨none, .and, 1, 0, none⟩).result =
      .ok .inheritingTree := by
  have hpushed : Value.inheritingTree.pushed ⟨some .unknown, .and, 1, 0, none⟩ =
      .explicitTree := rfl
  have h : Scope.compile ⟨.letters, .standard, false⟩ .inheritingTree
      ⟨some .unknown, .and, 1, 0, none⟩ = _ := Scope.compile_pushed rfl (by decide)
  have hcondition : (Scope.condition ⟨.letters, .standard, false⟩ .explicitTree
      ⟨none, .and, 1, 0, none⟩).result = .ok .inheritingTree := rfl
  have hstatement : Condition.inheritingTree.statement 0 = .inheritingTree := rfl
  rw [hpushed] at h
  exact ⟨h, Logged.bind_eq_ok.mpr ⟨_, hcondition, congrArg Except.ok hstatement⟩⟩

end Rowmap
