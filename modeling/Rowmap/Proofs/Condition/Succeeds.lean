import Rowmap.Proofs.Condition.StandardLeaf

/-!
# When compiling succeeds

The converse of the inversions of the compiler: each case in which a node, a value under a key or a
leaf could have become a condition is one in which it does. So a success can be built from those of
the parts, and the compiler is not opened for that either.
-/

namespace Rowmap

/-! ## Leaves -/

theorem LeafContext.numbered_of_not_far {ctx : LeafContext} (h : ctx.isFar = false) (leaf : Leaf) :
    ctx.numbered leaf = .ok leaf := by
  rw [numbered, h, Bool.false_and, if_neg Bool.false_ne_true]

theorem Leaf.testsNull_marker (c : Option Comparison) (m : Marker) :
    testsNull c (.marker m) = false := rfl

theorem Value.eq_null_of_testsNull {v : Value} {c : Option Comparison}
    (h : Leaf.testsNull c v = true) : v = .null := by
  cases v <;> first | rfl | simp [Leaf.testsNull, isNull] at h

theorem LeafContext.numbered_of_no_values (ctx : LeafContext) {leaf : Leaf}
    (h : leaf.values = []) : ctx.numbered leaf = .ok leaf := by
  rw [numbered, h, Sql.canNumber]
  simp

theorem Leaf.values_nullTest (c : Option Comparison) : (nullTest c).values = [] := by
  rw [nullTest]
  split <;> rfl

theorem Leaf.values_of_notNullTest {key : String} {c : Option Comparison} {leaf : Leaf}
    (h : notNullTest key c = .ok leaf) : leaf.values = [] := by
  obtain ⟨-, rfl⟩ | ⟨-, rfl⟩ := of_notNullTest h <;> rfl

/-- A wrapped value becomes what its case says, if its values can be numbered. Those of a sub-query
always are, since it numbered them itself. -/
theorem WrappedCase.resolveWrapped_eq {ctx : LeafContext} {own : Option Comparison}
    {bind quote : Bool} {inner : Value} {leaf : Leaf}
    (h : WrappedCase ctx own (own <|> ctx.comparison) bind quote inner leaf) :
    (LeafRule.resolveWrapped inner bind own quote ctx).result = ctx.numbered leaf ∨
      inner.isRenderable = true ∧
        (LeafRule.resolveWrapped inner bind own quote ctx).result = .ok leaf := by
  rw [LeafRule.resolveWrapped.eq_def]
  dsimp only
  generalize (own <|> ctx.comparison) = c at h ⊢
  cases h with
  | ignored hc htest =>
    subst hc
    rw [if_pos (by simpa using htest), ctx.numbered_of_no_values rfl]
    exact .inl rfl
  | subquery hleft hinner hr h =>
    rw [if_neg (by simp [hleft]), if_pos hinner, Logged.bind_eq_ok]
    exact .inr ⟨hinner, _, hr, h⟩
  | null hleft hnull =>
    obtain rfl := Value.eq_null_of_testsNull hnull
    rw [if_neg (by simp [hleft]), if_neg (by simp [Value.isRenderable]), if_pos hnull,
      ctx.numbered_of_no_values (Leaf.values_nullTest c)]
    exact .inl rfl
  | notNull hleft h =>
    rw [if_neg (by simp [hleft]), if_neg (by simp [Value.isRenderable]),
      if_neg (by simp [Leaf.testsNull_marker]),
      ctx.numbered_of_no_values (Leaf.values_of_notNullTest h)]
    exact .inl h
  | now hleft =>
    rw [if_neg (by simp [hleft]), if_neg (by simp [Value.isRenderable]),
      if_neg (by simp [Leaf.testsNull_marker]), ctx.numbered_of_no_values rfl]
    exact .inl rfl
  | plain hleft hinner hnull hmarker h =>
    rw [if_neg (by simp [hleft]), if_neg (by simp [hinner]), if_neg (by simp [hnull])]
    left
    split
    · exact absurd rfl (hmarker _)
    · exact absurd rfl (hmarker _)
    · rw [Logged.result_ofExcept, h]
      rfl

section

open LeafRules

variable {v : Value} {ctx : LeafContext}

/-- Under a comparison without a right-hand side a value is ignored. -/
theorem LeafRules.resolve_standard_of_leftOnly {c : Comparison} (hc : ctx.comparison = some c)
    (hleft : c.leftOnly = true) : standard.resolve v ctx = .ok (Leaf.leftOnly c) := by
  have happlies : LeafRule.leftOnly.applies v ctx = true := by
    simp [LeafRule.leftOnly, hc, hleft]
  rw [standard, resolve_of_applies _ happlies]
  simp [LeafRule.leftOnly, hc]

theorem LeafRules.resolve_standard_of_not_leftOnly
    (hleft : ctx.comparison.any (·.leftOnly) = false) :
    standard.resolve v ctx = LeafRules.resolve
      [.null, .notNull, .marker, .valueList, .wrapped, .subquery, .scalar] v ctx :=
  resolve_of_not_applies _ hleft

theorem LeafRules.resolve_standard_of_not_null (hleft : ctx.comparison.any (·.leftOnly) = false)
    (hnull : Leaf.testsNull ctx.comparison v = false) :
    standard.resolve v ctx = LeafRules.resolve
      [.notNull, .marker, .valueList, .wrapped, .subquery, .scalar] v ctx := by
  rw [resolve_standard_of_not_leftOnly hleft, resolve_of_not_applies _ hnull]

theorem LeafRules.resolve_standard_of_not_marker (hleft : ctx.comparison.any (·.leftOnly) = false)
    (hnull : Leaf.testsNull ctx.comparison v = false) (hmarker : ∀ m, v ≠ .marker m) :
    standard.resolve v ctx =
      LeafRules.resolve [.valueList, .wrapped, .subquery, .scalar] v ctx := by
  rw [resolve_standard_of_not_null hleft hnull, resolve_of_not_applies, resolve_of_not_applies]
  all_goals cases v <;> first | rfl | exact absurd rfl (hmarker _)

theorem LeafRules.resolve_standard_wrapped {inner : Value} {bind quote : Bool}
    {own : Option Comparison} (hleft : ctx.comparison.any (·.leftOnly) = false) :
    standard.resolve (.wrapped inner bind own quote) ctx =
      LeafRule.resolveWrapped inner bind own quote ctx := by
  rw [resolve_standard_of_not_marker hleft rfl (by simp), resolve_of_not_applies _ rfl,
    resolve_of_applies _ rfl]
  rfl

theorem LeafRules.resolve_standard_of_elements? {items : List Value}
    (hleft : ctx.comparison.any (·.leftOnly) = false) (hitems : v.elements? = some items) :
    standard.resolve v ctx = .ofExcept (do
      ctx.numbered (← Leaf.bindList ctx.bound (Leaf.listComparison ctx.comparison) items)) := by
  have hlist : LeafRule.valueList.applies v ctx = true := by
    simp [LeafRule.valueList, hitems]
  -- a list is neither null nor a marker
  have hnull : Leaf.testsNull ctx.comparison v = false := by
    cases v <;> first | rfl | simp [Value.elements?] at hitems
  rw [resolve_standard_of_not_marker hleft hnull (Value.ne_marker_of_elements? hitems),
    resolve_of_applies _ hlist]
  show Logged.ofExcept (do ctx.numbered (← Leaf.bindList _ _ (v.elements?.getD []))) = _
  rw [hitems, Option.getD_some]

theorem LeafRules.resolve_standard_of_isRenderable
    (hleft : ctx.comparison.any (·.leftOnly) = false) (hv : v.isRenderable = true) :
    standard.resolve v ctx = LeafRule.subquery.resolve v ctx := by
  -- what renders itself is no other kind of value
  have hmarker (m : Marker) : v ≠ .marker m := by
    rintro rfl
    exact Bool.false_ne_true hv
  rw [resolve_standard_of_not_marker hleft _ hmarker, resolve_of_not_applies _ _,
    resolve_of_not_applies _ _, resolve_of_applies _ hv]
  all_goals cases v <;> first | rfl | exact absurd hv Bool.false_ne_true

theorem LeafRules.resolve_standard_of_scalar
    (hleft : ctx.comparison.any (·.leftOnly) = false)
    (hnull : Leaf.testsNull ctx.comparison v = false) (hmarker : ∀ m, v ≠ .marker m)
    (hitems : v.elements? = none)
    (hwrapped : ∀ inner bind own quote, v ≠ .wrapped inner bind own quote)
    (hv : v.isRenderable = false) : standard.resolve v ctx =
      .ofExcept (ctx.numbered (.bindOne ctx.bound (ctx.comparison.getD .equal) v)) := by
  rw [resolve_standard_of_not_marker hleft hnull hmarker, resolve_of_not_applies _ _,
    resolve_of_not_applies _ _, resolve_of_not_applies _ hv, resolve_of_applies _ rfl]
  · rfl
  · cases v <;> first | rfl | exact absurd rfl (hwrapped _ _ _ _)
  · simp [LeafRule.valueList, hitems]

/-- A value becomes the leaf that its case says, if its values can be numbered. Those of a sub-query
always are, since it numbered them itself. -/
theorem LeafCase.resolve_standard_eq {leaf : Leaf} (h : LeafCase ctx v leaf) :
    (standard.resolve v ctx).result = ctx.numbered leaf ∨
      (v.isRenderable = true ∨ ∃ inner bind own quote, v = .wrapped inner bind own quote ∧
        inner.isRenderable = true) ∧ (standard.resolve v ctx).result = .ok leaf := by
  cases h with
  | ignored hc htest =>
    rw [resolve_standard_of_leftOnly hc htest, ctx.numbered_of_no_values rfl]
    exact .inl rfl
  | null hleft hnull =>
    rw [resolve_standard_of_not_leftOnly hleft, resolve_of_applies _ hnull,
      ctx.numbered_of_no_values (Leaf.values_nullTest _)]
    exact .inl rfl
  | notNull hleft h =>
    rw [resolve_standard_of_not_null hleft rfl, resolve_of_applies _ rfl,
      ctx.numbered_of_no_values (Leaf.values_of_notNullTest h)]
    exact .inl h
  | now hleft =>
    rw [resolve_standard_of_not_null hleft rfl, resolve_of_not_applies _ rfl,
      resolve_of_applies _ rfl, ctx.numbered_of_no_values rfl]
    exact .inl rfl
  | items hleft hitems h =>
    rw [resolve_standard_of_elements? hleft hitems, h]
    exact .inl rfl
  | wrapped hleft h =>
    rw [resolve_standard_wrapped hleft]
    exact h.resolveWrapped_eq.imp_right fun hboth ↦
      ⟨.inr ⟨_, _, _, _, rfl, hboth.1⟩, hboth.2⟩
  | subquery hleft hv hr h =>
    rw [resolve_standard_of_isRenderable hleft hv]
    exact .inr ⟨.inl hv, Logged.bind_eq_ok.mpr ⟨_, hr, h⟩⟩
  | scalar hleft hnull hmarker hitems hwrapped hv =>
    rw [resolve_standard_of_scalar hleft hnull hmarker hitems hwrapped hv]
    exact .inl rfl

theorem LeafCase.resolve_standard {leaf : Leaf} (h : LeafCase ctx v leaf)
    (hnumbered : ctx.numbered leaf = .ok leaf) :
    (standard.resolve v ctx).result = .ok leaf :=
  h.resolve_standard_eq.elim (·.trans hnumbered) (·.2)

end

namespace Condition

variable {s : Scope} {key : String} {top : Connective} {c : Option Comparison} {b : Int}

/-! ## Lists -/

theorem fieldOf_of_field? {field : Field} (h : s.table.field? key = some field) :
    fieldOf s key = .ok field := by
  rw [fieldOf, h]

theorem ofNodes_of_threaded {vs : List Value} {parts : List Condition}
    (h : Threaded (fun v b part ↦ (ofNode s .and v c b).result = .ok part) vs b parts) :
    (ofNodes s vs c b).result = .ok parts := by
  induction h with
  | nil => rfl
  | cons head tail ih =>
    rw [ofNodes, Logged.bind_eq_ok]
    exact ⟨_, head, Logged.bind_eq_ok.mpr ⟨_, ih, rfl⟩⟩

theorem ofFieldItems_of_threaded {vs : List Value} {parts : List Condition}
    (h : Threaded (fun v b part ↦ (ofField s key v c b).result = .ok part) vs b parts) :
    (ofFieldItems s key vs c b).result = .ok parts := by
  induction h with
  | nil => rfl
  | cons head tail ih =>
    rw [ofFieldItems, Logged.bind_eq_ok]
    exact ⟨_, head, Logged.bind_eq_ok.mpr ⟨_, ih, rfl⟩⟩

theorem ofEntries_of_threaded {es : List (String × Value)} {parts : List Condition}
    (h : Threaded (fun e b part ↦ (∃ field, s.table.field? e.1 = some field) ∧
      (ofField s e.1 e.2 c b).result = .ok part) es b parts) :
    (ofEntries s es c b).result = .ok parts := by
  induction h with
  | nil => rfl
  | cons head tail ih =>
    obtain ⟨⟨field, hfield⟩, hpart⟩ := head
    rw [ofEntries, Logged.bind_eq_ok]
    exact ⟨field, fieldOf_of_field? hfield,
      Logged.bind_eq_ok.mpr ⟨_, hpart, Logged.bind_eq_ok.mpr ⟨_, ih, rfl⟩⟩⟩

/-! ## Values under a key -/

theorem ofField_eq_ofScalar {v : Value}
    (hgroup : ∀ id groupKind items own, v ≠ .group id groupKind items own)
    (hmap : ∀ entries, v ≠ .map entries) :
    ofField s key v c b = ofScalar s key v (renderInner s.isFar v) c b := by
  rw [ofField.eq_def]
  split
  · exact absurd rfl (hmap _)
  · exact absurd rfl (hgroup _ _ _ _)
  · rfl
  · rw [renderInner_query]
  · rename_i hwrapped hquery
    rw [renderInner_of_plain hwrapped hquery]

theorem ofField_eq_ofLeaf {v : Value} {field : Field} (hfield : s.table.field? key = some field)
    (hgroup : ∀ id groupKind items own, v ≠ .group id groupKind items own)
    (hmap : ∀ entries, v ≠ .map entries) (hunset : v ≠ .unset) :
    ofField s key v c b = (do
      .ofExcept (ofLeaf field key (← s.rules.resolve v (leafContext s key field v c b)))) := by
  have hnot : ¬v.isUnset = true := by
    cases v <;> first | exact Bool.false_ne_true | exact absurd rfl hunset
  rw [ofField_eq_ofScalar hgroup hmap, ofScalar, fieldOf_of_field? hfield]
  show (if v.isUnset then _ else _ : Logged Condition) = _
  rw [if_neg hnot]
  rfl

theorem FieldCase.ofField {v : Value} {condition : Condition}
    (h : FieldCase s key c b v condition) : (ofField s key v c b).result = .ok condition := by
  cases h with
  | group hitems =>
    rw [Condition.ofField, Logged.map_eq_ok]
    exact ⟨_, ofFieldItems_of_threaded hitems, rfl⟩
  | skipped hfield =>
    rw [ofField_eq_ofScalar (by simp) (by simp), ofScalar, Logged.bind_eq_ok]
    exact ⟨_, fieldOf_of_field? hfield, rfl⟩
  | leaf hfield hgroup hmap hunset hleaf hright =>
    rw [ofField_eq_ofLeaf hfield hgroup hmap hunset, Logged.bind_eq_ok]
    refine ⟨_, hleaf, ?_⟩
    rw [Logged.result_ofExcept, ofLeaf, hright]

/-! ## Nodes -/

theorem ofBare_of_rightOnly {v : Value} {render : Int → Logged Rendition} {test : Comparison}
    {r : Rendition} (htest : c = some test) (hright : test.rightOnly = true)
    (h : (render b).result = .ok r) :
    (ofBare v true render c b).result =
      .ok (.atom (test.label ++ " (" ++ r.query.inline ++ ")") r.values) := by
  subst htest
  rw [ofBare, hright, Bool.and_true, if_pos rfl, Logged.bind_eq_ok]
  exact ⟨r, h, rfl⟩

/-- What renders itself can only be a test for rows at the position of a node. -/
theorem ofNode_eq_ofBare {v : Value} (hv : v.isRenderable = true) :
    ofNode s top v c b = ofBare v true (render s.isFar v) c b := by
  cases v with
  | query id select =>
    rw [render_query]
    rfl
  | rawSql | renderable => rfl
  | recordType | object =>
    rw [Condition.ofNode.eq_def]
    dsimp only
    rw [hv]
    rfl
  | _ => exact absurd hv Bool.false_ne_true

theorem NodeCase.ofNode {v : Value} {condition : Condition} (h : NodeCase s top c b v condition) :
    (ofNode s top v c b).result = .ok condition := by
  cases h with
  | group hitems =>
    rw [Condition.ofNode, Logged.map_eq_ok]
    exact ⟨_, ofNodes_of_threaded hitems, rfl⟩
  | list hitems | tuple hitems =>
    rw [Condition.ofNode, Logged.map_eq_ok]
    exact ⟨_, ofNodes_of_threaded hitems, rfl⟩
  | map hentries =>
    rw [Condition.ofNode, Logged.map_eq_ok]
    exact ⟨_, ofEntries_of_threaded hentries, rfl⟩
  | wrappedRows htest hright hinner hr =>
    rw [Condition.ofNode, hinner]
    exact ofBare_of_rightOnly htest hright hr
  | rows htest hright hv hr =>
    rw [ofNode_eq_ofBare hv]
    exact ofBare_of_rightOnly htest hright hr

end Condition

end Rowmap
