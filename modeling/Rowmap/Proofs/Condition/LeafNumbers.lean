import Rowmap.Proofs.Condition.Fragments
import Rowmap.Proofs.Condition.Succeeds

/-!
# The placeholders of leaves

Each leaf of the standard rules has the placeholders of its own values on its right-hand side, and
none elsewhere. For a leaf that is a sub-query this is left to whoever knows how the sub-query
renders.
-/

namespace Rowmap

/-! ## Plain texts -/

@[simp] theorem Comparison.numbers_label (c : Comparison) : Sql.numbers c.label = [] := by
  cases c <;> exact Sql.numbers_of_no_dollar (by decide)

theorem numbers_wrapRight (right : String) (c : Comparison) :
    Sql.numbers (Leaf.wrapRight right c) = Sql.numbers right := by
  rw [Leaf.wrapRight]
  split
  · exact Sql.numbers_parenthesized right
  · rfl

/-! ## Leaves that bind -/

namespace Leaf

variable {d : Sql.Numbering} {b : Nat}

/-- A leaf that binds given values, after so many others. -/
structure Binds (d : Sql.Numbering) (b : Nat) (leaf : Leaf) (values : List Value) : Prop where
  values_eq : leaf.values = values
  operator : Sql.numbers leaf.operator = []
  right : d.holds b values.length (Sql.numbers leaf.right)

theorem binds_nothing {leaf : Leaf} (hvalues : leaf.values = [])
    (hoperator : Sql.numbers leaf.operator = []) (hright : Sql.numbers leaf.right = []) :
    leaf.Binds d b [] where
  values_eq := hvalues
  operator := hoperator
  right := by rw [hright]; exact d.holds_nil b

theorem binds_plain {leaf : Leaf} (hvalues : leaf.values = [])
    (hoperator : '$' ∉ leaf.operator.toList) (hright : '$' ∉ leaf.right.toList) :
    leaf.Binds d b [] :=
  binds_nothing hvalues (Sql.numbers_of_no_dollar hoperator) (Sql.numbers_of_no_dollar hright)

theorem binds_nullTest (c : Option Comparison) : (nullTest c).Binds d b [] := by
  rw [nullTest]
  split
  · exact binds_plain rfl (by decide) (by decide)
  · exact binds_plain rfl (by decide) (by decide)

theorem binds_of_notNullTest {key : String} {c : Option Comparison} {leaf : Leaf}
    (h : notNullTest key c = .ok leaf) : leaf.Binds d b [] := by
  obtain ⟨-, rfl⟩ | ⟨-, rfl⟩ := of_notNullTest h
  · exact binds_plain rfl (by decide) (by decide)
  · exact binds_plain rfl (by decide) (by decide)

theorem binds_ofMarker (c : Comparison) (m : Marker) : (ofMarker c m).Binds d b [] := by
  refine binds_nothing rfl c.numbers_label ((numbers_wrapRight _ c).trans ?_)
  cases m <;> exact Sql.numbers_of_no_dollar (by decide)

theorem binds_ofEmpty (c : Comparison) : (ofEmpty c).Binds d b [] := by
  have hright : Sql.numbers (ofEmpty c).right = [] := by
    rw [ofEmpty]
    split <;> exact Sql.numbers_of_no_dollar (by decide)
  exact binds_nothing rfl Comparison.equal.numbers_label hright

theorem binds_bindOne (c : Comparison) (v : Value) : (bindOne b c v).Binds d b [v] where
  values_eq := rfl
  operator := c.numbers_label
  right := by
    rw [bindOne, compare, numbers_wrapRight, Sql.numbers_placeholders]
    exact d.holds_range b 1

theorem binds_among (c : Comparison) (values : List Value) :
    (among c (Sql.placeholders b values.length) values).Binds d b values where
  values_eq := rfl
  operator := c.numbers_label
  right := by
    rw [among, Sql.numbers_parenthesized, Sql.numbers_placeholders]
    exact d.holds_range b values.length

/-! ### The values alone -/

theorem values_of_listCase {b : Int} {c : Comparison} {items : List Value} {leaf : Leaf}
    (h : ListCase b c items leaf) :
    leaf.values = if c.bindsEach then items else [.list items] := by
  cases h with
  | array heach | whole heach | empty heach =>
    rw [heach]
    rfl
  | each heach _ =>
    rw [heach]
    rfl

theorem values_of_plainCase {b : Int} {c : Comparison} {inner : Value} {bind quote : Bool}
    {leaf : Leaf} (h : PlainCase b c quote inner bind leaf) :
    leaf.values = if bind then
      match inner.elements? with
      | some items => if c.bindsEach then items else [.list items]
      | none => [inner]
    else [] := by
  cases h with
  | list hitems h =>
    rw [hitems]
    exact values_of_listCase h
  | one hitems =>
    rw [hitems]
    rfl
  | inlineList _ h => cases h <;> rfl
  | inlined => rfl

theorem values_of_splice {explicit : Option Comparison} {r : Rendition} {leaf : Leaf}
    (h : splice explicit r = .ok leaf) : leaf.values = r.values := by
  obtain ⟨_, _, -, rfl⟩ := of_splice h
  rfl

/-! ### Values and placeholders -/

theorem binds_of_listCase {c : Comparison} {items : List Value} {leaf : Leaf}
    (h : ListCase b c items leaf) :
    leaf.Binds d b (if c.bindsEach then items else [.list items]) := by
  cases h with
  | array heach =>
    rw [heach]
    exact binds_among c [.list items]
  | whole heach =>
    rw [heach]
    exact binds_bindOne c (.list items)
  | empty heach =>
    rw [heach]
    exact binds_ofEmpty c
  | each heach _ =>
    rw [heach]
    exact binds_among c items

theorem binds_of_inlineCase {quote : Bool} {c : Comparison} {items : List Value} {leaf : Leaf}
    (hplain : ∀ x ∈ items, ∀ text, inlined quote x = .ok text → Sql.numbers text = [])
    (h : InlineCase quote c items leaf) : leaf.Binds d b [] := by
  cases h with
  | empty => exact binds_ofEmpty c
  | joined _ htexts =>
    refine binds_nothing rfl c.numbers_label ?_
    rw [among, Sql.numbers_parenthesized, Sql.Separates.comma.numbers_intercalate,
      List.flatMap_eq_nil_iff]
    exact Except.forall_of_mapM htexts hplain

/-- A wrapped value that is neither a sub-query nor a test for null. -/
theorem binds_of_plainCase {c : Comparison} {inner : Value} {bind quote : Bool} {leaf : Leaf}
    (hplain : bind = false → inner.InlinesPlainly quote)
    (h : PlainCase b c quote inner bind leaf) :
    leaf.Binds d b (if bind then
      match inner.elements? with
      | some items => if c.bindsEach then items else [.list items]
      | none => [inner]
    else []) := by
  cases h with
  | list hitems h =>
    rw [hitems]
    exact binds_of_listCase h
  | one hitems =>
    rw [hitems]
    exact binds_bindOne c inner
  | inlineList hitems h =>
    refine binds_of_inlineCase ?_ h
    have hx := hplain rfl
    rwa [Value.InlinesPlainly, hitems] at hx
  | @inlined text hitems htext =>
    have hx := hplain rfl
    rw [Value.InlinesPlainly, hitems] at hx
    exact binds_nothing rfl c.numbers_label
      ((numbers_wrapRight text c).trans (hx inner List.mem_cons_self text htext))

end Leaf

/-! ## Sub-queries -/

/-- A rendition that writes no placeholders where it asks for a comparison. -/
def Rendition.PlainOperator (r : Rendition) : Prop :=
  ∀ c operator, Leaf.ownComparison r.comparison = .ok (some (c, operator)) →
    Sql.numbers operator = []

/-- A rendition of a value after so many bound values: the values' numbers are in the text, at the
leaves of the value where it is a query. -/
structure RendersRows (d : Sql.Numbering) (b : Nat) (v : Value) (r : Rendition) : Prop where
  operator : r.PlainOperator
  rows : v.rowValues b = r.values ∧ Value.rowLeaves true v = [] ∧
      d.holds b r.values.length (Sql.numbers r.query.inline) ∨
    v.rowValues b = [] ∧ Aligned d b (Value.rowLeaves true v) r.query.inline r.values

/-- A sub-query in a text, at its own leaf and those inside it. -/
theorem RendersRows.enclosed {d : Sql.Numbering} {b : Nat} {v : Value} {r : Rendition}
    (h : RendersRows d b v r) {p : Place} (hp : p.ownValues b = v.rowValues b) {pre post : String}
    (hpre : Sql.Opens pre) (hpost : Sql.Closes post) :
    Aligned d b (p :: Value.rowLeaves true v) (pre ++ r.query.inline ++ post) r.values := by
  obtain ⟨hvalues, hleaves, hholds⟩ | ⟨hvalues, haligned⟩ := h.rows
  · rw [hleaves]
    refine .of_leaf (by rw [hp, hvalues]) ?_
    rwa [Sql.numbers_enclosed hpre hpost]
  · have hhead : Aligned d b [p] pre [] :=
      .of_leaf (by rw [hp, hvalues]) (by rw [hpre.numbers_eq]; exact d.holds_nil b)
    rw [String.append_assoc]
    exact hhead.append (haligned.closed hpost) (by rw [hpre, hpre.numbers_eq, List.nil_append])

/-! ## Leaves in a tree -/

namespace Place

/-- The value that a leaf compares with: what its wrapper wraps, if it has one. -/
def inner (p : Place) : Value :=
  match p.value with
  | .wrapped inner _ _ _ => inner
  | v => v

theorem inner_of_not_wrapped {p : Place}
    (h : ∀ inner bind own quote, p.value ≠ .wrapped inner bind own quote) : p.inner = p.value := by
  rw [inner.eq_def]
  split
  · exact absurd ‹_› (h _ _ _ _)
  · rfl

theorem inner_of_isRenderable {p : Place} (h : p.value.isRenderable = true) : p.inner = p.value :=
  inner_of_not_wrapped (Value.ne_wrapped_of_isRenderable h)

theorem isIgnored_of_not_wrapped {p : Place} (hleft : p.comparison.any (·.leftOnly) = false)
    (h : ∀ inner bind own quote, p.value ≠ .wrapped inner bind own quote) :
    p.isIgnored = false := by
  rw [isIgnored, hleft, Bool.false_or]
  split
  · exact absurd ‹_› (h _ _ _ _)
  · exact Bool.and_false _

theorem isIgnored_of_leftOnly {key : String} {v : Value} {test : Comparison}
    (h : test.leftOnly = true) : (⟨some key, v, some test⟩ : Place).isIgnored = true := by
  simp [isIgnored, h]

/-- A wrapper's own comparison comes first, so where the other one ignores no value, the one in force
decides. -/
theorem isIgnored_wrapped {key : String} {inner : Value} {bind quote : Bool}
    {own c : Option Comparison} (hleft : c.any (·.leftOnly) = false) :
    (⟨some key, .wrapped inner bind own quote, c⟩ : Place).isIgnored =
      (own <|> c).any (·.leftOnly) := by
  rw [isIgnored, hleft]
  cases own with
  | none => simp [hleft]
  | some test => simp

theorem ownValues_wrapped {key : String} {inner : Value} {bind quote : Bool}
    {own c : Option Comparison}
    (h : (⟨some key, .wrapped inner bind own quote, c⟩ : Place).isIgnored = false) (b : Int) :
    (⟨some key, .wrapped inner bind own quote, c⟩ : Place).ownValues b =
      inner.boundValues (own <|> c) bind (!(own <|> c).any (·.bindsEach)) b := by
  rw [ownValues, h, if_neg Bool.false_ne_true]

theorem ownValues_of_isIgnored {p : Place} (h : p.isIgnored = true) (b : Int) :
    p.ownValues b = [] := by
  rw [ownValues, if_pos h]

theorem ownValues_of_not_wrapped {p : Place} (hleft : p.comparison.any (·.leftOnly) = false)
    (h : ∀ inner bind own quote, p.value ≠ .wrapped inner bind own quote) (b : Int) :
    p.ownValues b = p.value.boundValues p.comparison true (p.comparison.any (·.bindsArray)) b := by
  rw [ownValues, isIgnored_of_not_wrapped hleft h, if_neg Bool.false_ne_true]
  split
  · exact absurd ‹_› (h _ _ _ _)
  · rfl

theorem ownValues_of_isRenderable {p : Place} (hignored : p.isIgnored = false)
    (h : p.inner.isRenderable = true) (b : Int) : p.ownValues b = p.inner.rowValues b := by
  rw [ownValues, hignored, if_neg Bool.false_ne_true]
  rw [inner.eq_def] at h ⊢
  split <;> simp_all [Value.boundValues]

end Place

theorem Value.rowLeaves_of_not_isRenderable {v : Value} (h : v.isRenderable = false) :
    Value.rowLeaves true v = [] := by
  cases v <;> first | rfl | simp [Value.isRenderable] at h

/-- A leaf whose operator has no placeholders, and whose right-hand side is aligned. -/
structure Leaf.AlignedAs (d : Sql.Numbering) (b : Nat) (places : List Place) (leaf : Leaf) :
    Prop where
  operator : Sql.numbers leaf.operator = []
  right : Aligned d b places leaf.right leaf.values

section

variable {d : Sql.Numbering} {b : Nat} {p : Place} {leaf : Leaf}

theorem Leaf.Binds.alignedAs {values : List Value} (h : leaf.Binds d b values)
    (hp : p.ownValues b = values) : leaf.AlignedAs d b [p] where
  operator := h.operator
  right := .of_leaf (by rw [h.values_eq, hp]) (by rw [h.values_eq]; exact h.right)

theorem Leaf.parts_of_splice {explicit : Option Comparison} {r : Rendition}
    (h : Leaf.splice explicit r = .ok leaf) (hr : r.PlainOperator) :
    Sql.numbers leaf.operator = [] ∧ leaf.right = "(" ++ r.query.inline ++ ")" ∧
      leaf.values = r.values := by
  obtain ⟨comparison, operator, hleads, rfl⟩ := of_splice h
  refine ⟨?_, rfl, rfl⟩
  cases hleads with
  | given => exact Comparison.numbers_label _
  | amongRows => exact Comparison.oneOf.numbers_label
  | own _ hown => exact hr _ _ hown

theorem Leaf.alignedAs_of_splice {explicit : Option Comparison} {v : Value} {r : Rendition}
    (h : Leaf.splice explicit r = .ok leaf) (hr : RendersRows d b v r)
    (hp : p.ownValues b = v.rowValues b) : leaf.AlignedAs d b (p :: Value.rowLeaves true v) := by
  obtain ⟨hoperator, hright, hvalues⟩ := Leaf.parts_of_splice h hr.operator
  refine ⟨hoperator, ?_⟩
  rw [hright, hvalues]
  exact hr.enclosed hp Sql.opens_parenthesis Sql.closes_parenthesis

namespace Value

variable {v : Value} {c : Option Comparison} {bind asArray : Bool}

theorem boundValues_of_testsNull (h : Leaf.testsNull c v = true) (i : Int) :
    v.boundValues c bind asArray i = [] := by
  have hnull : v = .null := by
    cases v <;> first | rfl | simp [Leaf.testsNull, isNull] at h
  subst hnull
  rw [boundValues.eq_def, if_neg (by decide), if_pos h]

theorem boundValues_marker (m : Marker) (i : Int) :
    (Value.marker m).boundValues c bind asArray i = [] := by
  have hmarker : (Value.marker m).isRenderable = false := rfl
  rw [boundValues.eq_def, hmarker, if_neg Bool.false_ne_true]
  exact ite_self []

theorem boundValues_of_plain (hrenderable : v.isRenderable = false)
    (hnull : Leaf.testsNull c v = false) (hmarker : ∀ m, v ≠ .marker m) (i : Int) :
    v.boundValues c bind asArray i =
      if bind then
        match v.elements? with
        | some items => if asArray then [.list items] else items
        | none => [v]
      else [] := by
  rw [boundValues.eq_def, hrenderable, hnull]
  cases v <;> first | rfl | exact absurd rfl (hmarker _)

/-- A list of values is neither a sub-query nor a marker nor absent. -/
theorem boundValues_of_elements? {items : List Value} (h : v.elements? = some items) (i : Int) :
    v.boundValues c true asArray i = if asArray then [.list items] else items := by
  have hnull : Leaf.testsNull c v = false := by
    cases v <;> first | rfl | simp [elements?] at h
  rw [boundValues_of_plain (isRenderable_of_elements? h) hnull (ne_marker_of_elements? h), h]
  rfl

end Value

theorem Leaf.bindsEach_listComparison (c : Option Comparison) :
    (Leaf.listComparison c).bindsEach = !c.any (·.bindsArray) := by
  cases c with
  | none => rfl
  | some c => cases c <;> rfl

/-- What becomes of a leaf at its place: a comparison without a right-hand side ignores the value, a
sub-query is spliced in, and any other value binds what there is to bind at the place itself. -/
inductive Place.Becomes (p : Place) (ctx : LeafContext) (leaf : Leaf) : Prop where
  | ignored {test : Comparison} (hignored : p.isIgnored = true) (hleaf : leaf = .leftOnly test)
  | rows {explicit : Option Comparison} {r : Rendition} (hnot : p.isIgnored = false)
      (hinner : p.inner.isRenderable = true) (hr : (ctx.render ctx.bound).result = .ok r)
      (h : Leaf.splice explicit r = .ok leaf)
  | alone (hnot : p.isIgnored = false) (hinner : p.inner.isRenderable = false)
      (hvalues : leaf.values = p.ownValues ctx.bound)
      (hbinds : ∀ (d : Sql.Numbering) (b : Nat), ctx.bound = b → p.NumbersItself d →
        leaf.Binds d b (p.ownValues b))

theorem WrappedCase.becomes {ctx : LeafContext} {key : String} {inner : Value}
    {bind quote : Bool} {own : Option Comparison}
    (h : WrappedCase ctx own (own <|> ctx.comparison) bind quote inner leaf)
    (hleft : ctx.comparison.any (·.leftOnly) = false)
    (hp : p = ⟨some key, .wrapped inner bind own quote, ctx.comparison⟩) : p.Becomes ctx leaf := by
  have hignored : p.isIgnored = (own <|> ctx.comparison).any (·.leftOnly) := by
    rw [hp, Place.isIgnored_wrapped hleft]
  have hinner : p.inner = inner := by rw [hp, Place.inner]
  -- what is neither ignored nor a sub-query binds the same wherever it is numbered from
  have halone (hnot : (own <|> ctx.comparison).any (·.leftOnly) = false)
      (hrenderable : inner.isRenderable = false) {values : List Value}
      (hown : ∀ i, inner.boundValues (own <|> ctx.comparison) bind
        (!(own <|> ctx.comparison).any (·.bindsEach)) i = values) (hvalues : leaf.values = values)
      (hbinds : ∀ (d : Sql.Numbering) (b : Nat), ctx.bound = b →
        (bind = false → inner.InlinesPlainly quote) → leaf.Binds d b values) :
      p.Becomes ctx leaf := by
    have hnot : p.isIgnored = false := hignored.trans hnot
    have hsame (i : Int) : p.ownValues i = values := by
      subst hp
      rw [Place.ownValues_wrapped hnot, hown]
    refine .alone hnot (hinner ▸ hrenderable) (hvalues.trans (hsame _).symm) fun d b hb hplain ↦ ?_
    rw [hsame]
    refine hbinds d b hb fun hbind ↦ ?_
    have hplain := hplain hnot
    rw [hp] at hplain
    exact hplain.2 hbind hrenderable
  cases h with
  | ignored hc htest => exact .ignored (by rw [hignored, hc]; exact htest) rfl
  | subquery hnot hrenderable hr h =>
    exact .rows (hignored.trans hnot) (hinner ▸ hrenderable) hr h
  | null hnot hnull =>
    obtain rfl := Value.eq_null_of_testsNull hnull
    exact halone hnot rfl (Value.boundValues_of_testsNull hnull) (Leaf.values_nullTest _)
      fun _ _ _ _ ↦ Leaf.binds_nullTest _
  | notNull hnot h =>
    exact halone hnot rfl (Value.boundValues_marker _) (Leaf.values_of_notNullTest h)
      fun _ _ _ _ ↦ Leaf.binds_of_notNullTest h
  | now hnot =>
    exact halone hnot rfl (Value.boundValues_marker _) rfl fun _ _ _ _ ↦ Leaf.binds_ofMarker _ _
  | plain hnot hrenderable hnull hmarker h =>
    have heach : ((own <|> ctx.comparison).getD .equal).bindsEach =
        (own <|> ctx.comparison).any (·.bindsEach) := by
      cases own <|> ctx.comparison <;> rfl
    refine halone hnot hrenderable (fun i ↦ ?_)
      (Leaf.values_of_plainCase (.of_plainWrapped h)) fun d b hb hinlined ↦ ?_
    · rw [Value.boundValues_of_plain hrenderable hnull hmarker, heach]
      cases (own <|> ctx.comparison).any (·.bindsEach) <;> rfl
    · rw [hb] at h
      exact Leaf.binds_of_plainCase hinlined (.of_plainWrapped h)

theorem Value.fieldLeaves_eq {key : String} {v : Value} {c : Option Comparison}
    (hgroup : ∀ id groupKind items own, v ≠ .group id groupKind items own) (hunset : v ≠ .unset) :
    Value.fieldLeaves true key v c = ⟨some key, v, c⟩ ::
      if (⟨some key, v, c⟩ : Place).isIgnored then []
      else Value.rowLeaves true (⟨some key, v, c⟩ : Place).inner := by
  have hswap (ignored : Bool) (leaves : List Place) :
      (if true && !ignored then leaves else []) = if ignored then [] else leaves := by
    cases ignored <;> rfl
  cases v with
  | group => exact absurd rfl (hgroup _ _ _ _)
  | unset => exact absurd rfl hunset
  | wrapped => exact congrArg _ (hswap _ _)
  | query => exact congrArg _ (hswap _ _)
  | _ => exact congrArg _ (ite_self []).symm

/-- **A value under a key** becomes the leaf of its place. -/
theorem LeafCase.becomes {ctx : LeafContext} {key : String} {v : Value} (h : LeafCase ctx v leaf)
    (hp : p = ⟨some key, v, ctx.comparison⟩) : p.Becomes ctx leaf := by
  -- only a wrapper could still ignore its value once the comparison does not
  have halone (hleft : ctx.comparison.any (·.leftOnly) = false)
      (hv : ∀ inner bind own quote, v ≠ .wrapped inner bind own quote)
      (hrenderable : v.isRenderable = false) {values : List Value}
      (hown : ∀ i, v.boundValues ctx.comparison true (ctx.comparison.any (·.bindsArray)) i = values)
      (hvalues : leaf.values = values)
      (hbinds : ∀ (d : Sql.Numbering) (b : Nat), ctx.bound = b → leaf.Binds d b values) :
      p.Becomes ctx leaf := by
    subst hp
    have hinner := Place.inner_of_not_wrapped (p := ⟨some key, v, ctx.comparison⟩) hv
    have hsame (i : Int) := (Place.ownValues_of_not_wrapped
      (p := ⟨some key, v, ctx.comparison⟩) hleft hv i).trans (hown i)
    refine .alone (Place.isIgnored_of_not_wrapped hleft hv) (hinner ▸ hrenderable)
      (hvalues.trans (hsame _).symm) fun d b hb _ ↦ ?_
    rw [hsame]
    exact hbinds d b hb
  cases h with
  | ignored hc htest =>
    refine .ignored ?_ rfl
    rw [hp, hc]
    exact Place.isIgnored_of_leftOnly htest
  | null hleft hnull =>
    obtain rfl := Value.eq_null_of_testsNull hnull
    exact halone hleft nofun rfl (Value.boundValues_of_testsNull hnull) (Leaf.values_nullTest _)
      fun _ _ _ ↦ Leaf.binds_nullTest _
  | notNull hleft h =>
    exact halone hleft nofun rfl (Value.boundValues_marker _) (Leaf.values_of_notNullTest h)
      fun _ _ _ ↦ Leaf.binds_of_notNullTest h
  | now hleft =>
    exact halone hleft nofun rfl (Value.boundValues_marker _) rfl fun _ _ _ ↦
      Leaf.binds_ofMarker _ _
  | items hleft hitems h =>
    refine halone hleft (Value.ne_wrapped_of_elements? hitems)
      (Value.isRenderable_of_elements? hitems) (fun i ↦ ?_)
      (Leaf.values_of_listCase (.of_bindList h)) fun d b hb ↦ ?_
    · rw [Value.boundValues_of_elements? hitems, Leaf.bindsEach_listComparison]
      cases ctx.comparison.any (·.bindsArray) <;> rfl
    · rw [hb] at h
      exact Leaf.binds_of_listCase (.of_bindList h)
  | wrapped hleft h => exact h.becomes hleft hp
  | subquery hleft hrenderable hr h =>
    have hwrapped := Value.ne_wrapped_of_isRenderable hrenderable
    subst hp
    have hinner := Place.inner_of_not_wrapped (p := ⟨some key, v, ctx.comparison⟩) hwrapped
    exact .rows (Place.isIgnored_of_not_wrapped hleft hwrapped) (hinner ▸ hrenderable) hr h
  | scalar hleft hnull hmarker hitems hwrapped hrenderable =>
    refine halone hleft hwrapped hrenderable (fun i ↦ ?_) rfl fun d b hb ↦ ?_
    · rw [Value.boundValues_of_plain hrenderable hnull hmarker, hitems]
      rfl
    · rw [hb]
      exact Leaf.binds_bindOne _ v

/-- **A leaf has the placeholders of its own values**, and of those inside it. -/
theorem Place.Becomes.alignedAs {ctx : LeafContext} (h : p.Becomes ctx leaf) (hb : ctx.bound = b)
    (hplain : p.NumbersItself d) (hrows : p.inner.isRenderable = true → p.isIgnored = false →
      ∀ r, (ctx.render b).result = .ok r → RendersRows d b p.inner r) :
    leaf.AlignedAs d b (p :: if p.isIgnored then [] else Value.rowLeaves true p.inner) := by
  cases h with
  | ignored hignored hleaf =>
    rw [if_pos hignored, hleaf]
    exact ⟨Comparison.numbers_label _,
      .of_leaf (Place.ownValues_of_isIgnored hignored b).symm (d.holds_nil b)⟩
  | rows hnot hinner hr h =>
    rw [hb] at hr
    rw [hnot, if_neg Bool.false_ne_true]
    exact Leaf.alignedAs_of_splice h (hrows hinner hnot _ hr)
      (Place.ownValues_of_isRenderable hnot hinner b)
  | alone hnot hinner _ hbinds =>
    rw [hnot, if_neg Bool.false_ne_true, Value.rowLeaves_of_not_isRenderable hinner]
    exact (hbinds d b hb hplain).alignedAs rfl

end

end Rowmap
