import Rowmap.Condition.Rule
import Rowmap.Proofs.Condition.Cases
import Rowmap.Proofs.Value.Parts

/-!
# Leaves of the standard rules

The standard rules inverted: every leaf that they resolve is one of the kinds listed here, in the
order in which the rules are tried. A wrapped value goes through the same kinds once more, with the
comparison of its wrapper in front.
-/

namespace Rowmap

/-- How a wrapped value becomes a leaf; `c` is the comparison in force for it. -/
inductive WrappedCase (ctx : LeafContext) (own c : Option Comparison) (bind quote : Bool) :
    Value → Leaf → Prop where
  | ignored {inner : Value} {test : Comparison} (hc : c = some test)
      (hleft : test.leftOnly = true) : WrappedCase ctx own c bind quote inner (.leftOnly test)
  | subquery {inner : Value} {r : Rendition} {leaf : Leaf}
      (hleft : c.any (·.leftOnly) = false) (hinner : inner.isRenderable = true)
      (hr : (ctx.render ctx.bound).result = .ok r) (h : Leaf.splice own r = .ok leaf) :
      WrappedCase ctx own c bind quote inner leaf
  | null {inner : Value} (hleft : c.any (·.leftOnly) = false)
      (hnull : Leaf.testsNull c inner = true) :
      WrappedCase ctx own c bind quote inner (Leaf.nullTest c)
  | notNull {leaf : Leaf} (hleft : c.any (·.leftOnly) = false)
      (h : Leaf.notNullTest ctx.key c = .ok leaf) :
      WrappedCase ctx own c bind quote (.marker .notNull) leaf
  | now (hleft : c.any (·.leftOnly) = false) :
      WrappedCase ctx own c bind quote (.marker .now) (.ofMarker (c.getD .equal) .now)
  | plain {inner : Value} {leaf : Leaf} (hleft : c.any (·.leftOnly) = false)
      (hinner : inner.isRenderable = false) (hnull : Leaf.testsNull c inner = false)
      (hmarker : ∀ m, inner ≠ .marker m)
      (h : LeafRule.plainWrapped ctx.bound (c.getD .equal) inner bind quote = .ok leaf) :
      WrappedCase ctx own c bind quote inner leaf

inductive LeafCase (ctx : LeafContext) : Value → Leaf → Prop where
  | ignored {v : Value} {test : Comparison} (hc : ctx.comparison = some test)
      (hleft : test.leftOnly = true) : LeafCase ctx v (.leftOnly test)
  | null {v : Value} (hleft : ctx.comparison.any (·.leftOnly) = false)
      (hnull : Leaf.testsNull ctx.comparison v = true) :
      LeafCase ctx v (Leaf.nullTest ctx.comparison)
  | notNull {leaf : Leaf} (hleft : ctx.comparison.any (·.leftOnly) = false)
      (h : Leaf.notNullTest ctx.key ctx.comparison = .ok leaf) :
      LeafCase ctx (.marker .notNull) leaf
  | now (hleft : ctx.comparison.any (·.leftOnly) = false) :
      LeafCase ctx (.marker .now) (.ofMarker (ctx.comparison.getD .equal) .now)
  | items {v : Value} {items : List Value} {leaf : Leaf}
      (hleft : ctx.comparison.any (·.leftOnly) = false) (hv : v.elements? = some items)
      (h : Leaf.bindList ctx.bound (Leaf.listComparison ctx.comparison) items = .ok leaf) :
      LeafCase ctx v leaf
  | wrapped {inner : Value} {bind quote : Bool} {own : Option Comparison} {leaf : Leaf}
      (hleft : ctx.comparison.any (·.leftOnly) = false)
      (h : WrappedCase ctx own (own <|> ctx.comparison) bind quote inner leaf) :
      LeafCase ctx (.wrapped inner bind own quote) leaf
  | subquery {v : Value} {r : Rendition} {leaf : Leaf}
      (hleft : ctx.comparison.any (·.leftOnly) = false) (hv : v.isRenderable = true)
      (hr : (ctx.render ctx.bound).result = .ok r) (h : Leaf.splice none r = .ok leaf) :
      LeafCase ctx v leaf
  | scalar {v : Value} (hleft : ctx.comparison.any (·.leftOnly) = false)
      (hnull : Leaf.testsNull ctx.comparison v = false) (hmarker : ∀ m, v ≠ .marker m)
      (hitems : v.elements? = none)
      (hwrapped : ∀ inner bind own quote, v ≠ .wrapped inner bind own quote)
      (hv : v.isRenderable = false) :
      LeafCase ctx v (.bindOne ctx.bound (ctx.comparison.getD .equal) v)

/-! ## Inversion -/

theorem LeafContext.eq_of_numbered {ctx : LeafContext} {leaf leaf' : Leaf}
    (h : ctx.numbered leaf = .ok leaf') : leaf = leaf' := by
  rw [LeafContext.numbered] at h
  split at h
  · simp at h
  · exact Except.ok.inj h

theorem LeafContext.of_bind_numbered {ctx : LeafContext} {x : Except Failure Leaf} {leaf : Leaf}
    (h : (do ctx.numbered (← x)) = .ok leaf) : x = .ok leaf := by
  obtain ⟨leaf', hx, h⟩ := Except.bind_eq_ok.mp h
  rw [hx, eq_of_numbered h]

theorem Option.eq_some_of_any {α : Type} {p : α → Bool} {c : Option α} (h : c.any p = true) :
    ∃ a, c = some a ∧ p a = true := by
  cases c with
  | none => simp at h
  | some a => exact ⟨a, rfl, by simpa using h⟩

theorem WrappedCase.of_resolveWrapped {inner : Value} {bind quote : Bool}
    {own : Option Comparison} {ctx : LeafContext} {leaf : Leaf}
    (h : (LeafRule.resolveWrapped inner bind own quote ctx).result = .ok leaf) :
    WrappedCase ctx own (own <|> ctx.comparison) bind quote inner leaf := by
  rw [LeafRule.resolveWrapped.eq_def] at h
  dsimp only at h
  generalize (own <|> ctx.comparison) = c at h ⊢
  -- each test is made once those before it have failed, so every case refutes them
  by_cases hleft : c.any (·.leftOnly) = true
  · rw [if_pos hleft] at h
    obtain ⟨test, rfl, htest⟩ := Option.eq_some_of_any hleft
    obtain rfl := Except.ok.inj h
    exact .ignored rfl htest
  rw [if_neg hleft] at h
  rw [Bool.not_eq_true] at hleft
  by_cases hinner : inner.isRenderable = true
  · rw [if_pos hinner, Logged.bind_eq_ok] at h
    obtain ⟨r, hr, h⟩ := h
    exact .subquery hleft hinner hr h
  rw [if_neg hinner] at h
  rw [Bool.not_eq_true] at hinner
  by_cases hnull : Leaf.testsNull c inner = true
  · rw [if_pos hnull] at h
    obtain rfl := Except.ok.inj h
    exact .null hleft hnull
  rw [if_neg hnull] at h
  rw [Bool.not_eq_true] at hnull
  split at h
  · exact .notNull hleft h
  · rename_i m hm
    obtain rfl := Except.ok.inj h
    cases m with
    | notNull => exact absurd rfl hm
    | now => exact .now hleft
  · rename_i hnotNull hmarker
    exact .plain hleft hinner hnull hmarker (LeafContext.of_bind_numbered h)

namespace LeafRules

variable {rule : LeafRule} {v : Value} {ctx : LeafContext}

theorem resolve_of_applies (rules : LeafRules) (h : rule.applies v ctx = true) :
    LeafRules.resolve (rule :: rules) v ctx = rule.resolve v ctx := by
  rw [resolve, List.find?_cons, h]

theorem resolve_of_not_applies (rules : LeafRules) (h : rule.applies v ctx = false) :
    LeafRules.resolve (rule :: rules) v ctx = LeafRules.resolve rules v ctx := by
  rw [resolve, resolve, List.find?_cons, h]

end LeafRules

section

open LeafRules

theorem LeafCase.of_otherThanNull {v : Value} {ctx : LeafContext} {leaf : Leaf}
    (hleft : ctx.comparison.any (·.leftOnly) = false)
    (hnull : Leaf.testsNull ctx.comparison v = false)
    (h : (LeafRules.resolve [.notNull, .marker, .valueList, .wrapped, .subquery, .scalar] v
      ctx).result = .ok leaf) : LeafCase ctx v leaf := by
  by_cases hnotNull : v = .marker .notNull
  · subst hnotNull
    rw [resolve_of_applies _ rfl] at h
    exact .notNull hleft h
  by_cases hnow : v = .marker .now
  · subst hnow
    rw [resolve_of_not_applies _ rfl, resolve_of_applies _ rfl] at h
    obtain rfl : Leaf.ofMarker (ctx.comparison.getD .equal) .now = leaf := Except.ok.inj h
    exact .now hleft
  have hmarker (m : Marker) : v ≠ .marker m := by
    cases m
    · exact hnotNull
    · exact hnow
  rw [resolve_of_not_applies _ (by cases v <;> first | rfl | exact absurd rfl (hmarker _)),
    resolve_of_not_applies _ (by cases v <;> first | rfl | exact absurd rfl (hmarker _))] at h
  cases hitems : v.elements? with
  | some items =>
    rw [resolve_of_applies _ (show v.elements?.isSome = true by rw [hitems]; rfl)] at h
    have hbind := LeafContext.of_bind_numbered h
    rw [hitems] at hbind
    exact .items hleft hitems hbind
  | none =>
    rw [resolve_of_not_applies _ (show v.elements?.isSome = false by rw [hitems]; rfl)] at h
    by_cases hwrapped : ∃ inner bind own quote, v = .wrapped inner bind own quote
    · obtain ⟨inner, bind, own, quote, rfl⟩ := hwrapped
      rw [resolve_of_applies _ rfl] at h
      exact .wrapped hleft (.of_resolveWrapped h)
    · push Not at hwrapped
      rw [resolve_of_not_applies _
        (by cases v <;> first | rfl | exact absurd rfl (hwrapped _ _ _ _))] at h
      cases hv : v.isRenderable with
      | true =>
        rw [resolve_of_applies _ hv] at h
        obtain ⟨r, hr, h⟩ := Logged.bind_eq_ok.mp h
        exact .subquery hleft hv hr h
      | false =>
        rw [resolve_of_not_applies _ hv, resolve_of_applies _ rfl] at h
        obtain rfl := LeafContext.eq_of_numbered h
        exact .scalar hleft hnull hmarker hitems hwrapped hv

/-- **The leaves of the standard rules.** -/
theorem LeafCase.of_standard {v : Value} {ctx : LeafContext} {leaf : Leaf}
    (h : (LeafRules.standard.resolve v ctx).result = .ok leaf) : LeafCase ctx v leaf := by
  rw [LeafRules.standard] at h
  cases hleft : ctx.comparison.any (·.leftOnly) with
  | true =>
    rw [resolve_of_applies _ hleft] at h
    obtain ⟨test, hc, htest⟩ := Option.eq_some_of_any hleft
    obtain rfl : Leaf.leftOnly (ctx.comparison.getD .equal) = leaf := Except.ok.inj h
    rw [hc]
    exact .ignored hc htest
  | false =>
    rw [resolve_of_not_applies _ hleft] at h
    cases hnull : Leaf.testsNull ctx.comparison v with
    | true =>
      rw [resolve_of_applies _ hnull] at h
      obtain rfl : Leaf.nullTest ctx.comparison = leaf := Except.ok.inj h
      exact .null hleft hnull
    | false =>
      rw [resolve_of_not_applies _ hnull] at h
      exact .of_otherThanNull hleft hnull h

end

/-! ## Lists -/

inductive ListCase (b : Int) (c : Comparison) : List Value → Leaf → Prop where
  | array {items : List Value} (heach : c.bindsEach = false) :
      ListCase b c items (.among c (Sql.placeholders b 1) [.list items])
  | whole {items : List Value} (heach : c.bindsEach = false) :
      ListCase b c items (.bindOne b c (.list items))
  | empty (heach : c.bindsEach = true) : ListCase b c [] (.ofEmpty c)
  | each {items : List Value} (heach : c.bindsEach = true) (hitems : items.isEmpty = false) :
      ListCase b c items (.among c (Sql.placeholders b items.length) items)

/-- How a list becomes a leaf when it is a part of the text. -/
inductive InlineCase (quote : Bool) (c : Comparison) (items : List Value) : Leaf → Prop where
  | empty (hitems : items.isEmpty = true) (heach : c.bindsEach = true) :
      InlineCase quote c items (.ofEmpty c)
  | joined {texts : List String} (hempty : (c.bindsEach && items.isEmpty) = false)
      (h : items.mapM (Leaf.inlined quote) = .ok texts) :
      InlineCase quote c items (.among c (", ".intercalate texts))

/-- How a wrapped value that is neither a sub-query nor a test for null becomes a leaf. -/
inductive PlainCase (b : Int) (c : Comparison) (quote : Bool) (inner : Value) :
    Bool → Leaf → Prop where
  | list {items : List Value} {leaf : Leaf} (hitems : inner.elements? = some items)
      (h : ListCase b c items leaf) : PlainCase b c quote inner true leaf
  | one (hitems : inner.elements? = none) :
      PlainCase b c quote inner true (.bindOne b c inner)
  | inlineList {items : List Value} {leaf : Leaf} (hitems : inner.elements? = some items)
      (h : InlineCase quote c items leaf) : PlainCase b c quote inner false leaf
  | inlined {text : String} (hitems : inner.elements? = none)
      (h : Leaf.inlined quote inner = .ok text) :
      PlainCase b c quote inner false (.compare c text)

theorem bindsEach_of_bindsArray {c : Comparison} (h : c.bindsArray = true) :
    c.bindsEach = false := by
  cases c <;> first | rfl | exact absurd h (by decide)

theorem ListCase.of_bindList {b : Int} {c : Comparison} {items : List Value} {leaf : Leaf}
    (h : Leaf.bindList b c items = .ok leaf) : ListCase b c items leaf := by
  rw [Leaf.bindList] at h
  split at h
  · simp at h
  split at h
  · rename_i harray
    obtain rfl := Except.ok.inj h
    exact .array (bindsEach_of_bindsArray harray)
  split at h
  · rename_i heach
    obtain rfl := Except.ok.inj h
    rw [Bool.not_eq_true'] at heach
    exact .whole heach
  rename_i heach
  rw [Bool.not_eq_true, Bool.not_eq_false'] at heach
  split at h
  · rename_i hitems
    obtain rfl := Except.ok.inj h
    obtain rfl := List.isEmpty_iff.mp hitems
    exact .empty heach
  · rename_i hitems
    obtain rfl := Except.ok.inj h
    rw [Bool.not_eq_true] at hitems
    exact .each heach hitems

theorem InlineCase.of_inlineList {quote : Bool} {c : Comparison} {items : List Value}
    {leaf : Leaf} (h : Leaf.inlineList quote c items = .ok leaf) :
    InlineCase quote c items leaf := by
  rw [Leaf.inlineList] at h
  split at h
  · rename_i hempty
    obtain rfl := Except.ok.inj h
    rw [Bool.and_eq_true] at hempty
    exact .empty hempty.1 hempty.2
  · rename_i hempty
    obtain ⟨texts, htexts, h⟩ := Except.bind_eq_ok.mp h
    obtain rfl := Except.ok.inj h
    rw [Bool.not_eq_true, Bool.and_comm] at hempty
    exact .joined hempty htexts

theorem PlainCase.of_plainWrapped {b : Int} {c : Comparison} {inner : Value}
    {bind quote : Bool} {leaf : Leaf}
    (h : LeafRule.plainWrapped b c inner bind quote = .ok leaf) :
    PlainCase b c quote inner bind leaf := by
  rw [LeafRule.plainWrapped.eq_def] at h
  split at h
  · exact .list ‹_› (.of_bindList h)
  · obtain rfl := Except.ok.inj h
    exact .one ‹_›
  · exact .inlineList ‹_› (.of_inlineList h)
  · obtain ⟨text, htext, h⟩ := Except.bind_eq_ok.mp h
    obtain rfl := Except.ok.inj h
    exact .inlined ‹_› htext

/-! ## Left-hand sides -/

namespace Leaf

/-- Whether a leaf is on its column, or a constant for a comparison with no elements. -/
def OnColumn (leaf : Leaf) : Prop := leaf.left = none ∨ ∃ c, leaf = ofEmpty c

theorem onColumn_of_listCase {b : Int} {c : Comparison} {items : List Value} {leaf : Leaf}
    (h : ListCase b c items leaf) : leaf.OnColumn := by
  cases h with
  | empty => exact .inr ⟨c, rfl⟩
  | _ => exact .inl rfl

/-- The comparison and the operator before a sub-query: those that were given, and without any those
of the sub-query itself, which else is a set of values to be one of. -/
inductive Leads (explicit : Option Comparison) (own : Value) : Option Comparison → String → Prop where
  | given {c : Comparison} (hexplicit : explicit = some c) : Leads explicit own (some c) c.label
  | amongRows (hexplicit : explicit = none) (hown : ownComparison own = .ok none) :
      Leads explicit own (some .oneOf) Comparison.oneOf.label
  | own {c : Option Comparison} {operator : String} (hexplicit : explicit = none)
      (hown : ownComparison own = .ok (some (c, operator))) : Leads explicit own c operator

/-- **A leaf with a sub-query** has it in parentheses on its right-hand side, and its values. -/
theorem of_splice {explicit : Option Comparison} {r : Rendition} {leaf : Leaf}
    (h : splice explicit r = .ok leaf) : ∃ comparison operator,
      Leads explicit r.comparison comparison operator ∧
      leaf = { comparison, operator, right := "(" ++ r.query.inline ++ ")", values := r.values } := by
  rw [splice.eq_def] at h
  cases explicit with
  | some c => exact ⟨_, _, .given rfl, (Except.ok.inj h).symm⟩
  | none =>
    obtain ⟨own, hown, h⟩ := Except.bind_eq_ok.mp h
    cases own with
    | none => exact ⟨_, _, .amongRows rfl hown, (Except.ok.inj h).symm⟩
    | some own => exact ⟨_, _, .own rfl hown, (Except.ok.inj h).symm⟩

theorem left_of_splice {explicit : Option Comparison} {r : Rendition} {leaf : Leaf}
    (h : splice explicit r = .ok leaf) : leaf.left = none := by
  obtain ⟨_, _, -, rfl⟩ := of_splice h
  rfl

/-- A test for non-null is one of equality, written as such or as an inequality with null. -/
theorem of_notNullTest {key : String} {c : Option Comparison} {leaf : Leaf}
    (h : notNullTest key c = .ok leaf) :
    (c = none ∨ c = some .equal) ∧ leaf = isNotNull ∨ c = some .notEqual ∧ leaf = isNullUnequal := by
  rw [notNullTest.eq_def] at h
  split at h
  · exact .inl ⟨.inl rfl, (Except.ok.inj h).symm⟩
  · exact .inl ⟨.inr rfl, (Except.ok.inj h).symm⟩
  · exact .inr ⟨rfl, (Except.ok.inj h).symm⟩
  · simp at h

theorem left_of_notNullTest {key : String} {c : Option Comparison} {leaf : Leaf}
    (h : notNullTest key c = .ok leaf) : leaf.left = none := by
  obtain ⟨-, rfl⟩ | ⟨-, rfl⟩ := of_notNullTest h <;> rfl

theorem left_nullTest (c : Option Comparison) : (nullTest c).left = none := by
  rw [nullTest]
  split <;> rfl

theorem onColumn_of_plainCase {b : Int} {c : Comparison} {inner : Value} {bind quote : Bool}
    {leaf : Leaf} (h : PlainCase b c quote inner bind leaf) : leaf.OnColumn := by
  cases h with
  | list _ h => exact onColumn_of_listCase h
  | one => exact .inl rfl
  | inlineList _ h =>
    cases h with
    | empty => exact .inr ⟨c, rfl⟩
    | joined => exact .inl rfl
  | inlined => exact .inl rfl

end Leaf

theorem WrappedCase.onColumn {ctx : LeafContext} {own c : Option Comparison} {bind quote : Bool}
    {inner : Value} {leaf : Leaf} (h : WrappedCase ctx own c bind quote inner leaf) :
    leaf.OnColumn := by
  cases h with
  | ignored => exact .inl rfl
  | subquery _ _ _ h => exact .inl (Leaf.left_of_splice h)
  | null => exact .inl (Leaf.left_nullTest c)
  | notNull _ h => exact .inl (Leaf.left_of_notNullTest h)
  | now => exact .inl rfl
  | plain _ _ _ _ h => exact Leaf.onColumn_of_plainCase (.of_plainWrapped h)

theorem LeafCase.onColumn {ctx : LeafContext} {v : Value} {leaf : Leaf} (h : LeafCase ctx v leaf) :
    leaf.OnColumn := by
  cases h with
  | ignored => exact .inl rfl
  | null => exact .inl (Leaf.left_nullTest _)
  | notNull _ h => exact .inl (Leaf.left_of_notNullTest h)
  | now => exact .inl rfl
  | items _ _ h => exact Leaf.onColumn_of_listCase (.of_bindList h)
  | wrapped _ h => exact h.onColumn
  | subquery _ _ _ h => exact .inl (Leaf.left_of_splice h)
  | scalar => exact .inl rfl

end Rowmap
