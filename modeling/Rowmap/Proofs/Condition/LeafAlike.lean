import Rowmap.Proofs.Condition.StandardLeaf
import Rowmap.Proofs.Sql.Alike
import Rowmap.Proofs.Value.Alike

/-!
# Leaves of values of one shape

Two leaves whose values have one shape are resolved by the same rule, to texts that differ in string
constants at most and to values of one shape; or neither is resolved.

`Except.Agrees` says this of two computations in general, so that two runs of the compiler are
compared step by step.
-/

namespace Rowmap

/-! ## Two computations -/

/-- Two results that are related, or two failures. -/
def Except.Agrees {ε α β : Type} (p : α → β → Prop) : Except ε α → Except ε β → Prop
  | .ok a, .ok b => p a b
  | .error _, .error _ => True
  | _, _ => False

namespace Except.Agrees

variable {ε α β γ δ : Type} {p p' : α → β → Prop} {q : γ → δ → Prop} {x : Except ε α}
  {y : Except ε β}

theorem imp (h : Agrees p x y) (hp : ∀ a b, p a b → p' a b) : Agrees p' x y := by
  cases x with
  | error e => cases y <;> exact h
  | ok a =>
    cases y with
    | error e => exact h
    | ok b => exact hp a b h

/-- One computation agrees with itself if what comes out of it is related to itself. -/
theorem same {p : α → α → Prop} (h : ∀ a, x = .ok a → p a a) : Agrees p x x := by
  cases x with
  | error e => trivial
  | ok a => exact h a rfl

/-- **Sequences** agree if their steps do. -/
theorem bind {f : α → Except ε γ} {g : β → Except ε δ} (h : Agrees p x y)
    (hfg : ∀ a b, p a b → Agrees q (f a) (g b)) : Agrees q (x >>= f) (y >>= g) := by
  cases x with
  | error e =>
    cases y with
    | error e => trivial
    | ok b => exact h.elim
  | ok a =>
    cases y with
    | error e => exact h.elim
    | ok b => exact hfg a b h

/-- Sequences agree if their steps after a common first one do. -/
theorem bind_same {f : α → Except ε γ} {g : α → Except ε δ}
    (h : ∀ a, x = .ok a → Agrees q (f a) (g a)) : Agrees q (x >>= f) (x >>= g) := by
  cases x with
  | error e => trivial
  | ok a => exact h a rfl

theorem mapM {f : α → Except ε γ} {g : β → Except ε δ} {as : List α} {bs : List β}
    (h : List.Forall₂ (fun a b ↦ Agrees q (f a) (g b)) as bs) :
    Agrees (List.Forall₂ q) (as.mapM f) (bs.mapM g) := by
  induction h with
  | nil => exact List.Forall₂.nil
  | cons head _ ih =>
    rw [List.mapM_cons, List.mapM_cons]
    exact head.bind fun c d hcd ↦ ih.bind fun cs ds hcds ↦ List.Forall₂.cons hcd hcds

end Except.Agrees

/-- What is made of two results is related if they are. -/
theorem Logged.map_agrees {α β γ δ : Type} {p : α → β → Prop} {q : γ → δ → Prop} {x : Logged α}
    {y : Logged β} {f : α → γ} {g : β → δ} (h : Except.Agrees p x.result y.result)
    (hfg : ∀ a b, p a b → q (f a) (g b)) : Except.Agrees q (f <$> x).result (g <$> y).result := by
  show Except.Agrees q (x >>= fun a ↦ pure (f a)).result (y >>= fun b ↦ pure (g b)).result
  rw [Logged.result_bind, Logged.result_bind]
  exact h.bind hfg

/-! ## A caller's own SQL -/

/-- What a caller writes into a statement stands for itself: hand-written SQL, what a sub-query of
the caller's own renders to, and values that are written as they are, leave nothing open. -/
def Value.WritesSealed : Value → Prop
  | .rawSql _ sql _ _ => Sql.Sealed sql
  | .renderable _ render => ∀ b r, Rendition.ofValue (render b) = .ok r →
    Sql.Sealed r.query.inline ∧
      ∀ c operator, Leaf.ownComparison r.comparison = .ok (some (c, operator)) →
        Sql.Sealed operator
  | .wrapped inner bind _ quote => bind = false → inner.isRenderable = false →
    ∀ x ∈ inner.elements?.getD [inner], ∀ text, Leaf.inlined quote x = .ok text → Sql.Sealed text
  | _ => True

theorem Comparison.sealed_label (c : Comparison) : Sql.Sealed c.label := by cases c <;> decide

theorem Marker.sealed_label (m : Marker) : Sql.Sealed m.label := by cases m <;> decide

/-! ## Alike leaves -/

/-- Two leaves with one operator on one left-hand side, with alike texts on the right, that bind
values of one shape. -/
structure Leaf.Alike (rel : Value → Value → Prop) (varies whole : Prop) (l m : Leaf) : Prop where
  comparison : l.comparison = m.comparison
  operator : l.operator = m.operator
  left : l.left = m.left
  right : Sql.Alike varies whole l.right m.right
  values : List.Forall₂ (Value.Alike rel varies) l.values m.values
  sealedOperator : whole → Sql.Sealed l.operator
  sealedLeft : whole → ∀ left, l.left = some left → Sql.Sealed left

/-- Two renditions with alike texts, values of one shape and one comparison of their own. -/
structure Rendition.Alike (rel : Value → Value → Prop) (varies whole : Prop) (r r' : Rendition) :
    Prop where
  query : Sql.Alike varies whole r.query.inline r'.query.inline
  values : List.Forall₂ (Value.Alike rel varies) r.values r'.values
  comparison : r.comparison = r'.comparison
  sealedOperator : whole → ∀ c operator,
    Leaf.ownComparison r.comparison = .ok (some (c, operator)) → Sql.Sealed operator

namespace Leaf

variable {rel : Value → Value → Prop} {varies whole : Prop} {c : Comparison}

theorem sealedLeft_of_none {l : Leaf} (h : l.left = none) (left : String)
    (hleft : l.left = some left) : Sql.Sealed left := by
  rw [h] at hleft
  cases hleft

theorem alike_among {right right' : String} {vs ws : List Value}
    (hright : Sql.Alike varies whole right right')
    (hvalues : List.Forall₂ (Value.Alike rel varies) vs ws) :
    Leaf.Alike rel varies whole (among c right vs) (among c right' ws) where
  comparison := rfl
  operator := rfl
  left := rfl
  right := hright.parenthesized
  values := hvalues
  sealedOperator _ := c.sealed_label
  sealedLeft _ := sealedLeft_of_none rfl

theorem alike_compare {right right' : String} {vs ws : List Value}
    (hright : Sql.Alike varies whole right right')
    (hvalues : List.Forall₂ (Value.Alike rel varies) vs ws) :
    Leaf.Alike rel varies whole (compare c right vs) (compare c right' ws) where
  comparison := rfl
  operator := rfl
  left := rfl
  right := by
    show Sql.Alike varies whole (wrapRight right c) (wrapRight right' c)
    rw [wrapRight, wrapRight]
    split
    · exact hright.parenthesized
    · exact hright
  values := hvalues
  sealedOperator _ := c.sealed_label
  sealedLeft _ := sealedLeft_of_none rfl

theorem alike_self {l : Leaf} (hvalues : l.values = []) (hright : Sql.Sealed l.right)
    (hoperator : Sql.Sealed l.operator) (hleft : ∀ left, l.left = some left → Sql.Sealed left) :
    Leaf.Alike rel varies whole l l where
  comparison := rfl
  operator := rfl
  left := rfl
  right := .piece fun _ ↦ hright
  values := by
    rw [hvalues]
    exact .nil
  sealedOperator _ := hoperator
  sealedLeft _ := hleft

theorem alike_leftOnly : Leaf.Alike rel varies whole (leftOnly c) (leftOnly c) :=
  alike_self rfl Sql.sealed_empty c.sealed_label (sealedLeft_of_none rfl)

theorem alike_ofMarker (m : Marker) : Leaf.Alike rel varies whole (ofMarker c m) (ofMarker c m) :=
  alike_compare (.piece fun _ ↦ m.sealed_label) .nil

theorem alike_ofEmpty : Leaf.Alike rel varies whole (ofEmpty c) (ofEmpty c) := by
  refine alike_self rfl ?_ Comparison.equal.sealed_label fun left hleft ↦ ?_
  · show Sql.Sealed (if c = .notOneOf then "true" else "false")
    split <;> decide
  · obtain rfl := Option.some.inj hleft
    decide

theorem alike_nullTest (c : Option Comparison) :
    Leaf.Alike rel varies whole (nullTest c) (nullTest c) := by
  rw [nullTest]
  split <;> exact alike_self rfl (by decide) (by decide) (sealedLeft_of_none rfl)

theorem notNullTest_agrees (key : String) (c : Option Comparison) :
    Except.Agrees (Leaf.Alike rel varies whole) (notNullTest key c) (notNullTest key c) := by
  refine .same fun l hl ↦ ?_
  obtain ⟨-, rfl⟩ | ⟨-, rfl⟩ := of_notNullTest hl
  · exact alike_self rfl (by decide) (by decide) (sealedLeft_of_none rfl)
  · exact alike_self rfl (by decide) (by decide) (sealedLeft_of_none rfl)

/-! ### Bound values -/

theorem alike_bindOne (b : Int) {v w : Value} (h : Value.Alike rel varies v w) :
    Leaf.Alike rel varies whole (bindOne b c v) (bindOne b c w) :=
  alike_compare (.piece fun _ ↦ Sql.sealed_placeholders b 1) (.cons h .nil)

/-- Lists of as many values of one shape bind as many parameters, or one. -/
theorem bindList_agrees (b : Int) {xs ys : List Value}
    (h : List.Forall₂ (Value.Alike rel varies) xs ys) :
    Except.Agrees (Leaf.Alike rel varies whole) (bindList b c xs) (bindList b c ys) := by
  rw [bindList, bindList, Value.Alike.any_isRenderable_eq h, Value.isEmpty_eq_of_forall₂ h,
    h.length_eq]
  split
  · trivial
  split
  · exact alike_among (.piece fun _ ↦ Sql.sealed_placeholders b 1) (.cons (.list h) .nil)
  split
  · exact alike_bindOne b (.list h)
  split
  · exact alike_ofEmpty
  · exact alike_among (.piece fun _ ↦ Sql.sealed_placeholders b _) h

/-! ### Values in the text -/

theorem inlined_agrees {quote : Bool} {v w : Value} (h : Value.LiteralAlike varies quote v w)
    (hsealed : whole → ∀ text, inlined quote v = .ok text → Sql.Sealed text) :
    Except.Agrees (Sql.Alike varies whole) (inlined quote v) (inlined quote w) := by
  cases h with
  | same => exact .same fun text htext ↦ .piece fun hwhole ↦ hsealed hwhole text htext
  | text hvaries hquote s t =>
    subst hquote
    exact Sql.Alike.constant hvaries s t

theorem inlineList_agrees {quote : Bool} {xs ys : List Value}
    (h : List.Forall₂ (Value.LiteralAlike varies quote) xs ys)
    (hsealed : whole → ∀ x ∈ xs, ∀ text, inlined quote x = .ok text → Sql.Sealed text) :
    Except.Agrees (Leaf.Alike rel varies whole) (inlineList quote c xs)
      (inlineList quote c ys) := by
  have htexts : List.Forall₂ (fun x y ↦ Except.Agrees (Sql.Alike varies whole) (inlined quote x)
      (inlined quote y)) xs ys := by
    induction h with
    | nil => exact .nil
    | cons head _ ih =>
      refine .cons (inlined_agrees head fun hwhole ↦ ?_) (ih fun hwhole ↦ ?_)
      · exact (List.forall_mem_cons.mp (hsealed hwhole)).1
      · exact (List.forall_mem_cons.mp (hsealed hwhole)).2
  rw [inlineList, inlineList, Value.isEmpty_eq_of_forall₂ h]
  split
  · exact alike_ofEmpty
  · exact (Except.Agrees.mapM htexts).bind fun texts texts' h ↦
      alike_among (Sql.Alike.intercalate Sql.divides_comma h) .nil

/-! ### Sub-queries -/

theorem splice_agrees {r r' : Rendition} (explicit : Option Comparison)
    (h : Rendition.Alike rel varies whole r r') :
    Except.Agrees (Leaf.Alike rel varies whole) (splice explicit r) (splice explicit r') := by
  cases explicit with
  | some c => exact alike_among h.query h.values
  | none =>
    rw [splice, splice, ← h.comparison]
    refine Except.Agrees.bind_same fun own hown ↦ ?_
    cases own with
    | none => exact alike_among h.query h.values
    | some own =>
      obtain ⟨comparison, operator⟩ := own
      exact {
        comparison := rfl
        operator := rfl
        left := rfl
        right := h.query.parenthesized
        values := h.values
        sealedOperator := fun hwhole ↦ h.sealedOperator hwhole comparison operator hown
        sealedLeft := fun _ ↦ sealedLeft_of_none rfl }

end Leaf

/-! ## Rules -/

namespace LeafRule

variable {rel : Value → Value → Prop} {varies whole : Prop} {ctx : LeafContext} {v w : Value}
  {render : Int → Logged Rendition}

/-- Leaves that bind as many values are numbered both or neither. -/
theorem numbered_agrees {l m : Leaf} (h : Leaf.Alike rel varies whole l m) :
    Except.Agrees (Leaf.Alike rel varies whole) (ctx.numbered l)
      (LeafContext.numbered { ctx with render } m) := by
  rw [LeafContext.numbered, LeafContext.numbered, h.values.length_eq]
  split
  · trivial
  · exact h

theorem plainWrapped_agrees_of_alike {b : Int} {c : Comparison} {quote : Bool}
    (h : Value.Alike rel varies v w) :
    Except.Agrees (Leaf.Alike rel varies whole) (plainWrapped b c v true quote)
      (plainWrapped b c w true quote) := by
  rw [plainWrapped.eq_def, plainWrapped.eq_def]
  obtain ⟨xs, ys, hxs, hys, hitems⟩ | ⟨hv, hw⟩ := h.elements?
  · rw [hxs, hys]
    exact Leaf.bindList_agrees b hitems
  · rw [hv, hw]
    exact Leaf.alike_bindOne b h

theorem plainWrapped_agrees_of_written {b : Int} {c : Comparison} {quote : Bool}
    (h : Value.WrittenAlike varies quote v w)
    (hsealed : whole → ∀ x ∈ v.elements?.getD [v], ∀ text, Leaf.inlined quote x = .ok text →
      Sql.Sealed text) :
    Except.Agrees (Leaf.Alike rel varies whole) (plainWrapped b c v false quote)
      (plainWrapped b c w false quote) := by
  rw [plainWrapped.eq_def, plainWrapped.eq_def]
  obtain ⟨xs, ys, hxs, hys, hitems⟩ | ⟨hv, hw, hone⟩ := h.elements?
  · rw [hxs] at hsealed
    rw [hxs, hys]
    exact Leaf.inlineList_agrees hitems hsealed
  · rw [hv] at hsealed
    rw [hv, hw]
    exact (Leaf.inlined_agrees hone fun hwhole ↦ hsealed hwhole v List.mem_cons_self).bind
      fun text text' htext ↦ Leaf.alike_compare htext .nil

/-- What a wrapper makes of two values that look alike to it. -/
theorem resolveWrapped_agrees {bind quote : Bool} {own : Option Comparison}
    (hrenderable : v.isRenderable = w.isRenderable) (hnull : v.isNull = w.isNull)
    (hmarker : ∀ m, v = .marker m ↔ w = .marker m)
    (hrender : Except.Agrees (Rendition.Alike rel varies whole)
      (ctx.render ctx.bound).result (render ctx.bound).result)
    (hplain : v.isRenderable = false → ∀ c, Except.Agrees (Leaf.Alike rel varies whole)
      (plainWrapped ctx.bound c v bind quote) (plainWrapped ctx.bound c w bind quote)) :
    Except.Agrees (Leaf.Alike rel varies whole) (resolveWrapped v bind own quote ctx).result
      (resolveWrapped w bind own quote { ctx with render }).result := by
  have htest (c : Option Comparison) : Leaf.testsNull c v = Leaf.testsNull c w := by
    rw [Leaf.testsNull, Leaf.testsNull, hnull]
  rw [resolveWrapped.eq_def, resolveWrapped.eq_def]
  dsimp only
  rw [← hrenderable, ← htest]
  generalize (own <|> ctx.comparison) = c
  split
  · exact Leaf.alike_leftOnly
  split
  · rw [Logged.result_bind, Logged.result_bind]
    exact hrender.bind fun r r' hr ↦ Leaf.splice_agrees own hr
  split
  · exact Leaf.alike_nullTest c
  rename_i hv _
  by_cases hv' : ∃ m, v = .marker m
  · obtain ⟨m, rfl⟩ := hv'
    rw [(hmarker m).mp rfl]
    cases m with
    | notNull => exact Leaf.notNullTest_agrees ctx.key c
    | now => exact Leaf.alike_ofMarker .now
  · push Not at hv'
    split
    · exact absurd rfl (hv' _)
    · exact absurd rfl (hv' _)
    split
    · exact absurd ((hmarker _).mpr rfl) (hv' _)
    · exact absurd ((hmarker _).mpr rfl) (hv' _)
    · exact (hplain (by simpa using hv) _).bind fun l m h ↦ numbered_agrees h

/-! ### The rule that applies -/

theorem applies_of_isScalar (h : v.isScalar = true) : notNull.applies v ctx = false ∧
    marker.applies v ctx = false ∧ wrapped.applies v ctx = false := by
  cases v <;> first | exact ⟨rfl, rfl, rfl⟩ | exact absurd h Bool.false_ne_true

theorem applies_eq (h : Value.Alike rel varies v w) : ∀ rule ∈ LeafRules.standard,
    rule.applies v ctx = rule.applies w { ctx with render } := by
  simp only [LeafRules.standard, List.forall_mem_cons]
  refine ⟨rfl, ?null, ?notNull, ?marker, ?valueList, ?wrapped, h.isRenderable_eq, rfl,
    fun _ hrule ↦ absurd hrule List.not_mem_nil⟩
  case null =>
    show Leaf.testsNull ctx.comparison v = Leaf.testsNull ctx.comparison w
    rw [Leaf.testsNull, Leaf.testsNull, h.isNull_eq]
  case notNull =>
    cases h with
    | scalar hv hw => rw [(applies_of_isScalar hv).1, (applies_of_isScalar hw).1]
    | _ => rfl
  case marker =>
    cases h with
    | scalar hv hw => rw [(applies_of_isScalar hv).2.1, (applies_of_isScalar hw).2.1]
    | _ => rfl
  case valueList =>
    show v.elements?.isSome = w.elements?.isSome
    obtain ⟨xs, ys, hxs, hys, -⟩ | ⟨hv, hw⟩ := h.elements?
    · rw [hxs, hys]
      rfl
    · rw [hv, hw]
  case wrapped =>
    cases h with
    | scalar hv hw => rw [(applies_of_isScalar hv).2.2, (applies_of_isScalar hw).2.2]
    | _ => rfl

/-- What a wrapper makes of values of one shape. -/
theorem resolve_wrapped_agrees (h : Value.Alike rel varies v w)
    (hsealed : whole → v.WritesSealed)
    (hrender : Except.Agrees (Rendition.Alike rel varies whole) (ctx.render ctx.bound).result
      (render ctx.bound).result) (happlies : wrapped.applies v ctx = true) :
    Except.Agrees (Leaf.Alike rel varies whole) (wrapped.resolve v ctx).result
      (wrapped.resolve w { ctx with render }).result := by
  cases h with
  | same h =>
    cases v <;>
      first | exact absurd happlies Bool.false_ne_true | exact absurd h.symm Bool.false_ne_true
  | scalar hv =>
    rw [(applies_of_isScalar hv).2.2] at happlies
    exact absurd happlies Bool.false_ne_true
  | @wrapped inner inner' bind quote own hbind h =>
    refine resolveWrapped_agrees h.isRenderable_eq h.isNull_eq h.marker_iff hrender
      fun hinner c ↦ ?_
    obtain rfl := hbind.resolve_right (by simp [hinner])
    exact plainWrapped_agrees_of_alike h
  | inlined h =>
    exact resolveWrapped_agrees h.isRenderable_eq h.isNull_eq h.marker_iff hrender
      fun hinner c ↦ plainWrapped_agrees_of_written h fun hwhole ↦ hsealed hwhole rfl hinner
  | _ => exact absurd happlies Bool.false_ne_true

theorem resolve_agrees (h : Value.Alike rel varies v w) (hsealed : whole → v.WritesSealed)
    (hrender : Except.Agrees (Rendition.Alike rel varies whole) (ctx.render ctx.bound).result
      (render ctx.bound).result) :
    ∀ rule ∈ LeafRules.standard, rule.applies v ctx = true →
      Except.Agrees (Leaf.Alike rel varies whole) (rule.resolve v ctx).result
        (rule.resolve w { ctx with render }).result := by
  simp only [LeafRules.standard, List.forall_mem_cons]
  refine ⟨fun _ ↦ Leaf.alike_leftOnly, fun _ ↦ Leaf.alike_nullTest _,
    fun _ ↦ Leaf.notNullTest_agrees _ _, ?marker, fun _ ↦ ?valueList,
    resolve_wrapped_agrees h hsealed hrender, fun _ ↦ ?subquery,
    fun _ ↦ numbered_agrees (Leaf.alike_bindOne _ h), fun _ hrule ↦ absurd hrule List.not_mem_nil⟩
  case marker =>
    intro happlies
    cases v with
    | marker m =>
      rw [h.eq_marker]
      exact Leaf.alike_ofMarker m
    | _ => exact absurd happlies Bool.false_ne_true
  case valueList =>
    have hitems : List.Forall₂ (Value.Alike rel varies) (v.elements?.getD [])
        (w.elements?.getD []) := by
      obtain ⟨xs, ys, hxs, hys, hitems⟩ | ⟨hv, hw⟩ := h.elements?
      · rwa [hxs, hys]
      · rw [hv, hw]
        exact .nil
    exact (Leaf.bindList_agrees _ hitems).bind fun l m h ↦ numbered_agrees h
  case subquery =>
    show Except.Agrees _ (Logged.result (_ >>= _)) (Logged.result (_ >>= _))
    rw [Logged.result_bind, Logged.result_bind]
    exact hrender.bind fun r r' hr ↦ Leaf.splice_agrees none hr

end LeafRule

namespace LeafRules

variable {rel : Value → Value → Prop} {varies whole : Prop} {ctx : LeafContext} {v w : Value}
  {render : Int → Logged Rendition}

/-- Rules that apply to both of two values or to neither, and agree on them, agree as a whole. -/
theorem resolve_agrees_of_rules {p : Leaf → Leaf → Prop} {rules : LeafRules} {ctx' : LeafContext}
    (happlies : ∀ rule ∈ rules, rule.applies v ctx = rule.applies w ctx')
    (hresolve : ∀ rule ∈ rules, rule.applies v ctx = true →
      Except.Agrees p (rule.resolve v ctx).result (rule.resolve w ctx').result) :
    Except.Agrees p (rules.resolve v ctx).result (rules.resolve w ctx').result := by
  induction rules with
  | nil => trivial
  | cons rule rules ih =>
    rw [List.forall_mem_cons] at happlies hresolve
    cases hrule : rule.applies v ctx with
    | true =>
      rw [resolve_of_applies _ hrule, resolve_of_applies _ (happlies.1 ▸ hrule)]
      exact hresolve.1 hrule
    | false =>
      rw [resolve_of_not_applies _ hrule, resolve_of_not_applies _ (happlies.1 ▸ hrule)]
      exact ih happlies.2 hresolve.2

/-- **Values of one shape become alike leaves**, or none of them becomes one. -/
theorem standard_agrees (h : Value.Alike rel varies v w) (hsealed : whole → v.WritesSealed)
    (hrender : Except.Agrees (Rendition.Alike rel varies whole) (ctx.render ctx.bound).result
      (render ctx.bound).result) :
    Except.Agrees (Leaf.Alike rel varies whole) (standard.resolve v ctx).result
      (standard.resolve w { ctx with render }).result :=
  resolve_agrees_of_rules (LeafRule.applies_eq h) (LeafRule.resolve_agrees h hsealed hrender)

end LeafRules

end Rowmap
