import Rowmap.Proofs.Condition.LeafNumbers
import Rowmap.Proofs.Condition.Succeeds
import Rowmap.Proofs.Sql.Shifting

/-!
# Leaves after more bound values

A leaf that is resolved once more, with more values bound before it, has the same values and the
same text with its placeholders moved up. It is resolved again exactly when they can be moved: the
rules check that they can be numbered, and shifting checks that the numbers can be written.

`Answers` says this of a computation in general, so that it can be put together step by step.
-/

namespace Rowmap

/-! ## Computations -/

/-- What is known of a computation: what any result of it is like, a condition on which it has one,
and that the condition is also needed, within some reach. -/
structure Logged.Answers {α : Type} (x : Logged α) (p : α → Prop) (can reach : Prop) : Prop where
  result : ∀ a, x.result = .ok a → p a
  succeeds : can → ∃ a, x.result = .ok a
  needs : reach → ∀ a, x.result = .ok a → can

namespace Logged.Answers

variable {α β : Type} {x : Logged α} {p p' : α → Prop} {can can' reach reach' : Prop}

theorem of_ok {a : α} (h : x.result = .ok a) (ha : p a) (hcan : can) : x.Answers p can reach where
  result a' ha' := by rwa [← Except.ok.inj (h.symm.trans ha')]
  succeeds _ := ⟨a, h⟩
  needs _ _ _ := hcan

theorem of_error {e : Failure} (h : x.result = .error e) (hcan : ¬can) :
    x.Answers p can reach where
  result a ha := by simp [h] at ha
  succeeds hc := absurd hc hcan
  needs _ a ha := by simp [h] at ha

theorem congr {y : Logged α} (h : x.Answers p can reach) (heq : y.result = x.result) :
    y.Answers p can reach where
  result := heq ▸ h.result
  succeeds := heq ▸ h.succeeds
  needs := heq ▸ h.needs

theorem mono (h : x.Answers p can reach) (hp : ∀ a, p a → p' a) (hcan : can' ↔ can)
    (hreach : reach' → reach) : x.Answers p' can' reach' where
  result a ha := hp a (h.result a ha)
  succeeds hc := h.succeeds (hcan.mp hc)
  needs hr a ha := hcan.mpr (h.needs (hreach hr) a ha)

/-- **Sequences** need what both of their steps need. -/
theorem bind {f : α → Logged β} {q : β → Prop} (hx : x.Answers p can reach)
    (hf : ∀ a, p a → (f a).Answers q can' reach') :
    (x >>= f).Answers q (can ∧ can') (reach ∧ reach') where
  result b hb := by
    obtain ⟨a, ha, hb⟩ := Logged.bind_eq_ok.mp hb
    exact (hf a (hx.result a ha)).result b hb
  succeeds hcan := by
    obtain ⟨a, ha⟩ := hx.succeeds hcan.1
    obtain ⟨b, hb⟩ := (hf a (hx.result a ha)).succeeds hcan.2
    exact ⟨b, Logged.bind_eq_ok.mpr ⟨a, ha, hb⟩⟩
  needs hreach b hb := by
    obtain ⟨a, ha, hb⟩ := Logged.bind_eq_ok.mp hb
    exact ⟨hx.needs hreach.1 a ha, (hf a (hx.result a ha)).needs hreach.2 b hb⟩

theorem bind_ok {f : α → Logged β} {q : β → Prop} (hx : x.Answers p can reach)
    (hf : ∀ a, p a → ∃ b, (f a).result = .ok b ∧ q b) : (x >>= f).Answers q can reach := by
  have hrest : ∀ a, p a → (f a).Answers q True True := fun a ha ↦
    have ⟨_, hb, hq⟩ := hf a ha
    .of_ok hb hq trivial
  exact (hx.bind hrest).mono (fun _ ↦ id) ⟨fun h ↦ ⟨h, trivial⟩, And.left⟩ fun h ↦ ⟨h, trivial⟩

theorem map {g : α → β} {q : β → Prop} (hx : x.Answers p can reach) (hg : ∀ a, p a → q (g a)) :
    (g <$> x).Answers q can reach := hx.bind_ok fun a ha ↦ ⟨g a, rfl, hg a ha⟩

end Logged.Answers

/-- Whether so many values, after `b` and `k` others, are known to be numbered with a check, or to
have numbers that can be written. -/
def Sql.Reaches (b k n : Nat) : Prop :=
  Sql.isFar b = true ∨ Text.canWrite (k + b + n : Nat) = true

theorem Sql.Reaches.mono {b k n k' n' : Nat} (h : Sql.Reaches b k n) (hle : k' + n' ≤ k + n) :
    Sql.Reaches b k' n' :=
  h.imp_right (Text.canWrite_of_le (by omega))

/-! ## Leaves that bind -/

theorem Leaf.shift_wrapRight (b : Nat) (right : String) (c : Comparison) :
    Sql.shift b (wrapRight right c) = wrapRight (Sql.shift b right) c := by
  rw [wrapRight, wrapRight]
  split
  · exact Sql.shift_enclosed Sql.opens_parenthesis Sql.closes_parenthesis
  · rfl

theorem Leaf.canShift_wrapRight (b : Nat) (right : String) (c : Comparison) :
    Sql.canShift b (wrapRight right c) = Sql.canShift b right := by
  rw [wrapRight]
  split
  · exact Sql.canShift_enclosed Sql.opens_parenthesis Sql.closes_parenthesis
  · rfl

namespace Leaf

variable {b k : Nat} {leaf : Leaf}

/-- A leaf with the placeholders on its right-hand side moved up. -/
def shifted (b : Nat) (leaf : Leaf) : Leaf := { leaf with right := Sql.shift b leaf.right }

theorem shifted_among (b : Nat) (c : Comparison) (right : String) (values : List Value) :
    (among c right values).shifted b = among c (Sql.shift b right) values := by
  rw [shifted, among, Sql.shift_enclosed Sql.opens_parenthesis Sql.closes_parenthesis]
  rfl

theorem shifted_bindOne (b k : Nat) (c : Comparison) (v : Value) :
    (bindOne k c v).shifted b = bindOne (k + b : Nat) c v := by
  rw [shifted, bindOne, compare, shift_wrapRight, Sql.shift_placeholders]
  rfl

theorem Binds.shifted_eq (h : leaf.Binds .inOrder k []) : leaf.shifted b = leaf := by
  rw [shifted, Sql.shift_of_plain (show Sql.numbers leaf.right = [] from h.right)]

/-- A leaf whose right-hand side can be moved up exactly when placeholders of its values can. -/
def IsNumbered (k : Nat) (leaf : Leaf) : Prop :=
  ∀ b : Nat, Sql.canShift b leaf.right = Sql.canShift b (Sql.placeholders k leaf.values.length)

theorem Binds.isNumbered (h : leaf.Binds .inOrder k []) : leaf.IsNumbered k := fun b ↦ by
  rw [Sql.canShift_of_plain (show Sql.numbers leaf.right = [] from h.right), h.values_eq]
  exact (Sql.canShift_of_plain rfl).symm

theorem isNumbered_bindOne (k : Nat) (c : Comparison) (v : Value) :
    (bindOne k c v).IsNumbered k := fun b ↦ canShift_wrapRight b _ c

theorem isNumbered_among (k : Nat) (c : Comparison) (values : List Value) :
    (among c (Sql.placeholders k values.length) values).IsNumbered k := fun _ ↦
  Sql.canShift_enclosed Sql.opens_parenthesis Sql.closes_parenthesis

/-- A list of values is bound in the same way after any others. -/
theorem bindList_shifted {c : Comparison} {items : List Value}
    (h : bindList k c items = .ok leaf) :
    bindList (k + b : Nat) c items = .ok (leaf.shifted b) ∧ leaf.IsNumbered k := by
  rw [bindList] at h ⊢
  by_cases hrows : items.any Value.isRenderable = true
  · rw [if_pos hrows] at h
    simp at h
  rw [if_neg hrows] at h ⊢
  by_cases harray : c.bindsArray = true
  · rw [if_pos harray] at h ⊢
    obtain rfl := Except.ok.inj h
    rw [shifted_among, Sql.shift_placeholders]
    exact ⟨rfl, isNumbered_among k c [.list items]⟩
  rw [if_neg harray] at h ⊢
  by_cases heach : (!c.bindsEach) = true
  · rw [if_pos heach] at h ⊢
    obtain rfl := Except.ok.inj h
    rw [shifted_bindOne]
    exact ⟨rfl, isNumbered_bindOne k c _⟩
  rw [if_neg heach] at h ⊢
  by_cases hempty : items.isEmpty = true
  · rw [if_pos hempty] at h ⊢
    obtain rfl := Except.ok.inj h
    have hbinds := @binds_ofEmpty .inOrder k c
    rw [hbinds.shifted_eq]
    exact ⟨rfl, hbinds.isNumbered⟩
  · rw [if_neg hempty] at h ⊢
    obtain rfl := Except.ok.inj h
    rw [shifted_among, Sql.shift_placeholders]
    exact ⟨rfl, isNumbered_among k c items⟩

/-- A wrapped value that is no sub-query and no test for null becomes the same leaf after any
others. -/
theorem plainWrapped_shifted {c : Comparison} {inner : Value} {bind quote : Bool}
    (hplain : bind = false → inner.InlinesPlainly quote)
    (h : LeafRule.plainWrapped k c inner bind quote = .ok leaf) :
    LeafRule.plainWrapped (k + b : Nat) c inner bind quote = .ok (leaf.shifted b) ∧
      leaf.IsNumbered k := by
  cases bind with
  | false =>
    have hbinds := binds_of_plainCase (d := .inOrder) hplain (.of_plainWrapped h)
    rw [hbinds.shifted_eq, ← h, LeafRule.plainWrapped.eq_def, LeafRule.plainWrapped.eq_def]
    exact ⟨by cases inner.elements? <;> rfl, hbinds.isNumbered⟩
  | true =>
    rw [LeafRule.plainWrapped.eq_def] at h ⊢
    cases hitems : inner.elements? with
    | some items =>
      rw [hitems] at h
      exact bindList_shifted h
    | none =>
      rw [hitems] at h
      obtain rfl := Except.ok.inj h
      rw [shifted_bindOne]
      exact ⟨rfl, isNumbered_bindOne k c inner⟩

end Leaf

/-! ## Sub-queries -/

/-- Another rendition of a sub-query, with the placeholders moved up. -/
structure Rendition.IsShift (b : Nat) (r r' : Rendition) : Prop where
  query : r'.query.inline = Sql.shift b r.query.inline
  values : r'.values = r.values
  comparison : r'.comparison = r.comparison

/-- A rendition after `k` values, and what the sub-query renders to after `b` more. -/
structure Rendition.Moves (b k : Nat) (r : Rendition) (x : Logged Rendition) : Prop where
  operator : r.PlainOperator
  answers : x.Answers (r.IsShift b) (Sql.canShift b r.query.inline = true)
    (Sql.Reaches b k r.values.length)

namespace Leaf

variable {explicit : Option Comparison} {r : Rendition} {leaf : Leaf}

theorem splice_shifted {b : Nat} {r' : Rendition} (h : splice explicit r = .ok leaf)
    (hshift : r.IsShift b r') : splice explicit r' = .ok (leaf.shifted b) := by
  obtain ⟨comparison, operator, hleads, rfl⟩ := of_splice h
  rw [splice.eq_def, hshift.query, hshift.values, hshift.comparison, shifted,
    Sql.shift_enclosed Sql.opens_parenthesis Sql.closes_parenthesis]
  cases hleads with
  | given hexplicit =>
    rw [hexplicit]
    rfl
  | amongRows hexplicit hown =>
    rw [hexplicit, hown]
    rfl
  | own hexplicit hown =>
    rw [hexplicit, hown]
    rfl

end Leaf

/-! ## What is asked of a tree -/

/-- A value whose placeholders move up with the values bound before it. A caller's own sub-query has
to render after any others as hand-written SQL with what it renders to at first. -/
def Value.ShiftsItself : Value → Prop
  | .renderable _ render => ∃ r, Rendition.ofValue (render 0) = .ok r ∧ r.PlainOperator ∧
    ∀ b : Nat, (∀ r', Rendition.ofValue (render b) = .ok r' → r.IsShift b r') ∧
      ((∃ r', Rendition.ofValue (render b) = .ok r') ↔ Sql.canShift b r.query.inline = true)
  | .query _ select => select.table.Plain
  | _ => True

/-- A leaf whose placeholders move up with the values bound before it, and that inlines none. -/
def Place.ShiftsItself (p : Place) : Prop :=
  p.isIgnored = false →
    match p.value with
    | .wrapped inner bind _ quote => inner.ShiftsItself ∧
      (bind = false → inner.isRenderable = false → inner.InlinesPlainly quote)
    | v => v.ShiftsItself

/-! ## Leaves in a tree -/

/-- A leaf after `k` values, and what it is resolved to after `b` more. -/
structure Leaf.Moves (b k : Nat) (leaf : Leaf) (x : Logged Leaf) : Prop where
  operator : Sql.numbers leaf.operator = []
  answers : x.Answers (· = leaf.shifted b) (Sql.canShift b leaf.right = true)
    (Sql.Reaches b k leaf.values.length)

structure LeafContext.IsAfter (k b : Nat) (ctx ctx' : LeafContext) : Prop where
  key : ctx'.key = ctx.key
  comparison : ctx'.comparison = ctx.comparison
  before : ctx.bound = k
  bound : ctx'.bound = (k + b : Nat)
  isFar : ctx'.isFar = Sql.isFar b

section

variable {b k : Nat} {leaf : Leaf} {ctx ctx' : LeafContext} {x : Logged Leaf}

theorem LeafContext.IsAfter.exists_eq (h : ctx.IsAfter k b ctx') : ∃ field isFar render,
    ctx' = ⟨ctx.key, field, ctx.comparison, (k + b : Nat), isFar, render⟩ := by
  rw [← h.key, ← h.comparison, ← h.bound]
  exact ⟨_, _, _, rfl⟩

theorem Leaf.Binds.moves (h : leaf.Binds .inOrder k []) (hx : x.result = .ok leaf) :
    leaf.Moves b k x where
  operator := h.operator
  answers := by
    refine .of_ok hx h.shifted_eq.symm ?_
    rw [h.isNumbered b, h.values_eq]
    exact Sql.canShift_of_plain rfl

theorem Leaf.moves_of_numbered (hctx : ctx.IsAfter k b ctx')
    (hoperator : Sql.numbers leaf.operator = []) (hnumbered : leaf.IsNumbered k)
    (hx : x.result = ctx'.numbered (leaf.shifted b)) : leaf.Moves b k x where
  operator := hoperator
  answers := by
    have hvalues : (leaf.shifted b).values = leaf.values := rfl
    rw [hnumbered b, Sql.canShift_placeholders]
    rw [LeafContext.numbered, hctx.isFar, hctx.bound, hvalues] at hx
    have hnear : Sql.isFar 0 = false := by decide
    constructor
    · intro a ha
      rw [hx] at ha
      split at ha
      · simp at ha
      · exact (Except.ok.inj ha).symm
    · intro hcan
      rw [if_neg] at hx
      · exact ⟨_, hx⟩
      · obtain rfl | hcan := hcan
        · simp [hnear]
        · rw [hcan, Bool.not_true, Bool.and_false]
          exact Bool.false_ne_true
    · intro hreach a ha
      obtain hfar | hwrite := hreach
      -- far away the rules have checked what is asked for, and elsewhere it is known
      · rw [hx, hfar, Bool.true_and] at ha
        by_contra hcan
        rw [not_or, Bool.not_eq_true] at hcan
        rw [hcan.2] at ha
        simp at ha
      · refine .inr ?_
        have hlast : ((k + b : Nat) : Int) + leaf.values.length =
            (k + b + leaf.values.length : Nat) := rfl
        have hfirst : ((k + b : Nat) : Int) + 1 = (k + b + 1 : Nat) := rfl
        rw [Sql.canNumber, Bool.or_eq_true, Bool.and_eq_true, decide_eq_true_iff, hfirst, hlast]
        by_cases hnone : leaf.values.length = 0
        · exact .inl hnone
        · exact .inr ⟨Text.canWrite_of_le (by omega) hwrite, hwrite⟩

theorem Leaf.moves_of_splice {explicit : Option Comparison} {r : Rendition}
    {render : Logged Rendition} (h : Leaf.splice explicit r = .ok leaf) (hr : r.Moves b k render) :
    leaf.Moves b k (do .ofExcept (Leaf.splice explicit (← render))) := by
  obtain ⟨hoperator, hright, hvalues⟩ := Leaf.parts_of_splice h hr.operator
  refine ⟨hoperator, ?_⟩
  rw [hright, Sql.canShift_enclosed Sql.opens_parenthesis Sql.closes_parenthesis, hvalues]
  exact hr.answers.bind_ok fun r' hr' ↦ ⟨_, Leaf.splice_shifted h hr', rfl⟩

theorem WrappedCase.moves_of_no_values {own : Option Comparison} {bind quote : Bool} {inner : Value}
    (h : WrappedCase ctx' own (own <|> ctx'.comparison) bind quote inner leaf)
    (hbinds : leaf.Binds .inOrder k []) :
    leaf.Moves b k (LeafRule.resolveWrapped inner bind own quote ctx') :=
  hbinds.moves (h.resolveWrapped_eq.elim
    (·.trans (ctx'.numbered_of_no_values hbinds.values_eq)) (·.2))

/-- **A wrapped value** becomes its leaf, moved up. -/
theorem WrappedCase.moves {own : Option Comparison} {bind quote : Bool} {inner : Value}
    (h : WrappedCase ctx own (own <|> ctx.comparison) bind quote inner leaf)
    (hctx : ctx.IsAfter k b ctx') (hplain : (own <|> ctx.comparison).any (·.leftOnly) = false →
      bind = false → inner.isRenderable = false → inner.InlinesPlainly quote)
    (hrows : (own <|> ctx.comparison).any (·.leftOnly) = false → inner.isRenderable = true →
      ∀ r, (ctx.render k).result = .ok r → r.Moves b k (ctx'.render (k + b : Nat))) :
    leaf.Moves b k (LeafRule.resolveWrapped inner bind own quote ctx') := by
  -- what is numbered and rendered differs after more values, and nothing else
  obtain ⟨_, _, _, rfl⟩ := hctx.exists_eq
  cases h with
  | ignored hc htest =>
    exact WrappedCase.moves_of_no_values (.ignored hc htest)
      (Leaf.binds_nothing rfl (Comparison.numbers_label _) rfl)
  | subquery hleft hinner hr h =>
    rw [hctx.before] at hr
    rw [LeafRule.resolveWrapped.eq_def]
    dsimp only
    rw [if_neg (ne_true_of_eq_false hleft), if_pos hinner]
    exact Leaf.moves_of_splice h (hrows hleft hinner _ hr)
  | null hleft hnull =>
    exact WrappedCase.moves_of_no_values (.null hleft hnull) (Leaf.binds_nullTest _)
  | notNull hleft h =>
    exact WrappedCase.moves_of_no_values (.notNull hleft h) (Leaf.binds_of_notNullTest h)
  | now hleft => exact WrappedCase.moves_of_no_values (.now hleft) (Leaf.binds_ofMarker _ _)
  | plain hleft hinner hnull hmarker h =>
    have hinlined := fun hbind ↦ hplain hleft hbind hinner
    rw [hctx.before] at h
    obtain ⟨hshifted, hnumbered⟩ := Leaf.plainWrapped_shifted (b := b) hinlined h
    refine Leaf.moves_of_numbered hctx ?_ hnumbered
      ((WrappedCase.resolveWrapped_eq ?_).resolve_right fun hrows ↦ ?_)
    · exact (Leaf.binds_of_plainCase (d := .inOrder) hinlined (.of_plainWrapped h)).operator
    · exact .plain hleft hinner hnull hmarker hshifted
    · exact Bool.false_ne_true (hinner.symm.trans hrows.1)

theorem LeafCase.moves_of_no_values {v : Value} (h : LeafCase ctx' v leaf)
    (hbinds : leaf.Binds .inOrder k []) : leaf.Moves b k (LeafRules.standard.resolve v ctx') :=
  hbinds.moves (h.resolve_standard (ctx'.numbered_of_no_values hbinds.values_eq))

/-- A value under a key that binds values itself is checked once more. -/
theorem LeafCase.moves_of_numbered {v : Value} (h : LeafCase ctx' v (leaf.shifted b))
    (hctx : ctx.IsAfter k b ctx') (hv : v.isRenderable = false)
    (hwrapped : ∀ inner bind own quote, v ≠ .wrapped inner bind own quote)
    (hoperator : Sql.numbers leaf.operator = []) (hnumbered : leaf.IsNumbered k) :
    leaf.Moves b k (LeafRules.standard.resolve v ctx') := by
  refine Leaf.moves_of_numbered hctx hoperator hnumbered ?_
  obtain hresult | ⟨hrows | ⟨_, _, _, _, heq, -⟩, -⟩ := h.resolve_standard_eq
  · exact hresult
  · exact absurd (hv.symm.trans hrows) Bool.false_ne_true
  · exact absurd heq (hwrapped _ _ _ _)

/-- **A value under a key** becomes its leaf, moved up. -/
theorem LeafCase.moves {key : String} {v : Value} {p : Place} (h : LeafCase ctx v leaf)
    (hctx : ctx.IsAfter k b ctx') (hp : p = ⟨some key, v, ctx.comparison⟩)
    (hplain : p.ShiftsItself)
    (hrows : p.inner.isRenderable = true → p.isIgnored = false →
      ∀ r, (ctx.render k).result = .ok r → r.Moves b k (ctx'.render (k + b : Nat))) :
    leaf.Moves b k (LeafRules.standard.resolve v ctx') := by
  -- what is numbered and rendered differs after more values, and nothing else
  obtain ⟨_, _, _, rfl⟩ := hctx.exists_eq
  cases h with
  | ignored hc htest =>
    exact LeafCase.moves_of_no_values (.ignored hc htest)
      (Leaf.binds_nothing rfl (Comparison.numbers_label _) rfl)
  | null hleft hnull =>
    exact LeafCase.moves_of_no_values (.null hleft hnull) (Leaf.binds_nullTest _)
  | notNull hleft h =>
    exact LeafCase.moves_of_no_values (.notNull hleft h) (Leaf.binds_of_notNullTest h)
  | now hleft => exact LeafCase.moves_of_no_values (.now hleft) (Leaf.binds_ofMarker _ _)
  | items hleft hv h =>
    rw [hctx.before] at h
    obtain ⟨hshifted, hnumbered⟩ := Leaf.bindList_shifted (b := b) h
    exact LeafCase.moves_of_numbered (.items hleft hv hshifted) hctx
      (Value.isRenderable_of_elements? hv) (Value.ne_wrapped_of_elements? hv)
      (Leaf.binds_of_listCase (d := .inOrder) (.of_bindList h)).operator hnumbered
  | @wrapped inner bind quote own _ hleft h =>
    have hinner : p.inner = inner := by rw [hp, Place.inner]
    have hignored (hnot : (own <|> ctx.comparison).any (·.leftOnly) = false) :
        p.isIgnored = false := by
      rw [hp, Place.isIgnored_wrapped hleft, hnot]
    rw [hinner] at hrows
    rw [LeafRules.resolve_standard_wrapped]
    · refine h.moves hctx (fun hnot hbind hrenderable ↦ ?_) fun hnot hrenderable ↦
        hrows hrenderable (hignored hnot)
      have hplace := hplain (hignored hnot)
      rw [hp] at hplace
      exact hplace.2 hbind hrenderable
    · exact hleft
  | subquery hleft hv hr h =>
    have hignored : p.isIgnored = false := by
      rw [hp]
      exact Place.isIgnored_of_not_wrapped hleft (Value.ne_wrapped_of_isRenderable hv)
    have hinner : p.inner = v := by
      rw [hp]
      exact Place.inner_of_isRenderable hv
    rw [hctx.before] at hr
    rw [hinner] at hrows
    rw [LeafRules.resolve_standard_of_isRenderable]
    · exact Leaf.moves_of_splice h (hrows hv hignored _ hr)
    · exact hleft
    · exact hv
  | scalar hleft hnull hmarker hitems hwrapped hv =>
    rw [hctx.before]
    refine LeafCase.moves_of_numbered ?_ hctx hv hwrapped
      (Leaf.binds_bindOne (d := .inOrder) _ v).operator (Leaf.isNumbered_bindOne k _ v)
    rw [Leaf.shifted_bindOne]
    exact .scalar hleft hnull hmarker hitems hwrapped hv

end

end Rowmap
