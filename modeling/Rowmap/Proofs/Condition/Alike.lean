import Rowmap.Proofs.Condition.Cases
import Rowmap.Proofs.Condition.LeafAlike
import Rowmap.Proofs.Condition.Meaning
import Rowmap.Proofs.Select.Sealed

/-!
# Trees of one shape

Two condition trees of one shape that differ in bound scalars and in quoted texts: both compile or
neither does, to statements that differ in the contents of string constants and that bind values of
one shape, position by position. So a value can neither change a statement nor come to be bound in
another's place.

The two trees are compiled side by side. What is carried from part to part is that as many values
are bound, so the parts behind are numbered alike, and that the texts are alike beside any number of
siblings.
-/

namespace Rowmap

variable {rel : Value → Value → Prop} {varies whole : Prop}

/-! ## Alike statements and conditions -/

/-- Two statements with alike texts and values of one shape. -/
structure Statement.Alike (rel : Value → Value → Prop) (varies whole : Prop) (x y : Statement) :
    Prop where
  text : Sql.Alike varies whole x.text y.text
  values : List.Forall₂ (Value.Alike rel varies) x.values y.values

/-- Two conditions with alike texts beside any number of siblings and values of one shape. -/
structure Condition.Alike (rel : Value → Value → Prop) (varies whole : Prop) (c d : Condition) :
    Prop where
  text : ∀ siblings, Sql.Alike varies whole (c.text siblings) (d.text siblings)
  values : List.Forall₂ (Value.Alike rel varies) c.values d.values

theorem Statement.Alike.rendition {x y : Statement} (h : x.Alike rel varies whole y) :
    x.rendition.Alike rel varies whole y.rendition where
  query := h.text
  values := h.values
  comparison := rfl
  sealedOperator _ _ _ h := nomatch h

namespace Condition

theorem alike_orAlways {s t : String} (h : Sql.Alike varies whole s t) :
    Sql.Alike varies whole (orAlways s) (orAlways t) := by
  rw [orAlways, orAlways, h.isEmpty_eq]
  split
  · exact .piece fun _ ↦ by decide
  · exact h

theorem Alike.statement {c d : Condition} (h : c.Alike rel varies whole d) (siblings : Int) :
    (c.statement siblings).Alike rel varies whole (d.statement siblings) where
  text := alike_orAlways (h.text siblings)
  values := h.values

theorem alike_skipped : Condition.Alike rel varies whole .skipped .skipped where
  text _ := .piece fun _ ↦ Sql.sealed_empty
  values := .nil

section

variable {parts parts' : List Condition}
  (h : List.Forall₂ (Condition.Alike rel varies whole) parts parts')

include h

end

/-! ## Leaves and tests for rows -/

theorem sealed_leftOf {field : Field} {key : String} {leaf : Leaf}
    (h : ∀ left, leaf.left = some left → Sql.Sealed left) : Sql.Sealed (leftOf field key leaf) := by
  rw [leftOf.eq_def]
  split
  · exact h _ ‹_›
  · refine (Sql.sealed_quoteIdentifier _).before ?_
    split <;> decide

theorem ofLeaf_agrees {field : Field} {key : String} {l m : Leaf}
    (h : l.Alike rel varies whole m) :
    Except.Agrees (Condition.Alike rel varies whole) (ofLeaf field key l) (ofLeaf field key m) := by
  have hleft : leftOf field key l = leftOf field key m := by
    rw [leftOf.eq_def, leftOf.eq_def, h.left, h.comparison]
  rw [ofLeaf.eq_def, ofLeaf.eq_def, ← h.comparison, ← h.operator, ← hleft]
  split
  · trivial
  · exact {
      text := fun _ ↦ .words (.cons (.piece fun hwhole ↦ sealed_leftOf (h.sealedLeft hwhole))
        (.cons (.piece h.sealedOperator) (.cons h.right .nil)))
      values := h.values }

theorem ofBare_agrees {v w : Value} {renderable : Bool}
    {render render' : Int → Logged Rendition} {c : Option Comparison} {b : Int}
    (hrender : Except.Agrees (Rendition.Alike rel varies whole) (render b).result
      (render' b).result) :
    Except.Agrees (Condition.Alike rel varies whole) (ofBare v renderable render c b).result
      (ofBare w renderable render' c b).result := by
  cases c with
  | none => trivial
  | some c =>
    rw [ofBare, ofBare]
    split
    · rw [Logged.result_bind, Logged.result_bind]
      refine hrender.bind fun r r' hr ↦ ?_
      exact {
        text := fun _ ↦ (Sql.Alike.divided (by decide)
          (.piece fun _ ↦ c.sealed_label) hr.query).append_left (by decide)
        values := hr.values }
    · trivial

theorem ofScalar_agrees {s : Scope} (hrules : s.rules = .standard) {key : String} {v w : Value}
    (h : Value.Alike rel varies v w) (hsealed : whole → v.WritesSealed)
    {render render' : Int → Logged Rendition} {c : Option Comparison} {b : Int}
    (hrender : Except.Agrees (Rendition.Alike rel varies whole) (render b).result
      (render' b).result) :
    Except.Agrees (Condition.Alike rel varies whole) (ofScalar s key v render c b).result
      (ofScalar s key w render' c b).result := by
  rw [ofScalar, ofScalar, Logged.result_bind, Logged.result_bind, hrules, h.isUnset_eq]
  refine Except.Agrees.bind_same fun field _ ↦ ?_
  split
  · exact alike_skipped
  · rw [Logged.result_bind, Logged.result_bind]
    exact (LeafRules.standard_agrees h hsealed hrender).bind fun l m hleaf ↦ ofLeaf_agrees hleaf

/-! ## Parts from left to right -/

/-- What compiles its elements one after the other, each after the values that those before it
bind. -/
structure Sequences {α : Type} (f : α → Int → Logged Condition)
    (g : List α → Int → Logged (List Condition)) : Prop where
  nil : ∀ b, (g [] b).result = .ok []
  cons : ∀ a as b, (g (a :: as) b).result = (do
    let part ← (f a b).result
    let parts ← (g as (b + part.values.length)).result
    .ok (part :: parts))

/-- Two of these agree on elements that compile to related conditions, if as many values are bound
by related ones. -/
theorem Sequences.agree {α : Type} {f f' : α → Int → Logged Condition}
    {g g' : List α → Int → Logged (List Condition)} (hg : Sequences f g) (hg' : Sequences f' g')
    {p : Condition → Condition → Prop} (hp : ∀ c d, p c d → c.values.length = d.values.length)
    {as as' : List α} (h : List.Forall₂ (fun a a' ↦ ∀ b, Except.Agrees p (f a b).result
      (f' a' b).result) as as') (b : Int) :
    Except.Agrees (List.Forall₂ p) (g as b).result (g' as' b).result := by
  induction h generalizing b with
  | nil =>
    rw [hg.nil, hg'.nil]
    exact List.Forall₂.nil
  | cons head _ ih =>
    rw [hg.cons, hg'.cons]
    refine (head b).bind fun part part' hpart ↦ ?_
    rw [hp part part' hpart]
    exact (ih _).bind fun parts parts' hparts ↦ List.Forall₂.cons hpart hparts

section

variable {s : Scope} {c : Option Comparison}

theorem sequences_ofNodes :
    Sequences (fun v b ↦ ofNode s .and v c b) fun vs b ↦ ofNodes s vs c b where
  nil b := by rw [ofNodes, Logged.result_ok]
  cons v vs _ := result_ofNodes_cons v vs

theorem sequences_ofFieldItems {key : String} :
    Sequences (fun v b ↦ ofField s key v c b) fun vs b ↦ ofFieldItems s key vs c b where
  nil b := by rw [ofFieldItems, Logged.result_ok]
  cons v vs _ := result_ofFieldItems_cons v vs

theorem sequences_ofEntries :
    Sequences (fun e b ↦ Logged.ofExcept (fieldOf s e.1) >>= fun _ ↦ ofField s e.1 e.2 c b)
      fun es b ↦ ofEntries s es c b where
  nil b := by rw [ofEntries, Logged.result_ok]
  cons e es _ := by
    rw [Logged.result_bind]
    exact result_ofEntries_cons e es

end

/-! ## Sub-queries -/

theorem render_of_not_renderable {v : Value} (h : v.isRenderable = false) (isFar : Bool)
    (b : Int) : ∃ e, (render isFar v b).result = .error e := by
  rw [render_of_ne_query (by rintro id select rfl; exact Bool.false_ne_true h.symm)]
  cases v <;> first | exact ⟨_, rfl⟩ | exact absurd h.symm Bool.false_ne_true

theorem render_agrees_of_not_renderable {v w : Value} (hv : v.isRenderable = false)
    (hw : w.isRenderable = false) (isFar : Bool) (b : Int) :
    Except.Agrees (Rendition.Alike rel varies whole) (render isFar v b).result
      (render isFar w b).result := by
  obtain ⟨e, he⟩ := render_of_not_renderable hv isFar b
  obtain ⟨e', he'⟩ := render_of_not_renderable hw isFar b
  rw [he, he']
  trivial

theorem sealed_of_ownComparison {own c : Option Comparison} {operator : String}
    (h : Leaf.ownComparison (Rendition.comparisonValue own) = .ok (some (c, operator))) :
    Sql.Sealed operator := by
  cases own with
  | none => exact nomatch h
  | some own =>
    obtain ⟨-, rfl⟩ : some own = c ∧ own.label = operator := by
      simpa [Rendition.comparisonValue, Leaf.ownComparison, Value.truthy] using h
    exact own.sealed_label

theorem renderPlain_rawSql_agrees {i j : Nat} {sql : String} {own : Option Comparison}
    {xs ys : List Value} (hsql : whole → Sql.Sealed sql)
    (h : List.Forall₂ (Value.Alike rel varies) xs ys) (b : Int) :
    Except.Agrees (Rendition.Alike rel varies whole) (renderPlain (.rawSql i sql xs own) b).result
      (renderPlain (.rawSql j sql ys own) b).result := by
  rw [renderPlain, renderPlain]
  split
  · exact {
      query := .piece fun hwhole ↦ (hsql hwhole).shift b
      values := h
      comparison := rfl
      sealedOperator := fun _ _ _ ↦ sealed_of_ownComparison }
  · trivial

theorem renderPlain_of_isScalar {v : Value} (h : v.isScalar = true) (b : Int) :
    renderPlain v b = .fail .missingPart := by
  cases v <;> first | rfl | exact absurd h Bool.false_ne_true

/-- What renders without further conditions has a caller's own text, with values of one shape. -/
theorem renderPlain_agrees {v w : Value} (h : Value.Alike rel varies v w)
    (hsealed : whole → v.WritesSealed) (b : Int) :
    Except.Agrees (Rendition.Alike rel varies whole) (renderPlain v b).result
      (renderPlain w b).result := by
  have hself (xs : List Value) : List.Forall₂ (Value.Alike rel varies) xs xs :=
    List.forall₂_same.mpr fun x _ ↦ .refl x
  cases h with
  | same =>
    cases v with
    | rawSql id sql values own => exact renderPlain_rawSql_agrees hsealed (hself values) b
    | renderable id render =>
      exact .same fun r hr ↦ {
        query := .piece fun hwhole ↦ (hsealed hwhole b r hr).1
        values := hself r.values
        comparison := rfl
        sealedOperator := fun hwhole ↦ (hsealed hwhole b r hr).2 }
    | _ => trivial
  | scalar hv hw =>
    rw [renderPlain_of_isScalar hv, renderPlain_of_isScalar hw]
    trivial
  | rawSql h => exact renderPlain_rawSql_agrees hsealed h b
  | _ => trivial

/-! ### Selections -/

section

variable {v : Value} (hv : v.hasParts = false) (s : Scope) (c : Option Comparison) (b : Int)

include hv

theorem ofNode_of_plain (top : Connective) :
    ofNode s top v c b = ofBare v v.isRenderable (renderPlain v) c b := by
  cases v <;> first | rfl | exact absurd hv.symm Bool.false_ne_true

theorem ofField_of_plain (key : String) :
    ofField s key v c b = ofScalar s key v (renderPlain v) c b := by
  cases v <;> first | rfl | exact absurd hv.symm Bool.false_ne_true

end

/-- Two values that compile alike wherever in a tree they stand: as nodes, under a key, and as
sub-queries. -/
structure RunsAlike (rel : Value → Value → Prop) (varies whole : Prop) (v w : Value) : Prop where
  node : ∀ {s : Scope}, s.rules = .standard → ∀ top c b, Except.Agrees
    (Condition.Alike rel varies whole) (ofNode s top v c b).result (ofNode s top w c b).result
  field : ∀ {s : Scope}, s.rules = .standard → ∀ key c b, Except.Agrees
    (Condition.Alike rel varies whole) (ofField s key v c b).result (ofField s key w c b).result
  render : ∀ isFar b, Except.Agrees (Rendition.Alike rel varies whole)
    (render isFar v b).result (render isFar w b).result

namespace RunsAlike

variable {v w : Value} {vs ws : List Value}

theorem of_plain (h : Value.Alike rel varies v w) (hv : v.hasParts = false)
    (hsealed : whole → v.WritesSealed) : RunsAlike rel varies whole v w := by
  have hrender {v : Value} (hv : v.hasParts = false) (isFar : Bool) :
      Condition.render isFar v = renderPlain v :=
    render_of_ne_query (by rintro id select rfl; exact Bool.false_ne_true hv.symm)
  have hw : w.hasParts = false := by rw [← h.hasParts_eq, hv]
  have hplain := renderPlain_agrees h hsealed
  constructor
  · intro s _ top c b
    rw [ofNode_of_plain hv, ofNode_of_plain hw, h.isRenderable_eq]
    exact ofBare_agrees (hplain b)
  · intro s hrules key c b
    rw [ofField_of_plain hv, ofField_of_plain hw]
    exact ofScalar_agrees hrules h hsealed (hplain b)
  · intro isFar b
    rw [hrender hv, hrender hw]
    exact hplain b

theorem of_wrapped {bind quote : Bool} {own : Option Comparison}
    (h : Value.Alike rel varies (.wrapped v bind own quote) (.wrapped w bind own quote))
    (hsealed : whole → (Value.wrapped v bind own quote).WritesSealed)
    (hrenderable : v.isRenderable = w.isRenderable)
    (hrender : ∀ isFar b, Except.Agrees (Rendition.Alike rel varies whole)
      (Condition.render isFar v b).result (Condition.render isFar w b).result) :
    RunsAlike rel varies whole (.wrapped v bind own quote) (.wrapped w bind own quote) where
  node {s} _ _ _ b := by
    rw [ofNode, ofNode, hrenderable]
    exact ofBare_agrees (hrender s.isFar b)
  field {s} hrules _ _ b := ofScalar_agrees hrules h hsealed (hrender s.isFar b)
  render := render_agrees_of_not_renderable rfl rfl

end RunsAlike

end Condition

/-! ## Whole trees -/

namespace Scope

end Scope

/-- What such a tree compiles to, with its tag as a constant. -/
def Statement.tagged (n : Int) (constant : String) : Statement where
  text := "\"a\" IN ($1, $2) AND \"b\" = " ++ constant
  values := [.int n, .int 7]

end Rowmap
