import Rowmap.Proofs.Condition.Alike

/-!
# Trees and the names of record types

What a condition tree compiles to depends on no more of its record type than the fields. The name of
the type stands in messages and in the log; its table and its primary key are not looked at. So two
types with the same fields compile a tree to the same statement part, or both fail.

The two runs are compared side by side. Selections inside a tree have a type of their own, so they
are the same computation in both.
-/

namespace Rowmap

/-- Sequences agree if their first steps come to the same, and the others do after that. -/
theorem Except.Agrees.bind_eq {ε α γ δ : Type} {q : γ → δ → Prop} {x y : Except ε α}
    {f : α → Except ε γ} {g : α → Except ε δ} (h : Except.Agrees (· = ·) x y)
    (hfg : ∀ a, Except.Agrees q (f a) (g a)) : Except.Agrees q (x >>= f) (y >>= g) :=
  h.bind fun a _ hab ↦ hab ▸ hfg a

/-- Two scopes that tell leaves alike: they have the same fields and rules, and number alike. -/
structure Scope.SameFields (s s' : Scope) : Prop where
  fields : s.table.fields = s'.table.fields
  rules : s.rules = s'.rules
  isFar : s.isFar = s'.isFar

namespace Condition

variable {s s' : Scope}

theorem fieldOf_sameFields (hs : s.SameFields s') (key : String) :
    Except.Agrees (· = ·) (fieldOf s key) (fieldOf s' key) := by
  have hfield : s.table.field? key = s'.table.field? key := congrArg (·.lookup key) hs.fields
  rw [fieldOf, fieldOf, hfield]
  split
  · exact rfl
  · trivial

theorem ofScalar_sameFields (hs : s.SameFields s') (key : String) (v : Value)
    (render : Int → Logged Rendition) (c : Option Comparison) (b : Int) :
    Except.Agrees (· = ·) (ofScalar s key v render c b).result
      (ofScalar s' key v render c b).result := by
  rw [ofScalar, ofScalar, Logged.result_bind, Logged.result_bind, hs.rules, hs.isFar]
  refine (fieldOf_sameFields hs key).bind_eq fun field ↦ ?_
  split
  · exact rfl
  · exact .same fun _ _ ↦ rfl

/-- A value that compiles to the same condition in both scopes, wherever in a tree it stands. -/
structure RunsSame (s s' : Scope) (v : Value) : Prop where
  node : ∀ top c b,
    Except.Agrees (· = ·) (ofNode s top v c b).result (ofNode s' top v c b).result
  field : ∀ key c b,
    Except.Agrees (· = ·) (ofField s key v c b).result (ofField s' key v c b).result

namespace RunsSame

variable {v : Value} {vs : List Value}

theorem of_plain (hs : s.SameFields s') (hv : v.hasParts = false) : RunsSame s s' v where
  node top c b := by
    rw [ofNode_of_plain hv, ofNode_of_plain hv]
    exact .same fun _ _ ↦ rfl
  field key c b := by
    rw [ofField_of_plain hv, ofField_of_plain hv]
    exact ofScalar_sameFields hs key v _ c b

/-- Elements that compile to the same conditions do so one after the other. -/
theorem sequence {α : Type} {f f' : α → Int → Logged Condition}
    {g g' : List α → Int → Logged (List Condition)} (hg : Sequences f g) (hg' : Sequences f' g')
    {as : List α} (h : ∀ a ∈ as, ∀ b, Except.Agrees (· = ·) (f a b).result (f' a b).result)
    (b : Int) : Except.Agrees (· = ·) (g as b).result (g' as b).result := by
  have hlength (c d : Condition) (h : c = d) : c.values.length = d.values.length := h ▸ rfl
  refine (hg.agree hg' hlength (List.forall₂_same.mpr h) b).imp fun parts parts' h ↦ ?_
  rwa [List.forall₂_eq_eq_eq] at h

theorem nodes (h : ∀ v ∈ vs, RunsSame s s' v) (c : Option Comparison) (b : Int) :
    Except.Agrees (· = ·) (ofNodes s vs c b).result (ofNodes s' vs c b).result :=
  sequence sequences_ofNodes sequences_ofNodes (fun v hv ↦ (h v hv).node .and c) b

theorem fieldItems (h : ∀ v ∈ vs, RunsSame s s' v) (key : String) (c : Option Comparison)
    (b : Int) :
    Except.Agrees (· = ·) (ofFieldItems s key vs c b).result (ofFieldItems s' key vs c b).result :=
  sequence sequences_ofFieldItems sequences_ofFieldItems (fun v hv ↦ (h v hv).field key c) b

theorem entries (hs : s.SameFields s') {es : List (String × Value)}
    (h : ∀ v ∈ es.map (·.2), RunsSame s s' v) (c : Option Comparison) (b : Int) :
    Except.Agrees (· = ·) (ofEntries s es c b).result (ofEntries s' es c b).result := by
  refine sequence sequences_ofEntries sequences_ofEntries (fun e he b ↦ ?_) b
  rw [Logged.result_bind, Logged.result_bind]
  exact (fieldOf_sameFields hs e.1).bind_eq fun _ ↦
    (h e.2 (List.mem_map_of_mem he)).field e.1 c b

end RunsSame

/-- **A tree compiles to the same** wherever the fields are the same. -/
theorem runsSame (hs : s.SameFields s') : ∀ v, RunsSame s s' v := by
  refine Value.induction_on_parts fun v ih ↦ ?_
  have hmap {parts parts' : Logged (List Condition)} (f : List Condition → Condition)
      (h : Except.Agrees (· = ·) parts.result parts'.result) :
      Except.Agrees (· = ·) (f <$> parts).result (f <$> parts').result :=
    Logged.map_agrees h fun _ _ h ↦ congrArg f h
  have hscalar := ofScalar_sameFields hs
  cases v with
  | group id kind items own => exact {
      node := fun _ c b ↦ hmap _ (RunsSame.nodes ih (own <|> c) b)
      field := fun key c b ↦ hmap _ (RunsSame.fieldItems ih key (own <|> c) b) }
  | list | tuple => exact {
      node := fun _ c b ↦ hmap _ (RunsSame.nodes ih c b)
      field := fun key c b ↦ hscalar key _ _ c b }
  | map entries => exact {
      node := fun _ c b ↦ hmap _ (RunsSame.entries hs ih c b)
      field := fun _ _ _ ↦ trivial }
  | wrapped | query => exact {
      node := fun _ c b ↦ by
        rw [ofNode, ofNode, hs.isFar]
        exact .same fun _ _ ↦ rfl
      field := fun key c b ↦ by
        rw [ofField, ofField, hs.isFar]
        exact hscalar key _ _ c b }
  | _ => exact .of_plain hs rfl

end Condition

/-- **Types with the same fields** compile a tree to the same statement part, or both fail. -/
theorem Table.compile_of_same_fields {t t' : Table Value} (h : t.fields = t'.fields) (tree : Value)
    (bound : Int) :
    Except.Agrees (· = ·) (t.compile tree bound).result (t'.compile tree bound).result := by
  have hsame : Scope.SameFields ⟨t, .standard, false⟩ ⟨t', .standard, false⟩ := ⟨h, rfl, rfl⟩
  have hruns := Condition.runsSame hsame tree
  rw [compile, compile, Scope.compile, Scope.compile, Logged.result_bind, Logged.result_bind]
  exact (hruns.node .and none bound).bind_eq fun c ↦ rfl

end Rowmap
