import Mathlib.Data.List.Forall2
import Rowmap.Condition.Compile

/-!
# How compiling succeeds

Each function of the compiler inverted once: a condition that comes out of a node, of a value under
a key or of a leaf rule comes from one of the cases listed here, with everything that was checked on
the way. Later proofs take these cases and never open the compiler.

The elements of a list, the conditions of a group and the entries of a map are all compiled in one
way, from left to right with a running count of bound values; `Threaded` is that way.
-/

namespace Rowmap

/-! ## Results of steps -/

theorem Except.bind_eq_ok {ε α β : Type} {x : Except ε α} {f : α → Except ε β} {b : β} :
    (x >>= f) = .ok b ↔ ∃ a, x = .ok a ∧ f a = .ok b := by
  cases x <;> simp [bind, Except.bind]

/-- Going through a list answers each element's answer. -/
theorem Except.forall₂_of_mapM {ε α β : Type} {f : α → Except ε β} {as : List α} {bs : List β}
    (h : as.mapM f = .ok bs) : List.Forall₂ (fun a b ↦ f a = .ok b) as bs := by
  induction as generalizing bs with
  | nil =>
    obtain rfl := Except.ok.inj h
    exact .nil
  | cons a as ih =>
    rw [List.mapM_cons] at h
    obtain ⟨b, hb, h⟩ := Except.bind_eq_ok.mp h
    obtain ⟨bs', hbs, h⟩ := Except.bind_eq_ok.mp h
    obtain rfl := Except.ok.inj h
    exact .cons hb (ih hbs)

theorem Except.mapM_of_forall₂ {ε α β : Type} {f : α → Except ε β} {as : List α} {bs : List β}
    (h : List.Forall₂ (fun a b ↦ f a = .ok b) as bs) : as.mapM f = .ok bs := by
  induction h with
  | nil => rfl
  | cons head _ ih =>
    rw [List.mapM_cons, head, ih]
    rfl

/-- What holds of every answer of an element holds of all answers. -/
theorem Except.forall_of_mapM {ε α β : Type} {f : α → Except ε β} {p : β → Prop} {as : List α}
    {bs : List β} (h : as.mapM f = .ok bs) (each : ∀ a ∈ as, ∀ b, f a = .ok b → p b) :
    ∀ b ∈ bs, p b := by
  have hall := Except.forall₂_of_mapM h
  clear h
  induction hall with
  | nil => exact fun _ hb ↦ absurd hb List.not_mem_nil
  | cons hb _ ih =>
    rw [List.forall_mem_cons] at each ⊢
    exact ⟨each.1 _ hb, ih each.2⟩

theorem Logged.bind_eq_ok {α β : Type} {x : Logged α} {f : α → Logged β} {b : β} :
    (x >>= f).result = .ok b ↔ ∃ a, x.result = .ok a ∧ (f a).result = .ok b := by
  rw [Logged.result_bind, Except.bind_eq_ok]

theorem Logged.map_eq_ok {α β : Type} {x : Logged α} {f : α → β} {b : β} :
    (f <$> x).result = .ok b ↔ ∃ a, x.result = .ok a ∧ f a = b := by
  show (x >>= fun a ↦ pure (f a)).result = .ok b ↔ _
  rw [Logged.bind_eq_ok]
  simp

theorem Logged.bind_of_ok {α β : Type} {x : Logged α} {f : α → Logged β} {a : α}
    (h : x.result = .ok a) : (x >>= f).result = (f a).result := by
  rw [Logged.result_bind, h]
  rfl

theorem Logged.bind_of_error {α β : Type} {x : Logged α} {f : α → Logged β} {e : Failure}
    (h : x.result = .error e) : (x >>= f).result = .error e := by
  rw [Logged.result_bind, h]
  rfl

theorem Logged.map_of_error {α β : Type} {x : Logged α} {f : α → β} {e : Failure}
    (h : x.result = .error e) : (f <$> x).result = .error e :=
  bind_of_error (f := fun a ↦ pure (f a)) h

/-! ## Lists -/

/-- Elements compiled from left to right, each after the values that those before it bind. -/
inductive Threaded {α : Type} (compiles : α → Int → Condition → Prop) :
    List α → Int → List Condition → Prop where
  | nil (b : Int) : Threaded compiles [] b []
  | cons {a : α} {as : List α} {b : Int} {part : Condition} {parts : List Condition}
      (head : compiles a b part) (tail : Threaded compiles as (b + part.values.length) parts) :
      Threaded compiles (a :: as) b (part :: parts)

namespace Threaded

variable {α : Type} {compiles : α → Int → Condition → Prop}

/-- What holds of each element and its condition holds of all of them, pairwise. -/
theorem forall₂ {rel : α → Condition → Prop} {as : List α} {b : Int} {parts : List Condition}
    (h : Threaded compiles as b parts)
    (each : ∀ a ∈ as, ∀ b part, compiles a b part → rel a part) : List.Forall₂ rel as parts := by
  induction h with
  | nil b => exact .nil
  | cons head tail ih =>
    exact .cons (each _ List.mem_cons_self _ _ head)
      (ih fun a ha ↦ each a (List.mem_cons_of_mem _ ha))

theorem forall_mem {p : Condition → Prop} {as : List α} {b : Int} {parts : List Condition}
    (h : Threaded compiles as b parts) (each : ∀ a ∈ as, ∀ b part, compiles a b part → p part) :
    ∀ part ∈ parts, p part := by
  induction h with
  | nil b => exact fun _ hpart ↦ absurd hpart List.not_mem_nil
  | cons head tail ih =>
    rw [List.forall_mem_cons] at each ⊢
    exact ⟨each.1 _ _ head, ih each.2⟩

end Threaded

namespace Condition

/-! Each of the three ways through a list compiles an element and then those after it. -/

section

variable {s : Scope} {key : String} {c : Option Comparison} {b : Int}

theorem result_ofNodes_cons (v : Value) (vs : List Value) :
    (ofNodes s (v :: vs) c b).result = (do
      let part ← (ofNode s .and v c b).result
      let parts ← (ofNodes s vs c (b + part.values.length)).result
      .ok (part :: parts)) := by
  simp only [ofNodes, Logged.result_bind, Logged.result_ok]

theorem result_ofFieldItems_cons (v : Value) (vs : List Value) :
    (ofFieldItems s key (v :: vs) c b).result = (do
      let part ← (ofField s key v c b).result
      let parts ← (ofFieldItems s key vs c (b + part.values.length)).result
      .ok (part :: parts)) := by
  simp only [ofFieldItems, Logged.result_bind, Logged.result_ok]

theorem result_ofEntries_cons (e : String × Value) (es : List (String × Value)) :
    (ofEntries s (e :: es) c b).result = (do
      let part ← (do let _ ← fieldOf s e.1; (ofField s e.1 e.2 c b).result)
      let parts ← (ofEntries s es c (b + part.values.length)).result
      .ok (part :: parts)) := by
  simp only [ofEntries, Logged.result_bind, Logged.result_ok, Logged.result_ofExcept, bind_assoc]

end

theorem threaded_of_ofNodes {s : Scope} {vs : List Value} {c : Option Comparison} {b : Int}
    {parts : List Condition} (h : (ofNodes s vs c b).result = .ok parts) :
    Threaded (fun v b part ↦ (ofNode s .and v c b).result = .ok part) vs b parts := by
  induction vs generalizing b parts with
  | nil =>
    obtain rfl : [] = parts := by simpa [ofNodes] using h
    exact .nil b
  | cons v vs ih =>
    rw [ofNodes, Logged.bind_eq_ok] at h
    obtain ⟨part, hpart, h⟩ := h
    obtain ⟨rest, hrest, h⟩ := Logged.bind_eq_ok.mp h
    obtain rfl : part :: rest = parts := by simpa using h
    exact .cons hpart (ih hrest)

theorem threaded_of_ofFieldItems {s : Scope} {key : String} {vs : List Value}
    {c : Option Comparison} {b : Int} {parts : List Condition}
    (h : (ofFieldItems s key vs c b).result = .ok parts) :
    Threaded (fun v b part ↦ (ofField s key v c b).result = .ok part) vs b parts := by
  induction vs generalizing b parts with
  | nil =>
    obtain rfl : [] = parts := by simpa [ofFieldItems] using h
    exact .nil b
  | cons v vs ih =>
    rw [ofFieldItems, Logged.bind_eq_ok] at h
    obtain ⟨part, hpart, h⟩ := h
    obtain ⟨rest, hrest, h⟩ := Logged.bind_eq_ok.mp h
    obtain rfl : part :: rest = parts := by simpa using h
    exact .cons hpart (ih hrest)

theorem field?_of_fieldOf {s : Scope} {key : String} {field : Field}
    (h : fieldOf s key = .ok field) : s.table.field? key = some field := by
  rw [fieldOf] at h
  cases hf : s.table.field? key with
  | none => simp [hf] at h
  | some f =>
    rw [hf] at h
    rw [Except.ok.inj h]

theorem threaded_of_ofEntries {s : Scope} {es : List (String × Value)} {c : Option Comparison}
    {b : Int} {parts : List Condition} (h : (ofEntries s es c b).result = .ok parts) :
    Threaded (fun e b part ↦ (∃ field, s.table.field? e.1 = some field) ∧
      (ofField s e.1 e.2 c b).result = .ok part) es b parts := by
  induction es generalizing b parts with
  | nil =>
    obtain rfl : [] = parts := by simpa [ofEntries] using h
    exact .nil b
  | cons e es ih =>
    obtain ⟨key, v⟩ := e
    rw [ofEntries, Logged.bind_eq_ok] at h
    obtain ⟨field, hfield, h⟩ := h
    obtain ⟨part, hpart, h⟩ := Logged.bind_eq_ok.mp h
    obtain ⟨rest, hrest, h⟩ := Logged.bind_eq_ok.mp h
    obtain rfl : part :: rest = parts := by simpa using h
    exact .cons ⟨⟨field, field?_of_fieldOf hfield⟩, hpart⟩ (ih hrest)

/-! ## Nodes -/

inductive NodeCase (s : Scope) (top : Connective) (c : Option Comparison) (b : Int) :
    Value → Condition → Prop where
  | group {id : Nat} {groupKind : GroupKind} {items : List Value} {own : Option Comparison}
      {parts : List Condition}
      (h : Threaded (fun v b part ↦ (ofNode s .and v (own <|> c) b).result = .ok part)
        items b parts) :
      NodeCase s top c b (.group id groupKind items own) (.group groupKind.connective parts)
  | list {items : List Value} {parts : List Condition}
      (h : Threaded (fun v b part ↦ (ofNode s .and v c b).result = .ok part) items b parts) :
      NodeCase s top c b (.list items) (.group .and parts)
  | tuple {items : List Value} {parts : List Condition}
      (h : Threaded (fun v b part ↦ (ofNode s .and v c b).result = .ok part) items b parts) :
      NodeCase s top c b (.tuple items) (.group .and parts)
  | map {entries : List (String × Value)} {parts : List Condition}
      (h : Threaded (fun e b part ↦ (∃ field, s.table.field? e.1 = some field) ∧
        (ofField s e.1 e.2 c b).result = .ok part) entries b parts) :
      NodeCase s top c b (.map entries) (.fields top parts)
  | wrappedRows {inner : Value} {bind quote : Bool} {own : Option Comparison} {test : Comparison}
      {r : Rendition} (htest : (own <|> c) = some test) (hright : test.rightOnly = true)
      (hinner : inner.isRenderable = true) (h : (render s.isFar inner b).result = .ok r) :
      NodeCase s top c b (.wrapped inner bind own quote)
        (.atom (test.label ++ " (" ++ r.query.inline ++ ")") r.values)
  | rows {v : Value} {test : Comparison} {r : Rendition} (htest : c = some test)
      (hright : test.rightOnly = true) (hv : v.isRenderable = true)
      (h : (render s.isFar v b).result = .ok r) :
      NodeCase s top c b v (.atom (test.label ++ " (" ++ r.query.inline ++ ")") r.values)

theorem ofBare_eq_ok {v : Value} {renderable : Bool} {render : Int → Logged Rendition}
    {c : Option Comparison} {b : Int} {condition : Condition}
    (h : (ofBare v renderable render c b).result = .ok condition) :
    ∃ test r, c = some test ∧ test.rightOnly = true ∧ renderable = true ∧
      (render b).result = .ok r ∧
      condition = .atom (test.label ++ " (" ++ r.query.inline ++ ")") r.values := by
  cases c with
  | none => simp [ofBare] at h
  | some test =>
    rw [ofBare] at h
    by_cases hc : test.rightOnly && renderable
    · rw [if_pos hc, Logged.bind_eq_ok] at h
      obtain ⟨r, hr, h⟩ := h
      rw [Bool.and_eq_true] at hc
      exact ⟨test, r, rfl, hc.1, hc.2, hr, (Except.ok.inj h).symm⟩
    · rw [if_neg hc] at h
      simp at h

theorem render_of_ne_query {isFar : Bool} {v : Value} (h : ∀ id select, v ≠ .query id select) :
    render isFar v = renderPlain v := by
  funext b
  rw [render]
  exact h

theorem render_query (isFar : Bool) (id : Nat) (select : Select Value) :
    render isFar (.query id select) = renderSelect isFar select := by
  funext b
  rw [render]

theorem NodeCase.of_ofNode {s : Scope} {top : Connective} {v : Value} {c : Option Comparison}
    {b : Int} {condition : Condition} (h : (ofNode s top v c b).result = .ok condition) :
    NodeCase s top c b v condition := by
  rw [ofNode.eq_def] at h
  split at h
  · obtain ⟨parts, hparts, rfl⟩ := Logged.map_eq_ok.mp h
    exact .group (threaded_of_ofNodes hparts)
  · obtain ⟨parts, hparts, rfl⟩ := Logged.map_eq_ok.mp h
    exact .list (threaded_of_ofNodes hparts)
  · obtain ⟨parts, hparts, rfl⟩ := Logged.map_eq_ok.mp h
    exact .tuple (threaded_of_ofNodes hparts)
  · obtain ⟨parts, hparts, rfl⟩ := Logged.map_eq_ok.mp h
    exact .map (threaded_of_ofEntries hparts)
  · obtain ⟨test, r, htest, hright, hinner, hr, rfl⟩ := ofBare_eq_ok h
    exact .wrappedRows htest hright hinner hr
  · obtain ⟨test, r, htest, hright, -, hr, rfl⟩ := ofBare_eq_ok h
    exact .rows htest hright rfl (by rwa [render_query])
  · rename_i hquery
    obtain ⟨test, r, htest, hright, hv, hr, rfl⟩ := ofBare_eq_ok h
    exact .rows htest hright hv (by rwa [render_of_ne_query hquery])

/-! ## Values under a key -/

/-- How a sub-query that a value is, or wraps, renders. -/
def renderInner (isFar : Bool) : Value → Int → Logged Rendition
  | .wrapped inner _ _ _ => render isFar inner
  | v => render isFar v

theorem renderInner_query (isFar : Bool) (id : Nat) (select : Select Value) :
    renderInner isFar (.query id select) = renderSelect isFar select := render_query isFar id select

theorem renderInner_of_plain {isFar : Bool} {v : Value}
    (hwrapped : ∀ inner bind own quote, v ≠ .wrapped inner bind own quote)
    (hquery : ∀ id select, v ≠ .query id select) : renderInner isFar v = renderPlain v := by
  rw [← @render_of_ne_query isFar v hquery, renderInner]
  exact hwrapped

/-- What the rules know of a leaf. -/
def leafContext (s : Scope) (key : String) (field : Field) (v : Value) (c : Option Comparison)
    (b : Int) : LeafContext :=
  { key, field, comparison := c, bound := b, isFar := s.isFar, render := renderInner s.isFar v }

inductive FieldCase (s : Scope) (key : String) (c : Option Comparison) (b : Int) :
    Value → Condition → Prop where
  | group {id : Nat} {groupKind : GroupKind} {items : List Value} {own : Option Comparison}
      {parts : List Condition}
      (h : Threaded (fun v b part ↦ (ofField s key v (own <|> c) b).result = .ok part)
        items b parts) :
      FieldCase s key c b (.group id groupKind items own) (.group groupKind.connective parts)
  | skipped {field : Field} (hfield : s.table.field? key = some field) :
      FieldCase s key c b .unset .skipped
  | leaf {v : Value} {field : Field} {leaf : Leaf} (hfield : s.table.field? key = some field)
      (hgroup : ∀ id groupKind items own, v ≠ .group id groupKind items own)
      (hmap : ∀ entries, v ≠ .map entries) (hunset : v ≠ .unset)
      (h : (s.rules.resolve v (leafContext s key field v c b)).result = .ok leaf)
      (hright : leaf.comparison.filter (·.rightOnly) = none) :
      FieldCase s key c b v
        (.atom (Sql.words [leftOf field key leaf, leaf.operator, leaf.right]) leaf.values)

theorem FieldCase.of_ofScalar {s : Scope} {key : String} {v : Value} {c : Option Comparison}
    {b : Int} {condition : Condition}
    (hgroup : ∀ id groupKind items own, v ≠ .group id groupKind items own)
    (hmap : ∀ entries, v ≠ .map entries)
    (h : (ofScalar s key v (renderInner s.isFar v) c b).result = .ok condition) :
    FieldCase s key c b v condition := by
  rw [ofScalar, Logged.bind_eq_ok] at h
  obtain ⟨field, hfield, h⟩ := h
  have hdeclared := field?_of_fieldOf hfield
  by_cases hunset : v.isUnset = true
  · rw [if_pos hunset, Logged.bind_eq_ok] at h
    obtain ⟨-, -, h⟩ := h
    obtain rfl : .skipped = condition := Except.ok.inj h
    cases v <;> simp only [Value.isUnset, Bool.false_eq_true] at hunset
    exact .skipped hdeclared
  · rw [if_neg hunset, Logged.bind_eq_ok] at h
    obtain ⟨leaf, hleaf, h⟩ := h
    rw [Logged.result_ofExcept, ofLeaf] at h
    cases hright : leaf.comparison.filter (·.rightOnly) with
    | some c => simp [hright] at h
    | none =>
      rw [hright] at h
      obtain rfl := Except.ok.inj h
      exact .leaf hdeclared hgroup hmap (by rintro rfl; exact hunset rfl) hleaf hright

theorem FieldCase.of_ofField {s : Scope} {key : String} {v : Value} {c : Option Comparison}
    {b : Int} {condition : Condition} (h : (ofField s key v c b).result = .ok condition) :
    FieldCase s key c b v condition := by
  rw [ofField.eq_def] at h
  split at h
  · simp at h
  · obtain ⟨parts, hparts, rfl⟩ := Logged.map_eq_ok.mp h
    exact .group (threaded_of_ofFieldItems hparts)
  · exact .of_ofScalar (by simp) (by simp) h
  · exact .of_ofScalar (by simp) (by simp) (by rwa [renderInner_query])
  · rename_i v hmap hgroup hwrapped hquery
    exact .of_ofScalar hgroup hmap (by rwa [renderInner_of_plain hwrapped hquery])

end Condition

/-! ## Clauses after the conditions -/

namespace Select

theorem windowClause_cases {word : String} {bound : Option Value} {clauses : List String}
    (h : windowClause word bound = .ok clauses) :
    clauses = [] ∨ ∃ n : Int, clauses = [word ++ " " ++ toString n] := by
  rw [windowClause.eq_def] at h
  split at h
  · exact .inl (Except.ok.inj h).symm
  · obtain ⟨n, -, h⟩ := Except.bind_eq_ok.mp h
    obtain ⟨text, htext, h⟩ := Except.bind_eq_ok.mp h
    rw [Value.wholeText] at htext
    split at htext
    · obtain rfl := Except.ok.inj htext
      exact .inr ⟨n, (Except.ok.inj h).symm⟩
    · cases htext

theorem orderClause_cases {s : Select Value} {isSubquery : Bool} {clauses : List String}
    (h : s.orderClause isSubquery = .ok clauses) :
    clauses = [] ∨ ∃ text, s.table.orderText s.effectiveOrder = .ok text ∧
      clauses = ["ORDER BY " ++ text] := by
  rw [orderClause] at h
  split at h
  · exact .inl (Except.ok.inj h).symm
  · obtain ⟨text, htext, h⟩ := Except.bind_eq_ok.mp h
    exact .inr ⟨text, htext, (Except.ok.inj h).symm⟩

/-- **The clauses after the conditions** are an order and bounds of the rows. What holds of these
holds of each clause. -/
theorem forall_mem_tailClauses {s : Select Value} {isSubquery : Bool} {clauses : List String}
    {p : String → Prop} (h : s.tailClauses isSubquery = .ok clauses)
    (horder : ∀ text, s.table.orderText s.effectiveOrder = .ok text → p ("ORDER BY " ++ text))
    (hlimit : ∀ n : Int, p ("LIMIT " ++ toString n))
    (hoffset : ∀ n : Int, p ("OFFSET " ++ toString n)) : ∀ clause ∈ clauses, p clause := by
  obtain ⟨order, hordered, h⟩ := Except.bind_eq_ok.mp h
  obtain ⟨limit, hlimited, h⟩ := Except.bind_eq_ok.mp h
  obtain ⟨offset, hskipped, h⟩ := Except.bind_eq_ok.mp h
  obtain rfl := Except.ok.inj h
  rw [List.forall_mem_append, List.forall_mem_append]
  refine ⟨⟨?_, ?_⟩, ?_⟩
  · obtain rfl | ⟨text, htext, rfl⟩ := orderClause_cases hordered
    · exact List.forall_mem_nil _
    · exact List.forall_mem_singleton.mpr (horder text htext)
  · obtain rfl | ⟨n, rfl⟩ := windowClause_cases hlimited
    · exact List.forall_mem_nil _
    · exact List.forall_mem_singleton.mpr (hlimit n)
  · obtain rfl | ⟨n, rfl⟩ := windowClause_cases hskipped
    · exact List.forall_mem_nil _
    · exact List.forall_mem_singleton.mpr (hoffset n)

end Select

end Rowmap
