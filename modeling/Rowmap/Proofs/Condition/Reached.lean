import Mathlib.Logic.Relation
import Rowmap.Proofs.Condition.WellFormed

/-!
# Where compiling comes to

Compiling goes through a tree from left to right and ends at the first part that fails. A spot is a
part together with all that is known there: what it is compiled against, the comparison that it gets
from what holds it and how many values are bound before it. One spot leads to another if compiling
the first comes to the second, because what stands before it compiled.

So a tree fails as any spot fails that it leads to, however deep that is, and also inside the
conditions of a sub-query.
-/

namespace Rowmap

namespace Condition

/-- A part of a tree where it is compiled. -/
inductive Spot where
  | node (s : Scope) (top : Connective) (v : Value) (c : Option Comparison) (b : Int)
  | field (s : Scope) (key : String) (v : Value) (c : Option Comparison) (b : Int)

namespace Spot

def condition : Spot → Logged Condition
  | node s top v c b => ofNode s top v c b
  | field s key v c b => ofField s key v c b

/-- What a spot is compiled against. -/
def scope : Spot → Scope
  | node s .. | field s .. => s

end Spot

end Condition

/-- A leaf that is looked at has a comparison with a right-hand side, if any. -/
theorem Place.any_leftOnly_of_not_isIgnored {key : String} {v : Value} {c : Option Comparison}
    (h : (⟨some key, v, c⟩ : Place).isIgnored = false) :
    c.any (·.leftOnly) = false ∧ (⟨some key, v, c⟩ : Place).inForce.any (·.leftOnly) = false := by
  rw [isIgnored, Option.isSome_some, Bool.true_and, Bool.or_eq_false_iff] at h
  refine ⟨h.1, ?_⟩
  cases v with
  | wrapped inner bind own quote =>
    cases own with
    | none => exact h.1
    | some test => exact h.2
  | _ => exact h.1

theorem LeafRule.resolveWrapped_of_isRenderable {ctx : LeafContext} {own : Option Comparison}
    {bind quote : Bool} {inner : Value}
    (hleft : (own <|> ctx.comparison).any (·.leftOnly) = false)
    (hinner : inner.isRenderable = true) :
    resolveWrapped inner bind own quote ctx = (do
      .ofExcept (Leaf.splice own (← ctx.render ctx.bound))) := by
  rw [resolveWrapped.eq_def]
  dsimp only
  rw [hleft, if_neg Bool.false_ne_true, if_pos hinner]

open Condition

/-- Whether the part of a selection before its conditions can be written. -/
structure Select.HasHead (select : Select Value) : Prop where
  columns : ∃ columns, select.columnList = .ok columns
  name : ∃ name, Sql.quoteName select.table.name = .ok name

/-- The conditions of a selection, as they are compiled for a sub-query. -/
def Select.spot (select : Select Value) (isFar : Bool) (b : Int) : Spot :=
  .node ⟨select.table, .standard, isFar⟩ .and (.list select.wheres) none b

def Scope.spot (s : Scope) (tree : Value) (o : CompileOptions) : Spot :=
  match o.key with
  | some key => .field s key tree o.comparison o.bound
  | none => .node s o.connective tree o.comparison o.bound

namespace Condition

namespace Spot

/-- Compiling one spot comes to another. -/
inductive Leads : Spot → Spot → Prop where
  | group {s : Scope} {top : Connective} {id : Nat} {kind : GroupKind} {own c : Option Comparison}
      {before after : List Value} {v : Value} {b : Int} {parts : List Condition}
      (h : Threaded (fun v b part ↦ (ofNode s .and v (own <|> c) b).result = .ok part)
        before b parts) :
      Leads (.node s top (.group id kind (before ++ v :: after) own) c b)
        (.node s .and v (own <|> c) (b + (partValues parts).length))
  | list {s : Scope} {top : Connective} {c : Option Comparison} {before after : List Value}
      {v : Value} {b : Int} {parts : List Condition}
      (h : Threaded (fun v b part ↦ (ofNode s .and v c b).result = .ok part) before b parts) :
      Leads (.node s top (.list (before ++ v :: after)) c b)
        (.node s .and v c (b + (partValues parts).length))
  | tuple {s : Scope} {top : Connective} {c : Option Comparison} {before after : List Value}
      {v : Value} {b : Int} {parts : List Condition}
      (h : Threaded (fun v b part ↦ (ofNode s .and v c b).result = .ok part) before b parts) :
      Leads (.node s top (.tuple (before ++ v :: after)) c b)
        (.node s .and v c (b + (partValues parts).length))
  | entry {s : Scope} {top : Connective} {c : Option Comparison}
      {before after : List (String × Value)} {key : String} {v : Value} {b : Int}
      {parts : List Condition}
      (h : Threaded (fun e b part ↦ (∃ field, s.table.field? e.1 = some field) ∧
        (ofField s e.1 e.2 c b).result = .ok part) before b parts)
      (hkey : s.table.declares key = true) :
      Leads (.node s top (.map (before ++ (key, v) :: after)) c b)
        (.field s key v c (b + (partValues parts).length))
  | item {s : Scope} {key : String} {id : Nat} {kind : GroupKind} {own c : Option Comparison}
      {before after : List Value} {v : Value} {b : Int} {parts : List Condition}
      (h : Threaded (fun v b part ↦ (ofField s key v (own <|> c) b).result = .ok part)
        before b parts) :
      Leads (.field s key (.group id kind (before ++ v :: after) own) c b)
        (.field s key v (own <|> c) (b + (partValues parts).length))
  /-- A test for rows comes to the conditions of its query. -/
  | rows {s : Scope} {top : Connective} {v : Value} {c : Option Comparison} {b : Int} {id : Nat}
      {select : Select Value} {test : Comparison}
      (hinner : (⟨none, v, c⟩ : Place).inner = .query id select)
      (htest : (⟨none, v, c⟩ : Place).inForce = some test) (hright : test.rightOnly = true)
      (hhead : select.HasHead) :
      Leads (.node s top v c b) (select.spot s.isFar b)
  /-- A value that is compared with the rows of a query comes to its conditions. -/
  | subquery {s : Scope} {key : String} {v : Value} {c : Option Comparison} {b : Int} {id : Nat}
      {select : Select Value} (hrules : s.rules = .standard) (hkey : s.table.declares key = true)
      (hinner : (⟨some key, v, c⟩ : Place).inner = .query id select)
      (hlooked : (⟨some key, v, c⟩ : Place).isIgnored = false) (hhead : select.HasHead) :
      Leads (.field s key v c b) (select.spot s.isFar b)

/-- Compiling one spot comes to another after some steps. -/
abbrev Reaches : Spot → Spot → Prop := Relation.ReflTransGen Leads

end Spot

/-! ## One step -/

/-- What compiles its elements one after the other fails as one of them does, once those before it
compiled. -/
theorem error_of_threaded {α : Type} {f : α → Int → Except Failure Condition}
    {g : List α → Int → Except Failure (List Condition)}
    (hcons : ∀ a as b, g (a :: as) b = (do
      let part ← f a b
      let parts ← g as (b + part.values.length)
      .ok (part :: parts)))
    {compiles : α → Int → Condition → Prop}
    (hcompiles : ∀ a b part, compiles a b part → f a b = .ok part)
    {before after : List α} {a : α} {b : Int} {parts : List Condition} {e : Failure}
    (h : Threaded compiles before b parts)
    (ha : f a (b + (partValues parts).length) = .error e) :
    g (before ++ a :: after) b = .error e := by
  induction h with
  | nil b =>
    rw [partValues, List.length_nil, Int.natCast_zero, Int.add_zero] at ha
    rw [List.nil_append, hcons, ha]
    rfl
  | cons head tail ih =>
    rw [partValues, List.length_append, Int.natCast_add, ← Int.add_assoc] at ha
    rw [List.cons_append, hcons, hcompiles _ _ _ head]
    show (g (_ ++ a :: after) _ >>= fun parts ↦ .ok (_ :: parts)) = _
    rw [ih ha]
    rfl

section

variable {s : Scope} {key : String} {c : Option Comparison} {b : Int} {parts : List Condition}
  {e : Failure}

theorem ofNodes_error {before after : List Value} {v : Value}
    (h : Threaded (fun v b part ↦ (ofNode s .and v c b).result = .ok part) before b parts)
    (hv : (ofNode s .and v c (b + (partValues parts).length)).result = .error e) :
    (ofNodes s (before ++ v :: after) c b).result = .error e :=
  error_of_threaded (f := fun v b ↦ (ofNode s .and v c b).result)
    (g := fun vs b ↦ (ofNodes s vs c b).result) (fun v vs _ ↦ result_ofNodes_cons v vs)
    (fun _ _ _ h ↦ h) h hv

theorem ofFieldItems_error {before after : List Value} {v : Value}
    (h : Threaded (fun v b part ↦ (ofField s key v c b).result = .ok part) before b parts)
    (hv : (ofField s key v c (b + (partValues parts).length)).result = .error e) :
    (ofFieldItems s key (before ++ v :: after) c b).result = .error e :=
  error_of_threaded (f := fun v b ↦ (ofField s key v c b).result)
    (g := fun vs b ↦ (ofFieldItems s key vs c b).result)
    (fun v vs _ ↦ result_ofFieldItems_cons v vs) (fun _ _ _ h ↦ h) h hv

theorem ofEntries_error {before after : List (String × Value)} {v : Value}
    (h : Threaded (fun e b part ↦ (∃ field, s.table.field? e.1 = some field) ∧
      (ofField s e.1 e.2 c b).result = .ok part) before b parts)
    (hkey : s.table.declares key = true)
    (hv : (ofField s key v c (b + (partValues parts).length)).result = .error e) :
    (ofEntries s (before ++ (key, v) :: after) c b).result = .error e := by
  refine error_of_threaded
    (f := fun e b ↦ do let _ ← fieldOf s e.1; (ofField s e.1 e.2 c b).result)
    (g := fun es b ↦ (ofEntries s es c b).result) (fun e es _ ↦ result_ofEntries_cons e es)
    (fun e b part h ↦ ?_) h ?_
  · obtain ⟨⟨field, hfield⟩, hpart⟩ := h
    exact Except.bind_eq_ok.mpr ⟨field, fieldOf_of_field? hfield, hpart⟩
  · obtain ⟨field, hfield⟩ := Option.isSome_iff_exists.mp hkey
    show (do let _ ← fieldOf s key; _) = _
    rw [fieldOf_of_field? hfield]
    exact hv

theorem assemble_error {select : Select Value} {isSubquery : Bool} {where_ : Logged Statement}
    (hhead : select.HasHead) (hwheres : select.wheres.isEmpty = false)
    (h : where_.result = .error e) : (assemble select isSubquery where_).result = .error e := by
  obtain ⟨⟨columns, hcolumns⟩, name, hname⟩ := hhead
  rw [assemble, Logged.bind_of_ok (x := .ofExcept select.columnList) hcolumns]
  dsimp only
  rw [Logged.bind_of_ok (x := .ofExcept (Sql.quoteName select.table.name)) hname, hwheres,
    if_neg Bool.false_ne_true]
  exact Logged.bind_of_error (Logged.map_of_error h)

theorem renderSelect_error {select : Select Value} {isFar : Bool} (hhead : select.HasHead)
    (h : (select.spot isFar b).condition.result = .error e) :
    (renderSelect isFar select b).result = .error e := by
  rw [Select.spot, Spot.condition, ofNode] at h
  rcases hparts : (ofNodes ⟨select.table, .standard, isFar⟩ select.wheres none b).result
    with f | parts
  · obtain rfl := Except.error.inj (h.symm.trans (Logged.map_of_error hparts))
    have hwheres : select.wheres.isEmpty = false := by
      rcases hnone : select.wheres with _ | _
      · rw [hnone] at hparts
        cases hparts
      · rfl
    cases select
    rw [renderSelect]
    exact Logged.bind_of_error (assemble_error hhead hwheres (Logged.bind_of_error hparts))
  · cases h.symm.trans (Logged.map_eq_ok.mpr ⟨parts, hparts, rfl⟩)

theorem ofBare_error {v : Value} {render : Int → Logged Rendition} {test : Comparison}
    (htest : c = some test) (hright : test.rightOnly = true) (h : (render b).result = .error e) :
    (ofBare v true render c b).result = .error e := by
  rw [htest, ofBare, hright, Bool.and_self, if_pos rfl]
  exact Logged.bind_of_error h

theorem ofNode_error_of_rows {top : Connective} {v : Value} {id : Nat} {select : Select Value}
    {test : Comparison} (hinner : (⟨none, v, c⟩ : Place).inner = .query id select)
    (htest : (⟨none, v, c⟩ : Place).inForce = some test) (hright : test.rightOnly = true)
    (h : (renderSelect s.isFar select b).result = .error e) :
    (ofNode s top v c b).result = .error e := by
  cases v with
  | wrapped inner bind own quote =>
    obtain rfl : inner = .query id select := hinner
    exact ofBare_error htest hright (by rwa [render_query])
  | query =>
    obtain ⟨rfl, rfl⟩ := Value.query.inj hinner
    exact ofBare_error htest hright h
  | _ => cases hinner

theorem ofField_error {v : Value} (hkey : s.table.declares key = true)
    (hgroup : ∀ id groupKind items own, v ≠ .group id groupKind items own)
    (hmap : ∀ entries, v ≠ .map entries) (hunset : v ≠ .unset)
    (h : ∀ field, (s.rules.resolve v (leafContext s key field v c b)).result = .error e) :
    (ofField s key v c b).result = .error e := by
  obtain ⟨field, hfield⟩ := Option.isSome_iff_exists.mp hkey
  rw [ofField_eq_ofLeaf hfield hgroup hmap hunset]
  exact Logged.bind_of_error (h field)

theorem ofField_error_of_subquery {v : Value} {id : Nat} {select : Select Value}
    (hrules : s.rules = .standard) (hkey : s.table.declares key = true)
    (hinner : (⟨some key, v, c⟩ : Place).inner = .query id select)
    (hlooked : (⟨some key, v, c⟩ : Place).isIgnored = false)
    (h : (renderSelect s.isFar select b).result = .error e) :
    (ofField s key v c b).result = .error e := by
  obtain ⟨hleft, hforce⟩ := Place.any_leftOnly_of_not_isIgnored hlooked
  cases v with
  | wrapped inner bind own quote =>
    obtain rfl : inner = .query id select := hinner
    refine ofField_error hkey (by simp) (by simp) (by simp) fun field ↦ ?_
    rw [hrules, LeafRules.resolve_standard_wrapped hleft,
      LeafRule.resolveWrapped_of_isRenderable hforce rfl]
    exact Logged.bind_of_error (by rwa [leafContext, renderInner, render_query])
  | query =>
    obtain ⟨rfl, rfl⟩ := Value.query.inj hinner
    refine ofField_error hkey (by simp) (by simp) (by simp) fun field ↦ ?_
    rw [hrules, LeafRules.resolve_standard_of_isRenderable hleft rfl]
    exact Logged.bind_of_error (by rwa [leafContext, renderInner_query])
  | _ => cases hinner

end

namespace Spot

variable {p q : Spot} {e : Failure}

/-- **One step.** A spot fails as one does that it leads to. -/
theorem Leads.error (h : Leads p q) (hq : q.condition.result = .error e) :
    p.condition.result = .error e := by
  cases h with
  | group h => exact Logged.map_of_error (ofNodes_error h hq)
  | list h => exact Logged.map_of_error (ofNodes_error h hq)
  | tuple h => exact Logged.map_of_error (ofNodes_error h hq)
  | entry h hkey => exact Logged.map_of_error (ofEntries_error h hkey hq)
  | item h => exact Logged.map_of_error (ofFieldItems_error h hq)
  | rows hinner htest hright hhead =>
    exact ofNode_error_of_rows hinner htest hright (renderSelect_error hhead hq)
  | subquery hrules hkey hinner hlooked hhead =>
    exact ofField_error_of_subquery hrules hkey hinner hlooked (renderSelect_error hhead hq)

theorem Leads.rules (h : Leads p q) (hp : p.scope.rules = .standard) :
    q.scope.rules = .standard := by
  cases h <;> first | exact hp | rfl

/-- **Many steps.** -/
theorem Reaches.error (h : Reaches p q) (hq : q.condition.result = .error e) :
    p.condition.result = .error e := by
  induction h with
  | refl => exact hq
  | tail _ hstep ih => exact ih (hstep.error hq)

theorem Reaches.rules (h : Reaches p q) (hp : p.scope.rules = .standard) :
    q.scope.rules = .standard := by
  induction h with
  | refl => exact hp
  | tail _ hstep ih => exact hstep.rules ih

end Spot

end Condition

namespace Scope

variable {s : Scope} {tree : Value} {o : CompileOptions}

theorem condition_spot (s : Scope) (tree : Value) (o : CompileOptions) :
    (s.spot tree o).condition = s.condition tree o := by
  obtain ⟨comparison, connective, bound, siblings, key⟩ := o
  cases key <;> rfl

theorem scope_spot (s : Scope) (tree : Value) (o : CompileOptions) :
    (s.spot tree o).scope = s := by
  rw [spot]
  split <;> rfl

/-- **A tree fails** as any spot does that it reaches. -/
theorem compile_error {p : Spot} {e : Failure} (h : (s.spot tree o).Reaches p)
    (hp : p.condition.result = .error e) : (s.compile tree o).result = .error e := by
  have hcondition := h.error hp
  rw [condition_spot] at hcondition
  exact Logged.bind_of_error hcondition

end Scope

end Rowmap
