import Mathlib.Data.List.TakeWhile
import Rowmap.Proofs.Condition.Reached
import Rowmap.Proofs.Condition.Recast

/-!
# Trees under other rules

Leaf rules are a list in which the first match decides. Compiling a tree asks them about some
values, each with what is known of it, and about nothing else: `Spot.Presents` says which. The
conditions of a sub-query are compiled by the standard rules, whatever the rules of the tree are, so
what stands there is not presented to these.

The main fact is that a tree compiles alike under any two lists of rules that make the same of what
it presents. So a rule that matches nothing of that may be added at any place, and rules that are
never the first to match may be taken away.
-/

namespace Rowmap

/-! ## Lists of rules -/

namespace LeafRules

variable {rules before after : LeafRules} {rule : LeafRule} {v : Value} {ctx : LeafContext}

/-- A new rule goes before the first of a name, or to the end if there is none, and the others keep
their places. -/
theorem register_eq (rules : LeafRules) (rule : LeafRule) (before : Option String) :
    ∃ xs ys, rules = xs ++ ys ∧ rules.register rule before = xs ++ rule :: ys ∧
      (∀ x ∈ xs, some x.name ≠ before) ∧ ∀ y ∈ ys.head?, some y.name = before := by
  cases before with
  | none => exact ⟨rules, [], (List.append_nil _).symm, rfl, by simp, by simp⟩
  | some name =>
    refine ⟨rules.takeWhile (·.name != name), rules.dropWhile (·.name != name),
      List.takeWhile_append_dropWhile.symm, rfl, fun x hx ↦ ?_, fun y hy ↦ ?_⟩
    · simpa using List.mem_takeWhile_imp hx
    · have hnot := List.head?_dropWhile_not (·.name != name) rules
      rw [Option.mem_def.mp hy] at hnot
      simpa using hnot

/-- A rule that does not match changes nothing, wherever it stands. -/
theorem resolve_insert (h : rule.applies v ctx = false) :
    resolve (before ++ rule :: after) v ctx = resolve (before ++ after) v ctx := by
  rw [resolve, resolve, List.find?_append, List.find?_append, List.find?_cons_of_neg (by simp [h])]

/-- Rules that are not the first to match may be taken away. -/
theorem resolve_unregister {name : String}
    (h : ∀ rule ∈ rules.find? (·.applies v ctx), rule.name ≠ name) :
    (rules.unregister name).resolve v ctx = rules.resolve v ctx := by
  suffices hfind : (rules.unregister name).find? (·.applies v ctx) =
      rules.find? (·.applies v ctx) by
    rw [resolve, hfind, resolve]
  induction rules with
  | nil => rfl
  | cons rule rules ih =>
    rcases happlies : rule.applies v ctx with _ | _
    · rw [List.find?_cons, happlies] at h ⊢
      rw [← ih h]
      by_cases hname : rule.name = name
      · rw [unregister, List.filter_cons_of_neg (by simpa using hname)]
        rfl
      · rw [unregister, List.filter_cons_of_pos (by simpa using hname), List.find?_cons, happlies]
        rfl
    · rw [List.find?_cons, happlies] at h ⊢
      have hname : rule.name ≠ name := h rule rfl
      rw [unregister, List.filter_cons_of_pos (by simpa using hname), List.find?_cons, happlies]

end LeafRules

/-- What is done with a result matters only if there is one. -/
theorem Logged.bind_congr_of_ok {α β : Type} {x : Logged α} {f g : α → Logged β}
    (h : ∀ a, x.result = .ok a → f a = g a) : x >>= f = x >>= g := by
  show Logged.bind x f = Logged.bind x g
  rw [Logged.bind, Logged.bind]
  split
  · rfl
  · rename_i a ha
    rw [h a ha]

theorem Threaded.imp {α : Type} {compiles compiles' : α → Int → Condition → Prop} {as : List α}
    {b : Int} {parts : List Condition} (h : Threaded compiles as b parts)
    (himp : ∀ a b part, compiles a b part → compiles' a b part) :
    Threaded compiles' as b parts := by
  induction h with
  | nil b => exact .nil b
  | cons head tail ih => exact .cons (himp _ _ _ head) ih

namespace Condition

/-! ## What is presented -/

namespace Spot

/-- Whether the parts of a spot are compiled as it is itself. Those of a sub-query are not. -/
def holdsParts : Spot → Bool
  | node _ _ v _ _ => !v.isBare
  | field _ _ v _ _ => !v.isLeaf

/-- Compiling a spot presents a value to the rules, with what is known of it. -/
inductive Presents : Spot → Value → LeafContext → Prop where
  | leaf {s : Scope} {key : String} {field : Field} {v : Value} {c : Option Comparison} {b : Int}
      (hleaf : v.isLeaf = true) (hfield : s.table.field? key = some field) :
      Presents (.field s key v c b) v (leafContext s key field v c b)
  | part {p q : Spot} {v : Value} {ctx : LeafContext} (hparts : p.holdsParts = true)
      (hleads : p.Leads q) (h : q.Presents v ctx) : p.Presents v ctx

variable {p q : Spot} {v : Value} {ctx : LeafContext}

theorem Leads.scope_eq (h : p.Leads q) (hparts : p.holdsParts = true) : q.scope = p.scope := by
  cases h with
  | @rows _ _ w _ _ _ _ _ hinner =>
    cases w with
    | wrapped | query => exact Bool.noConfusion hparts
    | _ => cases hinner
  | @subquery _ _ w _ _ _ _ _ _ hinner =>
    cases w with
    | wrapped | query => exact Bool.noConfusion hparts
    | _ => cases hinner
  | _ => rfl

/-- What the rules fail to make of a presented value is what compiling fails with. -/
theorem Presents.error {e : Failure} (h : p.Presents v ctx)
    (he : (p.scope.rules.resolve v ctx).result = .error e) : p.condition.result = .error e := by
  induction h with
  | leaf hleaf hfield =>
    rw [condition, ofField_of_isLeaf hleaf, Logged.bind_of_ok (fieldOf_of_field? hfield)]
    exact Logged.bind_of_error he
  | part hparts hleads _ ih =>
    rw [← hleads.scope_eq hparts] at he
    exact hleads.error (ih he)

def Agrees (rules : LeafRules) (p : Spot) : Prop :=
  ∀ v ctx, p.Presents v ctx → rules.resolve v ctx = p.scope.rules.resolve v ctx

theorem Agrees.part {rules : LeafRules} (h : p.Agrees rules) (hparts : p.holdsParts = true)
    (hleads : p.Leads q) : q.Agrees rules := by
  intro v ctx hv
  rw [hleads.scope_eq hparts]
  exact h v ctx (.part hparts hleads hv)

end Spot

/-! ## Other rules -/

/-- Two ways to compile the elements of a list are equal if they are on each element that they come
to. -/
theorem eq_of_threaded {α : Type} {f k : α → Int → Logged Condition}
    {g l : List α → Int → Logged (List Condition)} (hnil : ∀ b, l [] b = g [] b)
    (hf : ∀ a as b, g (a :: as) b = (do
      let part ← f a b
      let parts ← g as (b + part.values.length)
      .ok (part :: parts)))
    (hk : ∀ a as b, l (a :: as) b = (do
      let part ← k a b
      let parts ← l as (b + part.values.length)
      .ok (part :: parts))) {as : List α} {b : Int}
    (h : ∀ before a after parts, as = before ++ a :: after →
      Threaded (fun a b part ↦ (f a b).result = .ok part) before b parts →
      k a (b + (partValues parts).length) = f a (b + (partValues parts).length)) :
    l as b = g as b := by
  induction as generalizing b with
  | nil => exact hnil b
  | cons a as ih =>
    -- nothing stands before the first element, and the first before all others
    have hhead : k a b = f a b := by
      have hfirst := h [] a as [] rfl (.nil b)
      rwa [partValues, List.length_nil, Int.natCast_zero, Int.add_zero] at hfirst
    rw [hf, hk, hhead]
    refine Logged.bind_congr_of_ok fun part hpart ↦ ?_
    rw [ih fun before x after parts has hbefore ↦ ?_]
    have hx := h (a :: before) x after (part :: parts) (congrArg (a :: ·) has) (.cons hpart hbefore)
    rwa [partValues, List.length_append, Int.natCast_add, ← Int.add_assoc] at hx

section

variable {s : Scope} {rules : LeafRules} {key : String} {c : Option Comparison} {b : Int}

theorem ofNodes_rules {vs : List Value}
    (h : ∀ before v after parts, vs = before ++ v :: after →
      Threaded (fun v b part ↦ (ofNode s .and v c b).result = .ok part) before b parts →
      ofNode { s with rules } .and v c (b + (partValues parts).length) =
        ofNode s .and v c (b + (partValues parts).length)) :
    ofNodes { s with rules } vs c b = ofNodes s vs c b :=
  eq_of_threaded (f := fun v b ↦ ofNode s .and v c b)
    (k := fun v b ↦ ofNode { s with rules } .and v c b) (g := fun vs b ↦ ofNodes s vs c b)
    (l := fun vs b ↦ ofNodes { s with rules } vs c b) (fun _ ↦ rfl) (fun _ _ _ ↦ rfl)
    (fun _ _ _ ↦ rfl) h

theorem ofFieldItems_rules {vs : List Value}
    (h : ∀ before v after parts, vs = before ++ v :: after →
      Threaded (fun v b part ↦ (ofField s key v c b).result = .ok part) before b parts →
      ofField { s with rules } key v c (b + (partValues parts).length) =
        ofField s key v c (b + (partValues parts).length)) :
    ofFieldItems { s with rules } key vs c b = ofFieldItems s key vs c b :=
  eq_of_threaded (f := fun v b ↦ ofField s key v c b)
    (k := fun v b ↦ ofField { s with rules } key v c b) (g := fun vs b ↦ ofFieldItems s key vs c b)
    (l := fun vs b ↦ ofFieldItems { s with rules } key vs c b) (fun _ ↦ rfl) (fun _ _ _ ↦ rfl)
    (fun _ _ _ ↦ rfl) h

/-- An entry of a map of fields, with its key looked up first. -/
def ofEntry (s : Scope) (c : Option Comparison) (e : String × Value) (b : Int) :
    Logged Condition := do
  let _ ← .ofExcept (fieldOf s e.1)
  ofField s e.1 e.2 c b

theorem ofEntries_cons (e : String × Value) (es : List (String × Value)) :
    ofEntries s (e :: es) c b = (do
      let part ← ofEntry s c e b
      let parts ← ofEntries s es c (b + part.values.length)
      .ok (part :: parts)) := by
  rw [ofEntries, ofEntry]
  rcases fieldOf s e.1 with f | field <;> rfl

theorem ok_of_ofEntry {e : String × Value} {part : Condition}
    (h : (ofEntry s c e b).result = .ok part) :
    (∃ field, s.table.field? e.1 = some field) ∧ (ofField s e.1 e.2 c b).result = .ok part := by
  obtain ⟨field, hfield, hpart⟩ := Logged.bind_eq_ok.mp h
  exact ⟨⟨field, field?_of_fieldOf hfield⟩, hpart⟩

theorem ofEntries_rules {es : List (String × Value)}
    (h : ∀ before key v after parts, es = before ++ (key, v) :: after →
      Threaded (fun e b part ↦ (∃ field, s.table.field? e.1 = some field) ∧
        (ofField s e.1 e.2 c b).result = .ok part) before b parts →
      s.table.declares key = true →
      ofField { s with rules } key v c (b + (partValues parts).length) =
        ofField s key v c (b + (partValues parts).length)) :
    ofEntries { s with rules } es c b = ofEntries s es c b := by
  refine eq_of_threaded (f := ofEntry s c) (k := ofEntry { s with rules } c)
    (g := fun es b ↦ ofEntries s es c b) (l := fun es b ↦ ofEntries { s with rules } es c b)
    (fun _ ↦ rfl) (fun e es _ ↦ ofEntries_cons e es) (fun e es _ ↦ ofEntries_cons e es)
    fun before e after parts hes hbefore ↦ ?_
  refine Logged.bind_congr_of_ok fun field hfield ↦ ?_
  refine h before e.1 e.2 after parts hes (hbefore.imp fun _ _ _ ↦ ok_of_ofEntry) ?_
  exact Option.isSome_iff_exists.mpr ⟨field, field?_of_fieldOf hfield⟩

end

/-- A value compiles alike by other rules that make the same of what it presents. -/
structure RulesAt (rules : LeafRules) (v : Value) : Prop where
  node : ∀ {s : Scope} {top : Connective} {c : Option Comparison} {b : Int},
    (Spot.node s top v c b).Agrees rules → ofNode { s with rules } top v c b = ofNode s top v c b
  field : ∀ {s : Scope} {key : String} {c : Option Comparison} {b : Int},
    (Spot.field s key v c b).Agrees rules → ofField { s with rules } key v c b = ofField s key v c b

theorem rulesAt_of_parts {rules : LeafRules} (v : Value) (ih : ∀ w ∈ v.parts, RulesAt rules w) :
    RulesAt rules v := by
  refine ⟨fun {s top c b} h ↦ ?_, fun {s key c b} h ↦ ?_⟩
  -- what holds parts leads to each of them, so its agreement is theirs; only a leaf asks the rules
  · rcases hbare : v.isBare with _ | _
    · have hparts : (Spot.node s top v c b).holdsParts = true := congrArg (!·) hbare
      cases v with
      | group id kind items own =>
        rw [ofNode, ofNode, ofNodes_rules]
        rintro before v after parts rfl hbefore
        exact (ih v (List.mem_append_right _ List.mem_cons_self)).node
          (h.part hparts (.group hbefore))
      | list items =>
        rw [ofNode, ofNode, ofNodes_rules]
        rintro before v after parts rfl hbefore
        exact (ih v (List.mem_append_right _ List.mem_cons_self)).node
          (h.part hparts (.list hbefore))
      | tuple items =>
        rw [ofNode, ofNode, ofNodes_rules]
        rintro before v after parts rfl hbefore
        exact (ih v (List.mem_append_right _ List.mem_cons_self)).node
          (h.part hparts (.tuple hbefore))
      | map entries =>
        rw [ofNode, ofNode, ofEntries_rules]
        rintro before key v after parts rfl hbefore hkey
        have hmem : (key, v) ∈ before ++ (key, v) :: after :=
          List.mem_append_right _ List.mem_cons_self
        exact (ih v (List.mem_map_of_mem hmem)).field (h.part hparts (.entry hbefore hkey))
      | _ => cases hbare
    · rw [ofNode_of_isBare hbare, ofNode_of_isBare hbare]
  · rcases hleaf : v.isLeaf with _ | _
    · have hparts : (Spot.field s key v c b).holdsParts = true := congrArg (!·) hleaf
      cases v with
      | group id kind items own =>
        rw [ofField, ofField, ofFieldItems_rules]
        rintro before v after parts rfl hbefore
        exact (ih v (List.mem_append_right _ List.mem_cons_self)).field
          (h.part hparts (.item hbefore))
      | map | unset => rfl
      | _ => cases hleaf
    · rw [ofField_of_isLeaf hleaf, ofField_of_isLeaf hleaf]
      refine Logged.bind_congr_of_ok fun field hfield ↦ ?_
      have hresolve := h v _ (.leaf hleaf (field?_of_fieldOf hfield))
      exact congrArg (· >>= fun leaf ↦ .ofExcept (ofLeaf field key leaf)) hresolve

/-- **Compiling** asks the rules only about what it presents. -/
theorem rulesAt (rules : LeafRules) (v : Value) : RulesAt rules v :=
  Value.induction_on_parts rulesAt_of_parts v

end Condition

namespace Scope

open Condition

variable {s : Scope} {tree : Value} {o : CompileOptions}

/-- Compiling a tree presents a value to the rules, with what is known of it. -/
def Presents (s : Scope) (tree : Value) (o : CompileOptions) : Value → LeafContext → Prop :=
  (s.spot tree o).Presents

/-- Nothing is presented that the rules are not asked about: what they fail to make of it is what
compiling the tree fails with. -/
theorem Presents.compile_error {v : Value} {ctx : LeafContext} {e : Failure}
    (h : s.Presents tree o v ctx) (he : (s.rules.resolve v ctx).result = .error e) :
    (s.compile tree o).result = .error e := by
  rw [← s.scope_spot tree o] at he
  exact Scope.compile_error .refl (Spot.Presents.error h he)

theorem compile_rules {rules : LeafRules}
    (h : ∀ v ctx, s.Presents tree o v ctx → rules.resolve v ctx = s.rules.resolve v ctx) :
    Scope.compile { s with rules } tree o = s.compile tree o := by
  suffices hcondition : Scope.condition { s with rules } tree o = s.condition tree o by
    rw [Scope.compile, hcondition, Scope.compile]
  obtain ⟨comparison, connective, bound, siblings, key⟩ := o
  cases key with
  | none => exact (rulesAt rules tree).node h
  | some key => exact (rulesAt rules tree).field h

end Scope

theorem Scope.Presents.of_single {s : Scope} {key : String} {v w : Value} {ctx : LeafContext}
    (hleaf : v.isLeaf = true) (h : s.Presents (.map [(key, v)]) {} w ctx) :
    w = v ∧ ctx.comparison = none := by
  cases h with
  | part _ hleads hrest =>
    generalize hentries : Value.map [(key, v)] = tree at hleads
    cases hleads with
    | @entry _ _ _ before after k x b parts hbefore hkey =>
      have hsingle := (Value.map.inj hentries).symm
      obtain ⟨rfl, hx⟩ | ⟨_, hafter⟩ := List.append_eq_singleton_iff.mp hsingle
      · cases hx
        cases hrest with
        | leaf => exact ⟨rfl, rfl⟩
        | part hparts => exact absurd hparts (by simp [Condition.Spot.holdsParts, hleaf])
      · cases hafter
    | rows hinner =>
      subst hentries
      cases hinner
    | _ => cases hentries

/-- **Rules extend conservatively**, whatever list of them registering and taking away has built.
Registering a rule keeps the order of the others and puts it before the first of the given name, or
last if there is none. A rule that matches nothing of what compiling a tree presents, be it to the
rules with it or to those without it, changes neither the statement, nor the failure, nor the
warnings, at whatever place it is added. Nor does it change anything to take away all rules of a
name, if none of these is the first to match anything that the tree presents. -/
theorem LeafRules.extends_conservatively (rules : LeafRules) :
    (∀ (rule : LeafRule) (before : Option String), ∃ xs ys, rules = xs ++ ys ∧
      rules.register rule before = xs ++ rule :: ys ∧
      (∀ x ∈ xs, some x.name ≠ before) ∧ ∀ y ∈ ys.head?, some y.name = before) ∧
    (∀ (t : Table Value) (isFar : Bool) (tree : Value) (o : CompileOptions) (rule : LeafRule)
      (xs ys : LeafRules), rules = xs ++ ys →
      ((∀ v ctx, Scope.Presents ⟨t, rules, isFar⟩ tree o v ctx → rule.applies v ctx = false) ∨
        ∀ v ctx, Scope.Presents ⟨t, xs ++ rule :: ys, isFar⟩ tree o v ctx →
          rule.applies v ctx = false) →
      Scope.compile ⟨t, xs ++ rule :: ys, isFar⟩ tree o = Scope.compile ⟨t, rules, isFar⟩ tree o) ∧
    ∀ (t : Table Value) (isFar : Bool) (tree : Value) (o : CompileOptions) (name : String),
      (∀ v ctx, Scope.Presents ⟨t, rules, isFar⟩ tree o v ctx →
        ∀ rule ∈ rules.find? (·.applies v ctx), rule.name ≠ name) →
      Scope.compile ⟨t, rules.unregister name, isFar⟩ tree o =
        Scope.compile ⟨t, rules, isFar⟩ tree o := by
  refine ⟨rules.register_eq, ?_, fun t isFar tree o name h ↦ ?_⟩
  · rintro t isFar tree o rule xs ys rfl (h | h)
    · exact Scope.compile_rules (s := ⟨t, xs ++ ys, isFar⟩) fun v ctx hv ↦
        resolve_insert (h v ctx hv)
    · exact (Scope.compile_rules (s := ⟨t, xs ++ rule :: ys, isFar⟩) fun v ctx hv ↦
        (resolve_insert (h v ctx hv)).symm).symm
  · exact Scope.compile_rules (s := ⟨t, rules, isFar⟩) fun v ctx hv ↦
      resolve_unregister (h v ctx hv)

/-- A rule of its own for texts. -/
def LeafRule.upperText : LeafRule where
  name := "upper_text"
  applies v _ := match v with | .text _ => true | _ => false
  resolve v ctx := .ok
    { comparison := some .equal, operator := "=", values := [v]
      right := "upper(" ++ Sql.placeholder (ctx.bound + 1) ++ ")" }

/-- A comparison with the rows of a query, which has a text in its conditions. -/
def Value.letterQuery : Value := .query 0 { table := .letters, wheres := [.map [("b", .text "x")]] }

theorem LeafRules.extends_conservatively_upperText :
    standard.register .upperText (some "lhs_only") = .upperText :: standard ∧
    (∀ v ctx, Scope.Presents ⟨.letters, standard, false⟩ (.map [("b", .letterQuery)]) {} v ctx →
      LeafRule.upperText.applies v ctx = false ∧
      ∀ rule ∈ standard.find? (·.applies v ctx), rule.name ≠ "scalar") ∧
    Scope.compile ⟨.letters, .upperText :: standard, false⟩ (.map [("b", .letterQuery)]) =
      Scope.compile ⟨.letters, standard, false⟩ (.map [("b", .letterQuery)]) ∧
    Scope.compile ⟨.letters, standard.unregister "scalar", false⟩ (.map [("b", .letterQuery)]) =
      Scope.compile ⟨.letters, standard, false⟩ (.map [("b", .letterQuery)]) := by
  have hpresents (v : Value) (ctx : LeafContext)
      (h : Scope.Presents ⟨.letters, standard, false⟩ (.map [("b", .letterQuery)]) {} v ctx) :
      LeafRule.upperText.applies v ctx = false ∧
      ∀ rule ∈ standard.find? (·.applies v ctx), rule.name ≠ "scalar" := by
    obtain ⟨rfl, hcomparison⟩ := h.of_single rfl
    refine ⟨rfl, fun rule hrule ↦ ?_⟩
    have hleft : LeafRule.leftOnly.applies .letterQuery ctx = false := by
      show ctx.comparison.any (·.leftOnly) = false
      rw [hcomparison]
      rfl
    have hfirst : standard.find? (·.applies .letterQuery ctx) = some .subquery := by
      rw [standard, List.find?_cons, hleft]
      rfl
    rw [hfirst] at hrule
    obtain rfl := Option.some.inj hrule
    decide
  obtain ⟨-, hextends, hunregister⟩ := extends_conservatively standard
  refine ⟨rfl, hpresents, ?_, ?_⟩
  · exact hextends .letters false _ {} .upperText [] standard rfl
      (.inl fun v ctx h ↦ (hpresents v ctx h).1)
  · exact hunregister .letters false _ {} "scalar" fun v ctx h ↦ (hpresents v ctx h).2

end Rowmap
