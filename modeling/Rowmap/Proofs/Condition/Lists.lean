import Rowmap.Proofs.Condition.Columns
import Rowmap.Proofs.Condition.Reached

/-!
# Sub-queries in lists

A list of values that is bound is searched for sub-queries first, whether it is bare or wrapped and
whatever it is compared by. A list that is written into the text is not: its elements are made
literals, which no sub-query can be, or they are printed as they are, and a sub-query like the rest.
-/

namespace Rowmap

/-! ## Lists of values -/

/-- Going through a list fails if an element does, in one way if the elements do. -/
theorem Except.mapM_eq_error {ε α β : Type} {f : α → Except ε β} {e : ε} {as : List α} {a : α}
    (ha : a ∈ as) (hfails : f a = .error e) (honly : ∀ a e', f a = .error e' → e' = e) :
    as.mapM f = .error e := by
  induction as with
  | nil => exact absurd ha List.not_mem_nil
  | cons head as ih =>
    rw [List.mapM_cons]
    rcases hhead : f head with e' | b
    · rw [honly head e' hhead]
      rfl
    · obtain rfl | hmem := List.mem_cons.mp ha
      · exact nomatch hhead.symm.trans hfails
      · rw [ih hmem]
        rfl

namespace Leaf

variable {items : List Value} {x : Value}

/-- A list that is bound cannot hold a sub-query. -/
theorem bindList_of_isRenderable (hx : x ∈ items) (h : x.isRenderable = true) (b : Int)
    (c : Comparison) : bindList b c items = .error (.fault (.condition .subqueryInList)) := by
  rw [bindList, if_pos (List.any_eq_true.mpr ⟨x, hx, h⟩)]

/-- What a value writes when it is not made a literal. -/
def written : Value → String
  | .marker m => m.label
  | v => if v.isNull then "NULL" else v.inline

theorem inlined_false (v : Value) : inlined false v = .ok (written v) := by
  cases v <;> rfl

theorem written_of_isRenderable (h : x.isRenderable = true) : written x = x.inline := by
  cases x <;> first | rfl | exact nomatch h

/-- Making a literal fails in one way. -/
theorem eq_noLiteral_of_inlined {quote : Bool} {e : Failure} (h : inlined quote x = .error e) :
    e = .noLiteral := by
  rw [inlined.eq_def] at h
  split at h
  · cases h
  cases quote with
  | false => cases h
  | true =>
    rw [if_pos rfl, Sql.literal.eq_def] at h
    split at h
    case h_7 =>
      rw [Sql.quoteBytes] at h
      split at h
      · cases h
      · exact (Except.error.inj h).symm
    case h_12 => exact (Except.error.inj h).symm
    all_goals cases h

theorem inlined_true_of_isRenderable (h : x.isRenderable = true) :
    inlined true x = .error .noLiteral := by
  cases x <;> first | rfl | exact nomatch h

variable {quote : Bool} {c : Comparison}

theorem isEmpty_of_mem (hx : x ∈ items) : items.isEmpty = false :=
  List.isEmpty_eq_false_iff_exists_mem.mpr ⟨x, hx⟩

/-- A list of literals cannot hold a sub-query either, but no list is told from another value. -/
theorem inlineList_true_of_isRenderable (hx : x ∈ items) (h : x.isRenderable = true)
    (c : Comparison) : inlineList true c items = .error .noLiteral := by
  have hfails : items.mapM (inlined true) = .error .noLiteral :=
    Except.mapM_eq_error hx (inlined_true_of_isRenderable h) fun _ _ ↦ eq_noLiteral_of_inlined
  rw [inlineList, isEmpty_of_mem hx, Bool.false_and, if_neg Bool.false_ne_true, hfails]
  rfl

/-- **A list that is printed** holds whatever it holds. -/
theorem inlineList_false (hx : x ∈ items) (c : Comparison) :
    inlineList false c items = .ok (among c (", ".intercalate (items.map written))) := by
  have hprints : items.mapM (inlined false) = .ok (items.map written) :=
    Except.mapM_of_forall₂ (List.forall₂_map_right_iff.mpr
      (List.forall₂_same.mpr fun v _ ↦ inlined_false v))
  rw [inlineList, isEmpty_of_mem hx, Bool.false_and, if_neg Bool.false_ne_true, hprints]
  rfl

end Leaf

theorem LeafRule.plainWrapped_of_elements? {inner : Value} {items : List Value}
    (hitems : inner.elements? = some items) (b : Int) (c : Comparison) (bind quote : Bool) :
    plainWrapped b c inner bind quote =
      if bind then Leaf.bindList b c items else Leaf.inlineList quote c items := by
  rw [plainWrapped.eq_def, hitems]
  cases bind <;> rfl

theorem LeafRule.resolveWrapped_of_elements? {ctx : LeafContext} {own : Option Comparison}
    {bind quote : Bool} {inner : Value} {items : List Value}
    (hleft : (own <|> ctx.comparison).any (·.leftOnly) = false)
    (hitems : inner.elements? = some items) :
    resolveWrapped inner bind own quote ctx = .ofExcept
      ((if bind then Leaf.bindList ctx.bound ((own <|> ctx.comparison).getD .equal) items
        else Leaf.inlineList quote ((own <|> ctx.comparison).getD .equal) items) >>=
          ctx.numbered) := by
  have hnull : Leaf.testsNull (own <|> ctx.comparison) inner = false := by
    cases inner <;> first | rfl | exact nomatch hitems
  rw [resolveWrapped.eq_def]
  dsimp only
  rw [hleft, if_neg Bool.false_ne_true, Value.isRenderable_of_elements? hitems,
    if_neg Bool.false_ne_true, hnull, if_neg Bool.false_ne_true]
  split
  · exact absurd rfl (Value.ne_marker_of_elements? hitems _)
  · exact absurd rfl (Value.ne_marker_of_elements? hitems _)
  · rw [plainWrapped_of_elements? hitems]

/-! ## Leaves -/

namespace Condition

variable {s : Scope} {key : String} {v : Value} {c : Option Comparison} {b : Int}
  {items : List Value} {x : Value}

theorem ofField_error_of_bound (hrules : s.rules = .standard) (hkey : s.table.declares key = true)
    (hlooked : (⟨some key, v, c⟩ : Place).isIgnored = false)
    (hitems : (⟨some key, v, c⟩ : Place).inner.elements? = some items) (hx : x ∈ items)
    (hrenders : x.isRenderable = true)
    (hbound : ∀ inner own quote, v ≠ .wrapped inner false own quote) :
    (ofField s key v c b).result = .error (.fault (.condition .subqueryInList)) := by
  obtain ⟨hleft, hforce⟩ := Place.any_leftOnly_of_not_isIgnored hlooked
  have hlist (b : Int) (c : Comparison) := Leaf.bindList_of_isRenderable hx hrenders b c
  have hbare (h : v.elements? = some items) :
      (ofField s key v c b).result = .error (.fault (.condition .subqueryInList)) := by
    refine ofField_error hkey ?_ ?_ ?_ fun field ↦ ?_
    · rintro id kind items own rfl
      exact nomatch h
    · rintro entries rfl
      exact nomatch h
    · rintro rfl
      exact nomatch h
    · rw [hrules, LeafRules.resolve_standard_of_elements? hleft h, hlist]
      rfl
  cases v with
  | wrapped inner bind own quote =>
    cases bind with
    | false => exact absurd rfl (hbound _ _ _)
    | true =>
      obtain hitems : inner.elements? = some items := hitems
      refine ofField_error hkey (by simp) (by simp) (by simp) fun field ↦ ?_
      rw [hrules, LeafRules.resolve_standard_wrapped hleft,
        LeafRule.resolveWrapped_of_elements? hforce hitems, if_pos rfl, hlist]
      rfl
  | _ => exact hbare hitems

theorem ofField_of_inlined {inner : Value} {own : Option Comparison} {quote : Bool} {field : Field}
    (hrules : s.rules = .standard) (hfield : s.table.field? key = some field)
    (hlooked : (⟨some key, .wrapped inner false own quote, c⟩ : Place).isIgnored = false)
    (hitems : inner.elements? = some items) :
    (ofField s key (.wrapped inner false own quote) c b).result = (do
      let leaf ← Leaf.inlineList quote ((own <|> c).getD .equal) items
      ofLeaf field key (← (leafContext s key field (.wrapped inner false own quote) c b).numbered
        leaf)) := by
  obtain ⟨hleft, hforce⟩ := Place.any_leftOnly_of_not_isIgnored hlooked
  rw [ofField_eq_ofLeaf hfield (by simp) (by simp) (by simp), hrules,
    LeafRules.resolve_standard_wrapped hleft, LeafRule.resolveWrapped_of_elements? hforce hitems,
    if_neg Bool.false_ne_true, Logged.result_bind, Logged.result_ofExcept, bind_assoc]
  rfl

end Condition

/-! ## Whole trees -/

open Condition

/-- **A sub-query in a list** that compiling comes to, under a declared key and a comparison that
looks at the list. A bound list is refused for it. A list of literals is refused as well, for want
of a literal. A list that is printed is not refused: the sub-query is printed with the rest. -/
theorem Scope.rejects_subquery_in_list_unless_printed {s t : Scope} (hrules : s.rules = .standard)
    {tree : Value} {o : CompileOptions} {key : String} {v : Value} {c : Option Comparison} {b : Int}
    (hreach : (s.spot tree o).Reaches (.field t key v c b)) (hkey : t.table.declares key = true)
    (hlooked : (⟨some key, v, c⟩ : Place).isIgnored = false) {items : List Value}
    (hitems : (⟨some key, v, c⟩ : Place).inner.elements? = some items) {x : Value} (hx : x ∈ items)
    (hrenders : x.isRenderable = true) :
    ((∀ inner own quote, v ≠ .wrapped inner false own quote) →
      (s.compile tree o).result = .error (.fault (.condition .subqueryInList))) ∧
    (∀ inner own, v = .wrapped inner false own true →
      (s.compile tree o).result = .error .noLiteral) ∧
    ∀ inner own, v = .wrapped inner false own false →
      x.inline ∈ items.map Leaf.written ∧
      ∃ field, t.table.field? key = some field ∧ (ofField t key v c b).result =
        ofLeaf field key (.among ((own <|> c).getD .equal)
          (", ".intercalate (items.map Leaf.written))) := by
  have hstandard : t.rules = .standard := hreach.rules (by rwa [scope_spot])
  obtain ⟨field, hfield⟩ := Option.isSome_iff_exists.mp hkey
  refine ⟨fun hbound ↦ ?_, ?_, ?_⟩
  · exact compile_error hreach
      (ofField_error_of_bound hstandard hkey hlooked hitems hx hrenders hbound)
  · rintro inner own rfl
    refine compile_error hreach ?_
    show (ofField ..).result = _
    rw [ofField_of_inlined hstandard hfield hlooked hitems,
      Leaf.inlineList_true_of_isRenderable hx hrenders]
    rfl
  · rintro inner own rfl
    have hwritten : x.inline ∈ items.map Leaf.written := by
      rw [← Leaf.written_of_isRenderable hrenders]
      exact List.mem_map_of_mem hx
    refine ⟨hwritten, field, hfield, ?_⟩
    rw [ofField_of_inlined hstandard hfield hlooked hitems, Leaf.inlineList_false hx]
    show (do ofLeaf field key (← LeafContext.numbered _ _)) = _
    rw [LeafContext.numbered_of_no_values _ rfl]
    rfl

/-- A condition on a text among the conditions of a sub-query, which stands behind a condition. -/
def Value.buriedTree (v : Value) : Value :=
  .list [.map [("a", .int 1)],
    .map [("a", .query 1 { table := .letters, wheres := [.map [("b", v)]] })]]

theorem Condition.reaches_buriedTree (v : Value) :
    (Scope.spot ⟨.letters, .standard, false⟩ (.buriedTree v) {}).Reaches
      (.field ⟨.letters, .standard, false⟩ "b" v none 1) := by
  have hfirst : Threaded
      (fun v b part ↦ (ofNode ⟨.letters, .standard, false⟩ .and v none b).result = .ok part)
      [.map [("a", .int 1)]] 0 [.fields .and [.atom "\"a\" = $1" [.int 1]]] := .cons rfl (.nil _)
  refine .head (@Spot.Leads.list _ _ _ _ [] _ _ _ hfirst) ?_
  refine .head (@Spot.Leads.entry _ _ _ [] [] _ _ _ _ (.nil _) rfl) ?_
  refine .head (.subquery rfl rfl rfl rfl ⟨⟨_, rfl⟩, _, rfl⟩) ?_
  refine .head (@Spot.Leads.list _ _ _ [] [] _ _ _ (.nil _)) ?_
  exact .single (@Spot.Leads.entry _ _ _ [] [] _ _ _ _ (.nil _) rfl)

/-- A number and a sub-query. -/
def Value.mixedList : Value := .list [.int 1, .rawSql 0 "SELECT 1" [] none]

theorem Scope.rejects_subquery_in_list_unless_printed_buriedTree :
    (Scope.compile ⟨.letters, .standard, false⟩ (.buriedTree .mixedList)).result =
      .error (.fault (.condition .subqueryInList)) ∧
    (Scope.compile ⟨.letters, .standard, false⟩
      (.buriedTree (.wrapped .mixedList false none true))).result = .error .noLiteral ∧
    (ofField ⟨.letters, .standard, false⟩ "b" (.wrapped .mixedList false (some .oneOf) false)
      none 1).result = .ok (.atom "\"b\" IN (1, RawSql('SELECT 1', []))" []) := by
  have hmem : Value.rawSql 0 "SELECT 1" [] none ∈ [.int 1, .rawSql 0 "SELECT 1" [] none] := by
    simp
  have hsettled (v : Value) (hlooked : (⟨some "b", v, none⟩ : Place).isIgnored = false)
      (hitems : (⟨some "b", v, none⟩ : Place).inner = .mixedList) :=
    rejects_subquery_in_list_unless_printed (s := ⟨.letters, .standard, false⟩) rfl
      (reaches_buriedTree v) rfl hlooked (hitems ▸ rfl) hmem rfl
  refine ⟨(hsettled _ rfl rfl).1 (by simp [Value.mixedList]),
    (hsettled _ rfl rfl).2.1 _ _ rfl, ?_⟩
  obtain ⟨-, field, hfield, hprinted⟩ :=
    (hsettled (.wrapped .mixedList false (some .oneOf) false) rfl rfl).2.2 _ _ rfl
  obtain rfl := Option.some.inj hfield
  exact hprinted

/-- **A sub-query in a printed list** reaches the text as it is printed. -/
theorem Scope.compile_of_printed_subquery :
    (Scope.compile ⟨.letters, .standard, false⟩
      (.map [("a", .wrapped .mixedList false (some .oneOf) false)])).result =
        .ok ⟨"\"a\" IN (1, RawSql('SELECT 1', []))", []⟩ ∧
    (Scope.compile ⟨.letters, .standard, false⟩
      (.map [("a", .wrapped .mixedList true (some .oneOf) false)])).result =
        .error (.fault (.condition .subqueryInList)) :=
  ⟨rfl, rfl⟩

end Rowmap
