import Rowmap.Proofs.Failure.Spares
import Rowmap.Proofs.Value.Parts

/-!
# Statements spare the complaint about the output

The output type of a selection is checked before the selection is rendered, never by rendering it:
whatever making a statement ends in, it is not the complaint that the output does not agree with
what is returned.
-/

namespace Rowmap

/-! ## Values -/

namespace Value

theorem spares_rowsOf (s : Select Value) : Spares (rowsOf s) := by
  rw [rowsOf]
  split
  · exact .error rfl
  split
  · exact .ok _
  · exact .error rfl

theorem spares_iterate (v : Value) : Spares v.iterate := by
  rw [iterate.eq_def]
  split <;> first | exact spares_rowsOf _ | exact .ok _ | exact .error rfl

theorem spares_wholeOfText (s : Option String) : Spares (wholeOfText s) := by
  rw [wholeOfText]
  split
  · exact .ok _
  · exact .error rfl

theorem spares_truncated (truncate? : Option Int) (infinite : Bool) :
    Spares (truncated truncate? infinite) := by
  rw [truncated.eq_def]
  split
  · exact .ok _
  · cases infinite <;> exact .error rfl

theorem spares_toWhole (v : Value) : Spares v.toWhole := by
  rw [toWhole.eq_def]
  split
  · exact spares_wholeOfText _
  · exact .ok _
  · exact .ok _
  · exact spares_truncated _ _
  · exact spares_truncated _ _
  · exact spares_wholeOfText _
  · exact .ok _
  · exact .error rfl

theorem spares_wholeText (n : Int) : Spares (wholeText n) := by
  rw [wholeText]
  split
  · exact .ok _
  · exact .error rfl

end Value

theorem Fault.spares_suggestions (cutoff : Rat) (key : Value) (available : List Value) :
    Spares (suggestions cutoff key available) := by
  have hword : Spares (wordOf key) := by
    refine key.spares_iterate.bind fun elements ↦ ?_
    split
    · exact .ok _
    · exact .error rfl
  refine hword.bind fun word ↦ ?_
  dsimp only
  split
  next e he =>
    -- a key without positions fails as it does when it is looked up
    obtain ⟨he, -⟩ := Option.filter_eq_some_iff.mp he
    cases key with
    | set frozen items =>
      obtain rfl := Option.some.inj he
      exact .error rfl
    | map entries =>
      obtain rfl := Option.some.inj he
      exact .error rfl
    | _ => exact nomatch he
  next =>
    split
    · exact .ok _
    · exact .error rfl

theorem Failure.isMismatch_unknownField (key : Value) (record : String) (available : List String) :
    (unknownField key record available).isMismatch = false := by
  rw [unknownField]
  split
  · split
    next f hf =>
      obtain ⟨_, -, hf⟩ := Except.bind_eq_ok.mp hf
      rw [← Except.ok.inj hf]
      rfl
    next e he =>
      refine (Fault.spares_suggestions _ key _).bind (fun _ ↦ .ok _) e he
  · rfl

theorem Table.spares_column (t : Table Value) (key : Value) : Spares (t.column key) := by
  rw [column]
  split
  · exact .ok _
  · exact .error (Failure.isMismatch_unknownField _ _ _)

theorem Rendition.spares_ofValue (v : Value) : Spares (ofValue v) := by
  rw [ofValue.eq_def]
  split
  · exact .ok _
  · split
    next query _ =>
      have hvalues (v : Value) : Spares (boundValues v) := by
        rw [boundValues]
        split
        · exact v.spares_iterate
        · exact .ok _
      exact (hvalues _).bind fun _ ↦ .ok _
    next => exact .error rfl
  · exact (Value.spares_iterate _).bind fun _ ↦ .ok _
  · exact (Value.spares_iterate _).bind fun _ ↦ .ok _
  · exact .error rfl

/-! ## Selections -/

namespace Sql

theorem spares_quoteName (v : Value) : Spares (quoteName v) := by
  have hname : Spares (nameOf v) := by
    rw [nameOf.eq_def]
    split <;> first | exact .ok _ | exact .error rfl
  exact hname.map _

theorem spares_literal (v : Value) : Spares (literal v) := by
  have hbytes (bs : List UInt8) : Spares (quoteBytes bs) := by
    rw [quoteBytes.eq_def]
    split
    · exact .ok _
    · exact .error rfl
  cases v with
  | bytes bs => exact hbytes bs
  | _ => first | exact .ok _ | exact .error rfl

end Sql

namespace Select

theorem spares_columnList (s : Select Value) : Spares s.columnList := by
  have hnamed (key : Value) : Spares (namedColumn s.table key) :=
    (s.table.spares_column key).bind fun _ ↦ .ok _
  have hlist : Spares (do .ok (", ".intercalate (← s.returnedKeys.mapM (namedColumn s.table)))) :=
    (Spares.mapM fun key _ ↦ hnamed key).bind fun _ ↦ .ok _
  rw [columnList.eq_def]
  split
  · exact .ok _
  · exact hlist

theorem spares_tailClauses (s : Select Value) (isSubquery : Bool) :
    Spares (s.tailClauses isSubquery) := by
  have hbound (word : String) (bound : Option Value) : Spares (windowClause word bound) := by
    cases bound with
    | none => exact .ok _
    | some v =>
      exact v.spares_toWhole.bind fun n ↦ (Value.spares_wholeText n).bind fun _ ↦ .ok _
  have horder : Spares (s.orderClause isSubquery) := by
    rw [orderClause]
    split
    · exact .ok _
    · have htexts : Spares (s.table.orderText s.effectiveOrder) :=
        (Spares.mapM fun e _ ↦ (s.table.spares_column e.1).bind fun _ ↦ .ok _).bind fun _ ↦ .ok _
      exact htexts.bind fun _ ↦ .ok _
  exact horder.bind fun _ ↦ (hbound _ _).bind fun _ ↦ (hbound _ _).bind fun _ ↦ .ok _

end Select

/-! ## Leaves -/

namespace Leaf

theorem spares_bindList (bound : Int) (c : Comparison) (items : List Value) :
    Spares (bindList bound c items) := by
  rw [bindList]
  split
  · exact .error rfl
  split
  · exact .ok _
  split
  · exact .ok _
  split <;> exact .ok _

theorem spares_inlined (quote : Bool) (v : Value) : Spares (inlined quote v) := by
  rw [inlined.eq_def]
  split
  · exact .ok _
  · split
    · exact Sql.spares_literal v
    · exact .ok _

theorem spares_inlineList (quote : Bool) (c : Comparison) (items : List Value) :
    Spares (inlineList quote c items) := by
  rw [inlineList]
  split
  · exact .ok _
  · exact (Spares.mapM fun v _ ↦ spares_inlined quote v).bind fun _ ↦ .ok _

theorem spares_notNullTest (key : String) (c : Option Comparison) :
    Spares (notNullTest key c) := by
  rw [notNullTest.eq_def]
  split <;> first | exact .ok _ | exact .error rfl

theorem spares_ownComparison (v : Value) : Spares (ownComparison v) := by
  have hstrange (operator : Value) : Spares (strangeOperator operator) := by
    rw [strangeOperator]
    split
    · exact .ok _
    · split
      · exact .error rfl
      · exact .ok _
  rw [ownComparison.eq_def]
  split
  · exact .ok _
  split
  case h_5 =>
    split
    · exact (hstrange _).bind fun _ ↦ .ok _
    · exact .error rfl
  case h_6 =>
    refine .error ?_
    split <;> rfl
  all_goals first | exact .ok _ | exact .error rfl

theorem spares_splice (explicit : Option Comparison) (r : Rendition) :
    Spares (splice explicit r) := by
  rw [splice.eq_def]
  split
  · exact .ok _
  · refine (spares_ownComparison _).bind fun own ↦ ?_
    split <;> exact .ok _

end Leaf

theorem LeafContext.spares_numbered (ctx : LeafContext) (leaf : Leaf) :
    Spares (ctx.numbered leaf) := by
  rw [numbered]
  split
  · exact .error rfl
  · exact .ok _

namespace LeafRules

variable {v : Value} {ctx : LeafContext}

theorem spares_resolveWrapped (inner : Value) (bind quote : Bool) (own : Option Comparison)
    (hrender : ∀ b, (ctx.render b).Spares) :
    (LeafRule.resolveWrapped inner bind own quote ctx).Spares := by
  have hplain (c : Comparison) (inner : Value) :
      Spares (LeafRule.plainWrapped ctx.bound c inner bind quote) := by
    rw [LeafRule.plainWrapped.eq_def]
    split
    · exact Leaf.spares_bindList _ _ _
    · exact .ok _
    · exact Leaf.spares_inlineList _ _ _
    · exact (Leaf.spares_inlined _ _).bind fun _ ↦ .ok _
  rw [LeafRule.resolveWrapped.eq_def]
  dsimp only
  split
  · exact .ok _
  split
  · exact (hrender _).bind fun _ ↦ .ofExcept (Leaf.spares_splice _ _)
  split
  · exact .ok _
  split
  · exact .ofExcept (Leaf.spares_notNullTest _ _)
  · exact .ok _
  · exact .ofExcept ((hplain _ _).bind fun leaf ↦ ctx.spares_numbered leaf)

theorem spares_of_mem_standard {rule : LeafRule} (hrule : rule ∈ standard)
    (hrender : ∀ b, (ctx.render b).Spares) : (rule.resolve v ctx).Spares := by
  simp only [standard, List.mem_cons, List.not_mem_nil, or_false] at hrule
  obtain rfl | rfl | rfl | rfl | rfl | rfl | rfl | rfl := hrule
  · exact .ok _
  · exact .ok _
  · exact .ofExcept (Leaf.spares_notNullTest _ _)
  · dsimp only [LeafRule.marker]
    split
    · exact .ok _
    · exact .fail rfl
  · exact .ofExcept ((Leaf.spares_bindList _ _ _).bind fun leaf ↦ ctx.spares_numbered leaf)
  · dsimp only [LeafRule.wrapped]
    split
    · exact spares_resolveWrapped _ _ _ _ hrender
    · exact .fail rfl
  · exact (hrender _).bind fun _ ↦ .ofExcept (Leaf.spares_splice _ _)
  · exact .ofExcept (ctx.spares_numbered _)

theorem spares_resolve_standard (hrender : ∀ b, (ctx.render b).Spares) :
    (standard.resolve v ctx).Spares := by
  rw [resolve]
  split
  next rule hrule => exact spares_of_mem_standard (List.mem_of_find?_eq_some hrule) hrender
  next => exact .fail rfl

end LeafRules

/-! ## Trees -/

namespace Condition

variable {s : Scope} {key : String} {c : Option Comparison} {b : Int}

theorem spares_renderPlain (v : Value) (b : Int) : (renderPlain v b).Spares := by
  rw [renderPlain.eq_def]
  split
  · split
    · exact .ok _
    · exact .fail rfl
  · exact .ofExcept (Rendition.spares_ofValue _)
  · refine .fail ?_
    split <;> rfl

theorem spares_ofBare {v : Value} {renderable : Bool} {render : Int → Logged Rendition}
    (hrender : ∀ b, (render b).Spares) : (ofBare v renderable render c b).Spares := by
  cases c with
  | none => exact .fail rfl
  | some c =>
    rw [ofBare]
    split
    · exact (hrender b).bind fun _ ↦ .ok _
    · exact .fail rfl

theorem spares_fieldOf (s : Scope) (key : String) : Spares (fieldOf s key) := by
  rw [fieldOf]
  split
  · exact .ok _
  · exact .error (Failure.isMismatch_unknownField _ _ _)

theorem spares_ofScalar {v : Value} {render : Int → Logged Rendition}
    (hrules : s.rules = .standard) (hrender : ∀ b, (render b).Spares) :
    (ofScalar s key v render c b).Spares := by
  have hleaf (field : Field) (leaf : Leaf) : Spares (ofLeaf field key leaf) := by
    rw [ofLeaf.eq_def]
    split
    · exact .error rfl
    · exact .ok _
  refine (Logged.Spares.ofExcept (spares_fieldOf s key)).bind fun field ↦ ?_
  split
  · exact Logged.Spares.bind (Logged.Spares.ok ()) fun _ ↦ .ok _
  · rw [hrules]
    exact (LeafRules.spares_resolve_standard hrender).bind fun leaf ↦ .ofExcept (hleaf field leaf)

theorem spares_ofNodes {vs : List Value} (h : ∀ v ∈ vs, ∀ c b, (ofNode s .and v c b).Spares)
    (c : Option Comparison) (b : Int) : (ofNodes s vs c b).Spares := by
  induction vs generalizing b with
  | nil => exact .ok []
  | cons v vs ih =>
    obtain ⟨hv, hvs⟩ := List.forall_mem_cons.mp h
    rw [ofNodes]
    exact (hv c b).bind fun part ↦ (ih hvs _).bind fun parts ↦ .ok _

theorem spares_ofFieldItems {vs : List Value} (h : ∀ v ∈ vs, ∀ c b, (ofField s key v c b).Spares)
    (c : Option Comparison) (b : Int) : (ofFieldItems s key vs c b).Spares := by
  induction vs generalizing b with
  | nil => exact .ok []
  | cons v vs ih =>
    obtain ⟨hv, hvs⟩ := List.forall_mem_cons.mp h
    rw [ofFieldItems]
    exact (hv c b).bind fun part ↦ (ih hvs _).bind fun parts ↦ .ok _

theorem spares_ofEntries {es : List (String × Value)}
    (h : ∀ v ∈ es.map (·.2), ∀ key c b, (ofField s key v c b).Spares)
    (c : Option Comparison) (b : Int) : (ofEntries s es c b).Spares := by
  induction es generalizing b with
  | nil => exact .ok []
  | cons e es ih =>
    obtain ⟨key, v⟩ := e
    obtain ⟨hv, hes⟩ := List.forall_mem_cons.mp h
    rw [ofEntries]
    exact (Logged.Spares.ofExcept (spares_fieldOf s key)).bind fun _ ↦
      (hv key c b).bind fun part ↦ (ih hes _).bind fun parts ↦ .ok _

theorem spares_assemble (s : Select Value) (isSubquery : Bool) {where_ : Logged Statement}
    (hwhere : where_.Spares) : (assemble s isSubquery where_).Spares := by
  refine (Logged.Spares.ofExcept s.spares_columnList).bind fun columns ↦
    (Logged.Spares.ofExcept (Sql.spares_quoteName _)).bind fun name ↦ ?_
  dsimp only
  split
  · exact (Logged.Spares.ofExcept (s.spares_tailClauses isSubquery)).bind fun _ ↦ .ok _
  · exact (hwhere.map some).bind fun _ ↦
      (Logged.Spares.ofExcept (s.spares_tailClauses isSubquery)).bind fun _ ↦ .ok _

/-- What compiling a value ends in at a node, under a key, and as a sub-query. -/
structure SparesAt (v : Value) : Prop where
  node : ∀ {s : Scope} (top : Connective) (c : Option Comparison) (b : Int),
    s.rules = .standard → (ofNode s top v c b).Spares
  field : ∀ {s : Scope} (key : String) (c : Option Comparison) (b : Int),
    s.rules = .standard → (ofField s key v c b).Spares
  render : ∀ (isFar : Bool) (b : Int), (Condition.render isFar v b).Spares

theorem spares_renderSelect (isFar : Bool) (select : Select Value)
    (h : ∀ v ∈ select.wheres, SparesAt v) (b : Int) : (renderSelect isFar select b).Spares := by
  obtain ⟨table, wheres, orderBys, limit, offset, output, returns, loaded, rows, streaming⟩ :=
      select
  have hnodes := @spares_ofNodes ⟨table, .standard, isFar⟩ wheres
    (fun v hv c b ↦ (h v hv).node .and c b rfl) none b
  rw [renderSelect]
  exact (spares_assemble _ true (hnodes.bind fun _ ↦ .ok _)).bind fun _ ↦ .ok _

theorem sparesAt_of_parts (v : Value) (ih : ∀ w ∈ v.parts, SparesAt w) : SparesAt v := by
  have hrender (isFar : Bool) (b : Int) : (Condition.render isFar v b).Spares := by
    rw [Condition.render.eq_def]
    split
    · exact spares_renderSelect isFar _ ih b
    · exact spares_renderPlain _ b
  refine ⟨fun {s} top c b hs ↦ ?_, fun {s} key c b hs ↦ ?_, hrender⟩
  · have hnodes (c : Option Comparison) (b : Int) := spares_ofNodes
      (fun w hw c b ↦ (ih w hw).node (s := s) .and c b hs) c b
    rw [ofNode.eq_def]
    split
    · exact (hnodes _ b).map _
    · exact (hnodes _ b).map _
    · exact (hnodes _ b).map _
    · exact (spares_ofEntries (fun w hw key c b ↦ (ih w hw).field key c b hs) c b).map _
    · exact spares_ofBare fun b ↦ (ih _ (List.mem_singleton_self _)).render s.isFar b
    · exact spares_ofBare (spares_renderSelect s.isFar _ ih)
    · exact spares_ofBare (spares_renderPlain _)
  · rw [ofField.eq_def]
    split
    · exact .fail rfl
    · exact (spares_ofFieldItems (fun w hw c b ↦ (ih w hw).field key c b hs) _ b).map _
    · exact spares_ofScalar hs fun b ↦ (ih _ (List.mem_singleton_self _)).render s.isFar b
    · exact spares_ofScalar hs (spares_renderSelect s.isFar _ ih)
    · exact spares_ofScalar hs (spares_renderPlain _)

/-- **Compiling** spares the complaint at every position. -/
theorem sparesAt (v : Value) : SparesAt v := Value.induction_on_parts sparesAt_of_parts v

end Condition

/-- **Statements** of selections are made without that complaint. -/
theorem Select.spares_statement (s : Select Value) (count isSubquery : Bool) (bound : Int) :
    (s.statement count isSubquery bound).Spares := by
  have hnode := (Condition.sparesAt (.list s.wheres)).node (s := ⟨s.table, .standard,
    Sql.isFar bound⟩) .and none bound rfl
  exact (Condition.spares_assemble s isSubquery (hnode.bind fun _ ↦ .ok _)).bind fun _ ↦ .ok _

end Rowmap
