import Rowmap.Proofs.Condition.LeafNumbers
import Rowmap.Proofs.Condition.Meaning
import Rowmap.Proofs.Select.Plain

/-!
# Placeholders and values

The count of bound values is handed down the tree, through groups, maps, leaves and sub-queries, and
each leaf numbers its placeholders from it. The main fact is that the count is right everywhere: a
statement falls into fragments, one for each leaf down to those of sub-queries, and each has the
numbers under which its own values are bound.
-/

namespace Rowmap

variable {d : Sql.Numbering} {b : Nat}

/-! ## Leaves -/

theorem words_snoc {left right : String} (operator : String) (hleft : left ≠ "")
    (hright : right ≠ "") :
    Sql.words [left, operator, right] = Sql.words [left, operator] ++ (" " ++ right) := by
  by_cases hoperator : operator = ""
  · simp [Sql.words, hleft, hright, hoperator, String.append_assoc]
  · simp [Sql.words, hleft, hright, hoperator, String.append_assoc]

theorem Leaf.AlignedAs.words {leaf : Leaf} {places : List Place}
    (h : leaf.AlignedAs d b places) {left : String} (hne : left ≠ "")
    (hleft : Sql.numbers left = []) :
    Aligned d b places (Sql.words [left, leaf.operator, leaf.right]) leaf.values := by
  have hhead : Sql.numbers (Sql.words [left, leaf.operator]) = [] := by
    rw [Sql.numbers_words]
    simp [hleft, h.operator]
  -- a comparison without a right-hand side ends in no blank
  by_cases hright : leaf.right = ""
  · have halone := (Aligned.of_plain hhead).append h.right (by simp [hright])
    have hwords : Sql.words [left, leaf.operator, leaf.right] =
        Sql.words [left, leaf.operator] ++ leaf.right := by
      simp [hright, Sql.words, List.filter_cons]
    rwa [← hwords] at halone
  · rw [words_snoc leaf.operator hne hright, ← String.append_assoc]
    exact h.right.opened (Sql.Separates.blank.opens_behind hhead)

theorem numbers_leftOf {t : Table Value} (ht : t.Plain) {key : String} {field : Field}
    (hfield : t.field? key = some field) {leaf : Leaf} (h : leaf.OnColumn) :
    Sql.numbers (Condition.leftOf field key leaf) = [] := by
  obtain hleft | ⟨c, rfl⟩ := h
  · have hcolumn : Sql.numbers (Sql.quoteIdentifier (field.column key)) = [] := by
      rw [Sql.numbers_quoteIdentifier]
      exact (ht.of_field? hfield).2
    have hcast (cast : Bool) : Sql.Closes (if cast then "::text" else "") := by
      cases cast
      · exact Sql.closes_empty
      · exact Sql.closes_of_start (Sql.numbers_of_no_dollar (by decide)) (by decide)
    simp only [Condition.leftOf, hleft]
    rw [hcast, hcolumn]
  · exact Sql.numbers_of_no_dollar (show '$' ∉ "true".toList by decide)

/-! ## Groups -/

namespace Condition

/-- A condition that is aligned, whatever it stands beside. -/
def AlignedAs (d : Sql.Numbering) (b : Nat) (places : List Place) (c : Condition) : Prop :=
  ∀ siblings, Aligned d b places (c.text siblings) c.values

theorem allAligned_of_threaded {α : Type} {compiles : α → Int → Condition → Prop}
    {leaves : α → List Place} {as : List α} {parts : List Condition}
    (h : Threaded compiles as b parts)
    (each : ∀ a ∈ as, ∀ (b : Nat) part, compiles a b part → part.AlignedAs d b (leaves a))
    (siblings : Int) :
    AllAligned d b (as.flatMap leaves) (partTexts parts siblings) (partValues parts) := by
  -- the count is handed down as an integer, and is a natural number all along
  generalize hi : (b : Int) = i at h
  induction h generalizing b with
  | nil i => exact .nil b
  | @cons a as i part parts head tail ih =>
    subst hi
    rw [List.forall_mem_cons] at each
    exact .cons (each.1 b part head siblings) (ih each.2 (by omega))

theorem AlignedAs.group {connective : Connective} {places : List Place} {parts : List Condition}
    (h : ∀ siblings, AllAligned d b places (partTexts parts siblings) (partValues parts)) :
    (Condition.group connective parts).AlignedAs d b places := fun siblings ↦
  (h _).joinParts connective siblings

theorem AlignedAs.fields {connective : Connective} {places : List Place} {parts : List Condition}
    (h : ∀ siblings, AllAligned d b places (partTexts parts siblings) (partValues parts)) :
    (Condition.fields connective parts).AlignedAs d b places := fun siblings ↦
  ((h _).joinParts connective siblings).orAlways

/-! ## Sub-queries -/

theorem plainOperator_comparisonValue (query : Value) (values : List Value)
    (c : Option Comparison) :
    Rendition.PlainOperator ⟨query, values, Rendition.comparisonValue c⟩ := by
  intro c' operator h
  cases c with
  | none => simp [Rendition.comparisonValue, Leaf.ownComparison, Value.truthy] at h
  | some c =>
    obtain ⟨-, rfl⟩ : some c = c' ∧ c.label = operator := by
      simpa [Rendition.comparisonValue, Leaf.ownComparison, Value.truthy] using h
    exact c.numbers_label

/-- Hand-written SQL and a caller's own sub-query number their values as they promise. -/
theorem rendersRows_of_renderPlain {v : Value} (hv : v.NumbersItself d) {r : Rendition}
    (h : (renderPlain v b).result = .ok r) : RendersRows d b v r := by
  rw [renderPlain.eq_def] at h
  split at h
  · split at h
    · obtain rfl := Except.ok.inj h
      refine ⟨plainOperator_comparisonValue _ _ _, .inl ⟨rfl, rfl, ?_⟩⟩
      show d.holds b _ (Sql.numbers (Sql.shift b _))
      rw [Sql.numbers_shift]
      exact d.holds_shift b hv
    · simp at h
  · have hr := hv b r h
    refine ⟨hr.2, .inl ⟨?_, rfl, hr.1⟩⟩
    rw [Value.rowValues]
    have hof : Rendition.ofValue _ = .ok r := h
    rw [hof]
  · split at h <;> simp at h

theorem selectLeaves_eq (select : Select Value) :
    Value.selectLeaves true select = Value.nodesLeaves true select.wheres none := by
  obtain ⟨table, wheres, orderBys, limit, offset, output, returns, loaded, rows, streaming⟩ :=
    select
  rw [Value.selectLeaves]

theorem aligned_of_assemble {select : Select Value} (ht : select.table.Plain) {isSubquery : Bool}
    {where_ : Logged Statement} {st : Statement}
    (h : (assemble select isSubquery where_).result = .ok st)
    (hwhere : ∀ w, where_.result = .ok w →
      Aligned d b (Value.selectLeaves true select) w.text w.values) :
    Aligned d b (Value.selectLeaves true select) st.text st.values := by
  obtain ⟨hwheres, hnumbers, hvalues⟩ | ⟨w, pre, post, hw, hpre, hpost, rfl⟩ :=
    Select.of_assemble ht h
  · rw [selectLeaves_eq, hwheres, hvalues]
    exact .of_plain hnumbers
  · exact (hwhere w hw).enclosed hpre hpost

/-- The conditions of a selection that stands as a sub-query. -/
def whereOf (isFar : Bool) (select : Select Value) (i : Int) : Logged Statement := do
  let parts ← ofNodes ⟨select.table, .standard, isFar⟩ select.wheres none i
  .ok (Condition.statement (.group .and parts) 0)

theorem renderSelect_eq (isFar : Bool) (select : Select Value) (i : Int) :
    renderSelect isFar select i =
      (assemble select true (whereOf isFar select i) >>= fun st ↦ .ok st.rendition) := by
  obtain ⟨table, wheres, orderBys, limit, offset, output, returns, loaded, rows, streaming⟩ :=
    select
  rw [renderSelect]
  rfl

/-- **What renders** is a selection, which is assembled around its conditions, or renders by
itself. -/
theorem of_render {isFar : Bool} {v : Value} {i : Int} {r : Rendition}
    (h : (render isFar v i).result = .ok r) :
    (∃ id select st, v = .query id select ∧
      (assemble select true (whereOf isFar select i)).result = .ok st ∧ r = st.rendition) ∨
      (∀ id select, v ≠ .query id select) ∧ (renderPlain v i).result = .ok r := by
  by_cases hquery : ∃ id select, v = .query id select
  · obtain ⟨id, select, rfl⟩ := hquery
    rw [render_query, renderSelect_eq] at h
    obtain ⟨st, hst, h⟩ := Logged.bind_eq_ok.mp h
    exact .inl ⟨id, select, st, rfl, hst, (Except.ok.inj h).symm⟩
  · push Not at hquery
    rw [render_of_ne_query hquery] at h
    exact .inr ⟨hquery, h⟩

theorem of_whereOf {isFar : Bool} {select : Select Value} {i : Int} {w : Statement}
    (h : (whereOf isFar select i).result = .ok w) :
    ∃ parts, Threaded (fun v i part ↦
        (ofNode ⟨select.table, .standard, isFar⟩ .and v none i).result = .ok part)
      select.wheres i parts ∧ w = Condition.statement (.group .and parts) 0 := by
  obtain ⟨parts, hparts, h⟩ := Logged.bind_eq_ok.mp h
  exact ⟨parts, threaded_of_ofNodes hparts, (Except.ok.inj h).symm⟩

/-! ## Trees -/

/-- A value that is aligned wherever it stands: as a node, under a key and as a sub-query. -/
structure AlignedEverywhere (d : Sql.Numbering) (v : Value) : Prop where
  node : ∀ {t : Table Value} (_ : t.Plain) {isFar top c} {b : Nat} {condition},
    (∀ p ∈ v.nodeLeaves true c, p.NumbersItself d) →
      (ofNode ⟨t, .standard, isFar⟩ top v c b).result = .ok condition →
        condition.AlignedAs d b (v.nodeLeaves true c)
  field : ∀ {t : Table Value} (_ : t.Plain) {isFar key c} {b : Nat} {condition},
    (∀ p ∈ v.fieldLeaves true key c, p.NumbersItself d) →
      (ofField ⟨t, .standard, isFar⟩ key v c b).result = .ok condition →
        condition.AlignedAs d b (v.fieldLeaves true key c)
  rows : v.NumbersItself d → (∀ p ∈ v.rowLeaves true, p.NumbersItself d) →
    ∀ {isFar} {b : Nat} {r}, (render isFar v b).result = .ok r → RendersRows d b v r

section

variable {t : Table Value} {isFar : Bool} {c : Option Comparison}

theorem allAligned_nodes {vs : List Value} (ih : ∀ v ∈ vs, AlignedEverywhere d v) (ht : t.Plain)
    (hplain : ∀ p ∈ Value.nodesLeaves true vs c, p.NumbersItself d) {parts : List Condition}
    (h : Threaded (fun v i part ↦ (ofNode ⟨t, .standard, isFar⟩ .and v c i).result = .ok part)
      vs b parts) (siblings : Int) :
    AllAligned d b (Value.nodesLeaves true vs c) (partTexts parts siblings) (partValues parts) := by
  rw [Value.nodesLeaves_eq_flatMap] at hplain ⊢
  refine allAligned_of_threaded h (fun v hv b part hpart ↦ (ih v hv).node ht ?_ hpart) siblings
  exact fun p hp ↦ hplain p (List.mem_flatMap_of_mem hv hp)

theorem allAligned_items {key : String} {vs : List Value} (ih : ∀ v ∈ vs, AlignedEverywhere d v)
    (ht : t.Plain) (hplain : ∀ p ∈ Value.itemsLeaves true key vs c, p.NumbersItself d)
    {parts : List Condition}
    (h : Threaded (fun v i part ↦ (ofField ⟨t, .standard, isFar⟩ key v c i).result = .ok part)
      vs b parts) (siblings : Int) :
    AllAligned d b (Value.itemsLeaves true key vs c) (partTexts parts siblings)
      (partValues parts) := by
  rw [Value.itemsLeaves_eq_flatMap] at hplain ⊢
  refine allAligned_of_threaded h (fun v hv b part hpart ↦ (ih v hv).field ht ?_ hpart) siblings
  exact fun p hp ↦ hplain p (List.mem_flatMap_of_mem hv hp)

theorem allAligned_entries {es : List (String × Value)}
    (ih : ∀ e ∈ es, AlignedEverywhere d e.2) (ht : t.Plain)
    (hplain : ∀ p ∈ Value.entriesLeaves true es c, p.NumbersItself d) {parts : List Condition}
    (h : Threaded (fun e i part ↦ (∃ field, t.field? e.1 = some field) ∧
      (ofField ⟨t, .standard, isFar⟩ e.1 e.2 c i).result = .ok part) es b parts)
    (siblings : Int) :
    AllAligned d b (Value.entriesLeaves true es c) (partTexts parts siblings)
      (partValues parts) := by
  rw [Value.entriesLeaves_eq_flatMap] at hplain ⊢
  refine allAligned_of_threaded h (fun e he b part hpart ↦ (ih e he).field ht ?_ hpart.2) siblings
  exact fun p hp ↦ hplain p (List.mem_flatMap_of_mem he hp)

end

theorem rows_of_parts {v : Value} (ih : ∀ w ∈ v.parts, AlignedEverywhere d w)
    (hv : v.NumbersItself d) (hplain : ∀ p ∈ v.rowLeaves true, p.NumbersItself d) {isFar : Bool}
    {b : Nat} {r : Rendition} (h : (render isFar v b).result = .ok r) : RendersRows d b v r := by
  obtain ⟨id, select, st, rfl, hst, rfl⟩ | ⟨-, h⟩ := of_render h
  · have ht : select.table.Plain := hv
    refine ⟨plainOperator_comparisonValue _ _ none, .inr ⟨rfl, aligned_of_assemble ht hst ?_⟩⟩
    intro w hw
    -- the conditions of the sub-query are its parts, numbered from the count it is told
    obtain ⟨parts, hparts, rfl⟩ := of_whereOf hw
    have hleaves : ∀ p ∈ Value.nodesLeaves true select.wheres none, p.NumbersItself d := by
      rw [← selectLeaves_eq]
      exact hplain
    rw [selectLeaves_eq]
    exact (AlignedAs.group (allAligned_nodes ih ht hleaves hparts) 0).orAlways
  · exact rendersRows_of_renderPlain hv h

theorem alignedAs_rows {v : Value} {p : Place} {r : Rendition} (h : RendersRows d b v r)
    (hp : p.ownValues b = v.rowValues b) (test : Comparison) :
    (Condition.atom (test.label ++ " (" ++ r.query.inline ++ ")") r.values).AlignedAs d b
      (p :: v.rowLeaves true) := fun _ ↦
  h.enclosed hp (Sql.Separates.opening.opens_behind test.numbers_label) Sql.closes_parenthesis

theorem nodeLeaves_of_isRenderable {v : Value} (h : v.isRenderable = true)
    (c : Option Comparison) : v.nodeLeaves true c = ⟨none, v, c⟩ :: v.rowLeaves true := by
  cases v <;> first | rfl | simp [Value.isRenderable] at h

theorem numbersItself_inner {p : Place} (h : p.NumbersItself d) (hignored : p.isIgnored = false) :
    p.inner.NumbersItself d := by
  obtain ⟨key, v, c⟩ := p
  cases v with
  | wrapped => exact (h hignored).1
  | _ => exact h hignored

theorem isIgnored_none (v : Value) (c : Option Comparison) :
    (⟨none, v, c⟩ : Place).isIgnored = false := rfl

theorem node_of_parts {v : Value} (ih : ∀ w ∈ v.parts, AlignedEverywhere d w) {t : Table Value}
    (ht : t.Plain) {isFar : Bool} {top : Connective} {c : Option Comparison} {b : Nat}
    {condition : Condition} (hplain : ∀ p ∈ v.nodeLeaves true c, p.NumbersItself d)
    (h : (ofNode ⟨t, .standard, isFar⟩ top v c b).result = .ok condition) :
    condition.AlignedAs d b (v.nodeLeaves true c) := by
  cases NodeCase.of_ofNode h with
  | group hitems => exact .group (allAligned_nodes ih ht hplain hitems)
  | list hitems => exact .group (allAligned_nodes ih ht hplain hitems)
  | tuple hitems => exact .group (allAligned_nodes ih ht hplain hitems)
  | @map entries parts hentries =>
    have hes : ∀ e ∈ entries, AlignedEverywhere d e.2 := fun e he ↦ ih e.2 (List.mem_map_of_mem he)
    exact .fields (allAligned_entries hes ht hplain hentries)
  | @wrappedRows inner bind quote own test r htest hright hinner hr =>
    rw [Value.nodeLeaves, if_pos rfl, List.forall_mem_cons] at hplain
    have hnumbers := numbersItself_inner hplain.1 (isIgnored_none _ _)
    have hrows := (ih inner List.mem_cons_self).rows hnumbers hplain.2 hr
    have hinner' : (⟨none, .wrapped inner bind own quote, c⟩ : Place).inner.isRenderable = true :=
      hinner
    exact alignedAs_rows hrows (Place.ownValues_of_isRenderable (isIgnored_none _ _) hinner' b) test
  | @rows _ test r htest hright hv hr =>
    rw [nodeLeaves_of_isRenderable hv, List.forall_mem_cons] at hplain
    have hinner : (⟨none, v, c⟩ : Place).inner = v := Place.inner_of_isRenderable hv
    have hnumbers := numbersItself_inner hplain.1 (isIgnored_none _ _)
    have hown := Place.ownValues_of_isRenderable (isIgnored_none v c) (by rwa [hinner]) b
    rw [hinner] at hnumbers hown
    rw [nodeLeaves_of_isRenderable hv]
    exact alignedAs_rows (rows_of_parts ih hnumbers hplain.2 hr) hown test

theorem renderInner_eq (isFar : Bool) (p : Place) :
    renderInner isFar p.value = render isFar p.inner := by
  obtain ⟨key, v, c⟩ := p
  cases v <;> rfl

theorem inner_eq_or_mem_parts (p : Place) : p.inner = p.value ∨ p.inner ∈ p.value.parts := by
  rw [Place.inner.eq_def]
  split
  · rename_i hvalue
    rw [hvalue]
    exact .inr List.mem_cons_self
  · exact .inl rfl

theorem field_of_parts {v : Value} (ih : ∀ w ∈ v.parts, AlignedEverywhere d w) {t : Table Value}
    (ht : t.Plain) {isFar : Bool} {key : String} {c : Option Comparison} {b : Nat}
    {condition : Condition} (hplain : ∀ p ∈ v.fieldLeaves true key c, p.NumbersItself d)
    (h : (ofField ⟨t, .standard, isFar⟩ key v c b).result = .ok condition) :
    condition.AlignedAs d b (v.fieldLeaves true key c) := by
  cases FieldCase.of_ofField h with
  | group hitems => exact .group (allAligned_items ih ht hplain hitems)
  | skipped => exact fun _ ↦ .of_plain rfl
  | leaf hfield hgroup hmap hunset hleaf hright =>
    have hcase := LeafCase.of_standard hleaf
    rw [Value.fieldLeaves_eq hgroup hunset, List.forall_mem_cons] at hplain
    rw [Value.fieldLeaves_eq hgroup hunset]
    generalize hp : (⟨some key, v, c⟩ : Place) = p at hplain
    have hrows : p.inner.isRenderable = true → p.isIgnored = false → ∀ r,
        (renderInner isFar v b).result = .ok r → RendersRows d b p.inner r := by
      intro _ hignored r hr
      have hnumbers := numbersItself_inner hplain.1 hignored
      have hleaves := hplain.2
      rw [hignored, if_neg Bool.false_ne_true] at hleaves
      have hvalue : p.value = v := by rw [← hp]
      rw [← hvalue, renderInner_eq] at hr
      -- what renders inside a leaf is the value itself, or what it wraps
      obtain hself | hmem := inner_eq_or_mem_parts p
      · rw [hself, hvalue] at hnumbers hleaves hr ⊢
        exact rows_of_parts ih hnumbers hleaves hr
      · rw [hvalue] at hmem
        exact (ih p.inner hmem).rows hnumbers hleaves hr
    have haligned := (hcase.becomes hp.symm).alignedAs rfl hplain.1 hrows
    exact fun _ ↦ haligned.words (leftOf_ne_empty hcase.onColumn)
      (numbers_leftOf ht hfield hcase.onColumn)

theorem alignedEverywhere (d : Sql.Numbering) (v : Value) : AlignedEverywhere d v := by
  induction v using Value.induction_on_parts with
  | step v ih => exact ⟨node_of_parts ih, field_of_parts ih, rows_of_parts ih⟩

end Condition

/-! ## Statements -/

/-- A statement over a record type after so many bound values, with the leaves it comes from: that
of a whole tree, or of a selection. -/
inductive StatementOf (t : Table Value) (b : Nat) : List Place → Statement → Prop where
  | tree {isFar : Bool} {tree : Value} {o : CompileOptions} {st : Statement} (hb : o.bound = b)
      (h : (Scope.compile ⟨t, .standard, isFar⟩ tree o).result = .ok st) :
      StatementOf t b (tree.treeLeaves true o) st
  | select {select : Select Value} {count isSubquery : Bool} {st : Statement}
      (ht : select.table = t) (h : (select.statement count isSubquery b).result = .ok st) :
      StatementOf t b (Value.selectLeaves true select) st

theorem Select.opens_count : Sql.Opens "SELECT count(*)::int FROM (" :=
  Sql.opens_of_no_dollar (by decide)

theorem Select.closes_count : Sql.Closes ") AS a" :=
  Sql.closes_of_start (Sql.numbers_of_no_dollar (by decide)) (by decide)

theorem Select.aligned_countOf {places : List Place} {text : String} {values : List Value}
    (h : Aligned d b places text values) : Aligned d b places (Select.countOf text) values :=
  h.enclosed opens_count closes_count

theorem StatementOf.aligned {t : Table Value} (ht : t.Plain) {places : List Place}
    {st : Statement} (hplaces : ∀ p ∈ places, p.NumbersItself d) (h : StatementOf t b places st) :
    Aligned d b places st.text st.values := by
  cases h with
  | @tree isFar tree o _ hb h =>
    obtain ⟨c, hc, hst⟩ := Logged.bind_eq_ok.mp h
    obtain rfl := Except.ok.inj hst
    refine Aligned.orAlways ?_
    rw [Scope.condition, hb] at hc
    rw [Value.treeLeaves] at hplaces ⊢
    cases hkey : o.key with
    | some key =>
      rw [hkey] at hc hplaces
      exact (Condition.alignedEverywhere d tree).field ht hplaces hc o.siblings
    | none =>
      rw [hkey] at hc hplaces
      exact (Condition.alignedEverywhere d tree).node ht hplaces hc o.siblings
  | @select select count isSubquery _ htable h =>
    subst htable
    obtain ⟨plain, hplain, h⟩ := Logged.bind_eq_ok.mp h
    obtain rfl := Except.ok.inj h
    have haligned : Aligned d b (Value.selectLeaves true select) plain.text plain.values := by
      refine Condition.aligned_of_assemble ht hplain fun w hw ↦ ?_
      obtain ⟨c, hc, hw⟩ := Logged.bind_eq_ok.mp hw
      obtain rfl := Except.ok.inj hw
      have hnode : (Condition.ofNode ⟨select.table, .standard, Sql.isFar b⟩ .and
        (.list select.wheres) none b).result = .ok c := hc
      rw [Condition.selectLeaves_eq] at hplaces ⊢
      exact ((Condition.alignedEverywhere d (.list select.wheres)).node ht hplaces hnode
        0).orAlways
    cases count with
    | true => exact Select.aligned_countOf haligned
    | false => exact haligned

/-- **Placeholders are contiguous and aligned with the values.** Those of a statement after `b`
bound values are numbered from `b + 1` on, one number for each value, and the statement falls into
fragments in which each leaf has the numbers of its own values. Where hand-written SQL is absent, or
has its placeholders once and in order, and callers' own sub-queries have, so has the statement. -/
theorem StatementOf.placeholders_are_contiguous {t : Table Value} (ht : t.Plain) {b : Nat}
    {places : List Place} {st : Statement}
    (hplaces : ∀ p ∈ places, p.NumbersItself .covering) (h : StatementOf t b places st) :
    (∀ k, k ∈ Sql.numbers st.text ↔ b < k ∧ k ≤ b + st.values.length) ∧
      Aligned .covering b places st.text st.values ∧
      ((∀ p ∈ places, p.NumbersItself .inOrder) →
        Sql.numbers st.text = List.range' (b + 1) st.values.length ∧
          Aligned .inOrder b places st.text st.values) := by
  have hcovering := h.aligned ht hplaces
  refine ⟨hcovering.holds, hcovering, fun hordered ↦ ?_⟩
  have hinOrder := h.aligned ht hordered
  exact ⟨hinOrder.holds, hinOrder⟩

def Select.letters : Select Value where
  table := .letters
  wheres := [.map [("b", .text "y")]]
  output := .value
  returns := .one (.text "a")

/-- A list of values, hand-written SQL that uses its value twice, and a sub-query with a condition
of its own. -/
def Value.mixedTree : Value :=
  .list [.map [("a", .list [.int 1, .int 2]), ("b", .rawSql 0 "SELECT $1 || $1" [.text "x"] none)],
    .map [("a", .query 1 .letters)]]

/-- What the tree above compiles to after two bound values. -/
def Statement.mixedTree : Statement where
  text := "(\"a\" IN ($3, $4) AND \"b\" IN (SELECT $5 || $5)) AND " ++
    "\"a\" IN (SELECT \"a\" FROM \"letters\" WHERE \"b\" = $6)"
  values := [.int 1, .int 2, .text "x", .text "y"]

theorem Table.plain_letters : Table.letters.Plain where
  name := by
    rintro s h
    obtain rfl : "letters" = s := Option.some.inj h
    exact Sql.numbers_of_no_dollar (by decide)
  fields := by
    simp only [Table.letters, List.mem_cons, List.not_mem_nil, Prod.mk.injEq, or_false]
    rintro key field (⟨rfl, rfl⟩ | ⟨rfl, rfl⟩)
    · decide
    · decide

/-- The condition that it becomes on the way. -/
def Condition.mixedTree : Condition :=
  .group .and [.fields .and [.atom "\"a\" IN ($3, $4)" [.int 1, .int 2],
      .atom "\"b\" IN (SELECT $5 || $5)" [.text "x"]],
    .fields .and [.atom "\"a\" IN (SELECT \"a\" FROM \"letters\" WHERE \"b\" = $6)" [.text "y"]]]

set_option maxRecDepth 1500 in
theorem Scope.compile_mixedTree :
    (Scope.compile ⟨.letters, .standard, false⟩ .mixedTree { bound := 2 }).result =
      .ok .mixedTree := by
  have hcondition : (Scope.condition ⟨.letters, .standard, false⟩ .mixedTree
      { bound := 2 }).result = .ok .mixedTree := rfl
  have hstatement : Condition.mixedTree.statement 0 = .mixedTree := rfl
  exact Logged.bind_eq_ok.mpr ⟨.mixedTree, hcondition, congrArg Except.ok hstatement⟩

theorem StatementOf.placeholders_of_mixedTree :
    Table.letters.Plain ∧
    (∀ p ∈ Value.treeLeaves true .mixedTree { bound := 2 }, p.NumbersItself .covering) ∧
    StatementOf .letters 2 (Value.treeLeaves true .mixedTree { bound := 2 }) .mixedTree ∧
    (∀ k, k ∈ Sql.numbers Statement.mixedTree.text ↔
      2 < k ∧ k ≤ 2 + Statement.mixedTree.values.length) ∧
    Aligned .covering 2 (Value.treeLeaves true .mixedTree { bound := 2 })
      Statement.mixedTree.text Statement.mixedTree.values := by
  have hraw : Sql.Numbering.covering.holds 0 1 (Sql.numbers "SELECT $1 || $1") := by
    have hnumbers : Sql.numbers "SELECT $1 || $1" = [1, 1] := by decide
    intro k
    rw [hnumbers]
    simp
    omega
  have hplaces : ∀ p ∈ Value.treeLeaves true .mixedTree { bound := 2 },
      p.NumbersItself .covering := by
    intro p hp
    have hmem : p ∈ [_, _, _, _] := hp
    simp only [List.mem_cons, List.not_mem_nil, or_false] at hmem
    obtain rfl | rfl | rfl | rfl := hmem
    · exact fun _ ↦ trivial
    · exact fun _ ↦ hraw
    · exact fun _ ↦ Table.plain_letters
    · exact fun _ ↦ trivial
  have h : StatementOf .letters 2 (Value.treeLeaves true .mixedTree { bound := 2 }) .mixedTree :=
    .tree rfl Scope.compile_mixedTree
  obtain ⟨hall, haligned, -⟩ :=
    StatementOf.placeholders_are_contiguous Table.plain_letters hplaces h
  exact ⟨Table.plain_letters, hplaces, h, hall, haligned⟩

end Rowmap
