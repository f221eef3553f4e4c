import Rowmap.Proofs.Condition.LeafShifts
import Rowmap.Proofs.Condition.Placeholders

/-!
# Compiling after more bound values

The count of bound values goes down the tree and is written into placeholders at the leaves, while
hand-written SQL is shifted as a text, once for each sub-query around it. Both come to the same:
what a tree compiles to after `b` values is what it compiles to at first, shifted by `b` as a whole.
So nothing at the seams between leaves turns into a placeholder or is lost from one, and a condition
that was compiled once can be spliced into any statement as a text.
-/

namespace Rowmap

variable {b k : Nat}

/-! ## Conditions -/

namespace Condition

theorem numbers_always : Sql.numbers always = [] := Sql.numbers_of_no_dollar (by decide)

theorem shift_orAlways (b : Nat) (text : String) :
    Sql.shift b (orAlways text) = orAlways (Sql.shift b text) := by
  rw [orAlways, orAlways, Sql.isEmpty_shift]
  split
  · exact Sql.shift_of_plain numbers_always
  · rfl

theorem canShift_orAlways (b : Nat) (text : String) :
    Sql.canShift b (orAlways text) = Sql.canShift b text := by
  rw [orAlways]
  split
  · rename_i hempty
    rw [String.isEmpty_iff.mp hempty, Sql.canShift_of_plain numbers_always]
    exact (Sql.canShift_of_plain rfl).symm
  · rfl

mutual

/-- A condition can be moved up when its leaves can, whatever it stands beside. -/
theorem canShift_text (b : Nat) : ∀ (c : Condition) (siblings : Int),
    Sql.canShift b (c.text siblings) = c.atoms.all (Sql.canShift b)
  | .skipped, _ => by
    rw [text, atoms]
    exact Sql.canShift_of_plain rfl
  | .atom _ _, _ => by rw [text, atoms, List.all_cons, List.all_nil, Bool.and_true]
  | .group _ parts, _ => by
    rw [text, Sql.canShift_joinParts, all_canShift_partTexts b parts, atoms]
  | .fields _ parts, _ => by
    rw [text, canShift_orAlways, Sql.canShift_joinParts, all_canShift_partTexts b parts, atoms]

theorem all_canShift_partTexts (b : Nat) : ∀ (parts : List Condition) (siblings : Int),
    (partTexts parts siblings).all (Sql.canShift b) = (partAtoms parts).all (Sql.canShift b)
  | [], _ => rfl
  | part :: parts, siblings => by
    rw [partTexts, List.all_cons, canShift_text b part, all_canShift_partTexts b parts, partAtoms,
      List.all_append]

end

/-- Another condition, with the placeholders moved up. -/
structure IsShift (b : Nat) (c c' : Condition) : Prop where
  text : ∀ siblings, c'.text siblings = Sql.shift b (c.text siblings)
  values : c'.values = c.values

theorem partTexts_of_isShift {parts parts' : List Condition}
    (h : List.Forall₂ (IsShift b) parts parts') (siblings : Int) :
    partTexts parts' siblings = (partTexts parts siblings).map (Sql.shift b) := by
  induction h with
  | nil => rfl
  | cons head _ ih => rw [partTexts, partTexts, head.text, ih, List.map_cons]

theorem partValues_of_isShift {parts parts' : List Condition}
    (h : List.Forall₂ (IsShift b) parts parts') : partValues parts' = partValues parts := by
  induction h with
  | nil => rfl
  | cons head _ ih => rw [partValues, partValues, head.values, ih]

theorem IsShift.group {connective : Connective} {parts parts' : List Condition}
    (h : List.Forall₂ (IsShift b) parts parts') :
    IsShift b (.group connective parts) (.group connective parts') where
  text siblings := by
    rw [Condition.text, Condition.text, partTexts_of_isShift h, ← h.length_eq,
      Sql.shift_joinParts]
  values := partValues_of_isShift h

theorem IsShift.fields {connective : Connective} {parts parts' : List Condition}
    (h : List.Forall₂ (IsShift b) parts parts') :
    IsShift b (.fields connective parts) (.fields connective parts') where
  text siblings := by
    rw [Condition.text, Condition.text, partTexts_of_isShift h, ← h.length_eq, shift_orAlways,
      Sql.shift_joinParts]
  values := partValues_of_isShift h

/-! ## Conditions in a tree -/

/-- A condition after `k` values, and what the same is compiled to after `b` more. -/
def Moves (b k : Nat) (c : Condition) (x : Logged Condition) : Prop :=
  x.Answers (IsShift b c) (c.atoms.all (Sql.canShift b) = true) (Sql.Reaches b k c.values.length)

/-- Several conditions after `k` values, and what the same are compiled to after `b` more. -/
def AllMove (b k : Nat) (parts : List Condition) (x : Logged (List Condition)) : Prop :=
  x.Answers (List.Forall₂ (IsShift b) parts) ((partAtoms parts).all (Sql.canShift b) = true)
    (Sql.Reaches b k (partValues parts).length)

theorem AllMove.nil (b k : Nat) : AllMove b k [] (.ok []) := .of_ok rfl .nil rfl

/-- The second condition starts as many values behind the first as before. -/
theorem AllMove.cons {part : Condition} {parts : List Condition} {x : Logged Condition}
    (rest : Nat → Logged (List Condition)) (head : part.Moves b k x)
    (tail : AllMove b (k + part.values.length) parts (rest (k + part.values.length + b))) :
    AllMove b k (part :: parts) (do
      let part' ← x
      let parts' ← rest (k + b + part'.values.length)
      .ok (part' :: parts')) := by
  have hrest (part' : Condition) (hpart : IsShift b part part') :
      (do
        let parts' ← rest (k + b + part'.values.length)
        .ok (part' :: parts') : Logged (List Condition)).Answers
        (List.Forall₂ (IsShift b) (part :: parts)) ((partAtoms parts).all (Sql.canShift b) = true)
        (Sql.Reaches b (k + part.values.length) (partValues parts).length) := by
    have hstart : k + b + part'.values.length = k + part.values.length + b := by
      rw [hpart.values]
      omega
    rw [hstart]
    exact tail.bind_ok fun parts' hparts ↦ ⟨_, rfl, .cons hpart hparts⟩
  refine (Logged.Answers.bind head hrest).mono (fun _ ↦ id) ?_ fun hreach ↦ ?_
  · rw [partAtoms, List.all_append, Bool.and_eq_true]
  · rw [partValues, List.length_append] at hreach
    exact ⟨hreach.mono (by omega), hreach.mono (by omega)⟩

theorem AllMove.group {connective : Connective} {parts : List Condition}
    {x : Logged (List Condition)} (h : AllMove b k parts x) :
    (group connective parts).Moves b k (Condition.group connective <$> x) :=
  Logged.Answers.map h fun _ ↦ .group

theorem AllMove.fields {connective : Connective} {parts : List Condition}
    {x : Logged (List Condition)} (h : AllMove b k parts x) :
    (fields connective parts).Moves b k (Condition.fields connective <$> x) :=
  Logged.Answers.map h fun _ ↦ .fields

theorem moves_rows {v : Value} {test : Comparison} {r : Rendition} {render : Int → Logged Rendition}
    {i : Int} (hright : test.rightOnly = true) (hr : r.Moves b k (render i)) :
    (atom (test.label ++ " (" ++ r.query.inline ++ ")") r.values).Moves b k
      (ofBare v true render (some test) i) := by
  have hopens : Sql.Opens (test.label ++ " (") :=
    Sql.Separates.opening.opens_behind test.numbers_label
  have heq : ofBare v true render (some test) i = (do
      let r ← render i
      .ok (.atom (test.label ++ " (" ++ r.query.inline ++ ")") r.values)) := by
    rw [ofBare, hright, Bool.and_true, if_pos rfl]
  rw [heq, Moves, atoms, List.all_cons, List.all_nil, Bool.and_true,
    Sql.canShift_enclosed hopens Sql.closes_parenthesis]
  refine hr.answers.bind_ok fun r' hr' ↦ ⟨_, rfl, fun _ ↦ ?_, hr'.values⟩
  rw [text, text, Sql.shift_enclosed hopens Sql.closes_parenthesis, hr'.query]

/-! ## Leaves -/

theorem moves_leaf {field : Field} {key : String} {leaf : Leaf} {x : Logged Leaf}
    (h : leaf.Moves b k x) (hleft : Sql.numbers (leftOf field key leaf) = [])
    (hright : leaf.comparison.filter (·.rightOnly) = none) :
    (atom (Sql.words [leftOf field key leaf, leaf.operator, leaf.right]) leaf.values).Moves b k
      (do .ofExcept (ofLeaf field key (← x))) := by
  have hcan : Sql.canShift b (Sql.words [leftOf field key leaf, leaf.operator, leaf.right]) =
      Sql.canShift b leaf.right := by
    rw [Sql.canShift_words, List.all_cons, List.all_cons, List.all_cons, List.all_nil,
      Sql.canShift_of_plain hleft, Sql.canShift_of_plain h.operator, Bool.true_and, Bool.true_and,
      Bool.and_true]
  have hshift : Sql.shift b (Sql.words [leftOf field key leaf, leaf.operator, leaf.right]) =
      Sql.words [leftOf field key leaf, leaf.operator, Sql.shift b leaf.right] := by
    rw [Sql.shift_words, List.map_cons, List.map_cons, List.map_cons, List.map_nil,
      Sql.shift_of_plain hleft, Sql.shift_of_plain h.operator]
  rw [Moves, atoms, List.all_cons, List.all_nil, Bool.and_true, hcan]
  refine h.answers.bind_ok ?_
  rintro _ rfl
  refine ⟨.atom (Sql.words [leftOf field key leaf, leaf.operator, Sql.shift b leaf.right])
    leaf.values, ?_, fun _ ↦ ?_, rfl⟩
  · show ofLeaf field key (leaf.shifted b) = _
    rw [ofLeaf, show (leaf.shifted b).comparison = leaf.comparison from rfl, hright]
    rfl
  · rw [text, text, hshift]

end Condition

/-! ## Sub-queries -/

/-- A statement after `k` values, and what the same comes to after `b` more. -/
def Statement.Moves (b k : Nat) (st : Statement) (x : Logged Statement) : Prop :=
  x.Answers (fun st' ↦ st'.text = Sql.shift b st.text ∧ st'.values = st.values)
    (Sql.canShift b st.text = true) (Sql.Reaches b k st.values.length)

namespace Condition

theorem canShift_statement (b : Nat) (c : Condition) (siblings : Int) :
    Sql.canShift b (c.statement siblings).text = c.atoms.all (Sql.canShift b) := by
  rw [statement, canShift_orAlways, canShift_text]

theorem IsShift.statement {c c' : Condition} (h : IsShift b c c') (siblings : Int) :
    (c'.statement siblings).text = Sql.shift b (c.statement siblings).text ∧
      (c'.statement siblings).values = (c.statement siblings).values := by
  refine ⟨?_, h.values⟩
  rw [Condition.statement, Condition.statement, h.text, shift_orAlways]

theorem Moves.statement {c : Condition} {x : Logged Condition} (h : c.Moves b k x)
    (siblings : Int) :
    (c.statement siblings).Moves b k (do .ok ((← x).statement siblings)) := by
  rw [Statement.Moves, canShift_statement]
  exact Logged.Answers.bind_ok h fun c' hc' ↦ ⟨_, rfl, hc'.statement siblings⟩

/-- **A selection** is moved up as its conditions are. -/
theorem moves_assemble {select : Select Value} (ht : select.table.Plain) {isSubquery : Bool}
    {where_ where' : Logged Statement} {st : Statement}
    (h : (assemble select isSubquery where_).result = .ok st)
    (hwhere : ∀ w, where_.result = .ok w → w.Moves b k where') :
    st.Moves b k (assemble select isSubquery where') := by
  obtain ⟨columns, name, tail, hcolumns, hname, htail, -⟩ := Select.exists_of_assemble h
  have heq := Select.assemble_eq hcolumns hname htail
  by_cases hwheres : select.wheres = []
  · have hplain := Select.numbers_unconditional ht hcolumns hname htail
    rw [heq, if_pos hwheres] at h
    obtain rfl := Except.ok.inj h
    exact .of_ok ((heq where').trans (if_pos hwheres)) ⟨(Sql.shift_of_plain hplain).symm, rfl⟩
      (Sql.canShift_of_plain hplain)
  · obtain ⟨pre, post, hpre, hpost, henclosed⟩ := Select.exists_enclosing ht hcolumns hname htail
    rw [heq, if_neg hwheres] at h
    obtain ⟨w, hw, hst⟩ := Logged.bind_eq_ok.mp h
    obtain rfl := Except.ok.inj hst
    refine Logged.Answers.congr ?_ ((heq where').trans (if_neg hwheres))
    rw [henclosed, Sql.canShift_enclosed hpre hpost]
    refine (hwhere w hw).bind_ok fun w' hw' ↦ ⟨_, rfl, ?_, hw'.2⟩
    rw [henclosed, Sql.shift_enclosed hpre hpost, hw'.1]

/-- Hand-written SQL moves up as a text, and a caller's own sub-query as it promises. -/
theorem moves_of_renderPlain {v : Value} (hv : v.ShiftsItself) {r : Rendition}
    (h : (renderPlain v k).result = .ok r) : r.Moves b k (renderPlain v (k + b : Nat)) := by
  rw [renderPlain.eq_def] at h ⊢
  split at h
  · rename_i query values comparison
    split at h
    · rename_i hk
      obtain rfl := Except.ok.inj h
      have hcan : Sql.canShift b (Sql.shift k query) = Sql.canShift (k + b : Nat) query :=
        Sql.canShift_shift hk
      refine ⟨plainOperator_comparisonValue _ _ _, ?_⟩
      dsimp only
      split
      · rename_i hsum
        exact .of_ok rfl ⟨(Sql.shift_shift b k query).symm, rfl, rfl⟩ (hcan.trans hsum)
      · rename_i hsum
        exact .of_error rfl fun hb ↦ hsum (hcan.symm.trans hb)
    · simp at h
  · rename_i render
    have hrender : Rendition.ofValue (render k) = .ok r := h
    obtain ⟨first, -, hoperator, hlaw⟩ := hv
    -- both renditions are shifts of the first one, the second by more
    have hk := (hlaw k).1 r hrender
    have hquery : Sql.shift b r.query.inline = Sql.shift (k + b : Nat) first.query.inline := by
      rw [hk.query, Sql.shift_shift]
    have hcan : Sql.canShift b r.query.inline = true ↔
        Sql.canShift (k + b : Nat) first.query.inline = true := by
      rw [hk.query, Sql.canShift_shift ((hlaw k).2.mp ⟨r, hrender⟩)]
    refine ⟨fun c operator h ↦ hoperator c operator (hk.comparison ▸ h), ?_, ?_, ?_⟩
    · intro r' hr'
      have hsum := (hlaw (k + b)).1 r' hr'
      exact ⟨hsum.query.trans hquery.symm, hsum.values.trans hk.values.symm,
        hsum.comparison.trans hk.comparison.symm⟩
    · exact fun hb ↦ (hlaw (k + b)).2.mpr (hcan.mp hb)
    · exact fun _ r' hr' ↦ hcan.mpr ((hlaw (k + b)).2.mp ⟨r', hr'⟩)
  · split at h <;> simp at h

/-! ## Trees -/

/-- A value that is moved up wherever it stands: as a node, under a key and as a sub-query. -/
structure MovesEverywhere (b : Nat) (v : Value) : Prop where
  node : ∀ {t : Table Value} (_ : t.Plain) {isFar top c} {k : Nat} {condition},
    (∀ p ∈ v.nodeLeaves true c, p.ShiftsItself) →
      (ofNode ⟨t, .standard, isFar⟩ top v c k).result = .ok condition →
        condition.Moves b k (ofNode ⟨t, .standard, Sql.isFar b⟩ top v c (k + b : Nat))
  field : ∀ {t : Table Value} (_ : t.Plain) {isFar key c} {k : Nat} {condition},
    (∀ p ∈ v.fieldLeaves true key c, p.ShiftsItself) →
      (ofField ⟨t, .standard, isFar⟩ key v c k).result = .ok condition →
        condition.Moves b k (ofField ⟨t, .standard, Sql.isFar b⟩ key v c (k + b : Nat))
  rows : v.ShiftsItself → (∀ p ∈ v.rowLeaves true, p.ShiftsItself) →
    ∀ {isFar} {k : Nat} {r}, (render isFar v k).result = .ok r →
      r.Moves b k (render (Sql.isFar b) v (k + b : Nat))

section

variable {t : Table Value} {isFar : Bool} {c : Option Comparison}

theorem allMove_of_threaded {α : Type} {compiles : α → Int → Condition → Prop}
    {f : List α → Nat → Logged (List Condition)} {as : List α} {parts : List Condition}
    (h : Threaded compiles as k parts) (hnil : ∀ n, f [] n = .ok [])
    (each : ∀ a ∈ as, ∀ (k : Nat) part, compiles a k part → ∃ x, part.Moves b k x ∧
      ∀ rest, f (a :: rest) (k + b) = (do
        let part' ← x
        let parts' ← f rest (k + b + part'.values.length)
        .ok (part' :: parts'))) : AllMove b k parts (f as (k + b)) := by
  -- the count is handed down as an integer, and is a natural number all along
  generalize hi : (k : Int) = i at h
  induction h generalizing k with
  | nil =>
    rw [hnil]
    exact .nil b k
  | cons head tail ih =>
    subst hi
    rw [List.forall_mem_cons] at each
    obtain ⟨x, hx, hcons⟩ := each.1 k _ head
    rw [hcons]
    exact .cons (fun n ↦ f _ n) hx (ih each.2 rfl)

theorem allMove_nodes {vs : List Value} (ih : ∀ v ∈ vs, MovesEverywhere b v) (ht : t.Plain)
    (hplain : ∀ p ∈ Value.nodesLeaves true vs c, p.ShiftsItself) {parts : List Condition}
    (h : Threaded (fun v i part ↦ (ofNode ⟨t, .standard, isFar⟩ .and v c i).result = .ok part)
      vs k parts) :
    AllMove b k parts (ofNodes ⟨t, .standard, Sql.isFar b⟩ vs c (k + b : Nat)) := by
  rw [Value.nodesLeaves_eq_flatMap] at hplain
  refine allMove_of_threaded (f := fun vs n ↦ ofNodes ⟨t, .standard, Sql.isFar b⟩ vs c n) h
    (fun _ ↦ rfl) fun v hv k part hpart ↦ ⟨_, (ih v hv).node ht ?_ hpart, fun _ ↦ rfl⟩
  exact fun p hp ↦ hplain p (List.mem_flatMap_of_mem hv hp)

theorem allMove_items {key : String} {vs : List Value} (ih : ∀ v ∈ vs, MovesEverywhere b v)
    (ht : t.Plain) (hplain : ∀ p ∈ Value.itemsLeaves true key vs c, p.ShiftsItself)
    {parts : List Condition}
    (h : Threaded (fun v i part ↦ (ofField ⟨t, .standard, isFar⟩ key v c i).result = .ok part)
      vs k parts) :
    AllMove b k parts (ofFieldItems ⟨t, .standard, Sql.isFar b⟩ key vs c (k + b : Nat)) := by
  rw [Value.itemsLeaves_eq_flatMap] at hplain
  refine allMove_of_threaded (f := fun vs n ↦ ofFieldItems ⟨t, .standard, Sql.isFar b⟩ key vs c n) h
    (fun _ ↦ rfl) fun v hv k part hpart ↦ ⟨_, (ih v hv).field ht ?_ hpart, fun _ ↦ rfl⟩
  exact fun p hp ↦ hplain p (List.mem_flatMap_of_mem hv hp)

theorem allMove_entries {es : List (String × Value)} (ih : ∀ e ∈ es, MovesEverywhere b e.2)
    (ht : t.Plain) (hplain : ∀ p ∈ Value.entriesLeaves true es c, p.ShiftsItself)
    {parts : List Condition}
    (h : Threaded (fun e i part ↦ (∃ field, t.field? e.1 = some field) ∧
      (ofField ⟨t, .standard, isFar⟩ e.1 e.2 c i).result = .ok part) es k parts) :
    AllMove b k parts (ofEntries ⟨t, .standard, Sql.isFar b⟩ es c (k + b : Nat)) := by
  rw [Value.entriesLeaves_eq_flatMap] at hplain
  refine allMove_of_threaded (f := fun es n ↦ ofEntries ⟨t, .standard, Sql.isFar b⟩ es c n) h
    (fun _ ↦ rfl) fun e he k part hpart ↦ ⟨_, (ih e he).field ht ?_ hpart.2, fun rest ↦ ?_⟩
  · exact fun p hp ↦ hplain p (List.mem_flatMap_of_mem he hp)
  · obtain ⟨field, hfield⟩ := hpart.1
    have hkey : fieldOf ⟨t, .standard, Sql.isFar b⟩ e.1 = .ok field := fieldOf_of_field? hfield
    rw [ofEntries, hkey]
    rfl

end

theorem rows_moves_of_parts {v : Value} (ih : ∀ w ∈ v.parts, MovesEverywhere b w)
    (hv : v.ShiftsItself) (hplain : ∀ p ∈ v.rowLeaves true, p.ShiftsItself) {isFar : Bool}
    {k : Nat} {r : Rendition} (h : (render isFar v k).result = .ok r) :
    r.Moves b k (render (Sql.isFar b) v (k + b : Nat)) := by
  obtain ⟨id, select, st, rfl, hst, rfl⟩ | ⟨hquery, h⟩ := of_render h
  · rw [render_query, renderSelect_eq]
    have ht : select.table.Plain := hv
    have hmoves : st.Moves b k
        (assemble select true (whereOf (Sql.isFar b) select (k + b : Nat))) := by
      -- the conditions of the sub-query are its parts, numbered from the count it is told
      refine moves_assemble ht hst fun w hw ↦ ?_
      obtain ⟨parts, hparts, rfl⟩ := of_whereOf hw
      have hleaves : ∀ p ∈ Value.nodesLeaves true select.wheres none, p.ShiftsItself := by
        rw [← selectLeaves_eq]
        exact hplain
      have hall := allMove_nodes ih ht hleaves hparts
      rw [Statement.Moves, canShift_statement]
      exact Logged.Answers.bind_ok hall fun parts' hparts' ↦
        ⟨_, rfl, (IsShift.group hparts').statement 0⟩
    exact ⟨plainOperator_comparisonValue _ _ none,
      hmoves.bind_ok fun st' hst' ↦ ⟨_, rfl, hst'.1, hst'.2, rfl⟩⟩
  · rw [render_of_ne_query hquery]
    exact moves_of_renderPlain hv h

theorem shiftsItself_inner {p : Place} (h : p.ShiftsItself) (hignored : p.isIgnored = false) :
    p.inner.ShiftsItself := by
  obtain ⟨key, v, c⟩ := p
  cases v with
  | wrapped => exact (h hignored).1
  | _ => exact h hignored

theorem node_moves_of_parts {v : Value} (ih : ∀ w ∈ v.parts, MovesEverywhere b w)
    {t : Table Value} (ht : t.Plain) {isFar : Bool} {top : Connective} {c : Option Comparison}
    {k : Nat} {condition : Condition} (hplain : ∀ p ∈ v.nodeLeaves true c, p.ShiftsItself)
    (h : (ofNode ⟨t, .standard, isFar⟩ top v c k).result = .ok condition) :
    condition.Moves b k (ofNode ⟨t, .standard, Sql.isFar b⟩ top v c (k + b : Nat)) := by
  cases NodeCase.of_ofNode h with
  | group hitems => exact (allMove_nodes ih ht hplain hitems).group
  | list hitems => exact (allMove_nodes ih ht hplain hitems).group
  | tuple hitems => exact (allMove_nodes ih ht hplain hitems).group
  | @map entries parts hentries =>
    have hes : ∀ e ∈ entries, MovesEverywhere b e.2 := fun e he ↦ ih e.2 (List.mem_map_of_mem he)
    exact (allMove_entries hes ht hplain hentries).fields
  | @wrappedRows inner bind quote own test r htest hright hinner hr =>
    rw [Value.nodeLeaves, if_pos rfl, List.forall_mem_cons] at hplain
    have hv := shiftsItself_inner hplain.1 (isIgnored_none _ _)
    have hrows := (ih inner List.mem_cons_self).rows hv hplain.2 hr
    rw [ofNode, hinner, htest]
    exact moves_rows hright hrows
  | @rows _ test r htest hright hv hr =>
    rw [nodeLeaves_of_isRenderable hv, List.forall_mem_cons] at hplain
    have hinner : (⟨none, v, c⟩ : Place).inner = v := Place.inner_of_isRenderable hv
    have hshifts := shiftsItself_inner hplain.1 (isIgnored_none _ _)
    rw [hinner] at hshifts
    rw [ofNode_eq_ofBare hv, htest]
    exact moves_rows hright (rows_moves_of_parts ih hshifts hplain.2 hr)

theorem field_moves_of_parts {v : Value} (ih : ∀ w ∈ v.parts, MovesEverywhere b w)
    {t : Table Value} (ht : t.Plain) {isFar : Bool} {key : String} {c : Option Comparison}
    {k : Nat} {condition : Condition} (hplain : ∀ p ∈ v.fieldLeaves true key c, p.ShiftsItself)
    (h : (ofField ⟨t, .standard, isFar⟩ key v c k).result = .ok condition) :
    condition.Moves b k (ofField ⟨t, .standard, Sql.isFar b⟩ key v c (k + b : Nat)) := by
  cases FieldCase.of_ofField h with
  | group hitems => exact (allMove_items ih ht hplain hitems).group
  | skipped hfield =>
    have hskipped : FieldCase ⟨t, .standard, Sql.isFar b⟩ key c (k + b : Nat) .unset .skipped :=
      .skipped hfield
    exact .of_ok hskipped.ofField ⟨fun _ ↦ (Sql.shift_of_plain rfl).symm, rfl⟩ rfl
  | @leaf _ field leaf hfield hgroup hmap hunset hleaf hright =>
    have hcase := LeafCase.of_standard hleaf
    rw [Value.fieldLeaves_eq hgroup hunset, List.forall_mem_cons] at hplain
    generalize hp : (⟨some key, v, c⟩ : Place) = p at hplain
    have hrows : p.inner.isRenderable = true → p.isIgnored = false → ∀ r,
        (renderInner isFar v k).result = .ok r →
          r.Moves b k (renderInner (Sql.isFar b) v (k + b : Nat)) := by
      intro _ hignored r hr
      have hshifts := shiftsItself_inner hplain.1 hignored
      have hleaves := hplain.2
      rw [hignored, if_neg Bool.false_ne_true] at hleaves
      have hvalue : p.value = v := by rw [← hp]
      rw [← hvalue, renderInner_eq] at hr ⊢
      -- what renders inside a leaf is the value itself, or what it wraps
      obtain hself | hmem := inner_eq_or_mem_parts p
      · rw [hself, hvalue] at hshifts hleaves hr ⊢
        exact rows_moves_of_parts ih hshifts hleaves hr
      · rw [hvalue] at hmem
        exact (ih p.inner hmem).rows hshifts hleaves hr
    have hctx : (leafContext ⟨t, .standard, isFar⟩ key field v c k).IsAfter k b
        (leafContext ⟨t, .standard, Sql.isFar b⟩ key field v c (k + b : Nat)) :=
      ⟨rfl, rfl, rfl, rfl, rfl⟩
    have hmoves := hcase.moves hctx hp.symm hplain.1 hrows
    rw [ofField_eq_ofLeaf (s := ⟨t, .standard, Sql.isFar b⟩) hfield hgroup hmap hunset]
    exact moves_leaf hmoves (numbers_leftOf ht hfield hcase.onColumn) hright

/-- **Every value is moved up**, wherever it stands. -/
theorem movesEverywhere (b : Nat) (v : Value) : MovesEverywhere b v := by
  induction v using Value.induction_on_parts with
  | step v ih =>
    exact ⟨node_moves_of_parts ih, field_moves_of_parts ih, rows_moves_of_parts ih⟩

end Condition

/-! ## Statements -/

/-- What is compiled over a record type after any number of bound values, with the leaves that it
comes from: a whole tree, or a selection. -/
inductive StatementAfter (t : Table Value) : List Place → (Nat → Logged Statement) → Prop where
  | tree (tree : Value) (o : CompileOptions) :
      StatementAfter t (tree.treeLeaves true o) fun b ↦
        Scope.compile ⟨t, .standard, Sql.isFar b⟩ tree { o with bound := b }
  | select {select : Select Value} (ht : select.table = t) (count isSubquery : Bool) :
      StatementAfter t (Value.selectLeaves true select) fun b ↦
        select.statement count isSubquery b

namespace Select

theorem shift_countOf (b : Nat) (query : String) :
    Sql.shift b (countOf query) = countOf (Sql.shift b query) :=
  Sql.shift_enclosed opens_count closes_count

theorem canShift_countOf (b : Nat) (query : String) :
    Sql.canShift b (countOf query) = Sql.canShift b query :=
  Sql.canShift_enclosed opens_count closes_count

theorem moves_countOf {st : Statement} {x : Logged Statement} (h : st.Moves b k x) :
    Statement.Moves b k ⟨countOf st.text, st.values⟩
      (x >>= fun st' ↦ .ok ⟨countOf st'.text, st'.values⟩) := by
  rw [Statement.Moves, canShift_countOf]
  refine Logged.Answers.bind_ok h fun st' hst' ↦ ⟨_, rfl, ?_, hst'.2⟩
  rw [shift_countOf, hst'.1]

end Select

theorem StatementAfter.moves {t : Table Value} (ht : t.Plain) {places : List Place}
    {run : Nat → Logged Statement} (h : StatementAfter t places run)
    (hplaces : ∀ p ∈ places, p.ShiftsItself) {st : Statement} (hst : (run 0).result = .ok st)
    (b : Nat) : st.Moves b 0 (run b) := by
  cases h with
  | tree tree o =>
    obtain ⟨c, hc, hst⟩ := Logged.bind_eq_ok.mp hst
    obtain rfl := Except.ok.inj hst
    refine Condition.Moves.statement ?_ o.siblings
    rw [Value.treeLeaves] at hplaces
    rw [Scope.condition] at hc ⊢
    cases hkey : o.key with
    | some key =>
      rw [hkey] at hplaces
      simp only [hkey] at hc ⊢
      have hmoves := (Condition.movesEverywhere b tree).field ht hplaces hc
      rwa [Nat.zero_add] at hmoves
    | none =>
      rw [hkey] at hplaces
      simp only [hkey] at hc ⊢
      have hmoves := (Condition.movesEverywhere b tree).node ht hplaces hc
      rwa [Nat.zero_add] at hmoves
  | @select select htable count isSubquery =>
    subst htable
    obtain ⟨plain, hplain, hst⟩ := Logged.bind_eq_ok.mp hst
    obtain rfl := Except.ok.inj hst
    rw [Condition.selectLeaves_eq] at hplaces
    have hmoves : plain.Moves b 0 (Condition.assemble select isSubquery
        (Scope.compile ⟨select.table, .standard, Sql.isFar b⟩ (.list select.wheres)
          { bound := b })) := by
      refine Condition.moves_assemble ht hplain fun w hw ↦ ?_
      obtain ⟨c, hc, hw⟩ := Logged.bind_eq_ok.mp hw
      obtain rfl := Except.ok.inj hw
      have hnode : (Condition.ofNode ⟨select.table, .standard, Sql.isFar 0⟩ .and
        (.list select.wheres) none 0).result = .ok c := hc
      have hmoves := (Condition.movesEverywhere b (.list select.wheres)).node ht hplaces hnode
      rw [Nat.zero_add] at hmoves
      exact hmoves.statement 0
    cases count with
    | true => exact Select.moves_countOf hmoves
    | false => exact hmoves.bind_ok fun st' hst' ↦ ⟨st', rfl, hst'⟩

/-- After a number of bound values that a machine can count to, so many numbers can be written. -/
theorem Sql.reaches_of_lt {n : Nat} (hn : n < 2 ^ 64) (b : Nat) : Sql.Reaches b 0 n := by
  by_cases hb : 2 ^ 64 ≤ b
  · refine .inl ?_
    rw [Sql.isFar, decide_eq_true_iff]
    exact hb
  · refine .inr ?_
    have hpow : 2 ^ 65 ≤ 10 ^ Text.maxDigits :=
      (Nat.pow_le_pow_left (by decide) 65).trans (Nat.pow_le_pow_right (by decide) (by decide))
    rw [Text.canWrite_iff]
    refine lt_of_lt_of_le ?_ hpow
    omega

/-- **Compiling after bound values is compiling at first and shifting.** What a tree or a selection
comes to after `b` values has the same values as at first, and the text of the one at first with
each placeholder moved up, which is what hand-written SQL with that text renders to there. It
compiles there exactly when such SQL renders there, at which a number can be too long to write. -/
theorem StatementAfter.compiles_by_shifting {t : Table Value} (ht : t.Plain) {places : List Place}
    {run : Nat → Logged Statement} (h : StatementAfter t places run)
    (hplaces : ∀ p ∈ places, p.ShiftsItself) {st : Statement} (hst : (run 0).result = .ok st)
    (b id : Nat) :
    (∀ st', (run b).result = .ok st' → st'.text = Sql.shift b st.text ∧ st'.values = st.values) ∧
    (∀ r, (Condition.renderPlain (.rawSql id st.text st.values none) b).result = .ok r →
      ∃ st', (run b).result = .ok st' ∧ st'.rendition = r) ∧
    (st.values.length < 2 ^ 64 → ∀ st', (run b).result = .ok st' →
      (Condition.renderPlain (.rawSql id st.text st.values none) b).result =
        .ok st'.rendition) := by
  have hmoves := h.moves ht hplaces hst b
  have hrendition (st' : Statement)
      (hshift : st'.text = Sql.shift b st.text ∧ st'.values = st.values) :
      st'.rendition = ⟨.text (Sql.shift b st.text), st.values, .null⟩ := by
    rw [Statement.rendition, hshift.1, hshift.2]
    rfl
  refine ⟨hmoves.result, fun r hr ↦ ?_, fun hn st' hst' ↦ ?_⟩
  · rw [Condition.renderPlain] at hr
    by_cases hcan : Sql.canShift b st.text = true
    · rw [if_pos hcan] at hr
      obtain rfl := Except.ok.inj hr
      obtain ⟨st', hst'⟩ := hmoves.succeeds hcan
      exact ⟨st', hst', hrendition st' (hmoves.result st' hst')⟩
    · rw [if_neg hcan] at hr
      simp at hr
  · have hcan := hmoves.needs (Sql.reaches_of_lt hn b) st' hst'
    rw [Condition.renderPlain, if_pos hcan, hrendition st' (hmoves.result st' hst')]
    rfl

/-- A caller's own sub-query for one number, which numbers its placeholder itself. -/
def Value.sevenAfter (b : Int) : Value :=
  if b = 0 || Sql.canNumber b 1 then .rendered ("SELECT " ++ Sql.placeholders b 1) [.int 7] none
  else .null

theorem Value.shiftsItself_seven : (Value.renderable 2 Value.sevenAfter).ShiftsItself := by
  have hopens : Sql.Opens "SELECT " := Sql.opens_of_no_dollar (by decide)
  have hcan (b : Nat) : Sql.canShift b ("SELECT " ++ Sql.placeholders (0 : Nat) 1) = true ↔
      ((b : Int) = 0 || Sql.canNumber b 1) = true := by
    rw [hopens.canShift, Sql.canShift_placeholders b 0 1, Bool.or_eq_true, decide_eq_true_iff,
      Nat.zero_add, Nat.cast_eq_zero]
  have hshift (b : Nat) : Sql.shift b ("SELECT " ++ Sql.placeholders (0 : Nat) 1) =
      "SELECT " ++ Sql.placeholders b 1 := by
    rw [hopens.shift, Sql.shift_placeholders b 0 1, Nat.zero_add]
  refine ⟨⟨.text ("SELECT " ++ Sql.placeholders (0 : Nat) 1), [.int 7], .null⟩, rfl, ?_,
    fun b ↦ ?_⟩
  · exact Condition.plainOperator_comparisonValue _ _ none
  · by_cases hb : ((b : Int) = 0 || Sql.canNumber b 1) = true
    · rw [Value.sevenAfter, if_pos hb]
      refine ⟨fun r' hr' ↦ ?_, fun _ ↦ (hcan b).mpr hb, fun _ ↦ ⟨_, rfl⟩⟩
      obtain rfl := Except.ok.inj hr'
      exact ⟨(hshift b).symm, rfl, rfl⟩
    · rw [Value.sevenAfter, if_neg hb]
      have hnone (r' : Rendition) (hr' : Rendition.ofValue .null = .ok r') : False := nomatch hr'
      exact ⟨fun r' hr' ↦ (hnone r' hr').elim, fun ⟨r', hr'⟩ ↦ (hnone r' hr').elim,
        fun h ↦ absurd ((hcan b).mp h) hb⟩

/-- Hand-written SQL that uses its value twice, a selection with a condition of its own, and the
caller's own sub-query above. -/
def Value.splicedTree : Value :=
  .list [.map [("b", .rawSql 0 "SELECT $1 || $1" [.text "x"] none)],
    .map [("a", .query 1 .letters)], .map [("b", .renderable 2 Value.sevenAfter)]]

/-- The condition that the tree above becomes, with the texts of its leaves. -/
def Condition.splicedTree (raw letters seven : String) : Condition :=
  .group .and [.fields .and [.atom raw [.text "x"]], .fields .and [.atom letters [.text "y"]],
    .fields .and [.atom seven [.int 7]]]

/-- What the tree above compiles to at first. -/
def Statement.splicedTree : Statement where
  text := "\"b\" IN (SELECT $1 || $1) AND " ++
    "\"a\" IN (SELECT \"a\" FROM \"letters\" WHERE \"b\" = $2) AND \"b\" IN (SELECT $3)"
  values := [.text "x", .text "y", .int 7]

/-- What it compiles to after seven bound values. -/
def Statement.splicedTreeAfterSeven : Statement where
  text := "\"b\" IN (SELECT $8 || $8) AND " ++
    "\"a\" IN (SELECT \"a\" FROM \"letters\" WHERE \"b\" = $9) AND \"b\" IN (SELECT $10)"
  values := [.text "x", .text "y", .int 7]

set_option maxRecDepth 1500 in
theorem Scope.compile_splicedTree :
    (Scope.compile ⟨.letters, .standard, Sql.isFar (0 : Nat)⟩ .splicedTree
      { bound := (0 : Nat) }).result = .ok .splicedTree := by
  have hcondition : (Scope.condition ⟨.letters, .standard, Sql.isFar (0 : Nat)⟩ .splicedTree
      { bound := (0 : Nat) }).result = .ok (.splicedTree "\"b\" IN (SELECT $1 || $1)"
        "\"a\" IN (SELECT \"a\" FROM \"letters\" WHERE \"b\" = $2)" "\"b\" IN (SELECT $3)") := rfl
  exact Logged.bind_eq_ok.mpr ⟨_, hcondition, rfl⟩

set_option maxRecDepth 1500 in
theorem Scope.compile_splicedTree_after_seven :
    (Scope.compile ⟨.letters, .standard, Sql.isFar (7 : Nat)⟩ .splicedTree
      { bound := (7 : Nat) }).result = .ok .splicedTreeAfterSeven := by
  have hcondition : (Scope.condition ⟨.letters, .standard, Sql.isFar (7 : Nat)⟩ .splicedTree
      { bound := (7 : Nat) }).result = .ok (.splicedTree "\"b\" IN (SELECT $8 || $8)"
        "\"a\" IN (SELECT \"a\" FROM \"letters\" WHERE \"b\" = $9)" "\"b\" IN (SELECT $10)") := rfl
  exact Logged.bind_eq_ok.mpr ⟨_, hcondition, rfl⟩

/-- The first five letters that meet the condition of the tree above. -/
def Select.spliced : Select Value :=
  { Select.letters with wheres := Value.splicedTree.elements?.getD [], limit := some (.int 5) }

def Statement.fiveLetters (condition : Statement) : Statement where
  text := "SELECT \"a\" FROM \"letters\" WHERE " ++ condition.text ++ " ORDER BY \"a\" ASC LIMIT 5"
  values := condition.values

set_option maxRecDepth 2000 in
theorem Select.statement_spliced :
    (Select.spliced.statement false false (0 : Nat)).result =
      .ok (.fiveLetters .splicedTree) := rfl

set_option maxRecDepth 2000 in
theorem Select.statement_spliced_after_seven :
    (Select.spliced.statement false false (7 : Nat)).result =
      .ok (.fiveLetters .splicedTreeAfterSeven) := rfl

theorem Value.shiftsItself_splicedTree {p : Place} (hp : p ∈ Value.treeLeaves true .splicedTree {}) :
    p.ShiftsItself := by
  have hmem : p ∈ [_, _, _, _] := hp
  simp only [List.mem_cons, List.not_mem_nil, or_false] at hmem
  obtain rfl | rfl | rfl | rfl := hmem
  · exact fun _ ↦ trivial
  · exact fun _ ↦ Table.plain_letters
  · exact fun _ ↦ trivial
  · exact fun _ ↦ Value.shiftsItself_seven

theorem StatementAfter.shifting_splicedTree :
    Table.letters.Plain ∧
    (∀ p ∈ Value.treeLeaves true .splicedTree {}, p.ShiftsItself) ∧
    (Scope.compile ⟨.letters, .standard, Sql.isFar (0 : Nat)⟩ .splicedTree
      { bound := (0 : Nat) }).result = .ok .splicedTree ∧
    Statement.splicedTree.values.length < 2 ^ 64 ∧
    Statement.splicedTreeAfterSeven.text = Sql.shift (7 : Nat) Statement.splicedTree.text ∧
    (Condition.renderPlain (.rawSql 3 Statement.splicedTree.text Statement.splicedTree.values none)
      (7 : Nat)).result = .ok Statement.splicedTreeAfterSeven.rendition ∧
    (Select.spliced.statement false false (0 : Nat)).result = .ok (.fiveLetters .splicedTree) ∧
    (Select.spliced.statement false false (7 : Nat)).result =
      .ok (.fiveLetters .splicedTreeAfterSeven) ∧
    (Statement.fiveLetters .splicedTreeAfterSeven).text =
      Sql.shift (7 : Nat) (Statement.fiveLetters .splicedTree).text ∧
    (Condition.renderPlain (.rawSql 3 (Statement.fiveLetters .splicedTree).text
      Statement.splicedTree.values none) (7 : Nat)).result =
        .ok (Statement.fiveLetters .splicedTreeAfterSeven).rendition := by
  have hplaces : ∀ p ∈ Value.treeLeaves true .splicedTree {}, p.ShiftsItself :=
    fun _ ↦ Value.shiftsItself_splicedTree
  have hlength : Statement.splicedTree.values.length < 2 ^ 64 := by decide
  obtain ⟨hshift, -, hrenders⟩ := StatementAfter.compiles_by_shifting Table.plain_letters
    (.tree .splicedTree {}) hplaces Scope.compile_splicedTree 7 3
  have htable : Select.spliced.table = .letters := rfl
  obtain ⟨hshift', -, hrenders'⟩ := StatementAfter.compiles_by_shifting Table.plain_letters
    (.select htable false false) hplaces Select.statement_spliced 7 3
  exact ⟨Table.plain_letters, hplaces, Scope.compile_splicedTree, hlength,
    (hshift _ Scope.compile_splicedTree_after_seven).1,
    hrenders hlength _ Scope.compile_splicedTree_after_seven, Select.statement_spliced,
    Select.statement_spliced_after_seven, (hshift' _ Select.statement_spliced_after_seven).1,
    hrenders' hlength _ Select.statement_spliced_after_seven⟩

end Rowmap
