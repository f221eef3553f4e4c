import Rowmap.Proofs.Select.Plain
import Rowmap.Proofs.Value.Equality
import Rowmap.Query.State

/-!
# Selections with equal parts

The text of a selection does not tell equal values apart. Bounds that are equal write the same
clause, whatever kinds of numbers they are, and keys that are equal to the keys of a selection that
renders name the same columns.
-/

namespace Rowmap

open Query

theorem Value.compare?_of_isEqualTo {v w : Value} (h : v.isEqualTo w = .ok true) :
    compare? v w = some true := by
  rw [isEqualTo, answered.eq_def] at h
  split at h
  · rename_i hcompare
    rw [hcompare, Except.ok.inj h]
  · simp at h

namespace Select

theorem valueOption_of_isNull {v : Value} (h : v.isNull = true) : valueOption v = none := if_pos h

theorem valueOption_of_not_isNull {v : Value} (h : v.isNull = false) : valueOption v = some v :=
  if_neg (by rw [h]; exact Bool.false_ne_true)

/-- **Equal bounds** write the same clause, or fail to alike. -/
theorem windowClause_of_isEqualTo {v w : Value} (h : v.isEqualTo w = .ok true) (word : String) :
    windowClause word (valueOption v) = windowClause word (valueOption w) := by
  have hcase := Value.EqualCase.of_compare? (Value.compare?_of_isEqualTo h)
  cases hnull : w.isNull with
  | true =>
    rw [valueOption_of_isNull hnull, valueOption_of_isNull (hcase.isNull_eq.trans hnull)]
  | false =>
    rw [valueOption_of_not_isNull hnull,
      valueOption_of_not_isNull (hcase.isNull_eq.trans hnull), windowClause, windowClause,
      hcase.toWhole_eq]

/-- A bound that a rendered selection has may be read as a value and back. -/
theorem windowClause_optionValue {word : String} {bound : Option Value} {texts : List String}
    (h : windowClause word bound = .ok texts) :
    windowClause word (valueOption (optionValue bound)) = .ok texts := by
  cases bound with
  | none => exact h
  | some v =>
    cases hnull : v.isNull with
    | false => rwa [optionValue, Option.getD_some, valueOption_of_not_isNull hnull]
    | true =>
      cases v <;> first
        | exact absurd hnull Bool.false_ne_true
        | simp [windowClause, Value.toWhole, Value.asText?, bind, Except.bind] at h

/-! ## Columns -/

theorem asText?_of_namedColumn {t : Table Value} {key : Value} {text : String}
    (h : namedColumn t key = .ok text) : ∃ name, key.asText? = some name := by
  obtain ⟨column, hcolumn, -⟩ := Except.bind_eq_ok.mp h
  rw [Table.column] at hcolumn
  cases hkey : key.asText? with
  | some name => exact ⟨name, rfl⟩
  | none => simp [hkey] at hcolumn

theorem namedColumn_congr {t : Table Value} {key key' : Value} {text : String}
    (hkey : key'.asText? = key.asText?) (h : namedColumn t key = .ok text) :
    namedColumn t key' = .ok text := by
  obtain ⟨column, hcolumn, h⟩ := Except.bind_eq_ok.mp h
  have hcolumn' : t.column key' = .ok column := by
    rw [Table.column] at hcolumn ⊢
    rw [hkey]
    split at hcolumn
    · exact hcolumn
    · simp at hcolumn
  rw [namedColumn, hcolumn', hkey]
  exact h

theorem mapM_namedColumn_congr {t : Table Value} {keys keys' : List Value} {texts : List String}
    (hkeys : List.Forall₂ (fun key' key ↦ key'.asText? = key.asText?) keys' keys)
    (h : keys.mapM (namedColumn t) = .ok texts) : keys'.mapM (namedColumn t) = .ok texts := by
  refine Except.mapM_of_forall₂ ?_
  have htexts := Except.forall₂_of_mapM h
  clear h
  induction hkeys generalizing texts with
  | nil =>
    obtain rfl := List.forall₂_nil_left_iff.mp htexts
    exact .nil
  | cons head _ ih =>
    obtain ⟨text, rest, htext, hrest, rfl⟩ := List.forall₂_cons_left_iff.mp htexts
    exact .cons (namedColumn_congr head htext) (ih hrest)

theorem asText?_of_equal_lists {xs ys : List Value}
    (h : Value.compare? (.list xs) (.list ys) = some true) :
    List.Forall₂ (fun x y ↦ x.asText? = y.asText?) xs ys := by
  have hitems : Value.compareItems? xs ys = some true := by
    rw [Value.compare?] at h
    split at h
    · exact h
    · simp at h
  refine (Value.forall₂_of_compareItems? hitems).imp fun x y hxy ↦ ?_
  refine Value.asText?_eq_of_matchesElement ?_
  rw [Value.matchesElement, Bool.or_eq_true]
  exact hxy.imp_right beq_iff_eq.mpr

theorem asText?_of_selectorOf {v key : Value} (h : selectorOf v = .ok (.one key)) :
    ∃ name, key.asText? = some name := by
  rw [selectorOf.eq_def] at h
  split at h
  · simp at h
  · rename_i name _ hname
    obtain rfl := Selector.one.inj (Except.ok.inj h)
    exact ⟨name, hname⟩
  · obtain ⟨keys, -, h⟩ := Except.bind_eq_ok.mp h
    simp at h

theorem exists_asText?_of_mapM {t : Table Value} {key : Value} {texts : List String}
    (h : [key].mapM (namedColumn t) = .ok texts) : ∃ name, key.asText? = some name := by
  obtain ⟨text, rest, htext, -, -⟩ := List.forall₂_cons_left_iff.mp (Except.forall₂_of_mapM h)
  exact asText?_of_namedColumn htext

/-- **Equal keys** name the same columns, where the keys before them did. -/
theorem mapM_returnedKeys_congr {s : Select Value} {v : Value} {returns : Selector Value}
    {texts : List String} (hreturns : selectorOf v = .ok returns)
    (hequal : (returnsValue returns).isEqualTo (returnsValue s.returns) = .ok true)
    (h : s.returnedKeys.mapM (namedColumn s.table) = .ok texts) :
    ({ s with returns } : Select Value).returnedKeys.mapM (namedColumn s.table) = .ok texts := by
  have hcompare := Value.compare?_of_isEqualTo hequal
  have hcase := Value.EqualCase.of_compare? hcompare
  have hnull := hcase.isNull_eq
  have htext := hcase.asText?_eq
  obtain ⟨table, wheres, orderBys, limit, offset, output, old, loaded, rows, streaming⟩ := s
  -- a text, a list and null are never equal, so the two selectors are of one kind
  cases returns with
  | everything =>
    cases old with
    | everything => exact h
    | one key =>
      obtain ⟨name, hname⟩ := exists_asText?_of_mapM h
      exact absurd (htext.trans hname).symm (Option.some_ne_none name)
    | several keys => exact absurd hnull.symm Bool.false_ne_true
  | one key =>
    obtain ⟨name, hname⟩ := asText?_of_selectorOf hreturns
    cases old with
    | everything => exact absurd (hname.symm.trans htext) (Option.some_ne_none name)
    | one other => exact mapM_namedColumn_congr (.cons htext .nil) h
    | several others => exact absurd (hname.symm.trans htext) (Option.some_ne_none name)
  | several keys =>
    cases old with
    | everything => exact absurd hnull Bool.false_ne_true
    | one other =>
      obtain ⟨name, hname⟩ := exists_asText?_of_mapM h
      exact absurd (htext.trans hname).symm (Option.some_ne_none name)
    | several others => exact mapM_namedColumn_congr (asText?_of_equal_lists hcompare) h

theorem columnList_congr {s : Select Value} {v : Value} {returns : Selector Value}
    {columns : String}
    (hreturns : selectorOf v = .ok returns)
    (hequal : (returnsValue returns).isEqualTo (returnsValue s.returns) = .ok true)
    (h : s.columnList = .ok columns) :
    ({ s with returns } : Select Value).columnList = .ok columns := by
  rw [columnList.eq_def] at h ⊢
  dsimp only at h ⊢
  split at h
  · exact h
  · obtain ⟨texts, htexts, h⟩ := Except.bind_eq_ok.mp h
    exact Except.bind_eq_ok.mpr ⟨texts, mapM_returnedKeys_congr hreturns hequal htexts, h⟩

/-! ## Statements -/

theorem windowClause_congr {word : String} {v : Value} {bound : Option Value} {texts : List String}
    (hequal : v.isEqualTo (optionValue bound) = .ok true)
    (h : windowClause word bound = .ok texts) : windowClause word (valueOption v) = .ok texts := by
  rw [windowClause_of_isEqualTo hequal]
  exact windowClause_optionValue h

theorem tailClauses_limit {s : Select Value} {v : Value} {texts : List String}
    (hequal : v.isEqualTo (optionValue s.limit) = .ok true) (h : s.tailClauses false = .ok texts) :
    ({ s with limit := valueOption v } : Select Value).tailClauses false = .ok texts := by
  obtain ⟨order, horder, h⟩ := Except.bind_eq_ok.mp h
  obtain ⟨limit, hlimit, h⟩ := Except.bind_eq_ok.mp h
  exact Except.bind_eq_ok.mpr ⟨order, horder,
    Except.bind_eq_ok.mpr ⟨limit, windowClause_congr hequal hlimit, h⟩⟩

theorem tailClauses_offset {s : Select Value} {v : Value} {texts : List String}
    (hequal : v.isEqualTo (optionValue s.offset) = .ok true) (h : s.tailClauses false = .ok texts) :
    ({ s with offset := valueOption v } : Select Value).tailClauses false = .ok texts := by
  obtain ⟨order, horder, h⟩ := Except.bind_eq_ok.mp h
  obtain ⟨limit, hlimit, h⟩ := Except.bind_eq_ok.mp h
  obtain ⟨offset, hoffset, h⟩ := Except.bind_eq_ok.mp h
  exact Except.bind_eq_ok.mpr ⟨order, horder, Except.bind_eq_ok.mpr ⟨limit, hlimit,
    Except.bind_eq_ok.mpr ⟨offset, windowClause_congr hequal hoffset, h⟩⟩⟩

theorem statement_congr {s s' : Select Value} {count isSubquery : Bool} {bound : Int}
    {st : Statement} (htable : s'.table = s.table) (hwheres : s'.wheres = s.wheres)
    (hcolumns : ∀ columns, s.columnList = .ok columns → s'.columnList = .ok columns)
    (htail : ∀ texts, s.tailClauses isSubquery = .ok texts → s'.tailClauses isSubquery = .ok texts)
    (h : (s.statement count isSubquery bound).result = .ok st) :
    (s'.statement count isSubquery bound).result = .ok st := by
  obtain ⟨statement, hassemble, -⟩ := Logged.bind_eq_ok.mp h
  obtain ⟨columns, name, texts, hcolumns', -, htail', -⟩ := exists_of_assemble hassemble
  have heq : s'.statement count isSubquery bound = s.statement count isSubquery bound := by
    simp only [Select.statement, Condition.assemble, htable, hwheres, hcolumns', htail',
      hcolumns _ hcolumns', htail _ htail']
  rw [heq, h]

end Select

end Rowmap
