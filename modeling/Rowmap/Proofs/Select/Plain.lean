import Rowmap.Proofs.Condition.Cases
import Rowmap.Proofs.Condition.Fragments

/-!
# Selections around their conditions

What a selection writes around its conditions has no placeholders, so its numbers are those of its
conditions: nothing in front of them or behind them adds one.
-/

namespace Rowmap

open Sql

/-! ## Names -/

namespace Table

variable {t : Table Value}

theorem mem_fields_of_field? {key : String} {field : Field} (h : t.field? key = some field) :
    (key, field) ∈ t.fields := by
  rw [field?] at h
  generalize t.fields = fields at h ⊢
  induction fields with
  | nil => simp at h
  | cons e fields ih =>
    obtain ⟨key', field'⟩ := e
    rw [List.lookup_cons] at h
    split at h
    · obtain rfl := Option.some.inj h
      obtain rfl : key = key' := by simpa using ‹(key == key') = true›
      exact List.mem_cons_self
    · exact List.mem_cons_of_mem _ (ih h)

theorem Plain.of_field? (ht : t.Plain) {key : String} {field : Field}
    (h : t.field? key = some field) : numbers key = [] ∧ numbers (field.column key) = [] :=
  ht.fields key field (mem_fields_of_field? h)

theorem Plain.of_column (ht : t.Plain) {key : Value} {column : String}
    (h : t.column key = .ok column) :
    numbers column = [] ∧ numbers (key.asText?.getD "") = [] := by
  rw [Table.column] at h
  split at h
  · rename_i found hfound
    obtain rfl := Except.ok.inj h
    obtain ⟨k, hk, hfield⟩ := Option.bind_eq_some_iff.mp hfound
    obtain ⟨field, hdeclared, rfl⟩ := Option.map_eq_some_iff.mp hfield
    rw [hk]
    exact (ht.of_field? hdeclared).symm
  · simp at h

theorem Plain.of_quoteName (ht : t.Plain) {name : String} (h : quoteName t.name = .ok name) :
    numbers name = [] := by
  obtain ⟨text, htext, rfl⟩ :
      ∃ text, nameOf t.name = .ok text ∧ quoteIdentifier text = name := by
    rw [quoteName] at h
    cases hn : nameOf t.name with
    | error e => simp [hn] at h
    | ok text => exact ⟨text, rfl, by simpa [hn] using h⟩
  rw [numbers_quoteIdentifier]
  rw [nameOf.eq_def] at htext
  split at htext
  · obtain rfl := Except.ok.inj htext
    exact ht.name _ ‹_›
  all_goals simp at htext

end Table

theorem numbers_toString_int (n : Int) : numbers (toString n) = [] := by
  cases n with
  | ofNat n =>
    exact numbers_of_no_dollar (no_dollar_of_digits (text_isDigit_of_mem_toString n))
  | negSucc n =>
    have hdigits := text_isDigit_of_mem_toString (n + 1)
    have hno : '$' ∉ ("-" ++ toString (n + 1)).toList := by
      rw [String.toList_append, List.mem_append, not_or]
      exact ⟨by decide, no_dollar_of_digits hdigits⟩
    exact numbers_of_no_dollar hno

/-! ## Clauses -/

namespace Select

variable {s : Select Value}

theorem numbers_of_namedColumn {t : Table Value} (ht : t.Plain) {key : Value} {text : String}
    (h : namedColumn t key = .ok text) : numbers text = [] := by
  obtain ⟨column, hcolumn, h⟩ := Except.bind_eq_ok.mp h
  obtain rfl := Except.ok.inj h
  obtain ⟨hplain, hname⟩ := ht.of_column hcolumn
  have has : Separates " AS " := .of_toList rfl (by decide) (by decide)
  split
  · rw [numbers_quoteIdentifier, hplain]
  · rw [String.append_assoc, has.numbers_between, numbers_quoteIdentifier,
      numbers_quoteIdentifier, hplain, hname]
    rfl

theorem numbers_of_columnList (ht : s.table.Plain) {columns : String}
    (h : s.columnList = .ok columns) : numbers columns = [] := by
  rw [columnList.eq_def] at h
  split at h
  · obtain rfl := Except.ok.inj h
    exact numbers_of_no_dollar (by decide)
  · obtain ⟨texts, htexts, h⟩ := Except.bind_eq_ok.mp h
    obtain rfl := Except.ok.inj h
    rw [Separates.comma.numbers_intercalate, List.flatMap_eq_nil_iff]
    exact Except.forall_of_mapM htexts fun _ _ _ hkey ↦ numbers_of_namedColumn ht hkey

theorem numbers_of_orderText {t : Table Value} (ht : t.Plain)
    {orders : List (Value × SortDirection)} {text : String} (h : t.orderText orders = .ok text) :
    numbers text = [] := by
  obtain ⟨texts, htexts, h⟩ := Except.bind_eq_ok.mp h
  obtain rfl := Except.ok.inj h
  rw [Separates.comma.numbers_intercalate, List.flatMap_eq_nil_iff]
  refine Except.forall_of_mapM htexts fun order _ text htext ↦ ?_
  obtain ⟨key, direction⟩ := order
  obtain ⟨column, hcolumn, htext⟩ := Except.bind_eq_ok.mp htext
  obtain rfl := Except.ok.inj htext
  have hdirection : numbers direction.memberName = [] := by
    cases direction <;> exact numbers_of_no_dollar (by decide)
  rw [String.append_assoc, Separates.blank.numbers_between, numbers_quoteIdentifier,
    (ht.of_column hcolumn).1, hdirection]
  rfl

theorem numbers_of_tailClauses (ht : s.table.Plain) {isSubquery : Bool} {texts : List String}
    (h : s.tailClauses isSubquery = .ok texts) : ∀ text ∈ texts, numbers text = [] := by
  have hbound {word : String} (hword : Opens word) (n : Int) :
      numbers (word ++ toString n) = [] := by rw [hword, numbers_toString_int n]
  refine forall_mem_tailClauses h (fun text htext ↦ ?_) (hbound (opens_of_no_dollar (by decide)))
    (hbound (opens_of_no_dollar (by decide)))
  have hword : Opens "ORDER BY " := opens_of_no_dollar (by decide)
  rw [hword, numbers_of_orderText ht htext]

/-! ## Statements -/

/-- A separator and texts without numbers behind it close others, also where there is none. -/
theorem exists_closing {texts : List String} (h : ∀ text ∈ texts, numbers text = []) :
    ∃ post, Closes post ∧ ∀ s, " ".intercalate (s :: texts) = s ++ post := by
  cases texts with
  | nil => exact ⟨"", closes_empty, fun s ↦ by simp⟩
  | cons text texts =>
    refine ⟨" " ++ " ".intercalate (text :: texts), Separates.blank.closes_before ?_, fun s ↦ ?_⟩
    · rw [Separates.blank.numbers_intercalate, List.flatMap_eq_nil_iff]
      exact h
    · rw [String.intercalate_cons_cons, String.append_assoc]

theorem numbers_selecting (ht : s.table.Plain) {columns : String}
    (h : s.columnList = .ok columns) : numbers ("SELECT " ++ columns ++ " FROM") = [] := by
  have hopens : Opens "SELECT " := opens_of_no_dollar (by decide)
  have hcloses : Closes " FROM" := closes_of_start (numbers_of_no_dollar (by decide)) (by decide)
  rw [numbers_enclosed hopens hcloses, numbers_of_columnList ht h]

/-- How a selection is put together. -/
theorem exists_of_assemble {isSubquery : Bool} {where_ : Logged Statement} {st : Statement}
    (h : (Condition.assemble s isSubquery where_).result = .ok st) :
    ∃ columns name tail, s.columnList = .ok columns ∧ quoteName s.table.name = .ok name ∧
      s.tailClauses isSubquery = .ok tail ∧
      ((s.wheres = [] ∧
          st = ⟨" ".intercalate (["SELECT " ++ columns ++ " FROM", name] ++ tail), []⟩) ∨
        ∃ w, where_.result = .ok w ∧ st = ⟨" ".intercalate
          (["SELECT " ++ columns ++ " FROM", name, "WHERE"] ++ w.text :: tail), w.values⟩) := by
  obtain ⟨columns, hcolumns, h⟩ := Logged.bind_eq_ok.mp h
  obtain ⟨name, hname, h⟩ := Logged.bind_eq_ok.mp h
  by_cases hwheres : s.wheres.isEmpty = true
  · rw [if_pos hwheres] at h
    obtain ⟨condition, hcondition, h⟩ := Logged.bind_eq_ok.mp h
    obtain rfl := Except.ok.inj hcondition
    obtain ⟨tail, htail, h⟩ := Logged.bind_eq_ok.mp h
    exact ⟨columns, name, tail, hcolumns, hname, htail,
      .inl ⟨List.isEmpty_iff.mp hwheres, (Except.ok.inj h).symm⟩⟩
  · rw [if_neg hwheres] at h
    obtain ⟨condition, hcondition, h⟩ := Logged.bind_eq_ok.mp h
    obtain ⟨w, hw, rfl⟩ := Logged.map_eq_ok.mp hcondition
    obtain ⟨tail, htail, h⟩ := Logged.bind_eq_ok.mp h
    exact ⟨columns, name, tail, hcolumns, hname, htail, .inr ⟨w, hw, (Except.ok.inj h).symm⟩⟩

theorem assemble_eq {columns name : String} {tail : List String} {isSubquery : Bool}
    (hcolumns : s.columnList = .ok columns) (hname : quoteName s.table.name = .ok name)
    (htail : s.tailClauses isSubquery = .ok tail) (where_ : Logged Statement) :
    (Condition.assemble s isSubquery where_).result =
      if s.wheres = [] then
        .ok ⟨" ".intercalate (["SELECT " ++ columns ++ " FROM", name] ++ tail), []⟩
      else (do
        let w ← where_
        .ok ⟨" ".intercalate (["SELECT " ++ columns ++ " FROM", name, "WHERE"] ++
          w.text :: tail), w.values⟩ : Logged Statement).result := by
  by_cases hwheres : s.wheres = []
  · rw [if_pos hwheres]
    refine Logged.bind_eq_ok.mpr ⟨columns, hcolumns, Logged.bind_eq_ok.mpr ⟨name, hname, ?_⟩⟩
    rw [if_pos (List.isEmpty_iff.mpr hwheres)]
    exact Logged.bind_eq_ok.mpr ⟨none, rfl, Logged.bind_eq_ok.mpr ⟨tail, htail, rfl⟩⟩
  · have hempty : ¬s.wheres.isEmpty = true := fun h ↦ hwheres (List.isEmpty_iff.mp h)
    have hmap : (some <$> where_).result = some <$> where_.result := by
      show (where_ >>= fun w ↦ pure (some w)).result = _
      rw [Logged.result_bind]
      cases where_.result <;> rfl
    rw [if_neg hwheres]
    simp only [Condition.assemble, Logged.result_bind, Logged.result_ofExcept, hcolumns, hname,
      htail, if_neg hempty, hmap]
    cases where_.result <;> rfl

theorem numbers_unconditional (ht : s.table.Plain) {columns name : String} {tail : List String}
    {isSubquery : Bool} (hcolumns : s.columnList = .ok columns)
    (hname : quoteName s.table.name = .ok name) (htail : s.tailClauses isSubquery = .ok tail) :
    numbers (" ".intercalate (["SELECT " ++ columns ++ " FROM", name] ++ tail)) = [] := by
  rw [Separates.blank.numbers_intercalate, List.flatMap_eq_nil_iff, List.forall_mem_append]
  exact ⟨by simp [numbers_selecting ht hcolumns, ht.of_quoteName hname],
    numbers_of_tailClauses ht htail⟩

/-- A selection with conditions writes them between texts that add no numbers. -/
theorem exists_enclosing (ht : s.table.Plain) {columns name : String} {tail : List String}
    {isSubquery : Bool} (hcolumns : s.columnList = .ok columns)
    (hname : quoteName s.table.name = .ok name) (htail : s.tailClauses isSubquery = .ok tail) :
    ∃ pre post, Opens pre ∧ Closes post ∧ ∀ text, " ".intercalate
      (["SELECT " ++ columns ++ " FROM", name, "WHERE"] ++ text :: tail) = pre ++ text ++ post := by
  obtain ⟨post, hpost, hclosed⟩ := exists_closing (numbers_of_tailClauses ht htail)
  have hwhere : numbers "WHERE" = [] := numbers_of_no_dollar (by decide)
  refine ⟨" ".intercalate ["SELECT " ++ columns ++ " FROM", name, "WHERE"] ++ " ", post,
    Separates.blank.opens_behind ?_, hpost, fun text ↦ ?_⟩
  · rw [Separates.blank.numbers_intercalate, List.flatMap_eq_nil_iff]
    simp [numbers_selecting ht hcolumns, ht.of_quoteName hname, hwhere]
  -- the clauses behind the conditions close them, also when there are none
  · rw [String.intercalate_append_of_ne_nil (List.cons_ne_nil _ _) (List.cons_ne_nil _ _),
      hclosed, ← String.append_assoc]

/-- **A selection is its conditions between texts that add no numbers.** -/
theorem of_assemble {isSubquery : Bool} {where_ : Logged Statement} {st : Statement}
    (ht : s.table.Plain) (h : (Condition.assemble s isSubquery where_).result = .ok st) :
    (s.wheres = [] ∧ numbers st.text = [] ∧ st.values = []) ∨
      ∃ w pre post, where_.result = .ok w ∧ Opens pre ∧ Closes post ∧
        st = ⟨pre ++ w.text ++ post, w.values⟩ := by
  obtain ⟨columns, name, tail, hcolumns, hname, htail, hst⟩ := exists_of_assemble h
  obtain ⟨hwheres, rfl⟩ | ⟨w, hw, rfl⟩ := hst
  · exact .inl ⟨hwheres, numbers_unconditional ht hcolumns hname htail, rfl⟩
  · obtain ⟨pre, post, hpre, hpost, henclosed⟩ := exists_enclosing ht hcolumns hname htail
    exact .inr ⟨w, pre, post, hw, hpre, hpost, by rw [henclosed]⟩

end Select

end Rowmap
