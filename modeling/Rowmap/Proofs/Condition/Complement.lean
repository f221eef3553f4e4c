import Rowmap.Proofs.Condition.Explicit
import Rowmap.Proofs.Sql.Tests
import Rowmap.Proofs.Value.Alike

/-!
# Equality and its negation

What a leaf under a key becomes when the default in force there is inequality, against what it
becomes under equality. Null, the markers and plain data each have a form of their own for the
negation: the opposite test for null, or the operator. A list has none. It falls back to membership
under both, and so the two conditions are the same.
-/

namespace Rowmap

/-- Whether a value is null, a marker or plain data. -/
def Value.isElementary : Value → Bool
  | .null | .marker _ => true
  | v => v.isScalar

theorem LeafContext.numbered_of_fits {ctx : LeafContext} {leaf : Leaf}
    (hfits : ctx.isFar = true → Sql.canNumber ctx.bound leaf.values.length = true) :
    ctx.numbered leaf = .ok leaf := by
  rw [LeafContext.numbered]
  cases hfar : ctx.isFar with
  | false => rfl
  | true =>
    rw [hfits hfar]
    rfl

namespace Condition

variable {s : Scope} {key : String} {field : Field} {v : Value} {b : Nat}

theorem ofLeaf_of_compares (field : Field) (key : String) {c : Comparison}
    {operator right : String} {values : List Value}
    (hplain : c.comparesText = false ∧ c.rightOnly = false)
    (hwritten : operator ≠ "" ∧ right ≠ "") :
    ofLeaf field key ⟨some c, operator, right, values, none⟩ =
      .ok (.atom (Sql.quoteIdentifier (field.column key) ++ " " ++ (operator ++ " " ++ right))
        values) := by
  have hcolumn : leftOf field key ⟨some c, operator, right, values, none⟩ =
      Sql.quoteIdentifier (field.column key) := by simp [leftOf, hplain.1]
  rw [ofLeaf, Option.filter_some, hplain.2, if_neg Bool.false_ne_true, hcolumn,
    Sql.words_cons (quoteIdentifier_ne_empty _)]
  simp [hwritten.1, hwritten.2, String.intercalate_cons_cons, String.append_assoc]

theorem ofField_of_resolve (hrules : s.rules = .standard)
    (hfield : s.table.field? key = some field) (hv : v.isLeaf = true) {c : Option Comparison}
    {leaf : Leaf}
    (hleaf : LeafRules.standard.resolve v (leafContext s key field v c b) = .ok leaf) :
    ofField s key v c b = .ofExcept (ofLeaf field key leaf) := by
  rw [ofField_of_isLeaf hv, fieldOf_of_field? hfield, hrules]
  show (LeafRules.standard.resolve v (leafContext s key field v c b) >>= fun leaf ↦
    Logged.ofExcept (ofLeaf field key leaf)) = _
  rw [hleaf]
  rfl

theorem placeholders_one (b : Nat) : Sql.placeholders b 1 = Sql.placeholder (b + 1 : Nat) := by
  simp [Sql.placeholders]

/-- Plain data is bound and compared by the default in force. -/
theorem resolve_standard_of_isScalar (hv : v.isScalar = true) {c : Comparison}
    (hc : c.leftOnly = false) (hfits : s.isFar = true → Sql.canNumber b 1 = true) :
    LeafRules.standard.resolve v (leafContext s key field v (some c) b) =
      .ok (Leaf.bindOne b c v) := by
  have hnull : Leaf.testsNull (some c) v = false := by
    rw [Leaf.testsNull, Value.isNull_of_isScalar hv, Bool.false_and]
  have hmarker (m : Marker) : v ≠ .marker m := by
    rintro rfl
    exact absurd hv Bool.false_ne_true
  have hwrapped (inner : Value) (bind : Bool) (own : Option Comparison) (quote : Bool) :
      v ≠ .wrapped inner bind own quote := by
    rintro rfl
    exact absurd hv Bool.false_ne_true
  have hnumbered : (leafContext s key field v (some c) b).numbered (Leaf.bindOne b c v) =
      .ok (Leaf.bindOne b c v) := LeafContext.numbered_of_fits hfits
  have hleft : (leafContext s key field v (some c) b).comparison.any (·.leftOnly) = false := hc
  rw [LeafRules.resolve_standard_of_scalar hleft hnull hmarker (Value.elements?_of_isScalar hv)
    hwrapped (Value.isRenderable_of_isScalar hv)]
  exact congrArg Logged.ofExcept hnumbered

theorem placeholders_succ (b n : Nat) : Sql.placeholders b (n + 1) =
    ", ".intercalate (((b + 1) :: List.range' (b + 2) n).map fun n : Nat ↦ Sql.placeholder n) := by
  have hnumbers : (b + 1) :: List.range' (b + 2) n = List.range' (b + 1) (n + 1) := rfl
  rw [Sql.placeholders_eq, hnumbers, List.range'_eq_map_range, List.map_map]
  congr 1
  refine List.map_congr_left fun i _ ↦ congrArg Sql.placeholder ?_
  show ((b + i + 1 : Nat) : Int) = ((b + 1 + i : Nat) : Int)
  omega

/-- A list of plain data is compared by membership, whatever single values are compared by. -/
theorem resolve_standard_of_scalars {items : List Value} (hitems : v.elements? = some items)
    (hscalar : ∀ w ∈ items, w.isScalar = true) {c : Comparison}
    (hc : c = .equal ∨ c = .notEqual)
    (hfits : s.isFar = true → Sql.canNumber b items.length = true) :
    LeafRules.standard.resolve v (leafContext s key field v (some c) b) =
      .ok (if items.isEmpty then Leaf.ofEmpty .oneOf
        else Leaf.among .oneOf (Sql.placeholders b items.length) items) := by
  set leaf := if items.isEmpty then Leaf.ofEmpty .oneOf
    else Leaf.among .oneOf (Sql.placeholders b items.length) items with hleaf
  have hleft : (leafContext s key field v (some c) b).comparison.any (·.leftOnly) = false := by
    rcases hc with rfl | rfl <;> rfl
  have hlist : Leaf.listComparison (some c) = .oneOf := by rcases hc with rfl | rfl <;> rfl
  have hrenders : items.any Value.isRenderable = false := by
    rw [List.any_eq_false]
    intro w hw
    rw [Value.isRenderable_of_isScalar (hscalar w hw)]
    exact Bool.false_ne_true
  have hbind : Leaf.bindList b .oneOf items = .ok leaf := by
    rw [Leaf.bindList, hrenders, hleaf]
    cases items <;> rfl
  have hlength : leaf.values.length = items.length := by
    cases items <;> rfl
  have hnumbered : (leafContext s key field v (some c) b).numbered leaf = .ok leaf :=
    LeafContext.numbered_of_fits fun hfar ↦ by
      rw [hlength]
      exact hfits hfar
  rw [LeafRules.resolve_standard_of_elements? hleft hitems]
  show Logged.ofExcept (do
    (leafContext s key field v (some c) b).numbered
      (← Leaf.bindList b (Leaf.listComparison (some c)) items)) = _
  rw [hlist, hbind]
  exact congrArg Logged.ofExcept hnumbered

/-! ## Conditions -/

/-- How a leaf is written that compares its column, and how that is read. -/
def WritesTest (s : Scope) (key : String) (v : Value) (c : Comparison) (b : Nat)
    (values : List Value) (test : Sql.Test) : Prop :=
  ∃ text, ofField s key v (some c) b = .ok (.atom text values) ∧ Sql.test? text = some test

/-- Whether a value becomes tests under equality and under inequality that bind the same values and
of which exactly one selects a row. The values that are bound are not null, and the column is not
either, unless it is tested for that. -/
def Complements (s : Scope) (key : String) (field : Field) (v : Value) (b : Nat) : Prop :=
  ∃ values test test', WritesTest s key v .equal b values test ∧
    WritesTest s key v .notEqual b values test' ∧
    ∀ w : Sql.Row, (∀ i < values.length, (w.parameter (b + 1 + i)).isSome = true) →
      ((w.column (Sql.quoteIdentifier (field.column key))).isSome = true ∨ v = .null ∨
        v = .marker .notNull) →
      (test'.Holds w ↔ ¬test.Holds w)

/-- The test that a list of so many values becomes after so many bound before. -/
def listTest (column : String) (b : Nat) : Nat → Sql.Test
  | 0 => .equal (.truth true) (.truth false)
  | n + 1 => .oneOf (.column column) (List.range' (b + 1) (n + 1))

section

variable (hrules : s.rules = .standard) (hfield : s.table.field? key = some field)

include hrules hfield

theorem writesTest_of_resolve (hv : v.isLeaf = true) {c own : Comparison}
    {operator right : String} {values : List Value}
    (hleaf : LeafRules.standard.resolve v (leafContext s key field v (some c) b) =
      .ok ⟨some own, operator, right, values, none⟩)
    (hplain : own.comparesText = false ∧ own.rightOnly = false)
    (hwritten : operator ≠ "" ∧ right ≠ "") {test : Sql.Test}
    (htest : Sql.test? (Sql.quoteIdentifier (field.column key) ++ " " ++
      (operator ++ " " ++ right)) = some test) :
    WritesTest s key v c b values test := by
  refine ⟨_, ?_, htest⟩
  rw [ofField_of_resolve hrules hfield hv hleaf, ofLeaf_of_compares field key hplain hwritten]
  rfl

theorem writesTest_of_isScalar (hv : v.isScalar = true)
    (hfits : s.isFar = true → Sql.canNumber b 1 = true) {c : Comparison}
    (hc : c = .equal ∨ c = .notEqual) {test : Sql.Test}
    (htest : Sql.test? (Sql.quoteIdentifier (field.column key) ++ " " ++
      (c.label ++ " " ++ Sql.placeholder (b + 1 : Nat))) = some test) :
    WritesTest s key v c b [v] test := by
  have hleaf : v.isLeaf = true := by
    cases v <;> first | rfl | exact absurd hv Bool.false_ne_true
  have hleft : c.leftOnly = false := by rcases hc with rfl | rfl <;> rfl
  have hplain : c.comparesText = false ∧ c.rightOnly = false := by
    rcases hc with rfl | rfl <;> exact ⟨rfl, rfl⟩
  have hlabel : c.label ≠ "" := by rcases hc with rfl | rfl <;> decide
  have hbind : Leaf.bindOne b c v =
      ⟨some c, c.label, Sql.placeholder (b + 1 : Nat), [v], none⟩ := by
    rw [← placeholders_one]
    rcases hc with rfl | rfl <;> rfl
  have hresolve : LeafRules.standard.resolve v (leafContext s key field v (some c) b) = _ :=
    resolve_standard_of_isScalar hv hleft hfits
  rw [hbind] at hresolve
  exact writesTest_of_resolve hrules hfield hleaf hresolve hplain
    ⟨hlabel, by simp [Sql.placeholder]⟩ htest

theorem writesTest_list {items : List Value} (hitems : v.elements? = some items)
    (hscalar : ∀ w ∈ items, w.isScalar = true) {c : Comparison} (hc : c = .equal ∨ c = .notEqual)
    (hfits : s.isFar = true → Sql.canNumber b items.length = true) :
    WritesTest s key v c b items
      (listTest (Sql.quoteIdentifier (field.column key)) b items.length) := by
  have hleaf : v.isLeaf = true := by
    cases v <;> first | rfl | exact nomatch hitems
  have hresolve : LeafRules.standard.resolve v (leafContext s key field v (some c) b) = _ :=
    resolve_standard_of_scalars hitems hscalar hc hfits
  cases items with
  | nil =>
    refine ⟨"true = false", ?_, by rfl⟩
    rw [ofField_of_resolve hrules hfield hleaf hresolve]
    rfl
  | cons item items =>
    refine writesTest_of_resolve hrules hfield hleaf hresolve ⟨rfl, rfl⟩
      ⟨show "IN" ≠ "" from by decide, ?_⟩ ?_
    · show "(" ++ Sql.placeholders b (items.length + 1) ++ ")" ≠ ""
      simp
    · show Sql.test? (_ ++ " " ++ ("IN" ++ " " ++
        ("(" ++ Sql.placeholders b (items.length + 1) ++ ")"))) = _
      rw [placeholders_succ]
      exact Sql.test?_oneOf _ _ _

theorem writesTest_now {c : Comparison} (hc : c = .equal ∨ c = .notEqual) {test : Sql.Test}
    (htest : Sql.test? (Sql.quoteIdentifier (field.column key) ++ " " ++
      (c.label ++ " " ++ "NOW()")) = some test) :
    WritesTest s key (.marker .now) c b [] test := by
  have hlabel : c.label ≠ "" := by rcases hc with rfl | rfl <;> decide
  have hplain : c.comparesText = false ∧ c.rightOnly = false := by
    rcases hc with rfl | rfl <;> exact ⟨rfl, rfl⟩
  have hresolve : LeafRules.standard.resolve (.marker .now)
      (leafContext s key field (.marker .now) (some c) b) =
        .ok ⟨some c, c.label, "NOW()", [], none⟩ := by rcases hc with rfl | rfl <;> rfl
  exact writesTest_of_resolve hrules hfield rfl hresolve hplain
    ⟨hlabel, show "NOW()" ≠ "" from by decide⟩ htest

theorem writesTest_nullTest (hv : v.isLeaf = true) {c own : Comparison} {operator : String}
    (hown : own = .equal ∨ own = .notEqual) {test : Sql.Test}
    (hleaf : LeafRules.standard.resolve v (leafContext s key field v (some c) b) =
      .ok ⟨some own, operator, "NULL", [], none⟩) (hoperator : operator ≠ "")
    (htest : Sql.test? (Sql.quoteIdentifier (field.column key) ++ " " ++
      (operator ++ " " ++ "NULL")) = some test) : WritesTest s key v c b [] test := by
  have hplain : own.comparesText = false ∧ own.rightOnly = false := by
    rcases hown with rfl | rfl <;> exact ⟨rfl, rfl⟩
  exact writesTest_of_resolve hrules hfield hv hleaf hplain
    ⟨hoperator, show "NULL" ≠ "" from by decide⟩ htest

theorem complements_of_isScalar (hv : v.isScalar = true)
    (hfits : s.isFar = true → Sql.canNumber b 1 = true) : Complements s key field v b := by
  refine ⟨[v], _, _,
    writesTest_of_isScalar hrules hfield hv hfits (.inl rfl) (Sql.test?_equal_placeholder _ _),
    writesTest_of_isScalar hrules hfield hv hfits (.inr rfl) (Sql.test?_unequal_placeholder _ _),
    fun w hparameters hcolumn ↦ ?_⟩
  refine Sql.Test.unequal_holds_iff (hcolumn.resolve_right ?_) (hparameters 0 Nat.zero_lt_one)
  rintro (rfl | rfl) <;> exact Bool.false_ne_true hv

theorem complements_null : Complements s key field .null b :=
  ⟨[], _, _,
    writesTest_nullTest hrules hfield rfl (.inl rfl) rfl (show "IS" ≠ "" from by decide)
      (Sql.test?_isNull _),
    writesTest_nullTest hrules hfield rfl (.inr rfl) rfl (show "IS NOT" ≠ "" from by decide)
      (Sql.test?_isNotNull _),
    fun w _ _ ↦ Sql.Test.isNotNull_holds_iff w _⟩

theorem complements_notNull : Complements s key field (.marker .notNull) b :=
  ⟨[], _, _,
    writesTest_nullTest hrules hfield rfl (.inl rfl) rfl (show "IS NOT" ≠ "" from by decide)
      (Sql.test?_isNotNull _),
    writesTest_nullTest hrules hfield rfl (.inr rfl) rfl (show "IS" ≠ "" from by decide)
      (Sql.test?_isNull _),
    fun w _ _ ↦ by rw [Sql.Test.isNotNull_holds_iff, not_not]⟩

theorem complements_now : Complements s key field (.marker .now) b :=
  ⟨[], _, _, writesTest_now hrules hfield (.inl rfl) (Sql.test?_equal_now _),
    writesTest_now hrules hfield (.inr rfl) (Sql.test?_unequal_now _), fun _ _ hcolumn ↦
      Sql.Test.unequal_holds_iff (hcolumn.resolve_right (by simp)) rfl⟩

end

/-- **Inequality as a default complements equality, except for lists.** Null, a marker and plain
data become tests of which exactly one selects a row, under any declared key and after any values
bound before. A list of plain data becomes the same test under both: membership in what it binds, or
the constant falsehood if it is empty. -/
theorem notEqual_complements_equal_unless_list (hrules : s.rules = .standard)
    (hfield : s.table.field? key = some field) (v : Value) (b : Nat) :
    (v.isElementary = true → (s.isFar = true → Sql.canNumber b 1 = true) →
      Complements s key field v b) ∧
    ∀ items, v.elements? = some items → (∀ w ∈ items, w.isScalar = true) →
      (s.isFar = true → Sql.canNumber b items.length = true) →
      ∀ c : Comparison, c = .equal ∨ c = .notEqual → WritesTest s key v c b items
        (listTest (Sql.quoteIdentifier (field.column key)) b items.length) := by
  refine ⟨fun hv hfits ↦ ?_, fun _ hitems hscalar hfits _ hc ↦
    writesTest_list hrules hfield hitems hscalar hc hfits⟩
  cases v with
  | null => exact complements_null hrules hfield
  | marker m =>
    cases m with
    | notNull => exact complements_notNull hrules hfield
    | now => exact complements_now hrules hfield
  | _ => exact complements_of_isScalar hrules hfield hv hfits

/-- A whole number after one bound value, and a list of two. -/
theorem notEqual_complements_equal_unless_list_numbers :
    ∃ field, Table.field? .letters "a" = some field ∧
      Complements ⟨.letters, .standard, false⟩ "a" field (.int 5) 1 ∧
      WritesTest ⟨.letters, .standard, false⟩ "a" (.list [.int 1, .int 2]) .notEqual 0
        [.int 1, .int 2] (.oneOf (.column "\"a\"") [1, 2]) := by
  have hcomplements (v : Value) (b : Nat) :=
    @notEqual_complements_equal_unless_list ⟨.letters, .standard, false⟩ "a" _ rfl rfl v b
  exact ⟨_, rfl, (hcomplements (.int 5) 1).1 rfl nofun,
    (hcomplements (.list [.int 1, .int 2]) 0).2 _ rfl (by decide) nofun .notEqual (.inr rfl)⟩

end Condition

/-- A row whose columns are all one, with parameters that are their own numbers. -/
def Sql.Row.ones : Sql.Row where
  Datum := Bool ⊕ Nat
  column _ := some (.inr 1)
  parameter n := some (.inr n)
  now := .inr 0
  truth := .inl
  equal x y := x == y
  equal_truth := by decide

/-- A list selects the same row under inequality as under equality. -/
theorem Scope.compile_list_notEqual :
    (Scope.compile ⟨.letters, .standard, false⟩ (.map [("a", .list [.int 1, .int 2])])
      { comparison := some .notEqual }).result = .ok ⟨"\"a\" IN ($1, $2)", [.int 1, .int 2]⟩ ∧
    (Scope.compile ⟨.letters, .standard, false⟩ (.map [("a", .list [.int 1, .int 2])])
      { comparison := some .equal }).result = .ok ⟨"\"a\" IN ($1, $2)", [.int 1, .int 2]⟩ ∧
    ∃ test, Sql.test? "\"a\" IN ($1, $2)" = some test ∧ test.Holds .ones :=
  ⟨by rfl, by rfl, .oneOf (.column "\"a\"") [1, 2], by rfl, by rfl⟩

end Rowmap
