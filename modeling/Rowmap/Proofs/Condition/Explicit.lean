import Rowmap.Proofs.Condition.Defaults

/-!
# Explicit comparisons

A wrapped value with a comparison of its own, and a sub-query, choose what they are compared by. No
default of a group or of the call changes what they become, with one exception under a key: a
default without a right-hand side ignores the value before anything is asked of it.

At the position of a node only a wrapper is asked. A bare sub-query there is a test for rows by the
default, or none, whatever comparison it renders with.
-/

namespace Rowmap

/-- Whether a value under a key chooses its comparison, as a wrapper that has one does and as a
sub-query does, bare or wrapped. -/
def Value.choosesComparison : Value → Bool
  | .wrapped inner _ own _ => own.isSome || inner.isRenderable
  | v => v.isRenderable

/-- A leaf that stays as it is, under another default if it has an explicit comparison. -/
def LeafRelation.explicit : LeafRelation where
  node v c w d := v = w ∧ (c = d ∨ v.isBare = true ∧ (⟨none, v, c⟩ : Place).own?.isSome = true)
  field v c w d := v = w ∧ (c = d ∨ v.choosesComparison = true ∧
    c.any (·.leftOnly) = false ∧ d.any (·.leftOnly) = false)

/-! ## Leaves -/

theorem LeafRules.resolve_standard_of_choosesComparison {v : Value} {ctx : LeafContext}
    {d : Option Comparison} (hv : v.choosesComparison = true)
    (hleft : ctx.comparison.any (·.leftOnly) = false) (hd : d.any (·.leftOnly) = false) :
    standard.resolve v ctx = standard.resolve v { ctx with comparison := d } := by
  rw [Value.choosesComparison.eq_def] at hv
  split at hv
  · rename_i inner bind own quote
    rw [resolve_standard_wrapped hleft, resolve_standard_wrapped hd]
    cases own with
    | none => exact resolveWrapped_of_isRenderable_under (by simpa using hv) hleft hd
    | some test => rfl
  · rw [resolve_standard_of_isRenderable hleft hv, resolve_standard_of_isRenderable hd hv]
    rfl

theorem Value.isLeaf_of_choosesComparison {v : Value} (hv : v.choosesComparison = true) :
    v.isLeaf = true := by
  cases v <;> first | rfl | cases hv

theorem LeafRelation.keeps_explicit {s : Scope} (hrules : s.rules = .standard) :
    explicit.Keeps s where
  node := by
    rintro v c _ d ⟨rfl, rfl | ⟨hbare, hown⟩⟩ top b
    · rfl
    · exact Condition.ofNode_of_own hbare hown d
  field := by
    rintro v c _ d ⟨rfl, rfl | ⟨hv, hleft, hd⟩⟩ key b
    · rfl
    · have hleaf := Value.isLeaf_of_choosesComparison hv
      refine Condition.ofField_congr hleaf hleaf fun field ↦ ?_
      rw [hrules]
      exact LeafRules.resolve_standard_of_choosesComparison hv hleft hd

namespace Condition

theorem ofLeaf_leftOnly (field : Field) (key : String) {test : Comparison}
    (hleft : test.leftOnly = true) : ofLeaf field key (Leaf.leftOnly test) =
      .ok (.atom (Sql.quoteIdentifier (field.column key) ++ " " ++ test.label) []) := by
  -- neither of the two is a test for rows or compares texts
  have hright : (Leaf.leftOnly test).comparison.filter (·.rightOnly) = none := by
    cases test <;> first | exact absurd hleft Bool.false_ne_true | rfl
  have htext : test.comparesText = false := by
    cases test <;> first | exact absurd hleft Bool.false_ne_true | rfl
  have hlabel : test.label.isEmpty = false := by
    cases test <;> first | exact absurd hleft Bool.false_ne_true | decide
  have hcolumn : leftOf field key (Leaf.leftOnly test) =
      Sql.quoteIdentifier (field.column key) := by
    simp [leftOf, Leaf.leftOnly, htext]
  rw [ofLeaf, hright, hcolumn, Sql.words_cons (quoteIdentifier_ne_empty _)]
  simp [Leaf.leftOnly, hlabel, String.append_assoc]

variable {s : Scope}

/-- Under a default without a right-hand side a leaf is that on its column, whatever the value. -/
theorem ofField_of_leftOnly (hrules : s.rules = .standard) {key : String} {field : Field}
    (hfield : s.table.field? key = some field) {v : Value} (hv : v.isLeaf = true)
    {test : Comparison} (hleft : test.leftOnly = true) (b : Int) :
    ofField s key v (some test) b =
      .ok (.atom (Sql.quoteIdentifier (field.column key) ++ " " ++ test.label) []) := by
  rw [ofField_of_isLeaf hv, fieldOf_of_field? hfield, hrules]
  show (LeafRules.standard.resolve v (leafContext s key field v (some test) b) >>= fun leaf ↦
    Logged.ofExcept (ofLeaf field key leaf)) = _
  rw [LeafRules.resolve_standard_of_leftOnly rfl hleft]
  show Logged.ofExcept (ofLeaf field key (Leaf.leftOnly test)) = _
  rw [ofLeaf_leftOnly field key hleft]
  rfl

theorem ofNode_of_isRenderable {v : Value} (hv : v.isRenderable = true) (top : Connective)
    (c : Option Comparison) (b : Int) : ofNode s top v c b =
      match c.filter (·.rightOnly) with
      | some test => do
        let r ← render s.isFar v b
        .ok (.atom (test.label ++ " (" ++ r.query.inline ++ ")") r.values)
      | none => .fail (bareValue v) := by
  rw [ofNode_eq_ofBare hv]
  cases c with
  | none => rfl
  | some test =>
    rw [ofBare, Bool.and_true, Option.filter_some]
    cases test.rightOnly <;> rfl

end Condition

/-- **An explicit comparison wins over every default that has a right-hand side.** Trees that differ
in defaults alone compile alike, if each leaf that gets another default has an explicit comparison
and neither default ignores it. The exceptions are these: under a key a default without a right-hand
side is written instead of any value, and a bare sub-query at the position of a node is tested by
the default alone. -/
theorem Scope.explicit_comparison_wins_unless_ignored {s : Scope} (hrules : s.rules = .standard) :
    (∀ (tree tree' : Value) (o : CompileOptions) (d : Option Comparison),
      tree.TreeRecast .explicit o tree' d →
        s.compile tree o = s.compile tree' { o with comparison := d }) ∧
    (∀ (key : String) (field : Field) (v : Value) (test : Comparison) (b : Int),
      s.table.field? key = some field → v.isLeaf = true → test.leftOnly = true →
        Condition.ofField s key v (some test) b =
          .ok (.atom (Sql.quoteIdentifier (field.column key) ++ " " ++ test.label) [])) ∧
    ∀ (top : Connective) (v : Value) (c : Option Comparison) (b : Int), v.isRenderable = true →
      Condition.ofNode s top v c b =
        match c.filter (·.rightOnly) with
        | some test => do
          let r ← Condition.render s.isFar v b
          .ok (.atom (test.label ++ " (" ++ r.query.inline ++ ")") r.values)
        | none => .fail (Condition.bareValue v) :=
  ⟨fun _ _ _ _ h ↦ (LeafRelation.keeps_explicit hrules).compile_eq h,
    fun _ _ _ _ b hfield hv hleft ↦ Condition.ofField_of_leftOnly hrules hfield hv hleft b,
    fun top _ c b hv ↦ Condition.ofNode_of_isRenderable hv top c b⟩

/-- A disjunction with a default, of explicit comparisons and of a value that gets its default from
a nearer group. -/
def Value.outspokenTree (own : Option Comparison) : Value :=
  .group 0 .any [
    .map [("a", .wrapped (.int 5) true (some .greater) false),
      ("b", .group 1 .all [.text "x", .rawSql 2 "SELECT 'y'" [] (some .notEqual)] (some .less))],
    .wrapped (.rawSql 3 "SELECT 1" [] none) false (some .hasRow) false] own

theorem Scope.explicit_comparison_wins_unless_ignored_outspokenTree :
    Scope.compile ⟨.letters, .standard, false⟩ (.outspokenTree (some .like)) {} =
      Scope.compile ⟨.letters, .standard, false⟩ (.outspokenTree none)
        { comparison := some .hasNoRow } ∧
    Condition.ofField ⟨.letters, .standard, false⟩ "a"
        (.wrapped (.int 5) true (some .greater) false) (some .unknown) 0 =
      .ok (.atom "\"a\" IS UNKNOWN" []) ∧
    (Condition.ofNode ⟨.letters, .standard, false⟩ .and
        (.rawSql 3 "SELECT 1" [] (some .hasRow)) (some .hasNoRow) 0).result =
      .ok (.atom "NOT EXISTS (SELECT 1)" []) := by
  have hwins := @Scope.explicit_comparison_wins_unless_ignored ⟨.letters, .standard, false⟩ rfl
  have hrecast : (Value.outspokenTree (some .like)).TreeRecast .explicit {}
      (.outspokenTree none) (some .hasNoRow) :=
    .group (.cons (.map (.cons (.leaf ⟨rfl, .inr ⟨rfl, rfl, rfl⟩⟩)
      (.cons (.group (.cons (.leaf ⟨rfl, .inl rfl⟩)
        (.cons (.leaf ⟨rfl, .inl rfl⟩) .nil))) .nil)))
      (.cons (.leaf ⟨rfl, .inr ⟨rfl, rfl⟩⟩) .nil))
  refine ⟨hwins.1 _ _ _ _ hrecast, hwins.2.1 "a" _ _ .unknown 0 rfl rfl rfl, ?_⟩
  rw [hwins.2.2 .and (.rawSql 3 "SELECT 1" [] (some .hasRow)) (some .hasNoRow) 0 rfl]
  rfl

/-- A default without a right-hand side changes what an explicit comparison becomes. -/
theorem Scope.compile_explicit_under_unknown :
    (Scope.compile ⟨.letters, .standard, false⟩ (.map [("a",
        .group 0 .any [.wrapped (.int 5) true (some .greater) false] (some .unknown))])).result =
      .ok ⟨"\"a\" IS UNKNOWN", []⟩ ∧
    (Scope.compile ⟨.letters, .standard, false⟩ (.map [("a",
        .group 0 .any [.wrapped (.int 5) true (some .greater) false] none)])).result =
      .ok ⟨"\"a\" > $1", [.int 5]⟩ :=
  ⟨by rfl, by rfl⟩

end Rowmap
