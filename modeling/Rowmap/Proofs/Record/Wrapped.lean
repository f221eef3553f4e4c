import Rowmap.Proofs.Condition.Explicit
import Rowmap.Proofs.Record.Update

/-!
# Wrapped values, saved and compared

A wrapper says whether its value is bound or becomes a part of the text, and whether as a literal.
Two parts of the library follow what it says: one where the value is compared with a column, the
other where it is assigned to one. They decide on their own and come to the same for plain data,
whatever the wrapper says.

They part over two values. The present moment is a text of its own in a comparison, whatever its
wrapper says, and nothing special in an assignment. And null that is written as it is, no literal,
is the null of a statement in a comparison and a word of the printed form in an assignment.
-/

namespace Rowmap

/-- What stands for a value in a statement: a part of the text, or a bound value. -/
inductive Written where
  | inlined (text : String)
  | bound (v : Value)

namespace Written

/-- The leaf of a comparison with what stands for a value, after so many bound values. -/
def leaf (b : Int) (c : Comparison) : Written → Leaf
  | inlined text => Leaf.compare c text
  | bound v => Leaf.bindOne b c v

/-- How an assignment writes what stands for a value, which is among those that are bound or a part
of the text. -/
def StandsAs (values : List Value) (sql : String) : Written → Prop
  | inlined text => sql = text
  | bound v => ∃ i : Nat, values[i]? = some v ∧ sql = Sql.placeholder (i + 1 : Nat)

theorem StandsAs.append {values : List Value} {sql : String} {w : Written}
    (h : w.StandsAs values sql) (more : List Value) : w.StandsAs (values ++ more) sql := by
  cases w with
  | inlined text => exact h
  | bound v =>
    obtain ⟨i, hi, hsql⟩ := h
    have hlt : i < values.length := (List.getElem?_eq_some_iff.mp hi).1
    exact ⟨i, by rw [List.getElem?_append_left hlt, hi], hsql⟩

end Written

namespace Value

def assignedAs (v : Value) : Except Failure Written :=
  match Record.inlineAssigned? v with
  | some sql => .inlined <$> sql
  | none => .ok (.bound (Record.boundAssigned v))

/-- Whether a value is plain data, or null that is bound or a literal. -/
def isWrittenAlike (inner : Value) (bind quote : Bool) : Bool :=
  inner.isScalar || inner.isNull && (bind || quote)

end Value

/-! ## Comparisons -/

namespace LeafRule

variable {inner : Value} {bind quote : Bool} {own : Option Comparison} {ctx : LeafContext}

theorem resolveWrapped_of_plain (hleft : (own <|> ctx.comparison).any (·.leftOnly) = false)
    (hrenders : inner.isRenderable = false)
    (hnull : Leaf.testsNull (own <|> ctx.comparison) inner = false)
    (hmarker : ∀ m, inner ≠ .marker m) :
    resolveWrapped inner bind own quote ctx = .ofExcept (do
      ctx.numbered
        (← plainWrapped ctx.bound ((own <|> ctx.comparison).getD .equal) inner bind quote)) := by
  rw [resolveWrapped.eq_def]
  dsimp only
  rw [hleft, if_neg Bool.false_ne_true, hrenders, if_neg Bool.false_ne_true, hnull,
    if_neg Bool.false_ne_true]
  split
  · exact absurd rfl (hmarker _)
  · exact absurd rfl (hmarker _)
  · rfl

theorem inlined_of_isWrittenAlike (h : inner.isWrittenAlike false quote = true) :
    Leaf.inlined quote inner = if quote then Sql.literal inner else .ok inner.inline := by
  cases quote with
  | true => cases inner <;> first | rfl | exact absurd h Bool.false_ne_true
  | false => cases inner <;> first | rfl | exact absurd h Bool.false_ne_true

theorem plainWrapped_eq_assignedAs (own : Option Comparison) (b : Int) (c : Comparison)
    (h : inner.isWrittenAlike bind quote = true) :
    plainWrapped b c inner bind quote =
      (do .ok ((← (Value.wrapped inner bind own quote).assignedAs).leaf b c)) := by
  have hitems : inner.elements? = none := by
    cases inner <;> first | rfl | exact absurd h Bool.false_ne_true
  rw [plainWrapped.eq_def, hitems]
  cases bind with
  | true => rfl
  | false =>
    show (do .ok (Leaf.compare c (← Leaf.inlined quote inner))) = (do
      let sql := if quote then Sql.literal inner else .ok inner.inline
      .ok ((← Written.inlined <$> sql).leaf b c))
    rw [inlined_of_isWrittenAlike h]
    cases (if quote then Sql.literal inner else .ok inner.inline : Except Failure String) <;> rfl

end LeafRule

namespace Condition

variable {s : Scope} {key : String} {field : Field} {inner : Value} {bind quote : Bool}
  {own c : Option Comparison} {b : Nat}

theorem ofField_wrapped (hrules : s.rules = .standard) (hfield : s.table.field? key = some field)
    (hleft : c.any (·.leftOnly) = false) :
    ofField s key (.wrapped inner bind own quote) c b =
      (LeafRule.resolveWrapped inner bind own quote
        (leafContext s key field (.wrapped inner bind own quote) c b) >>= fun leaf ↦
          .ofExcept (ofLeaf field key leaf)) := by
  have hresolve := @LeafRules.resolve_standard_wrapped
    (leafContext s key field (.wrapped inner bind own quote) c b) inner bind quote own hleft
  rw [ofField_of_isLeaf rfl, fieldOf_of_field? hfield, hrules]
  show (LeafRules.standard.resolve _ _ >>= fun leaf ↦ Logged.ofExcept (ofLeaf field key leaf)) = _
  rw [hresolve]

/-- **A wrapped value is compared as it is assigned**, if it is plain data, or null that is bound or
a literal and no test for null. -/
theorem ofField_wrapped_of_isWrittenAlike (hrules : s.rules = .standard)
    (hfield : s.table.field? key = some field) (hleft : c.any (·.leftOnly) = false)
    (hforce : (own <|> c).any (·.leftOnly) = false)
    (hnull : Leaf.testsNull (own <|> c) inner = false)
    (h : inner.isWrittenAlike bind quote = true) :
    ofField s key (.wrapped inner bind own quote) c b = .ofExcept (do
      let w ← (Value.wrapped inner bind own quote).assignedAs
      let leaf ← (leafContext s key field (.wrapped inner bind own quote) c b).numbered
        (w.leaf b ((own <|> c).getD .equal))
      ofLeaf field key leaf) := by
  have hrenders : inner.isRenderable = false := by
    cases inner <;> first | rfl | exact absurd h Bool.false_ne_true
  have hmarker (m : Marker) : inner ≠ .marker m := by
    rintro rfl
    exact absurd h Bool.false_ne_true
  rw [ofField_wrapped hrules hfield hleft,
    LeafRule.resolveWrapped_of_plain hforce hrenders hnull hmarker,
    LeafRule.plainWrapped_eq_assignedAs own _ _ h]
  -- each step fails as it does on its own
  cases hassigned : (Value.wrapped inner bind own quote).assignedAs with
  | error e => rfl
  | ok w =>
    show (Logged.ofExcept ((leafContext s key field (.wrapped inner bind own quote) c b).numbered
      (w.leaf b ((own <|> c).getD .equal))) >>= fun leaf ↦ .ofExcept (ofLeaf field key leaf)) =
      .ofExcept ((leafContext s key field (.wrapped inner bind own quote) c b).numbered
        (w.leaf b ((own <|> c).getD .equal)) >>= fun leaf ↦ ofLeaf field key leaf)
    cases (leafContext s key field (.wrapped inner bind own quote) c b).numbered
      (w.leaf b ((own <|> c).getD .equal)) <;> rfl

theorem ofField_wrapped_null (hrules : s.rules = .standard)
    (hfield : s.table.field? key = some field) (hleft : c.any (·.leftOnly) = false)
    (hforce : (own <|> c).any (·.leftOnly) = false)
    (hnull : Leaf.testsNull (own <|> c) .null = false) :
    ofField s key (.wrapped .null false own false) c b =
      .ofExcept (ofLeaf field key (Leaf.compare ((own <|> c).getD .equal) "NULL")) := by
  have hnumbered : (leafContext s key field (.wrapped .null false own false) c b).numbered
      (Leaf.compare ((own <|> c).getD .equal) "NULL") = _ :=
    LeafContext.numbered_of_no_values _ rfl
  rw [ofField_wrapped hrules hfield hleft,
    LeafRule.resolveWrapped_of_plain hforce rfl hnull (by simp)]
  show (Logged.ofExcept ((leafContext s key field _ c b).numbered
    (Leaf.compare ((own <|> c).getD .equal) "NULL")) >>= fun leaf ↦
      .ofExcept (ofLeaf field key leaf)) = _
  rw [hnumbered]
  rfl

/-- The present moment is a text of its own, whatever its wrapper says. -/
theorem ofField_wrapped_now (hrules : s.rules = .standard)
    (hfield : s.table.field? key = some field) (hleft : c.any (·.leftOnly) = false)
    (hforce : (own <|> c).any (·.leftOnly) = false) :
    ofField s key (.wrapped (.marker .now) bind own quote) c b =
      .ofExcept (ofLeaf field key (Leaf.compare ((own <|> c).getD .equal) "NOW()")) := by
  have hresolve : LeafRule.resolveWrapped (.marker .now) bind own quote
      (leafContext s key field (.wrapped (.marker .now) bind own quote) c b) =
        .ok (Leaf.ofMarker ((own <|> c).getD .equal) .now) := by
    rw [LeafRule.resolveWrapped.eq_def]
    dsimp only
    rw [show (leafContext s key field (.wrapped (.marker .now) bind own quote) c b).comparison = c
      from rfl, hforce]
    rfl
  rw [ofField_wrapped hrules hfield hleft, hresolve]
  rfl

end Condition

/-! ## Assignments -/

namespace Record

variable {t : RecordType} {r : Record}

/-- Whether an assignment is of a value to the column of a key. -/
def Assigning (t : RecordType) (values : List Value) (p : Value × Value) (a : Assignment) : Prop :=
  (∃ column, t.table.column p.1 = .ok column ∧ a.column = Sql.quoteIdentifier column) ∧
    ∃ w, p.2.assignedAs = .ok w ∧ w.StandsAs values a.sql

/-- **Assignments write what stands for each value.** -/
theorem assigning_of_assignmentsFrom {bound bound' : List Value} {ps : Pairs}
    {assigned : List Assignment} (h : assignmentsFrom t bound ps = .ok (assigned, bound')) :
    (∃ more, bound' = bound ++ more) ∧ List.Forall₂ (Assigning t bound') ps assigned := by
  induction ps generalizing bound assigned with
  | nil =>
    obtain ⟨rfl, rfl⟩ := Prod.mk.inj (Except.ok.inj h)
    exact ⟨⟨[], (List.append_nil _).symm⟩, .nil⟩
  | cons p ps ih =>
    obtain ⟨key, v⟩ := p
    obtain ⟨column, sql, rest, hcolumn, rfl, ⟨hinline, hrest⟩ | ⟨hinline, rfl, hrest⟩⟩ :=
      of_assignmentsFrom_cons h
    · obtain ⟨hmore, hforall⟩ := ih hrest
      refine ⟨hmore, .cons ⟨⟨column, hcolumn, rfl⟩, .inlined sql, ?_, rfl⟩ hforall⟩
      rw [Value.assignedAs, hinline]
      rfl
    · obtain ⟨⟨more, rfl⟩, hforall⟩ := ih hrest
      have hassigned : v.assignedAs = .ok (.bound (boundAssigned v)) := by
        rw [Value.assignedAs, hinline]
      have hstands : (Written.bound (boundAssigned v)).StandsAs (bound ++ [boundAssigned v])
          (Sql.placeholder (bound ++ [boundAssigned v]).length) :=
        ⟨bound.length, by simp, by rw [List.length_append]; rfl⟩
      exact ⟨⟨boundAssigned v :: more, List.append_assoc ..⟩,
        .cons ⟨⟨column, hcolumn, rfl⟩, _, hassigned, hstands.append more⟩ hforall⟩

/-- Whether a statement saves a record by assigning what stands for each value: it inserts a row, or
updates the one that the record matches. -/
def SavesWritten (r : Record) (skipReload ignoreConflict : Bool) (st : Statement) : Prop :=
  ∃ ps assigned bound,
    r.data { includeDefaults := !r.loaded, includePrivate := true, onlyDirty := true } = .ok ps ∧
    List.Forall₂ (Assigning r.type bound) ps assigned ∧
    ((∃ table where_, st = updateStatement r.type table assigned bound where_ skipReload) ∨
      ∃ table, st = insertStatement r.type table assigned bound skipReload ignoreConflict)

theorem savesWritten_of_saveStatement {skipReload ignoreConflict : Bool} {st : Statement}
    (h : (r.saveStatement skipReload ignoreConflict).result = .ok (some st)) :
    r.SavesWritten skipReload ignoreConflict st := by
  obtain ⟨hloaded, hchange⟩ | ⟨hloaded, hadd⟩ := of_saveStatement h
  · obtain ⟨ps, assigned, bound, key, where_, table, hdata, hassigned, -, -, rfl⟩ :=
      of_changeStatement hchange
    refine ⟨ps, assigned, bound, ?_, (assigning_of_assignmentsFrom hassigned).2,
      .inl ⟨table, where_, rfl⟩⟩
    rw [hloaded]
    exact hdata
  · obtain ⟨ps, assigned, bound, table, hdata, hassigned, rfl⟩ := of_additionStatement hadd
    refine ⟨ps, assigned, bound, ?_, (assigning_of_assignmentsFrom hassigned).2,
      .inr ⟨table, rfl⟩⟩
    rw [hloaded]
    exact hdata

/-- **A wrapped value is saved as it is compared**, unless it is the present moment or null that is
written as it is. Under a declared key, where no comparison in force ignores it, plain data is
compared with just what an assignment writes or binds for it, whatever its wrapper says, and so is
null that is bound or a literal and no test for null. Other null is the null of a statement in a
comparison and a word in an assignment. The present moment is a call in a comparison; an assignment
binds the marker, prints it, or refuses it as a literal. Every record is saved by such assignments,
into a new row or its own. -/
theorem wrapped_saved_as_compared_unless_now_or_null {s : Scope} (hrules : s.rules = .standard)
    {key : String} {field : Field} (hfield : s.table.field? key = some field)
    {own c : Option Comparison} (hleft : c.any (·.leftOnly) = false)
    (hforce : (own <|> c).any (·.leftOnly) = false) (b : Nat) :
    (∀ inner bind quote, inner.isWrittenAlike bind quote = true →
      Leaf.testsNull (own <|> c) inner = false →
      Condition.ofField s key (.wrapped inner bind own quote) c b = .ofExcept (do
        let w ← (Value.wrapped inner bind own quote).assignedAs
        let leaf ← (Condition.leafContext s key field (.wrapped inner bind own quote) c b).numbered
          (w.leaf b ((own <|> c).getD .equal))
        Condition.ofLeaf field key leaf)) ∧
    ((Leaf.testsNull (own <|> c) .null = false →
      Condition.ofField s key (.wrapped .null false own false) c b = .ofExcept
        (Condition.ofLeaf field key ((Written.inlined "NULL").leaf b ((own <|> c).getD .equal)))) ∧
      (Value.wrapped .null false own false).assignedAs = .ok (.inlined "None")) ∧
    (∀ bind quote,
      Condition.ofField s key (.wrapped (.marker .now) bind own quote) c b = .ofExcept
        (Condition.ofLeaf field key
          ((Written.inlined "NOW()").leaf b ((own <|> c).getD .equal))) ∧
      (Value.wrapped (.marker .now) bind own quote).assignedAs =
        if bind then .ok (.bound (.marker .now))
        else if quote then .error .noLiteral else .ok (.inlined "Sentinel.NOW")) ∧
    ∀ (r : Record) (skipReload ignoreConflict : Bool) (st : Statement),
      (r.saveStatement skipReload ignoreConflict).result = .ok (some st) →
        r.SavesWritten skipReload ignoreConflict st := by
  refine ⟨fun inner bind quote h hnull ↦
    Condition.ofField_wrapped_of_isWrittenAlike hrules hfield hleft hforce hnull h,
    ⟨fun hnull ↦ Condition.ofField_wrapped_null hrules hfield hleft hforce hnull, rfl⟩,
    fun bind quote ↦ ⟨Condition.ofField_wrapped_now hrules hfield hleft hforce, ?_⟩,
    fun r _ _ _ ↦ savesWritten_of_saveStatement⟩
  cases bind <;> cases quote <;> rfl

def newLetter (v : Value) : Record where
  type := letter.type
  values := [("b", v)]
  setKeys := ["b"]

theorem wrapped_saved_as_compared_unless_now_or_null_text :
    Condition.ofField ⟨.letters, .standard, false⟩ "b" (.wrapped (.text "x") false none true)
      (some .greater) 3 = .ok (.atom "\"b\" > 'x'" []) ∧
    Condition.ofField ⟨.letters, .standard, false⟩ "b" (.wrapped .null false none false)
      (some .greater) 3 = .ok (.atom "\"b\" > NULL" []) ∧
    (newLetter (.wrapped (.text "x") false none true)).SavesWritten true false
      ⟨"INSERT INTO \"letters\" (\"b\") VALUES ('x')", []⟩ := by
  obtain ⟨halike, hnull, -, hsaves⟩ := @wrapped_saved_as_compared_unless_now_or_null
    ⟨.letters, .standard, false⟩ rfl "b" _ rfl none (some .greater) rfl rfl 3
  exact ⟨halike (.text "x") false true rfl rfl, hnull.1 rfl, hsaves _ _ _ _ (by rfl)⟩

/-- The present moment is compared as a call and saved as a name. -/
theorem saveStatement_wrapped_now :
    ((newLetter (.wrapped (.marker .now) false none false)).saveStatement true false).result =
      .ok (some ⟨"INSERT INTO \"letters\" (\"b\") VALUES (Sentinel.NOW)", []⟩) ∧
    Condition.ofField ⟨.letters, .standard, false⟩ "b" (.wrapped (.marker .now) false none false)
      none 0 = .ok (.atom "\"b\" = NOW()" []) :=
  ⟨by rfl, by rfl⟩

end Record

end Rowmap
