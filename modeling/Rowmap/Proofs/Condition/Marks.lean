import Rowmap.Proofs.Condition.Values

/-!
# Marks among bound values

Some values are no data but say how something is written: what was never given, the markers, wrapped
values, groups and whatever renders itself. `carriesMark` tells when one of them is bound, by itself
or as an element of a list.

A mark is bound where a leaf hands one over, and what a leaf hands over is seen from the leaf alone.
A marker that stands alone or in a wrapper binds nothing, and is a test for null or writes its own
text.
-/

namespace Rowmap

/-! ## Marks -/

namespace Value

def isMarker : Value → Bool
  | .marker _ => true
  | _ => false

/-- Whether a value is no data, but says how something is written. -/
def isMark : Value → Bool
  | .unset | .marker _ | .wrapped .. | .group .. => true
  | v => v.isRenderable

/-- Whether a value is a mark, or a list of values with a mark among them. -/
def carriesMark (v : Value) : Bool := v.isMark || (v.elements?.getD []).any isMark

/-- Whether a value hands over a mark where it is compared: a sub-query, with the values that it
brings along; a list that is bound, with its elements; and any other mark that is bound but a
marker, which is written. -/
def handsOverMark (v : Value) (bind asArray : Bool) (b : Int) : Bool :=
  if v.isRenderable then (v.rowValues b).any carriesMark
  else bind &&
    match v.elements? with
    | some items => items.any (if asArray then isMark else carriesMark)
    | none => v.isMark && !v.isMarker

theorem any_boundValues (v : Value) (c : Option Comparison) (bind asArray : Bool) (b : Int) :
    (v.boundValues c bind asArray b).any carriesMark = v.handsOverMark bind asArray b := by
  rw [handsOverMark]
  cases hrenderable : v.isRenderable with
  | true => rw [boundValues.eq_def, hrenderable, if_pos rfl, if_pos rfl]
  | false =>
    rw [if_neg Bool.false_ne_true]
    cases hnull : Leaf.testsNull c v with
    | true =>
      obtain rfl := eq_null_of_testsNull hnull
      rw [boundValues_of_testsNull hnull]
      exact (Bool.and_false _).symm
    | false =>
      by_cases hmarker : ∃ m, v = .marker m
      · obtain ⟨m, rfl⟩ := hmarker
        rw [boundValues_marker]
        exact (Bool.and_false _).symm
      push Not at hmarker
      rw [boundValues_of_plain hrenderable hnull hmarker]
      cases bind with
      | false => rfl
      | true =>
        rw [if_pos rfl, Bool.true_and]
        cases hitems : v.elements? with
        | some items =>
          cases asArray with
          | true => simp [carriesMark, elements?, isMark, isRenderable]
          | false => rfl
        | none =>
          have hnot : v.isMarker = false := by
            cases v <;> first | rfl | exact absurd rfl (hmarker _)
          simp [carriesMark, hitems, hnot]

end Value

namespace Place

/-- Whether a leaf hands over a mark, after so many bound values. -/
def handsOverMark (p : Place) (b : Int) : Bool :=
  !p.isIgnored &&
    match p.value with
    | .wrapped inner bind own _ =>
      inner.handsOverMark bind (!(own <|> p.comparison).any (·.bindsEach)) b
    | v => v.handsOverMark true (p.comparison.any (·.bindsArray)) b

theorem any_ownValues (p : Place) (b : Int) :
    (p.ownValues b).any Value.carriesMark = p.handsOverMark b := by
  rw [ownValues, handsOverMark]
  cases p.isIgnored with
  | true => rfl
  | false =>
    rw [if_neg Bool.false_ne_true, Bool.not_false, Bool.true_and]
    obtain ⟨key, v, c⟩ := p
    cases v <;> exact Value.any_boundValues ..

/-- **Marks among the values of leaves** are those that a leaf hands over. -/
theorem exists_bindFrom_iff (places : List Place) (b : Int) :
    (∃ v ∈ bindFrom places b, v.carriesMark = true) ↔
      ∃ before p after, places = before ++ p :: after ∧
        p.handsOverMark (b + (bindFrom before b).length) = true := by
  constructor
  · induction places generalizing b with
    | nil => exact fun ⟨v, hv, _⟩ ↦ absurd hv List.not_mem_nil
    | cons p places ih =>
      rintro ⟨v, hv, hmark⟩
      obtain hv | hv := List.mem_append.mp hv
      · refine ⟨[], p, places, rfl, ?_⟩
        rw [← any_ownValues]
        simpa [bindFrom] using ⟨v, hv, hmark⟩
      · obtain ⟨before, q, after, rfl, hq⟩ := ih _ ⟨v, hv, hmark⟩
        refine ⟨p :: before, q, after, rfl, ?_⟩
        rwa [bindFrom, List.length_append, Int.natCast_add, ← Int.add_assoc]
  · rintro ⟨before, p, after, rfl, hp⟩
    rw [← any_ownValues, List.any_eq_true] at hp
    obtain ⟨v, hv, hmark⟩ := hp
    refine ⟨v, ?_, hmark⟩
    rw [bindFrom_append]
    exact List.mem_append_right _ (List.mem_append_left _ hv)

end Place

/-! ## Markers in the text -/

/-- A marker as a leaf: a test for null, or its own text. -/
def Leaf.ofMark (c : Option Comparison) : Marker → Leaf
  | .now => ofMarker (c.getD .equal) .now
  | .notNull => if c = some .notEqual then isNullUnequal else isNotNull

theorem Leaf.eq_of_notNullTest {key : String} {c : Option Comparison} {leaf : Leaf}
    (h : notNullTest key c = .ok leaf) : leaf = ofMark c .notNull := by
  obtain ⟨rfl | rfl, rfl⟩ | ⟨rfl, rfl⟩ := of_notNullTest h <;> rfl

namespace Place

/-- Whether a text is what a marker is written as behind its column, where a leaf is one, wrapped or
not, and is not ignored. -/
def WritesMarker (t : Table Value) (p : Place) (text : String) : Prop :=
  ∀ m, p.inner = .marker m → p.isIgnored = false → ∃ key field, p.key = some key ∧
    t.field? key = some field ∧ text = Sql.words [Condition.leftOf field key (.ofMark p.inForce m),
      (Leaf.ofMark p.inForce m).operator, (Leaf.ofMark p.inForce m).right]

end Place

theorem WrappedCase.eq_ofMark {ctx : LeafContext} {own c : Option Comparison} {bind quote : Bool}
    {m : Marker} {leaf : Leaf} (h : WrappedCase ctx own c bind quote (.marker m) leaf)
    (hc : c.any (·.leftOnly) = false) : leaf = .ofMark c m := by
  cases h with
  | ignored hsome htest =>
    rw [hsome] at hc
    exact absurd (hc.symm.trans htest) Bool.false_ne_true
  | subquery _ hinner => cases hinner
  | null _ hnull => cases hnull
  | notNull _ h => exact Leaf.eq_of_notNullTest h
  | now => rfl
  | plain _ _ _ hmarker => exact absurd rfl (hmarker m)

theorem LeafCase.eq_ofMark {ctx : LeafContext} {key : String} {v : Value} {leaf : Leaf}
    {p : Place} (h : LeafCase ctx v leaf) (hp : p = ⟨some key, v, ctx.comparison⟩) {m : Marker}
    (hinner : p.inner = .marker m) (hnot : p.isIgnored = false) : leaf = .ofMark p.inForce m := by
  have hvalue : v = .marker m ∨ ∃ bind own quote, v = .wrapped (.marker m) bind own quote := by
    rw [hp] at hinner
    cases v <;> first
      | exact .inl hinner
      | (obtain rfl := hinner; exact .inr ⟨_, _, _, rfl⟩)
  subst hp
  cases h with
  | ignored hc htest =>
    rw [hc, Place.isIgnored_of_leftOnly htest] at hnot
    exact Bool.noConfusion hnot
  | null _ hnull => obtain rfl | ⟨bind, own, quote, rfl⟩ := hvalue <;> cases hnull
  | notNull _ h =>
    obtain hm | ⟨bind, own, quote, hm⟩ := hvalue
    · cases hm
      exact Leaf.eq_of_notNullTest h
    · cases hm
  | now =>
    obtain hm | ⟨bind, own, quote, hm⟩ := hvalue
    · cases hm
      rfl
    · cases hm
  | items _ hitems => obtain rfl | ⟨bind, own, quote, rfl⟩ := hvalue <;> cases hitems
  | @wrapped inner bind quote own _ hleft h =>
    obtain rfl : inner = .marker m := hinner
    refine h.eq_ofMark ?_
    rwa [Place.isIgnored_wrapped hleft] at hnot
  | subquery _ hrow => obtain rfl | ⟨bind, own, quote, rfl⟩ := hvalue <;> cases hrow
  | scalar _ _ hmarker _ hwrapped =>
    obtain hm | ⟨bind, own, quote, hm⟩ := hvalue
    · exact absurd hm (hmarker m)
    · exact absurd hm (hwrapped _ _ _ _)

theorem Place.WrittenAs.writesMarker {t : Table Value} {isFar : Bool} {p : Place} {text : String}
    (h : p.WrittenAs ⟨t, .standard, isFar⟩ text) : p.WritesMarker t text := by
  intro m hinner hnot
  obtain ⟨key, v, c⟩ := p
  obtain ⟨o, values, hkey, hcomparison, h⟩ := h
  obtain rfl : o.key = key := hkey
  obtain rfl : o.comparison = c := hcomparison
  rw [Scope.condition] at h
  split at h
  next key hkey =>
    cases Condition.FieldCase.of_ofField h with
    | @leaf _ field _ hfield _ _ _ hleaf _ =>
      have hmark := (LeafCase.of_standard hleaf).eq_ofMark rfl hinner
        (by rw [← hnot, hkey]; rfl)
      refine ⟨key, field, hkey, hfield, ?_⟩
      rw [hmark]
      rfl
  next =>
    -- no marker is a test for rows
    cases Condition.NodeCase.of_ofNode h with
    | wrappedRows _ _ hrow _ =>
      obtain rfl := hinner
      cases hrow
    | rows _ _ hrow _ =>
      obtain rfl : v = .marker m := by cases v <;> first | exact hinner | cases hrow
      cases hrow

/-- The leaves of a tree that are markers are tests for null, or write their own text. -/
theorem Scope.atoms_of_condition {t : Table Value} {isFar : Bool} {tree : Value}
    {o : CompileOptions} {c : Condition}
    (h : (Scope.condition ⟨t, .standard, isFar⟩ tree o).result = .ok c) :
    List.Forall₂ (Place.WritesMarker t) (tree.treeLeaves false o) c.atoms := by
  rw [condition] at h
  rw [Value.treeLeaves]
  cases hkey : o.key with
  | some key =>
    rw [hkey] at h
    exact ((Condition.agreesEverywhere _ tree).field h).atoms.imp
      fun _ _ ↦ Place.WrittenAs.writesMarker
  | none =>
    rw [hkey] at h
    exact ((Condition.agreesEverywhere _ tree).node h).atoms.imp
      fun _ _ ↦ Place.WrittenAs.writesMarker

end Rowmap
