import Rowmap.Proofs.Condition.LeafNumbers
import Rowmap.Proofs.Condition.Meaning
import Rowmap.Proofs.Condition.Succeeds

/-!
# Well-formed condition trees

Which trees compile under the standard rules. It can be told from the keys of the maps among the
nodes and from the leaves one by one: what stands at the position of a node has to be a test for
rows, and what stands under a key has to be a value that its comparison can look at.

A comparison without a right-hand side looks at no value, so every value but a map can stand under
it. A sub-query has its own say in what it is compared by, and what it says may depend on how many
values are bound before it; so the leaves are gone through with a running count of these.
-/

namespace Rowmap

namespace Place

/-! ## Comparisons of leaves -/

/-- The comparison that the wrapper of a leaf gives it. -/
def own? (p : Place) : Option Comparison :=
  match p.value with
  | .wrapped _ _ own _ => own
  | _ => none

/-- The comparison in force for a leaf: that of its wrapper, or what it gets from what holds it. -/
def inForce (p : Place) : Option Comparison := p.own? <|> p.comparison

/-- A leaf as a sub-query, after so many bound values. -/
def rendition (p : Place) (b : Int) : Except Failure Rendition :=
  (Condition.render false p.inner b).result

/-- The comparison that the text of a leaf under a key has. A sub-query chooses for itself unless
its wrapper does, and a bare list is only compared as a list. -/
def resolved (p : Place) (b : Int) : Except Failure (Option Comparison) :=
  if p.inner.isRenderable then
    match p.own? with
    | some c => .ok (some c)
    | none => do
      let r ← p.rendition b
      match ← Leaf.ownComparison r.comparison with
      | some own => .ok own.1
      | none => .ok (some .oneOf)
  else if p.value.elements?.isSome then .ok (some (Leaf.listComparison p.comparison))
  else .ok (some (p.inForce.getD .equal))

/-- How many values a leaf binds, after so many others. -/
def span (p : Place) (b : Int) : Nat :=
  if p.isIgnored then 0
  else if p.inner.isRenderable then
    match p.rendition b with
    | .ok r => r.values.length
    | .error _ => 0
  else (p.ownValues b).length

/-! ## Well-formed leaves -/

/-- A leaf that is no wrapper around a part of the text, and that renders if it is a sub-query. -/
structure IsBindable (p : Place) (b : Int) : Prop where
  bound : ∀ inner own quote, p.value ≠ .wrapped inner false own quote
  renders : p.isIgnored = false → p.inner.isRenderable = true →
    (∃ r, p.rendition b = .ok r) ∧ (p.key.isSome = true → ∃ c, p.resolved b = .ok c)

/-- A leaf that its column can be compared with. -/
structure IsComparable (p : Place) (b : Int) : Prop where
  not_map : ∀ entries, p.value ≠ .map entries
  items : p.isIgnored = false → ∀ items, p.inner.elements? = some items →
    ∀ x ∈ items, x.isRenderable = false
  notNull : p.isIgnored = false → p.inner = .marker .notNull →
    p.inForce ∈ [none, some .equal, some .notEqual]
  not_rightOnly : p.isIgnored = false → ∀ c, p.resolved b = .ok (some c) → c.rightOnly = false

/-- A leaf that can stand where it does: a test for rows at the position of a node, a value that can
be compared with under a key. -/
def IsWellFormed (p : Place) (b : Int) : Prop :=
  match p.key with
  | none => p.inner.isRenderable = true ∧ ∃ c, p.inForce = some c ∧ c.rightOnly = true
  | some _ => p.IsComparable b

/-! ## Leaves in a row -/

/-- Whether something holds of each leaf, after the values of those before it. -/
def EachAfter (holds : Place → Int → Prop) : List Place → Int → Prop
  | [], _ => True
  | p :: ps, b => holds p b ∧ EachAfter holds ps (b + p.span b)

/-- How many values leaves bind one after the other. -/
def spans : List Place → Int → Nat
  | [], _ => 0
  | p :: ps, b => p.span b + spans ps (b + p.span b)

theorem spans_append (ps qs : List Place) (b : Int) :
    spans (ps ++ qs) b = spans ps b + spans qs (b + spans ps b) := by
  induction ps generalizing b with
  | nil => simp [spans]
  | cons p ps ih =>
    rw [List.cons_append, spans, ih, spans, Int.natCast_add, Int.add_assoc, Nat.add_assoc]

theorem eachAfter_append {holds : Place → Int → Prop} (ps qs : List Place) (b : Int) :
    EachAfter holds (ps ++ qs) b ↔
      EachAfter holds ps b ∧ EachAfter holds qs (b + spans ps b) := by
  induction ps generalizing b with
  | nil => simp [EachAfter, spans]
  | cons p ps ih =>
    rw [List.cons_append, EachAfter, EachAfter, ih, spans, Int.natCast_add, Int.add_assoc,
      and_assoc]

theorem eachAfter_singleton {holds : Place → Int → Prop} (p : Place) (b : Int) :
    EachAfter holds [p] b ↔ holds p b := by
  rw [EachAfter, EachAfter, and_true]

theorem spans_singleton (p : Place) (b : Int) : spans [p] b = p.span b := rfl

end Place

/-! ## What leaves resolve to -/

namespace Leaf

theorem filter_rightOnly_of_bindsEach {c : Comparison} (h : c.bindsEach = true) :
    (some c).filter (·.rightOnly) = none := by
  cases c <;> first | rfl | exact absurd h Bool.false_ne_true

theorem rightOnly_of_listCase {b : Int} {c : Comparison} {items : List Value} {leaf : Leaf}
    (h : ListCase b c items leaf) :
    leaf.comparison.filter (·.rightOnly) = (some c).filter (·.rightOnly) := by
  cases h with
  | empty heach => rw [filter_rightOnly_of_bindsEach heach]; rfl
  | _ => rfl

end Leaf

namespace Place

variable {p : Place} {b : Int}

theorem resolved_of_splice {r : Rendition} {leaf : Leaf} (hinner : p.inner.isRenderable = true)
    (hr : p.rendition b = .ok r) (h : Leaf.splice p.own? r = .ok leaf) :
    p.resolved b = .ok leaf.comparison := by
  rw [resolved, if_pos hinner]
  obtain ⟨comparison, operator, hleads, rfl⟩ := Leaf.of_splice h
  cases hleads with
  | given hexplicit => rw [hexplicit]
  | amongRows hnone hown =>
    rw [hnone]
    exact Except.bind_eq_ok.mpr ⟨r, hr, Except.bind_eq_ok.mpr ⟨none, hown, rfl⟩⟩
  | own hnone hown =>
    rw [hnone]
    exact Except.bind_eq_ok.mpr ⟨r, hr, Except.bind_eq_ok.mpr ⟨some _, hown, rfl⟩⟩

theorem resolved_of_items {items : List Value} (h : p.value.elements? = some items) :
    p.resolved b = .ok (some (Leaf.listComparison p.comparison)) := by
  have hinner : p.inner.isRenderable = false := by
    rw [inner.eq_def]
    split <;> rename_i hv
    · simp [hv, Value.elements?] at h
    · cases hvalue : p.value <;> first | rfl | simp [hvalue, Value.elements?] at h
  rw [resolved, hinner, if_neg Bool.false_ne_true, h]
  rfl

theorem resolved_of_plain (hinner : p.inner.isRenderable = false)
    (hitems : p.value.elements? = none) : p.resolved b = .ok (some (p.inForce.getD .equal)) := by
  rw [resolved, hinner, if_neg Bool.false_ne_true, hitems]
  rfl

theorem span_of_isIgnored (h : p.isIgnored = true) : p.span b = 0 := by
  rw [span, if_pos h]

theorem span_of_rendition {r : Rendition} (hignored : p.isIgnored = false)
    (hinner : p.inner.isRenderable = true) (hr : p.rendition b = .ok r) :
    p.span b = r.values.length := by
  rw [span, hignored, if_neg Bool.false_ne_true, if_pos hinner, hr]

theorem span_of_plain (hignored : p.isIgnored = false) (hinner : p.inner.isRenderable = false) :
    p.span b = (p.ownValues b).length := by
  rw [span, hignored, hinner, if_neg Bool.false_ne_true, if_neg Bool.false_ne_true]

end Place

namespace Leaf

theorem mem_of_testsNull {c : Option Comparison} {v : Value} (h : testsNull c v = true) :
    c ∈ [none, some .equal, some .notEqual] := by
  simp only [testsNull, Bool.and_eq_true, Bool.or_eq_true, decide_eq_true_eq] at h
  simpa [or_assoc] using h.2

theorem rightOnly_nullTest {c : Option Comparison} (h : c ∈ [none, some .equal, some .notEqual]) :
    (nullTest c).comparison.filter (·.rightOnly) =
      (some (c.getD .equal)).filter (·.rightOnly) := by
  simp only [List.mem_cons, List.not_mem_nil, or_false] at h
  obtain rfl | rfl | rfl := h <;> rfl

theorem notNullTest_eq_ok {key : String} {c : Option Comparison} {leaf : Leaf}
    (h : notNullTest key c = .ok leaf) :
    c ∈ [none, some .equal, some .notEqual] ∧ leaf.values = [] ∧
      leaf.comparison.filter (·.rightOnly) = (some (c.getD .equal)).filter (·.rightOnly) := by
  obtain ⟨rfl | rfl, rfl⟩ | ⟨rfl, rfl⟩ := of_notNullTest h
  · exact ⟨by simp, rfl, rfl⟩
  · exact ⟨by simp, rfl, rfl⟩
  · exact ⟨by simp, rfl, rfl⟩

theorem exists_notNullTest (key : String) {c : Option Comparison}
    (h : c ∈ [none, some .equal, some .notEqual]) : ∃ leaf, notNullTest key c = .ok leaf := by
  simp only [List.mem_cons, List.not_mem_nil, or_false] at h
  obtain rfl | rfl | rfl := h
  · exact ⟨_, rfl⟩
  · exact ⟨_, rfl⟩
  · exact ⟨_, rfl⟩

theorem items_of_bindList {b : Int} {c : Comparison} {items : List Value} {leaf : Leaf}
    (h : bindList b c items = .ok leaf) : ∀ x ∈ items, x.isRenderable = false := by
  rw [bindList] at h
  split at h
  · simp at h
  · rename_i hany
    simpa using hany

theorem exists_bindList (b : Int) (c : Comparison) {items : List Value}
    (h : ∀ x ∈ items, x.isRenderable = false) : ∃ leaf, bindList b c items = .ok leaf := by
  have hany : ¬items.any Value.isRenderable = true := by simpa using h
  rw [bindList, if_neg hany]
  split
  · exact ⟨_, rfl⟩
  split
  · exact ⟨_, rfl⟩
  split
  · exact ⟨_, rfl⟩
  · exact ⟨_, rfl⟩

/-- A sub-query that renders can be written. -/
theorem exists_splice {p : Place} {b : Int} (hb : p.IsBindable b) (hkey : p.key.isSome = true)
    (hignored : p.isIgnored = false) (hinner : p.inner.isRenderable = true) :
    ∃ r leaf, p.rendition b = .ok r ∧ splice p.own? r = .ok leaf := by
  obtain ⟨⟨r, hr⟩, hresolved⟩ := hb.renders hignored hinner
  obtain ⟨c, hc⟩ := hresolved hkey
  refine ⟨r, ?_⟩
  rw [splice.eq_def]
  cases hown : p.own? with
  | some c => exact ⟨_, hr, rfl⟩
  | none =>
    rw [Place.resolved, if_pos hinner, hown, hr] at hc
    obtain ⟨_, hr', hc⟩ := Except.bind_eq_ok.mp hc
    obtain rfl := Except.ok.inj hr'
    obtain ⟨own, hcomparison, -⟩ := Except.bind_eq_ok.mp hc
    rw [hcomparison]
    cases own <;> exact ⟨_, hr, rfl⟩

end Leaf

/-! ## Leaves under a key -/

/-- What the rules are told of a leaf, as its place tells it. -/
structure Place.IsSeen (p : Place) (ctx : LeafContext) (v : Value) : Prop where
  eq : p = ⟨some ctx.key, v, ctx.comparison⟩
  render : ∀ b, (ctx.render b).result = p.rendition b

namespace Place.IsSeen

variable {p : Place} {ctx : LeafContext} {v : Value}

theorem comparison (h : p.IsSeen ctx v) : p.comparison = ctx.comparison := by rw [h.eq]

theorem value (h : p.IsSeen ctx v) : p.value = v := by rw [h.eq]

/-- A bare value is ignored if the comparison from around it has no right-hand side. -/
theorem of_bare (h : p.IsSeen ctx v)
    (hv : ∀ inner bind own quote, v ≠ .wrapped inner bind own quote) :
    p.isIgnored = ctx.comparison.any (·.leftOnly) ∧ p.inner = v ∧ p.own? = none ∧
      p.inForce = ctx.comparison := by
  obtain ⟨rfl, -⟩ := h
  have hinner : Place.inner ⟨some ctx.key, v, ctx.comparison⟩ = v := Place.inner_of_not_wrapped hv
  have hown : Place.own? ⟨some ctx.key, v, ctx.comparison⟩ = none := by
    rw [Place.own?]
    split
    · exact absurd ‹_› (hv _ _ _ _)
    · rfl
  refine ⟨?_, hinner, hown, by rw [Place.inForce, hown]; rfl⟩
  rw [Place.isIgnored]
  split
  · exact absurd ‹_› (hv _ _ _ _)
  · simp

theorem of_wrapped {inner : Value} {bind quote : Bool} {own : Option Comparison}
    (h : p.IsSeen ctx (.wrapped inner bind own quote))
    (hleft : ctx.comparison.any (·.leftOnly) = false) :
    p.isIgnored = (own <|> ctx.comparison).any (·.leftOnly) ∧ p.inner = inner ∧ p.own? = own ∧
      p.inForce = (own <|> ctx.comparison) := by
  obtain ⟨rfl, -⟩ := h
  exact ⟨Place.isIgnored_wrapped hleft, rfl, rfl, rfl⟩

end Place.IsSeen

/-- A leaf that is what its place says: it binds as many values, and is compared as the place
resolves to, with a value that can be compared so. -/
structure Leaf.Suits (leaf : Leaf) (p : Place) (b : Int) : Prop where
  values : leaf.values.length = p.span b
  ignored : p.isIgnored = true → leaf.comparison.filter (·.rightOnly) = none
  resolved : p.isIgnored = false → ∃ c, p.resolved b = .ok c ∧
    leaf.comparison.filter (·.rightOnly) = c.filter (·.rightOnly)
  items : p.isIgnored = false → ∀ items, p.inner.elements? = some items →
    ∀ x ∈ items, x.isRenderable = false
  notNull : p.isIgnored = false → p.inner = .marker .notNull →
    p.inForce ∈ [none, some .equal, some .notEqual]

namespace Leaf

variable {leaf : Leaf} {p : Place} {b : Int}

theorem suits_leftOnly {test : Comparison} (hignored : p.isIgnored = true)
    (htest : test.leftOnly = true) : (leftOnly test).Suits p b where
  values := (Place.span_of_isIgnored hignored).symm
  ignored _ := by cases test <;> first | rfl | exact absurd htest Bool.false_ne_true
  resolved h := absurd (h.symm.trans hignored) Bool.false_ne_true
  items h := absurd (h.symm.trans hignored) Bool.false_ne_true
  notNull h := absurd (h.symm.trans hignored) Bool.false_ne_true

/-- A sub-query is no list and no marker. -/
theorem suits_of_splice {r : Rendition} (hignored : p.isIgnored = false)
    (hinner : p.inner.isRenderable = true) (hr : p.rendition b = .ok r)
    (h : splice p.own? r = .ok leaf) : leaf.Suits p b where
  values := by rw [values_of_splice h, Place.span_of_rendition hignored hinner hr]
  ignored hyes := absurd (hignored.symm.trans hyes) Bool.false_ne_true
  resolved _ := ⟨_, Place.resolved_of_splice hinner hr h, rfl⟩
  items _ items hitems := by
    cases hv : p.inner <;> rw [hv] at hinner hitems <;>
      first | exact absurd hinner Bool.false_ne_true | simp [Value.elements?] at hitems
  notNull _ hv := by
    rw [hv] at hinner
    exact absurd hinner Bool.false_ne_true

end Leaf

/-- A leaf that looks at a value under a comparison, and is no bare list. -/
structure Place.LooksAt (p : Place) (v : Value) (c : Option Comparison) (asArray : Bool) :
    Prop where
  ignored : p.isIgnored = false
  inner : p.inner = v
  inForce : p.inForce = c
  value : p.value.elements? = none
  ownValues : ∀ b, p.ownValues b = v.boundValues c true asArray b

namespace Leaf

variable {leaf : Leaf} {p : Place} {b : Int} {v : Value} {c : Option Comparison} {asArray : Bool}

/-- What is neither a sub-query nor a bare list has the comparison in force. -/
theorem suits_of_looksAt (hp : p.LooksAt v c asArray) (hv : v.isRenderable = false)
    (hvalues : leaf.values = v.boundValues c true asArray b)
    (hright : leaf.comparison.filter (·.rightOnly) =
      (some (c.getD .equal)).filter (·.rightOnly))
    (hitems : ∀ items, v.elements? = some items → ∀ x ∈ items, x.isRenderable = false)
    (hnotNull : v = .marker .notNull → c ∈ [none, some .equal, some .notEqual]) :
    leaf.Suits p b where
  values := by rw [hvalues, Place.span_of_plain hp.ignored (by rw [hp.inner, hv]), hp.ownValues]
  ignored hyes := absurd (hp.ignored.symm.trans hyes) Bool.false_ne_true
  resolved _ := by
    refine ⟨_, Place.resolved_of_plain (by rw [hp.inner, hv]) hp.value, ?_⟩
    rw [hp.inForce, hright]
  items _ := by rwa [hp.inner]
  notNull _ := by rwa [hp.inner, hp.inForce]

theorem suits_nullTest (hp : p.LooksAt v c asArray) (hnull : testsNull c v = true) :
    (nullTest c).Suits p b := by
  obtain rfl := Value.eq_null_of_testsNull hnull
  refine suits_of_looksAt hp rfl ?_ (rightOnly_nullTest (mem_of_testsNull hnull))
    (fun items h ↦ by simp [Value.elements?] at h) (fun h ↦ by simp at h)
  rw [Value.boundValues_of_testsNull hnull, nullTest]
  split <;> rfl

theorem suits_of_notNullTest {key : String} (hp : p.LooksAt (.marker .notNull) c asArray)
    (h : notNullTest key c = .ok leaf) : leaf.Suits p b := by
  obtain ⟨hmem, hnone, hright⟩ := notNullTest_eq_ok h
  refine suits_of_looksAt hp rfl ?_ hright (fun items h ↦ by simp [Value.elements?] at h)
    (fun _ ↦ hmem)
  rw [hnone, Value.boundValues_marker]

theorem suits_now (hp : p.LooksAt (.marker .now) c asArray) :
    (ofMarker (c.getD .equal) .now).Suits p b := by
  refine suits_of_looksAt hp rfl ?_ rfl (fun items h ↦ by simp [Value.elements?] at h)
    (fun h ↦ by simp at h)
  rw [Value.boundValues_marker]
  rfl

/-- Any other value but a list is bound. -/
theorem suits_bindOne (hp : p.LooksAt v c asArray) (hv : v.isRenderable = false)
    (hnull : testsNull c v = false) (hmarker : ∀ m, v ≠ .marker m) (hitems : v.elements? = none) :
    (bindOne b (c.getD .equal) v).Suits p b := by
  refine suits_of_looksAt hp hv ?_ rfl (fun items h ↦ ?_) (fun h ↦ absurd h (hmarker _))
  · rw [Value.boundValues_of_plain hv hnull hmarker, hitems]
    rfl
  · rw [hitems] at h
    exact absurd h.symm (Option.some_ne_none _)

theorem suits_of_bindList {items : List Value} (hitems : v.elements? = some items)
    (hp : p.LooksAt v c (!c.any (·.bindsEach)))
    (h : bindList b (c.getD .equal) items = .ok leaf) : leaf.Suits p b := by
  have hlist := ListCase.of_bindList h
  have heach : (c.getD .equal).bindsEach = c.any (·.bindsEach) := by cases c <;> rfl
  refine suits_of_looksAt hp ?_ ?_ (rightOnly_of_listCase hlist) (fun items' h' ↦ ?_)
    (fun hv ↦ ?_)
  · cases v <;> first | rfl | simp [Value.elements?] at hitems
  · rw [Value.boundValues_of_elements? hitems, values_of_listCase hlist, heach]
    cases c.any (·.bindsEach) <;> rfl
  · obtain rfl := Option.some.inj (hitems.symm.trans h')
    exact items_of_bindList h
  · rw [hv] at hitems
    simp [Value.elements?] at hitems

end Leaf

section

variable {ctx : LeafContext} {p : Place} {v : Value} {leaf : Leaf}

theorem Place.IsSeen.looksAt (hp : p.IsSeen ctx v)
    (hleft : ctx.comparison.any (·.leftOnly) = false)
    (hv : ∀ inner bind own quote, v ≠ .wrapped inner bind own quote)
    (hitems : v.elements? = none) :
    p.LooksAt v ctx.comparison (ctx.comparison.any (·.bindsArray)) := by
  obtain ⟨hignored, hinner, hown, hforce⟩ := hp.of_bare hv
  refine ⟨hignored.trans hleft, hinner, hforce, by rw [hp.value, hitems], ?_⟩
  rw [hp.eq]
  exact Place.ownValues_of_not_wrapped hleft hv

theorem Place.IsSeen.looksInside {inner : Value} {quote : Bool} {own : Option Comparison}
    (hp : p.IsSeen ctx (.wrapped inner true own quote))
    (hleft : ctx.comparison.any (·.leftOnly) = false)
    (hnot : (own <|> ctx.comparison).any (·.leftOnly) = false) :
    p.LooksAt inner (own <|> ctx.comparison)
      (!(own <|> ctx.comparison).any (·.bindsEach)) := by
  obtain ⟨hignored, hinner, hown, hforce⟩ := hp.of_wrapped hleft
  rw [hnot] at hignored
  refine ⟨hignored, hinner, hforce, by rw [hp.value]; rfl, fun b ↦ ?_⟩
  rw [Place.ownValues, hignored, if_neg Bool.false_ne_true, hp.eq]

theorem WrappedCase.suits {inner : Value} {quote : Bool} {own : Option Comparison}
    (h : WrappedCase ctx own (own <|> ctx.comparison) true quote inner leaf)
    (hp : p.IsSeen ctx (.wrapped inner true own quote))
    (hleft : ctx.comparison.any (·.leftOnly) = false) : leaf.Suits p ctx.bound := by
  obtain ⟨hignored, hinner, hown, -⟩ := hp.of_wrapped hleft
  cases h with
  | ignored hc htest =>
    exact Leaf.suits_leftOnly (by rw [hignored, hc]; exact htest) htest
  | subquery hnot hrow hr h =>
    exact Leaf.suits_of_splice (hignored.trans hnot) (by rwa [hinner])
      ((hp.render _).symm.trans hr) (by rwa [hown])
  | null hnot hnull => exact Leaf.suits_nullTest (hp.looksInside hleft hnot) hnull
  | notNull hnot h => exact Leaf.suits_of_notNullTest (hp.looksInside hleft hnot) h
  | now hnot => exact Leaf.suits_now (hp.looksInside hleft hnot)
  | plain hnot hrow hnull hmarker h =>
    rw [LeafRule.plainWrapped.eq_def] at h
    cases hitems : inner.elements? with
    | some items =>
      rw [hitems] at h
      exact Leaf.suits_of_bindList hitems (hp.looksInside hleft hnot) h
    | none =>
      rw [hitems] at h
      obtain rfl := Except.ok.inj h
      exact Leaf.suits_bindOne (hp.looksInside hleft hnot) hrow hnull hmarker hitems

theorem LeafCase.suits_of_items {items : List Value} (hp : p.IsSeen ctx v)
    (hleft : ctx.comparison.any (·.leftOnly) = false) (hitems : v.elements? = some items)
    (h : Leaf.bindList ctx.bound (Leaf.listComparison ctx.comparison) items = .ok leaf) :
    leaf.Suits p ctx.bound := by
  have hv := Value.ne_wrapped_of_elements? hitems
  have hrow := Value.isRenderable_of_elements? hitems
  have hlist := ListCase.of_bindList h
  obtain ⟨hignored, hinner, -, -⟩ := hp.of_bare hv
  have hnot : p.isIgnored = false := hignored.trans hleft
  constructor
  · have hown : p.ownValues ctx.bound = v.boundValues ctx.comparison true
        (ctx.comparison.any (·.bindsArray)) ctx.bound := by
      rw [hp.eq]
      exact Place.ownValues_of_not_wrapped hleft hv _
    rw [Place.span_of_plain hnot (by rw [hinner, hrow]), hown,
      Value.boundValues_of_elements? hitems, Leaf.values_of_listCase hlist,
      Leaf.bindsEach_listComparison]
    cases ctx.comparison.any (·.bindsArray) <;> rfl
  · exact fun hyes ↦ absurd (hnot.symm.trans hyes) Bool.false_ne_true
  · intro _
    refine ⟨_, Place.resolved_of_items (by rw [hp.value, hitems]), ?_⟩
    rw [hp.comparison, Leaf.rightOnly_of_listCase hlist]
  · intro _ items' hitems'
    rw [hinner, hitems] at hitems'
    obtain rfl := Option.some.inj hitems'
    exact Leaf.items_of_bindList h
  · intro _ hvalue
    rw [hinner] at hvalue
    rw [hvalue] at hitems
    simp [Value.elements?] at hitems

/-- **A leaf is what its place says.** -/
theorem LeafCase.suits (h : LeafCase ctx v leaf) (hp : p.IsSeen ctx v)
    (hbound : ∀ inner own quote, v ≠ .wrapped inner false own quote) :
    leaf.Suits p ctx.bound := by
  cases h with
  | @ignored _ test hc htest =>
    refine Leaf.suits_leftOnly ?_ htest
    rw [hp.eq, hc]
    exact Place.isIgnored_of_leftOnly htest
  | null hleft hnull =>
    obtain rfl := Value.eq_null_of_testsNull hnull
    exact Leaf.suits_nullTest (hp.looksAt hleft (by simp) rfl) hnull
  | notNull hleft h => exact Leaf.suits_of_notNullTest (hp.looksAt hleft (by simp) rfl) h
  | now hleft => exact Leaf.suits_now (hp.looksAt hleft (by simp) rfl)
  | items hleft hitems h => exact LeafCase.suits_of_items hp hleft hitems h
  | @wrapped inner bind quote own _ hleft h =>
    cases bind with
    | false => exact absurd rfl (hbound _ _ _)
    | true => exact h.suits hp hleft
  | subquery hleft hv hr h =>
    obtain ⟨hignored, hinner, hown, -⟩ := hp.of_bare (Value.ne_wrapped_of_isRenderable hv)
    exact Leaf.suits_of_splice (hignored.trans hleft) (by rwa [hinner])
      ((hp.render _).symm.trans hr) (by rwa [hown])
  | scalar hleft hnull hmarker hitems hwrapped hv =>
    exact Leaf.suits_bindOne (hp.looksAt hleft hwrapped hitems) hv hnull hmarker hitems

theorem Place.IsComparable.exists_notNullTest {b : Int} (h : p.IsComparable b)
    (hignored : p.isIgnored = false) (hinner : p.inner = .marker .notNull) (key : String) :
    ∃ leaf, Leaf.notNullTest key p.inForce = .ok leaf :=
  Leaf.exists_notNullTest key (h.notNull hignored hinner)

theorem WrappedCase.exists_of_isComparable {inner : Value} {quote : Bool}
    {own : Option Comparison} (hp : p.IsSeen ctx (.wrapped inner true own quote))
    (hleft : ctx.comparison.any (·.leftOnly) = false) (hb : p.IsBindable ctx.bound)
    (h : p.IsComparable ctx.bound) :
    ∃ leaf, WrappedCase ctx own (own <|> ctx.comparison) true quote inner leaf := by
  obtain ⟨hignored, hinner, hown, hforce⟩ := hp.of_wrapped hleft
  cases hnot : (own <|> ctx.comparison).any (·.leftOnly) with
  | true =>
    obtain ⟨test, hc, htest⟩ := Option.eq_some_of_any hnot
    exact ⟨_, .ignored hc htest⟩
  | false =>
    rw [hnot] at hignored
    cases hrow : inner.isRenderable with
    | true =>
      obtain ⟨r, leaf, hr, hleaf⟩ :=
        Leaf.exists_splice hb (by rw [hp.eq]; rfl) hignored (by rwa [hinner])
      rw [hown] at hleaf
      exact ⟨leaf, .subquery hnot hrow ((hp.render _).trans hr) hleaf⟩
    | false =>
      cases hnull : Leaf.testsNull (own <|> ctx.comparison) inner with
      | true => exact ⟨_, .null hnot hnull⟩
      | false =>
        by_cases hmarker : ∀ m, inner ≠ .marker m
        · cases hitems : inner.elements? with
          | some items =>
            obtain ⟨leaf, hleaf⟩ := Leaf.exists_bindList ctx.bound
              ((own <|> ctx.comparison).getD .equal) (h.items hignored items (by rwa [hinner]))
            exact ⟨leaf, .plain hnot hrow hnull hmarker
              (by rwa [LeafRule.plainWrapped.eq_def, hitems])⟩
          | none =>
            exact ⟨_, .plain hnot hrow hnull hmarker (by rw [LeafRule.plainWrapped.eq_def, hitems])⟩
        · push Not at hmarker
          obtain ⟨m, rfl⟩ := hmarker
          cases m with
          | notNull =>
            obtain ⟨leaf, hleaf⟩ := h.exists_notNullTest hignored hinner ctx.key
            exact ⟨leaf, .notNull hnot (hforce ▸ hleaf)⟩
          | now => exact ⟨_, .now hnot⟩

theorem LeafCase.exists_of_isComparable (hp : p.IsSeen ctx v) (hb : p.IsBindable ctx.bound)
    (h : p.IsComparable ctx.bound) : ∃ leaf, LeafCase ctx v leaf := by
  cases hleft : ctx.comparison.any (·.leftOnly) with
  | true =>
    obtain ⟨test, hc, htest⟩ := Option.eq_some_of_any hleft
    exact ⟨_, .ignored hc htest⟩
  | false =>
    by_cases hwrapped : ∃ inner bind own quote, v = .wrapped inner bind own quote
    · obtain ⟨inner, bind, own, quote, rfl⟩ := hwrapped
      cases bind with
      | false => exact absurd hp.value (hb.bound _ _ _)
      | true =>
        obtain ⟨leaf, hleaf⟩ := WrappedCase.exists_of_isComparable hp hleft hb h
        exact ⟨leaf, .wrapped hleft hleaf⟩
    push Not at hwrapped
    obtain ⟨hignored, hinner, hown, hforce⟩ := hp.of_bare hwrapped
    rw [hleft] at hignored
    cases hnull : Leaf.testsNull ctx.comparison v with
    | true => exact ⟨_, .null hleft hnull⟩
    | false =>
      cases hrow : v.isRenderable with
      | true =>
        obtain ⟨r, leaf, hr, hleaf⟩ :=
          Leaf.exists_splice hb (by rw [hp.eq]; rfl) hignored (by rwa [hinner])
        rw [hown] at hleaf
        exact ⟨leaf, .subquery hleft hrow ((hp.render _).trans hr) hleaf⟩
      | false =>
        by_cases hmarker : ∀ m, v ≠ .marker m
        · cases hitems : v.elements? with
          | some items =>
            obtain ⟨leaf, hleaf⟩ := Leaf.exists_bindList ctx.bound
              (Leaf.listComparison ctx.comparison) (h.items hignored items (by rwa [hinner]))
            exact ⟨leaf, .items hleft hitems hleaf⟩
          | none => exact ⟨_, .scalar hleft hnull hmarker hitems hwrapped hrow⟩
        · push Not at hmarker
          obtain ⟨m, rfl⟩ := hmarker
          cases m with
          | notNull =>
            obtain ⟨leaf, hleaf⟩ := h.exists_notNullTest hignored hinner ctx.key
            exact ⟨leaf, .notNull hleft (hforce ▸ hleaf)⟩
          | now => exact ⟨_, .now hleft⟩

theorem Place.isSeen_leafContext (t : Table Value) (key : String) (field : Field) (v : Value)
    (c : Option Comparison) (b : Int) : (⟨some key, v, c⟩ : Place).IsSeen
      (Condition.leafContext ⟨t, .standard, false⟩ key field v c b) v := by
  refine ⟨rfl, fun b ↦ ?_⟩
  cases v <;> rfl

theorem Place.exists_leaf_iff {t : Table Value} {key : String} {field : Field}
    {c : Option Comparison} {b : Int} (hmap : ∀ entries, v ≠ .map entries)
    (hb : (⟨some key, v, c⟩ : Place).IsBindable b) :
    (∃ leaf, LeafCase (Condition.leafContext ⟨t, .standard, false⟩ key field v c b) v leaf ∧
      leaf.comparison.filter (·.rightOnly) = none) ↔
    (⟨some key, v, c⟩ : Place).IsComparable b := by
  have hp := Place.isSeen_leafContext t key field v c b
  constructor
  · rintro ⟨leaf, hleaf, hright⟩
    have hsuits := hleaf.suits hp hb.bound
    refine ⟨hmap, hsuits.items, hsuits.notNull, fun hignored c hc ↦ ?_⟩
    obtain ⟨c', hc', hfilter⟩ := hsuits.resolved hignored
    obtain rfl := Except.ok.inj (hc'.symm.trans hc)
    rw [hright] at hfilter
    simpa using hfilter.symm
  · intro h
    obtain ⟨leaf, hleaf⟩ := LeafCase.exists_of_isComparable hp hb h
    have hsuits := hleaf.suits hp hb.bound
    refine ⟨leaf, hleaf, ?_⟩
    cases hignored : (⟨some key, v, c⟩ : Place).isIgnored with
    | true => exact hsuits.ignored hignored
    | false =>
      obtain ⟨c', hc', hfilter⟩ := hsuits.resolved hignored
      rw [hfilter]
      cases c' with
      | none => rfl
      | some c' => simpa using h.not_rightOnly hignored c' hc'

end

end Rowmap
