import Rowmap.Proofs.Query.Agreement

/-!
# What a refused setter leaves behind

A setter that is given something it cannot take fails, and the query should be as it was. So it is
wherever a setter reads its argument and makes its checks before it changes anything. Orders are the
exception: each spec is put behind the orders of the query as soon as it is read, and the query is
made stale after the last one. A bad spec in the list leaves the orders of the specs before it
behind, on a query whose rows still count as loaded.
-/

namespace Rowmap

namespace Query

open Change

variable {q q' : Query}

def withOrders (q : Query) (orders : List (Value × SortDirection)) : Query :=
  { q with select := { q.select with orderBys := q.select.orderBys ++ orders } }

@[simp] theorem withOrders_nil (q : Query) : q.withOrders [] = q := by simp [withOrders]

theorem withOrders_withOrders (q : Query) (orders more : List (Value × SortDirection)) :
    (q.withOrders orders).withOrders more = q.withOrders (orders ++ more) := by
  simp [withOrders]

theorem withOrders_eq_self {orders : List (Value × SortDirection)} :
    q.withOrders orders = q ↔ orders = [] := by
  refine ⟨fun h ↦ ?_, fun h ↦ by rw [h, withOrders_nil]⟩
  have horders : q.select.orderBys ++ orders = q.select.orderBys :=
    congrArg (fun q : Query ↦ q.select.orderBys) h
  exact List.append_right_eq_self.mp horders

/-! ## Orders -/

theorem addOrder_of_ok {v : Value} {order : Value × SortDirection}
    (h : OrderBy.ofValue v = .ok order) (q : Query) :
    addOrder v q = (.ok (), q.withOrders [order]) := by
  rw [addOrder, h]
  rfl

theorem addOrder_of_error {v : Value} {e : Failure} (h : OrderBy.ofValue v = .error e)
    (q : Query) : addOrder v q = (.error e, q) := by
  rw [addOrder, h]
  rfl

/-- Specs that all give an order are taken over, and then come those behind them. -/
theorem forM_addOrder_append {good : List Value} {orders : List (Value × SortDirection)}
    (h : good.mapM OrderBy.ofValue = .ok orders) (more : List Value) (q : Query) :
    (good ++ more).forM addOrder q = more.forM addOrder (q.withOrders orders) := by
  have hall := Except.forall₂_of_mapM h
  clear h
  induction hall generalizing q with
  | nil => rw [List.nil_append, withOrders_nil]
  | @cons v order vs orders hv _ ih =>
    have hfirst := bind_of_ok (fun _ ↦ (vs ++ more).forM addOrder) (addOrder_of_ok hv q)
    exact hfirst.trans ((ih _).trans (by rw [withOrders_withOrders, List.singleton_append]))

theorem orderBy_of_mapM {specs : List Value} {orders : List (Value × SortDirection)}
    (h : specs.mapM OrderBy.ofValue = .ok orders) (q : Query) :
    orderBy specs q = (.ok (), (q.withOrders orders).withLoaded false) := by
  have hspecs : specs.forM addOrder q = (.ok (), q.withOrders orders) := by
    simpa using forM_addOrder_append h [] q
  exact bind_of_ok _ hspecs

/-- A bad spec ends the call, with the orders of those before it taken over. -/
theorem orderBy_of_bad {good rest : List Value} {bad : Value} {e : Failure}
    {orders : List (Value × SortDirection)} (hgood : good.mapM OrderBy.ofValue = .ok orders)
    (hbad : OrderBy.ofValue bad = .error e) (q : Query) :
    orderBy (good ++ bad :: rest) q = (.error e, q.withOrders orders) := by
  have hspecs : (good ++ bad :: rest).forM addOrder q = (.error e, q.withOrders orders) := by
    rw [forM_addOrder_append hgood]
    exact bind_of_error _ (addOrder_of_error hbad _)
  exact bind_of_error _ hspecs

/-- Either all specs give an order, or one of them gives none and those before it all do. -/
theorem specs_cases (specs : List Value) :
    (∃ orders, specs.mapM OrderBy.ofValue = .ok orders) ∨
      ∃ good bad rest orders e, specs = good ++ bad :: rest ∧
        good.mapM OrderBy.ofValue = .ok orders ∧ OrderBy.ofValue bad = .error e := by
  induction specs with
  | nil => exact .inl ⟨[], rfl⟩
  | cons v vs ih =>
    cases hv : OrderBy.ofValue v with
    | error e => exact .inr ⟨[], v, vs, [], e, rfl, rfl, hv⟩
    | ok order =>
      have hcons {us : List Value} {orders : List (Value × SortDirection)}
          (hus : us.mapM OrderBy.ofValue = .ok orders) :
          (v :: us).mapM OrderBy.ofValue = .ok (order :: orders) := by
        rw [List.mapM_cons, hv, hus]
        rfl
      obtain ⟨orders, hall⟩ | ⟨good, bad, rest, orders, e, rfl, hgood, hbad⟩ := ih
      · exact .inl ⟨_, hcons hall⟩
      · exact .inr ⟨v :: good, bad, rest, _, e, rfl, hcons hgood, hbad⟩

/-! ## The other setters -/

def RefusesWhole (x : Change Query Unit) : Prop := ∀ q e, (x q).1 = .error e → (x q).2 = q

namespace RefusesWhole

theorem of_succeeds {x : Change Query Unit} (h : ∀ q, (x q).1 = .ok ()) : RefusesWhole x := by
  intro q e he
  cases (h q).symm.trans he

/-- What reads an argument or makes a check before anything else. -/
theorem ofExcept_bind {α : Type} {r : Except Failure α} {f : α → Change Query Unit}
    (h : ∀ a, r = .ok a → RefusesWhole (f a)) : RefusesWhole (ofExcept r >>= f) := by
  intro q e he
  cases hr : r with
  | error _ => rfl
  | ok a =>
    subst hr
    exact h a rfl q e he

/-- What looks at the query before anything else. -/
theorem get_bind {f : Query → Change Query Unit} (h : ∀ q, RefusesWhole (f q)) :
    RefusesWhole (get >>= f) := fun q e he ↦ h q q e he

/-- A change behind a comparison with what was there, which is made first. -/
theorem staleUnlessEqual_bind {v old : Value} {f : Unit → Change Query Unit}
    (h : ∀ q, (f () q).1 = .ok ()) : RefusesWhole (staleUnlessEqual v old >>= f) := by
  rw [staleUnlessEqual, bind_assoc]
  refine ofExcept_bind fun equal _ ↦ of_succeeds fun q ↦ ?_
  cases equal with
  | true => exact h q
  | false => exact h (q.withLoaded false)

end RefusesWhole

theorem refusesWhole_limit (v : Value) : RefusesWhole (limit v) :=
  .get_bind fun _ ↦ .staleUnlessEqual_bind fun _ ↦ rfl

theorem refusesWhole_offset (v : Value) : RefusesWhole (offset v) :=
  .get_bind fun _ ↦ .staleUnlessEqual_bind fun _ ↦ rfl

theorem refusesWhole_output (v : Value) : RefusesWhole (output v) := by
  refine .ofExcept_bind fun o _ ↦ .get_bind fun q ↦ .ofExcept_bind fun _ _ ↦ .of_succeeds fun _ ↦ ?_
  rw [staleIf]
  split <;> rfl

/-- The shape that is set last is the one that is implied, which passes its check. So nothing fails
once something has changed. -/
theorem refusesWhole_returns (v : Value) : RefusesWhole (returns v) := by
  refine .ofExcept_bind fun selector _ ↦ .get_bind fun _ ↦ .staleUnlessEqual_bind fun q ↦ ?_
  rw [modifySelect, bind_apply, modify_apply]
  cases himplied : selector.implied? with
  | none => rfl
  | some implied =>
    obtain ⟨-, hset⟩ := output_implied (q := { q with select.returns := selector }) himplied
    dsimp only
    rw [hset]

/-! ## All setters -/

/-- **A setter that fails leaves the query as it was**, orders apart: of a list of specs those
before the first bad one are taken over, with everything else as it was, the mark that the rows are
loaded included. Where all specs are good their orders are taken over and the query is stale. -/
theorem unchanged_unless_ordered {c : Setting} {r : Except Failure Unit} (h : c.apply q = (r, q'))
    (hc : ∀ outputType returning streaming, c ≠ .options outputType returning streaming) :
    ((∀ specs, c ≠ .orderBy specs) → ∀ e, r = .error e → q' = q) ∧
    ∀ specs, c = .orderBy specs →
      (∃ orders, specs.mapM OrderBy.ofValue = .ok orders ∧ r = .ok () ∧
        q' = (q.withOrders orders).withLoaded false) ∨
      ∃ good bad rest orders e, specs = good ++ bad :: rest ∧
        good.mapM OrderBy.ofValue = .ok orders ∧ OrderBy.ofValue bad = .error e ∧
        r = .error e ∧ q' = q.withOrders orders ∧ (q' = q ↔ good = []) := by
  refine ⟨fun horder e he ↦ ?_, fun specs hspecs ↦ ?_⟩
  · have hwhole : RefusesWhole c.apply := by
      cases c with
      | where_ tree => exact .of_succeeds fun _ ↦ rfl
      | orderBy specs => exact absurd rfl (horder specs)
      | limit v => exact refusesWhole_limit v
      | offset v => exact refusesWhole_offset v
      | output v => exact refusesWhole_output v
      | returns v => exact refusesWhole_returns v
      | options outputType returning streaming => exact absurd rfl (hc _ _ _)
    have hleft := hwhole q e (by rw [h, he])
    rwa [h] at hleft
  · subst hspecs
    obtain ⟨orders, hall⟩ | ⟨good, bad, rest, orders, e, rfl, hgood, hbad⟩ := specs_cases specs
    · obtain ⟨rfl, rfl⟩ := Prod.mk.inj (h.symm.trans (orderBy_of_mapM hall q))
      exact .inl ⟨orders, hall, rfl, rfl⟩
    · obtain ⟨rfl, rfl⟩ := Prod.mk.inj (h.symm.trans (orderBy_of_bad hgood hbad q))
      refine .inr ⟨good, bad, rest, orders, e, rfl, hgood, hbad, rfl, rfl, ?_⟩
      have hlength := (Except.forall₂_of_mapM hgood).length_eq
      rw [withOrders_eq_self, ← List.length_eq_zero_iff, ← hlength, List.length_eq_zero_iff]

def loadedLetters : Query where
  type := ⟨.letters, [], [], []⟩
  select := { table := .letters, loaded := true }

/-- An order by one letter, and one in a direction that there is not. -/
def crookedSpecs : List Value := [.text "a", .tuple [.text "a", .text "sideways"]]

theorem directionOf_sideways : OrderBy.directionOf (.text "sideways") = .error .badValue := by
  have hnone : SortDirection.ofLabel? (Text.lowerAscii "sideways") = none := by decide +kernel
  rw [OrderBy.directionOf, Value.asText?, Option.bind_some, hnone]

theorem orderBy_crookedSpecs : orderBy crookedSpecs loadedLetters =
    (.error .badValue, loadedLetters.withOrders [(.text "a", .ascending)]) := by
  have hgood : [Value.text "a"].mapM OrderBy.ofValue = .ok [(.text "a", .ascending)] := rfl
  have hbad : OrderBy.ofValue (.tuple [.text "a", .text "sideways"]) = .error .badValue := by
    show (do .ok (Value.text "a", ← OrderBy.directionOf (.text "sideways")) : Except _ _) = _
    rw [directionOf_sideways]
    rfl
  exact orderBy_of_bad hgood hbad loadedLetters

theorem unchanged_unless_ordered_crooked :
    orderBy crookedSpecs loadedLetters =
      (.error .badValue, loadedLetters.withOrders [(.text "a", .ascending)]) ∧
    ∃ good bad rest, crookedSpecs = good ++ bad :: rest ∧
      OrderBy.ofValue bad = .error .badValue ∧ good ≠ [] := by
  refine ⟨orderBy_crookedSpecs, ?_⟩
  obtain ⟨orders, -, hok, -⟩ | ⟨good, bad, rest, orders, e, hspecs, -, hbad, he, -, hsame⟩ :=
    (@unchanged_unless_ordered _ _ (.orderBy crookedSpecs) _ orderBy_crookedSpecs
      fun _ _ _ ↦ Setting.noConfusion).2 crookedSpecs rfl
  · cases hok
  · obtain rfl := Except.error.inj he
    refine ⟨good, bad, rest, hspecs, hbad, fun hgood ↦ ?_⟩
    exact List.cons_ne_nil _ _ (withOrders_eq_self.mp (hsame.mpr hgood))

/-- **Part of the specs may be taken over.** The bad second spec makes the call fail, the first one
is among the orders all the same, and the rows still count as loaded. -/
theorem orderBy_of_crooked : ∃ e q', orderBy crookedSpecs loadedLetters = (.error e, q') ∧
    loadedLetters.select.orderBys = [] ∧ q'.select.orderBys = [(.text "a", .ascending)] ∧
    loadedLetters.isLoaded = true ∧ q'.isLoaded = true :=
  ⟨.badValue, _, orderBy_crookedSpecs, rfl, rfl, rfl, rfl⟩

end Query

end Rowmap
