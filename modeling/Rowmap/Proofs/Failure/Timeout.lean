import Rowmap.Failure.Basic

/-!
# Timeouts among failures

The state of an error is searched for along its links, and no error is visited twice. `Way` is that
search without the bookkeeping: a way that ends at the first state never comes back to an error, so
the search finds it, and what it finds is at the end of such a way. `Shown` says from that what
callers of the database see of a failure.
-/

namespace Rowmap

namespace ErrorGraph

variable {g : ErrorGraph} {s : String} {i j : Nat} {way way' unvisited : List Nat}

/-- A way from an error along the links of errors without a state to one with the state. -/
inductive Way (g : ErrorGraph) (s : String) : Nat → List Nat → Prop where
  | own {i : Nat} {e : ErrorNode} (he : g[i]? = some e) (hs : e.state? = some s) : Way g s i [i]
  | linked {i j : Nat} {e : ErrorNode} {way : List Nat} (he : g[i]? = some e)
      (hs : e.state? = none) (hj : e.next? = some j) (rest : Way g s j way) : Way g s i (i :: way)

namespace Way

/-- Links leave no choice. -/
theorem unique (h : Way g s i way) (h' : Way g s i way') : way = way' := by
  induction h generalizing way' with
  | own he hs =>
    cases h' with
    | own => rfl
    | linked he' hs' _ _ =>
      obtain rfl := Option.some.inj (he.symm.trans he')
      exact nomatch hs.symm.trans hs'
  | linked he hs hj _ ih =>
    cases h' with
    | own he' hs' =>
      obtain rfl := Option.some.inj (he.symm.trans he')
      exact nomatch hs.symm.trans hs'
    | linked he' _ hj' rest' =>
      obtain rfl := Option.some.inj (he.symm.trans he')
      obtain rfl := Option.some.inj (hj.symm.trans hj')
      rw [ih rest']

/-- From every error on a way there is one that is no longer. -/
theorem exists_of_mem (h : Way g s i way) (hj : j ∈ way) :
    ∃ way', Way g s j way' ∧ way'.length ≤ way.length := by
  induction h with
  | own he hs =>
    obtain rfl := List.mem_singleton.mp hj
    exact ⟨_, .own he hs, Nat.le_refl _⟩
  | linked he hs hnext rest ih =>
    rcases List.mem_cons.mp hj with rfl | hj
    · exact ⟨_, .linked he hs hnext rest, Nat.le_refl _⟩
    · obtain ⟨way', hway', hlength⟩ := ih hj
      exact ⟨way', hway', Nat.le_succ_of_le hlength⟩

/-- A way does not come back to an error: the way from there would be as long as itself and longer.
-/
theorem nodup (h : Way g s i way) : way.Nodup := by
  induction h with
  | own => exact List.nodup_cons.mpr ⟨List.not_mem_nil, List.nodup_nil⟩
  | linked he hs hj rest ih =>
    refine List.nodup_cons.mpr ⟨fun hmem ↦ ?_, ih⟩
    obtain ⟨way', hway', hlength⟩ := rest.exists_of_mem hmem
    rw [hway'.unique (.linked he hs hj rest)] at hlength
    exact Nat.not_succ_le_self _ hlength

theorem lt_length (h : Way g s i way) (hj : j ∈ way) : j < g.length := by
  obtain ⟨way', hway', -⟩ := h.exists_of_mem hj
  cases hway' with
  | own he _ => exact (List.getElem?_eq_some_iff.mp he).1
  | linked he _ _ _ => exact (List.getElem?_eq_some_iff.mp he).1

theorem stateFrom_eq (h : Way g s i way) (hway : ∀ j ∈ way, j ∈ unvisited) :
    g.stateFrom unvisited i = some s := by
  have hnodup := h.nodup
  induction h generalizing unvisited with
  | own he hs =>
    rw [stateFrom, dif_pos (hway _ List.mem_cons_self)]
    simp only [he, hs]
  | @linked i j e way he hs hj rest ih =>
    obtain ⟨hi, hnodup⟩ := List.nodup_cons.mp hnodup
    rw [stateFrom, dif_pos (hway _ List.mem_cons_self)]
    simp only [he, hs, hj]
    refine ih (fun k hk ↦ ?_) hnodup
    have hne : k ≠ i := fun h ↦ hi (h ▸ hk)
    exact (List.mem_erase_of_ne hne).mpr (hway k (List.mem_cons_of_mem _ hk))

end Way

theorem exists_way_of_stateFrom (h : g.stateFrom unvisited i = some s) : ∃ way, Way g s i way := by
  induction unvisited, i using stateFrom.induct g with
  | case1 unvisited i hmem hg =>
    rw [stateFrom, dif_pos hmem, hg] at h
    exact nomatch h
  | case2 unvisited i hmem e hg s' hs =>
    rw [stateFrom, dif_pos hmem, hg] at h
    simp only [hs] at h
    exact ⟨_, .own hg (hs.trans h)⟩
  | case3 unvisited i hmem e hg hs j hj ih =>
    rw [stateFrom, dif_pos hmem, hg] at h
    simp only [hs, hj] at h
    obtain ⟨way, hway⟩ := ih h
    exact ⟨_, .linked hg hs hj hway⟩
  | case4 unvisited i hmem e hg hs hj =>
    rw [stateFrom, dif_pos hmem, hg] at h
    simp only [hs, hj] at h
    exact nomatch h
  | case5 unvisited i hmem =>
    rw [stateFrom, dif_neg hmem] at h
    exact nomatch h

/-- **The state of an error** is the first one on the way along its links. -/
theorem state?_eq_some_iff : g.state? i = some s ↔ ∃ way, Way g s i way := by
  refine ⟨exists_way_of_stateFrom, fun ⟨way, hway⟩ ↦ hway.stateFrom_eq fun j hj ↦ ?_⟩
  exact List.mem_range.mpr (hway.lt_length hj)

end ErrorGraph

/-- An ordinary error on whose way the first state is that of a statement that ran out of time. -/
def Raised.TimedOut (e : Raised) : Prop :=
  e.kind ≠ .cancelled ∧ ∃ way, e.graph.Way timeoutState e.node way

namespace Failure

/-- What callers of the database see of a failure. -/
inductive Shown : Failure → Failure → Prop where
  | timeout {e : Raised} (h : e.TimedOut) :
      Shown (.raised e) (.fault (.statementTimeout (some e.kindName)))
  | same {f : Failure} (h : ∀ e, f = .raised e → ¬e.TimedOut) : Shown f f

/-- **Only timeouts are recast.** -/
theorem shown_recast (f : Failure) : Shown f f.recast := by
  cases f with
  | raised e =>
    have hiff : (isOrdinary (.raised e) && isTimeout (.raised e)) = true ↔ e.TimedOut := by
      have hstate : e.graph.state? e.node = some timeoutState ↔ _ :=
        ErrorGraph.state?_eq_some_iff
      simp [isOrdinary, isTimeout, state?, Raised.TimedOut, hstate]
    by_cases htimeout : e.TimedOut
    · rw [recast, if_pos (hiff.mpr htimeout)]
      exact .timeout htimeout
    · rw [recast, if_neg fun h ↦ htimeout (hiff.mp h)]
      exact .same fun e' he' ↦ by cases he'; exact htimeout
  | _ => exact .same fun _ h ↦ nomatch h

end Failure

end Rowmap
