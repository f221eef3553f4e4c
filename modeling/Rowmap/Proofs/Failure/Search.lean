import Rowmap.Database.Scripted
import Rowmap.Proofs.Failure.Timeout
import Rowmap.Session.Basic
import Mathlib.Data.Nat.Find
import Mathlib.Tactic.Common

/-!
# The search for a state

The state of an error is searched for from link to link. Links may run in a circle, so the search
keeps the errors that it has seen, and stops when it comes back to one of them. `Search` is that
loop, one turn after the other and without a bound on the turns. Each turn adds an error to those
that were seen, so there are no more turns than errors.

What is found does not depend on the memory. `stateAfter` follows the links any number of times,
round a circle as often as they lead there. The search finds the first state on that way, and
nothing where there is none on the whole of it. So an error is shown as a timeout however deep it
wraps the one that tells so, unless it is a cancellation: that is shown as it is.
-/

namespace Rowmap

namespace ErrorGraph

variable {g : ErrorGraph} {s : String} {i j n : Nat} {way unvisited seen : List Nat}

/-! ## The way along the links -/

/-- The state that is told after so many links on the way from an error. -/
def stateAfter (g : ErrorGraph) : Nat → Nat → Option String
  | 0, i => g[i]?.bind ErrorNode.state?
  | n + 1, i => (g[i]?.bind ErrorNode.next?).bind (stateAfter g n)

/-- A state that is the first one on the way from an error. -/
def TellsFirst (g : ErrorGraph) (i : Nat) (s : String) : Prop :=
  ∃ n, g.stateAfter n i = some s ∧ ∀ m < n, g.stateAfter m i = none

theorem stateAfter_zero {e : ErrorNode} (he : g[i]? = some e) : g.stateAfter 0 i = e.state? := by
  rw [stateAfter, he, Option.bind_some]

theorem stateAfter_succ {e : ErrorNode} (he : g[i]? = some e) (hj : e.next? = some j) (n : Nat) :
    g.stateAfter (n + 1) i = g.stateAfter n j := by
  rw [stateAfter, he, Option.bind_some, hj, Option.bind_some]

theorem Way.tellsFirst (h : Way g s i way) : g.TellsFirst i s := by
  induction h with
  | own he hs => exact ⟨0, (stateAfter_zero he).trans hs, fun m hm ↦ absurd hm (Nat.not_lt_zero m)⟩
  | linked he hs hj _ ih =>
    obtain ⟨n, hn, hbefore⟩ := ih
    refine ⟨n + 1, (stateAfter_succ he hj n).trans hn, fun m hm ↦ ?_⟩
    cases m with
    | zero => exact (stateAfter_zero he).trans hs
    | succ m => exact (stateAfter_succ he hj m).trans (hbefore m (Nat.lt_of_succ_lt_succ hm))

theorem exists_way_of_stateAfter (hn : g.stateAfter n i = some s)
    (hbefore : ∀ m < n, g.stateAfter m i = none) : ∃ way, Way g s i way := by
  induction n generalizing i with
  | zero =>
    obtain ⟨e, he, hs⟩ := Option.bind_eq_some_iff.mp hn
    exact ⟨_, .own he hs⟩
  | succ n ih =>
    obtain ⟨j, hlink, hj⟩ := Option.bind_eq_some_iff.mp hn
    obtain ⟨e, he, hnext⟩ := Option.bind_eq_some_iff.mp hlink
    have hs : e.state? = none := (stateAfter_zero he).symm.trans (hbefore 0 (Nat.succ_pos n))
    obtain ⟨way, hway⟩ := ih hj fun m hm ↦
      (stateAfter_succ he hnext m).symm.trans (hbefore (m + 1) (Nat.succ_lt_succ hm))
    exact ⟨_, .linked he hs hnext hway⟩

theorem state?_eq_some_iff_tellsFirst : g.state? i = some s ↔ g.TellsFirst i s := by
  rw [state?_eq_some_iff]
  exact ⟨fun ⟨_, hway⟩ ↦ hway.tellsFirst, fun ⟨_, hn, hbefore⟩ ↦
    exists_way_of_stateAfter hn hbefore⟩

theorem exists_tellsFirst (h : g.stateAfter n i = some s) : ∃ s, g.TellsFirst i s := by
  classical
  have hexists : ∃ n, (g.stateAfter n i).isSome = true := ⟨n, Option.isSome_of_eq_some h⟩
  obtain ⟨first, hfirst⟩ := Option.isSome_iff_exists.mp (Nat.find_spec hexists)
  exact ⟨first, Nat.find hexists, hfirst, fun m hm ↦
    Option.not_isSome_iff_eq_none.mp (Nat.find_min hexists hm)⟩

/-- Nothing is found exactly if there is no state on the whole way. -/
theorem state?_eq_none_iff : g.state? i = none ↔ ∀ n, g.stateAfter n i = none := by
  constructor
  · intro h n
    by_contra hn
    obtain ⟨s, hs⟩ := Option.ne_none_iff_exists'.mp hn
    obtain ⟨first, hfirst⟩ := exists_tellsFirst hs
    exact nomatch h.symm.trans (state?_eq_some_iff_tellsFirst.mpr hfirst)
  · intro h
    by_contra hstate
    obtain ⟨s, hs⟩ := Option.ne_none_iff_exists'.mp hstate
    obtain ⟨n, hn, -⟩ := state?_eq_some_iff_tellsFirst.mp hs
    exact nomatch hn.symm.trans (h n)

/-! ## Turns of the search -/

/-- Where a search stands: at an error, or behind the last one, with the errors that it has seen. -/
structure Search where
  current : Option Nat
  seen : List Nat

namespace Search

/-- A turn of a search: what it ends with, or where the search stands after it. -/
def turn (g : ErrorGraph) (at_ : Search) : Option String ⊕ Search :=
  match at_.current with
  | none => .inl none
  | some i =>
    if i ∈ at_.seen then .inl none
    else
      match g[i]? with
      | none => .inl none
      | some e =>
        match e.state? with
        | some s => .inl (some s)
        | none => .inr ⟨e.next?, i :: at_.seen⟩

/-- A search that ends after so many turns from one error to the next, and what it ends with. -/
inductive Ends (g : ErrorGraph) : Search → Nat → Option String → Prop where
  | stop {at_ : Search} {found : Option String} (h : at_.turn g = .inl found) : Ends g at_ 0 found
  | turn {at_ next : Search} {n : Nat} {found : Option String} (h : at_.turn g = .inr next)
      (rest : Ends g next n found) : Ends g at_ (n + 1) found

end Search

/-- **The search ends** after no more turns than there are errors left to be seen, with what is
found among them. -/
theorem ends_stateFrom (hunvisited : ∀ j, j ∈ unvisited ↔ j < g.length ∧ j ∉ seen)
    (hnodup : unvisited.Nodup) :
    ∃ n ≤ unvisited.length, Search.Ends g ⟨some i, seen⟩ n (g.stateFrom unvisited i) := by
  induction unvisited, i using stateFrom.induct g generalizing seen with
  | case1 unvisited i hmem hg =>
    rw [List.getElem?_eq_none_iff] at hg
    exact absurd ((hunvisited i).mp hmem).1 (Nat.not_lt.mpr hg)
  | case2 unvisited i hmem e hg s hs =>
    have hseen := ((hunvisited i).mp hmem).2
    rw [stateFrom, dif_pos hmem, hg]
    simp only [hs]
    exact ⟨0, Nat.zero_le _, .stop (by simp [Search.turn, hseen, hg, hs])⟩
  | case3 unvisited i hmem e hg hs j hj ih =>
    have hseen := ((hunvisited i).mp hmem).2
    have hrest (k : Nat) : k ∈ unvisited.erase i ↔ k < g.length ∧ k ∉ i :: seen := by
      rw [hnodup.mem_erase_iff, hunvisited, List.mem_cons, not_or]
      tauto
    obtain ⟨n, hn, hends⟩ := ih hrest (hnodup.erase i)
    have hlength := List.length_erase_of_mem hmem
    have hpos := List.length_pos_of_mem hmem
    rw [stateFrom, dif_pos hmem, hg]
    simp only [hs, hj]
    have hturn : Search.turn g ⟨some i, seen⟩ = .inr ⟨some j, i :: seen⟩ := by
      simp [Search.turn, hseen, hg, hs, hj]
    exact ⟨n + 1, by omega, .turn hturn hends⟩
  | case4 unvisited i hmem e hg hs hj =>
    have hseen := ((hunvisited i).mp hmem).2
    rw [stateFrom, dif_pos hmem, hg]
    simp only [hs, hj]
    have hturn : Search.turn g ⟨some i, seen⟩ = .inr ⟨none, i :: seen⟩ := by
      simp [Search.turn, hseen, hg, hs, hj]
    exact ⟨1, List.length_pos_of_mem hmem, .turn hturn (.stop rfl)⟩
  | case5 unvisited i hmem =>
    rw [stateFrom, dif_neg hmem]
    refine ⟨0, Nat.zero_le _, .stop ?_⟩
    -- the error was seen before, or there is none
    by_cases hseen : i ∈ seen
    · simp [Search.turn, hseen]
    · have hlength : ¬i < g.length := fun h ↦ hmem ((hunvisited i).mpr ⟨h, hseen⟩)
      simp [Search.turn, hseen, List.getElem?_eq_none (Nat.not_lt.mp hlength)]

theorem ends_state? (g : ErrorGraph) (i : Nat) :
    ∃ n ≤ g.length, Search.Ends g ⟨some i, []⟩ n (g.state? i) := by
  have hends := @ends_stateFrom g i (List.range g.length) [] (by simp) List.nodup_range
  rwa [List.length_range] at hends

end ErrorGraph

/-! ## What callers see -/

namespace Raised

variable {e : Raised} {σ α : Type} {x : App σ α} {t t' : Session σ}

theorem timedOut_iff :
    e.TimedOut ↔ e.kind ≠ .cancelled ∧ e.graph.TellsFirst e.node timeoutState := by
  rw [TimedOut, ← ErrorGraph.state?_eq_some_iff, ErrorGraph.state?_eq_some_iff_tellsFirst]

theorem recast_of_error (h : x t = (.error (.raised e), t')) :
    App.recast x t = (.error (Failure.recast (.raised e)), t') := by
  rw [App.recast, Change.mapFailure_apply, h]
  rfl

theorem recast_of_timedOut (he : e.TimedOut) (h : x t = (.error (.raised e), t')) :
    App.recast x t = (.error (.fault (.statementTimeout (some e.kindName))), t') := by
  rw [recast_of_error h]
  generalize hshown : Failure.recast (.raised e) = shown
  cases hshown ▸ Failure.shown_recast (.raised e) with
  | timeout _ => rfl
  | same hsame => exact absurd he (hsame e rfl)

theorem recast_of_not_timedOut (he : ¬e.TimedOut) (h : x t = (.error (.raised e), t')) :
    App.recast x t = (.error (.raised e), t') := by
  rw [recast_of_error h]
  generalize hshown : Failure.recast (.raised e) = shown
  cases hshown ▸ Failure.shown_recast (.raised e) with
  | timeout htimeout => exact absurd htimeout he
  | same _ => rfl

/-- **The search for a state** ends, after no more turns than there are errors, with the first state
on the way along the links, and with none exactly if there is none on the whole way. So an ordinary
error on whose way the first state is that of a timeout is shown as a timeout that it caused,
however many links away that state is; a cancellation is shown as it is. -/
theorem search_finds_first_state (e : Raised) :
    (∃ n ≤ e.graph.length,
      ErrorGraph.Search.Ends e.graph ⟨some e.node, []⟩ n (e.graph.state? e.node)) ∧
    (∀ s, e.graph.state? e.node = some s ↔ e.graph.TellsFirst e.node s) ∧
    (e.graph.state? e.node = none ↔ ∀ n, e.graph.stateAfter n e.node = none) ∧
    (e.kind ≠ .cancelled → e.graph.TellsFirst e.node timeoutState →
      ∀ {σ α : Type} (x : App σ α) (t t' : Session σ), x t = (.error (.raised e), t') →
        App.recast x t = (.error (.fault (.statementTimeout (some e.kindName))), t')) ∧
    (e.kind = .cancelled →
      ∀ {σ α : Type} (x : App σ α) (t t' : Session σ), x t = (.error (.raised e), t') →
        App.recast x t = (.error (.raised e), t')) := by
  refine ⟨e.graph.ends_state? e.node, fun s ↦ ErrorGraph.state?_eq_some_iff_tellsFirst,
    ErrorGraph.state?_eq_none_iff, fun hkind hfirst σ α x t t' ↦ ?_, fun hkind σ α x t t' ↦ ?_⟩
  · exact recast_of_timedOut (timedOut_iff.mpr ⟨hkind, hfirst⟩)
  · exact recast_of_not_timedOut fun he ↦ he.1 hkind

/-- An error of the database whose links run in a circle, with the state of a timeout two links
away. -/
def circling : Raised where
  kind := .database
  message := "canceling statement due to statement timeout"
  graph := [⟨.null, .null, some 1, none⟩, ⟨.int 57014, .null, none, some 2⟩,
    ⟨.text "", .text timeoutState, none, some 0⟩]
  node := 0

theorem tellsFirst_circling : circling.graph.TellsFirst circling.node timeoutState := by
  refine ⟨2, rfl, fun m hm ↦ ?_⟩
  match m, hm with
  | 0, _ | 1, _ => rfl

theorem search_finds_first_state_circling :
    circling.kind ≠ .cancelled ∧ circling.graph.TellsFirst circling.node timeoutState ∧
    circling.graph.state? circling.node = some timeoutState ∧
    App.recast (Change.fail (.raised circling) : App Scripted Unit) { db := {} } =
      (.error (.fault (.statementTimeout (some "DBAPIError"))), { db := {} }) := by
  obtain ⟨-, hfound, -, hshown, -⟩ := search_finds_first_state circling
  exact ⟨nofun, tellsFirst_circling, (hfound timeoutState).mpr tellsFirst_circling,
    hshown nofun tellsFirst_circling _ _ _ rfl⟩

/-- A cancellation that was caused by an error with the state of a timeout. -/
def timedOutCancellation : Raised where
  kind := .cancelled
  message := ""
  graph := [⟨.null, .null, none, some 1⟩, ⟨.text timeoutState, .null, none, none⟩]
  node := 0

theorem recast_of_timedOutCancellation :
    timedOutCancellation.graph.TellsFirst timedOutCancellation.node timeoutState ∧
    ∀ cause, App.recast (Change.fail (.raised timedOutCancellation) : App Scripted Unit)
        { db := {} } ≠ (.error (.fault (.statementTimeout cause)), { db := {} }) := by
  refine ⟨⟨1, rfl, fun m hm ↦ ?_⟩, fun cause ↦ ?_⟩
  · obtain rfl := Nat.lt_one_iff.mp hm
    rfl
  · have hstays : App.recast (Change.fail (.raised timedOutCancellation) : App Scripted Unit)
        { db := {} } = (.error (.raised timedOutCancellation), { db := {} }) :=
      recast_of_not_timedOut (fun he ↦ he.1 rfl) rfl
    rw [hstays]
    exact fun h ↦ nomatch (Prod.mk.inj h).1

end Raised

end Rowmap
