import Rowmap.Migration
import Rowmap.Proofs.Session.Deeds
import Rowmap.Sql.Statement

/-!
# What a run of migrations does

The deeds of a run, whatever fails: calls beside the transactions of the driver, which look for a
connection, read the table and give the connection back, and between them at most one transaction
for each migration. `Journal` reads off deeds which transactions of the driver were committed, with
their statements.
-/

namespace Rowmap

namespace Migration

/-- Whether a call is beside the transactions of the driver: it has to do with the use of a
connection, or with reading the table of applied migrations. -/
def isAside (table : String) : Call → Bool
  | .connect _ | .driver _ | .driverClosed _ | .driverInTransaction _ | .inTransaction _
  | .commit _ | .invalidate _ | .close _ => true
  | .exec _ sql values => (sql == tableStatement table || sql == listStatement table) &&
    values.isEmpty
  | _ => false

end Migration

namespace Deed

variable {α : Type}

/-- A call beside the transactions of the driver. -/
def IsAside (table : String) : Deed α → Prop
  | .called c _ => Migration.isAside table c = true
  | .used .. => False

def script? : Deed α → Option String
  | .called (.driverExecute _ sql []) _ => some sql
  | _ => none

end Deed

namespace Migration

/-! ## Journals -/

/-- What drivers have done: the statements of the transaction on each connection, and those of the
transactions that were committed. -/
structure Journal where
  opened : Connection → List Statement := fun _ ↦ []
  committed : List (List Statement) := []

namespace Journal

variable {α : Type}

def withOpened (j : Journal) (c : Connection) (statements : List Statement) : Journal :=
  { j with opened := fun d ↦ if d = c then statements else j.opened d }

/-- The journal after one more deed. A statement that failed, and a transaction that was not
committed, leave nothing. -/
def note (j : Journal) : Deed α → Journal
  | .called (.startTransaction c) (.ok _) => j.withOpened c []
  | .called (.driverExecute c sql values) (.ok _) => j.withOpened c (j.opened c ++ [⟨sql, values⟩])
  | .called (.rollbackTransaction c) _ | .called (.commitTransaction c) (.error _) =>
    j.withOpened c []
  | .called (.commitTransaction c) (.ok _) =>
    { j.withOpened c [] with committed := j.committed ++ [j.opened c] }
  | _ => j

theorem note_of_isAside {table : String} {d : Deed α} (h : d.IsAside table) (j : Journal) :
    j.note d = j := by
  cases d with
  | used c r => exact h.elim
  | called c reply => cases c <;> first | rfl | exact absurd h (by simp [Deed.IsAside, isAside])

theorem foldl_note_of_isAside {table : String} {deeds : List (Deed α)}
    (h : ∀ d ∈ deeds, d.IsAside table) (j : Journal) : deeds.foldl note j = j := by
  induction deeds with
  | nil => rfl
  | cons d deeds ih =>
    obtain ⟨hd, hdeeds⟩ := List.forall_mem_cons.mp h
    rw [List.foldl_cons, note_of_isAside hd, ih hdeeds]

/-- What was committed before stays, and makes no difference later. -/
theorem note_eq (j : Journal) (d : Deed α) : j.note d =
    { opened := (note { j with committed := [] } d).opened
      committed := j.committed ++ (note { j with committed := [] } d).committed } := by
  unfold note
  split <;> simp [withOpened]

theorem committed_foldl (deeds : List (Deed α)) (j : Journal) : (deeds.foldl note j).committed =
    j.committed ++ (deeds.foldl note { j with committed := [] }).committed := by
  induction deeds generalizing j with
  | nil => exact (List.append_nil _).symm
  | cons d deeds ih =>
    rw [List.foldl_cons, List.foldl_cons, ih (j.note d), ih (note _ d), note_eq j d,
      List.append_assoc]

end Journal

/-! ## Beside the transactions -/

section

open Change

variable {σ α β γ : Type} [Backend σ] {use : Connection → App σ α} {table : String} {s : Session σ}

/-- An operation that only makes calls beside the transactions of the driver. -/
def StaysAside (table : String) (use : Connection → App σ α) (x : App σ β) : Prop :=
  ∀ s, x.Does id use s fun _ deeds ↦ ∀ d ∈ deeds, d.IsAside table

namespace StaysAside

variable {x : App σ β}

theorem ofExcept (r : Except Failure β) : StaysAside table use (Change.ofExcept r) :=
  fun _ ↦ .ofExcept fun _ h ↦ nomatch h

theorem ok (b : β) : StaysAside table use (Change.ok b) := ofExcept (.ok b)

theorem tell (e : LogEvent) : StaysAside table use (App.tell e) := fun _ ↦
  (App.does_tell e).mono fun _ _ h _ hd ↦ nomatch h.2 ▸ hd

theorem call {c : Call} (hc : isAside table c = true) : StaysAside table use (App.call c) :=
  fun _ ↦ (App.does_call c).mono fun _ _ h d hd ↦ by
    obtain rfl := List.mem_singleton.mp (h.2 ▸ hd)
    exact hc

theorem bind {f : β → App σ γ} (hx : StaysAside table use x)
    (hf : ∀ b, StaysAside table use (f b)) : StaysAside table use (x >>= f) := fun s ↦
  (hx s).bind (fun b t _ hdeeds ↦ (hf b t).mono fun _ _ hmore ↦
    List.forall_mem_append.mpr ⟨hdeeds, hmore⟩) fun _ _ hdeeds ↦ hdeeds

theorem attempt (hx : StaysAside table use x) : StaysAside table use (Change.attempt x) := fun s ↦
  hx s

theorem recast (hx : StaysAside table use x) : StaysAside table use (App.recast x) := fun s ↦ hx s

end StaysAside

theorem stepwise_staysAside (table : String) (use : Connection → App σ α) :
    App.Stepwise (σ := σ) fun _ ↦ StaysAside table use where
  ok := .ok
  bind := .bind
  attempt_bind hx hf := hx.attempt.bind fun r ↦ hf r (.ofExcept r)
  recast hx := .recast hx
  tell := .tell
  call {c} hc := .call (by cases c <;> first | rfl | exact nomatch hc)
  noneUsable _ := .ofExcept _

theorem staysAside_connection (table : String) (pool : Option Pool) :
    StaysAside table use (App.poolOrDefault pool >>= fun p ↦ App.usableConnection p) := by
  refine .bind (fun s ↦ .of_keeps ?_ fun _ h ↦ nomatch h) fun p ↦
    (stepwise_staysAside table use).usableConnection p (.ofExcept _)
  rw [App.poolOrDefault_eq]

/-- What is done with a connection of a pool, among calls beside the transactions. -/
inductive Around (table : String) (mid : Connection → Except Failure β → List (Deed α) → Prop) :
    Except Failure β → List (Deed α) → Prop where
  /-- There was no connection to use. -/
  | unused (e : Failure) {deeds : List (Deed α)} (aside : ∀ d ∈ deeds, d.IsAside table) :
      Around table mid (.error e) deeds
  | used {c : Connection} {r r' : Except Failure β} {before inner after : List (Deed α)}
      (asideBefore : ∀ d ∈ before, d.IsAside table) (use : mid c r inner)
      (asideAfter : ∀ d ∈ after, d.IsAside table) (result : ∀ b, r' = .ok b → r = .ok b) :
      Around table mid r' (before ++ inner ++ after)

namespace Around

variable {mid : Connection → Except Failure β → List (Deed α) → Prop} {c : Connection}
  {r r' : Except Failure β} {deeds more : List (Deed α)}

theorem of_use (h : mid c r deeds) : Around table mid r deeds := by
  have hused : Around table mid r ([] ++ deeds ++ []) :=
    .used (fun _ h ↦ nomatch h) h (fun _ h ↦ nomatch h) fun _ h ↦ h
  rwa [List.append_nil] at hused

theorem append (h : Around table mid r deeds) (hmore : ∀ d ∈ more, d.IsAside table)
    (hr : ∀ b, r' = .ok b → r = .ok b) : Around table mid r' (deeds ++ more) := by
  cases h with
  | unused e aside =>
    cases r' with
    | ok b => exact nomatch hr b rfl
    | error e' => exact .unused e' (List.forall_mem_append.mpr ⟨aside, hmore⟩)
  | used asideBefore use asideAfter result =>
    rw [List.append_assoc]
    exact .used asideBefore use (List.forall_mem_append.mpr ⟨asideAfter, hmore⟩) fun b hb ↦
      result b (hr b hb)

theorem after_aside (h : Around table mid r more) (hdeeds : ∀ d ∈ deeds, d.IsAside table) :
    Around table mid r (deeds ++ more) := by
  cases h with
  | unused e aside => exact .unused e (List.forall_mem_append.mpr ⟨hdeeds, aside⟩)
  | used asideBefore use asideAfter result =>
    rw [← List.append_assoc, ← List.append_assoc]
    exact .used (List.forall_mem_append.mpr ⟨hdeeds, asideBefore⟩) use asideAfter result

end Around

theorem does_committed_around {body : Connection → App σ β}
    {mid : Connection → Except Failure β → List (Deed α) → Prop} {c : Connection}
    (hbody : (body c).Does id use s (mid c)) :
    (App.committed c body).Does id use s (Around table mid) := by
  have hinTransaction : StaysAside table use (App.call (.inTransaction c)) := .call rfl
  have hcommit : StaysAside table use (App.call (.commit c)) := .call rfl
  have haround : (body c).Does id use s (Around table mid) := hbody.mono fun _ _ ↦ Around.of_use
  refine haround.bind (fun b t deeds hb ↦ ?_) fun e deeds he ↦ he
  refine (hinTransaction t).bind (fun isOpen u more hmore ↦ ?_) fun e more hmore ↦ ?_
  · cases (isOpen : Bool) with
    | false =>
      rw [← List.append_nil more] at hmore
      exact .ok (hb.append hmore fun _ h ↦ h)
    | true =>
      refine (hcommit u).bind (fun _ _ last hlast ↦ .ok ?_) fun e last hlast ↦ ?_
      · rw [List.append_nil]
        exact hb.append (List.forall_mem_append.mpr ⟨hmore, hlast⟩) fun _ h ↦ h
      · exact hb.append (List.forall_mem_append.mpr ⟨hmore, hlast⟩) nofun
  · exact hb.append hmore nofun

/-- **A use of a connection of a pool** adds only calls beside the transactions to what it does. It
may fail after the use went well. -/
theorem does_connected {body : Connection → App σ β}
    {mid : Connection → Except Failure β → List (Deed α) → Prop}
    (hbody : ∀ c s, (body c).Does id use s (mid c)) (pool : Option Pool) (destroy : Bool) :
    (App.connected pool destroy (some body)).Does id use s (Around table mid) := by
  have hused (c : Connection) (s : Session σ) : ((App.recast (App.committed c body)).finally_
      fun r ↦ App.release c (destroy || App.endedInDatabaseError r)).Does id use s
        (Around table mid) := by
    have hrecast : (App.recast (App.committed c body)).Does id use s (Around table mid) := by
      have hcommitted : (App.committed c body).Does id use s (Around table mid) :=
        does_committed_around (hbody c s)
      refine .mapFailure Failure.recast (hcommitted.mono fun r deeds h ↦ ?_)
      rw [← List.append_nil deeds]
      refine h.append (fun _ h ↦ nomatch h) fun b hb ↦ ?_
      cases r with
      | ok a => exact hb
      | error e => exact nomatch hb
    refine hrecast.finally_ fun r t deeds h ↦
      ((stepwise_staysAside table use).release c _ t).mono fun r' more hmore ↦ ?_
    cases r' with
    | ok _ => exact h.append hmore fun _ h ↦ h
    | error e => exact h.append hmore nofun
  have hconnected : App.connected pool destroy (some body) =
      (App.poolOrDefault pool >>= fun p ↦ App.usableConnection p) >>= fun c ↦
        (App.recast (App.committed c body)).finally_ fun r ↦
          App.release c (destroy || App.endedInDatabaseError r) := (bind_assoc _ _ _).symm
  rw [hconnected]
  refine (staysAside_connection table pool s).bind (fun c t before hbefore ↦ ?_)
    fun e _ h ↦ .unused e h
  exact (hused c t).mono fun r more hmore ↦ hmore.after_aside hbefore

end

end Migration

end Rowmap
