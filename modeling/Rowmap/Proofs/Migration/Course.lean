import Rowmap.Proofs.Migration.Journal

/-!
# The course of a run

What a run of migrations does, whatever fails: it reads the table, and then it applies one migration
after the other, each in a transaction of its own, up to the first failure.
-/

namespace Rowmap.Migration

open Change

variable {σ α : Type} {table name text : String} {c : Connection}

/-! ## One transaction -/

/-- A transaction that executes a migration and enters its name, up to the first failure, after
which it is rolled back. -/
inductive Transacted (table name text : String) (c : Connection) :
    Except Failure Unit → List (Deed α) → Prop where
  | unstarted (e : Failure) :
      Transacted table name text c (.error e) [.called (.startTransaction c) (.error e)]
  | unexecuted (e e' : Failure) (reply : Except Failure Unit) :
      Transacted table name text c (.error e') [.called (.startTransaction c) (.ok ()),
        .called (.driverExecute c text []) (.error e), .called (.rollbackTransaction c) reply]
  | unentered (e e' : Failure) (reply : Except Failure Unit) :
      Transacted table name text c (.error e') [.called (.startTransaction c) (.ok ()),
        .called (.driverExecute c text []) (.ok ()),
        .called (.driverExecute c (entryStatement table) [.text name]) (.error e),
        .called (.rollbackTransaction c) reply]
  | ended (reply : Except Failure Unit) :
      Transacted table name text c reply [.called (.startTransaction c) (.ok ()),
        .called (.driverExecute c text []) (.ok ()),
        .called (.driverExecute c (entryStatement table) [.text name]) (.ok ()),
        .called (.commitTransaction c) reply]

variable [Backend σ] {use : Connection → App σ α} {s : Session σ}

theorem does_rollback (c : Connection) (e : Failure) :
    (do App.call (.rollbackTransaction c); Change.fail e : App σ Unit).Does id use s fun r deeds ↦
      ∃ e' reply, r = .error e' ∧ deeds = [.called (.rollbackTransaction c) reply] := by
  refine (App.does_call _).bind (fun _ t deeds h ↦ ?_) fun e' deeds h ↦ ?_
  · exact .fail ⟨e, .ok (), rfl, by rw [h.2]; rfl⟩
  · exact ⟨e', .error e', rfl, h.2⟩

theorem does_transacted (c : Connection) : (inTransaction c do
    App.call (.driverExecute c text [])
    App.call (.driverExecute c (entryStatement table) [.text name])).Does id use s
      (Transacted table name text c) := by
  refine (App.does_call _).bind (fun _ t deeds h ↦ ?_) fun e deeds h ↦ ?_
  · obtain ⟨-, rfl⟩ := h
    have hbody : (do
        App.call (.driverExecute c text [])
        App.call (.driverExecute c (entryStatement table) [.text name]) : App σ Unit).Does id use t
          fun r deeds ↦ (∃ e, r = .error e ∧ deeds = [.called (.driverExecute c text []) r]) ∨
            deeds = [.called (.driverExecute c text []) (.ok ()),
              .called (.driverExecute c (entryStatement table) [.text name]) r] := by
      refine (App.does_call _).bind (fun _ u deeds h ↦ ?_) fun e deeds h ↦ .inl ⟨e, rfl, h.2⟩
      obtain ⟨-, rfl⟩ := h
      exact (App.does_call _).mono fun r deeds h ↦ .inr (by rw [h.2]; rfl)
    refine hbody.attempt_bind fun r u deeds h ↦ ?_
    rcases h with ⟨e, rfl, rfl⟩ | rfl
    · refine (does_rollback c e).mono fun r more h ↦ ?_
      obtain ⟨e', reply, rfl, rfl⟩ := h
      exact .unexecuted e e' reply
    · cases r with
      | error e =>
        refine (does_rollback c e).mono fun r more h ↦ ?_
        obtain ⟨e', reply, rfl, rfl⟩ := h
        exact .unentered e e' reply
      | ok _ =>
        refine (App.does_call _).bind (fun _ v deeds h ↦ ?_) fun e deeds h ↦ ?_
        · obtain ⟨-, rfl⟩ := h
          exact .ok (.ended (.ok ()))
        · obtain ⟨-, rfl⟩ := h
          exact .ended (.error e)
  · obtain ⟨-, rfl⟩ := h
    exact .unstarted e

/-! ## One migration -/

theorem does_apply (c : Connection) :
    (apply table name text c).Does id use s (Around table (Transacted table name text)) := by
  have hdriver : StaysAside table use (App.call (.driver c)) := .call rfl
  refine (hdriver s).bind (fun present t deeds h ↦ ?_) fun e deeds h ↦ .unused e h
  cases (present : Bool) with
  | false => exact .fail (.unused _ (by rwa [List.append_nil]))
  | true => exact (does_transacted c).mono fun r more hmore ↦ (Around.of_use hmore).after_aside h

/-- **Applying a migration** is one transaction at most. -/
theorem does_connected_apply (pool : Option Pool) :
    (App.connected pool false (some (apply table name text))).Does id use s
      (Around table (Transacted table name text)) := by
  have hnested : (App.connected pool false (some (apply table name text))).Does id use s
      (Around table fun _ ↦ Around table (Transacted table name text)) :=
    does_connected (fun c _ ↦ does_apply c) pool false
  refine hnested.mono fun r deeds h ↦ ?_
  cases h with
  | unused e aside => exact .unused e aside
  | used asideBefore use asideAfter result =>
    exact (use.after_aside asideBefore).append asideAfter result

/-! ## All migrations -/

/-- Migrations that are applied one after the other, up to the first failure. -/
inductive Applying (table : String) :
    List Script → Except Failure Unit → List (Deed α) → Prop where
  | nil : Applying table [] (.ok ()) []
  | unreadable {name : String} {entry : DirectoryEntry} {rest : List Script} {e : Failure}
      (read : textOf entry = .error e) : Applying table ((name, entry) :: rest) (.error e) []
  | failed {name text : String} {entry : DirectoryEntry} {rest : List Script} {e : Failure}
      {deeds : List (Deed α)} (read : textOf entry = .ok text)
      (apply : Around table (Transacted table name text) (.error e) deeds) :
      Applying table ((name, entry) :: rest) (.error e) deeds
  | cons {name text : String} {entry : DirectoryEntry} {rest : List Script}
      {r : Except Failure Unit} {deeds more : List (Deed α)} (read : textOf entry = .ok text)
      (apply : Around table (Transacted table name text) (.ok ()) deeds)
      (next : Applying table rest r more) :
      Applying table ((name, entry) :: rest) r (deeds ++ more)

namespace Applying

variable {script : Script} {rest : List Script} {deeds more : List (Deed α)}

theorem of_head {e : Failure} (h : Applying table [script] (.error e) deeds) :
    Applying table (script :: rest) (.error e) deeds := by
  cases h with
  | unreadable read => exact .unreadable read
  | failed read apply => exact .failed read apply
  | cons read apply next => exact nomatch next

theorem cons_of_head {r : Except Failure Unit} (h : Applying table [script] (.ok ()) deeds)
    (hrest : Applying table rest r more) : Applying table (script :: rest) r (deeds ++ more) := by
  cases h with
  | cons read apply next =>
    cases next
    rw [List.append_nil]
    exact .cons read apply hrest

end Applying

theorem does_applyAll (pool : Option Pool) (count index : Nat) (scripts : List Script)
    (s : Session σ) :
    (applyAll pool table count index scripts).Does id use s (Applying table scripts) := by
  induction scripts generalizing index s with
  | nil => exact .ok .nil
  | cons script rest ih =>
    obtain ⟨name, entry⟩ := script
    refine (App.does_tell _).bind (fun _ t _ h ↦ ?_) fun _ _ h ↦ nomatch h.1
    obtain ⟨-, rfl⟩ := h
    cases hread : textOf entry with
    | error e => exact .of_keeps rfl (.unreadable hread)
    | ok text =>
      refine (does_connected_apply pool).bind (fun _ u deeds h ↦ ?_) fun e deeds h ↦ ?_
      · refine (ih (index + 1) u).mono fun r more hmore ↦ ?_
        exact (.cons hread h hmore : Applying table ((name, entry) :: rest) r (deeds ++ more))
      · exact .failed hread h

/-! ## Reading the table -/

/-- A look at the table of applied migrations: the names that it has when it is listed. -/
structure Reads (table : String) (r : Except Failure (List Value)) (deeds : List (Deed α)) :
    Prop where
  aside : ∀ d ∈ deeds, d.IsAside table
  lists : ∀ done, r = .ok done → ∃ before c outcome after,
    deeds = before ++ .called (.exec c (listStatement table) []) (.ok outcome) :: after ∧
    namesIn outcome.rows = .ok done

/-- A look that failed. -/
theorem Reads.of_error {e : Failure} {deeds : List (Deed α)}
    (aside : ∀ d ∈ deeds, d.IsAside table) : Reads table (.error e) deeds where
  aside := aside
  lists _ h := nomatch h

theorem does_applied (c : Connection) : (applied table c).Does id use s (Reads table) := by
  have hexecute (sql : String) (t : Session σ) : (App.execute c sql []).Does id use t
      fun r deeds ↦ deeds = [.called (.exec c sql []) r] := by
    refine (App.does_tell _).bind (fun _ u _ h ↦ ?_) fun _ _ h ↦ nomatch h.1
    obtain ⟨-, rfl⟩ := h
    exact (App.does_call _).mono fun _ _ h ↦ h.2
  have htable (reply : Except Failure Outcome) :
      (Deed.called (.exec c (tableStatement table) []) reply : Deed α).IsAside table := by
    simp [Deed.IsAside, isAside]
  have hlist (reply : Except Failure Outcome) :
      (Deed.called (.exec c (listStatement table) []) reply : Deed α).IsAside table := by
    simp [Deed.IsAside, isAside]
  refine (hexecute (tableStatement table) s).bind (fun _ t deeds h ↦ ?_)
    fun e deeds h ↦ .of_error ?_
  · refine (hexecute (listStatement table) t).bind (fun outcome u more hmore ↦ ?_)
      fun e more hmore ↦ .of_error ?_
    · rw [h, hmore]
      refine .ofExcept ⟨?_, fun done hdone ↦ ⟨[_], c, outcome, [], rfl, hdone⟩⟩
      exact List.forall_mem_cons.mpr ⟨htable _, List.forall_mem_singleton.mpr (hlist _)⟩
    · rw [h, hmore]
      exact List.forall_mem_cons.mpr ⟨htable _, List.forall_mem_singleton.mpr (hlist _)⟩
  · rw [h]
    exact List.forall_mem_singleton.mpr (htable _)

theorem does_connected_applied (pool : Option Pool) :
    (App.connected pool false (some (applied table))).Does id use s (Reads table) := by
  have haround : (App.connected pool false (some (applied table))).Does id use s
      (Around table fun _ ↦ Reads table) := does_connected (fun c _ ↦ does_applied c) pool false
  refine haround.mono fun r deeds h ↦ ?_
  cases h with
  | unused e aside => exact .of_error aside
  | @used _ _ _ first _ last asideBefore use asideAfter result =>
    refine ⟨List.forall_mem_append.mpr ⟨List.forall_mem_append.mpr ⟨asideBefore, use.aside⟩,
      asideAfter⟩, fun done hdone ↦ ?_⟩
    obtain ⟨before, c, outcome, after, rfl, hnames⟩ := use.lists done (result done hdone)
    refine ⟨first ++ before, c, outcome, after ++ last, ?_, hnames⟩
    simp only [List.append_assoc, List.cons_append]

/-! ## Runs -/

/-- What a run does with the migrations of a directory. -/
inductive Ran (table : String) (all : List Script) :
    Except Failure (List String) → List (Deed α) → Prop where
  | nothing (empty : all = []) : Ran table all (.ok []) []
  | unread (e : Failure) {deeds : List (Deed α)} (reads : Reads table (.error e) deeds) :
      Ran table all (.error e) deeds
  | applied {done : List Value} {r : Except Failure Unit} {deeds more : List (Deed α)}
      (reads : Reads table (.ok done) deeds)
      (applying : Applying table (all.filter (isPending done)) r more) :
      Ran table all (r.map fun _ ↦ (all.filter (isPending done)).map (·.1)) (deeds ++ more)

/-- A run with the migrations that it found. -/
def runOf (pool : Option Pool) (table : String) (all : List Script) : App σ (List String) :=
  if all.isEmpty then do
    App.tell (.pendingMigrations 0)
    .ok []
  else do
    let done ← App.connected pool false (some (applied table))
    let pending := all.filter (isPending done)
    App.tell (.pendingMigrations pending.length)
    applyAll pool table pending.length 1 pending
    .ok (pending.map (·.1))

theorem run_eq (pool : Option Pool) (d : Directory) :
    (run pool (some d) table : App σ (List String)) = runOf pool table (scripts d) := rfl

/-- **A run** reads the table, and then applies what it found missing. -/
theorem does_run (pool : Option Pool) (d : Directory) :
    (run pool (some d) table).Does id use s (Ran table (scripts d)) := by
  rw [run_eq, runOf]
  split
  next hempty =>
    refine (App.does_tell _).bind (fun _ t _ h ↦ ?_) fun _ _ h ↦ nomatch h.1
    obtain ⟨-, rfl⟩ := h
    exact .ok (.nothing (List.isEmpty_iff.mp hempty))
  next =>
    refine (does_connected_applied pool).bind (fun done t deeds hreads ↦ ?_)
      fun e deeds hreads ↦ .unread e hreads
    refine (App.does_tell _).bind (fun _ u _ h ↦ ?_) fun _ _ h ↦ nomatch h.1
    obtain ⟨-, rfl⟩ := h
    refine (does_applyAll pool _ 1 _ u).bind (fun _ v more happlying ↦ ?_) fun e more happlying ↦ ?_
    · refine .ok ?_
      rw [List.append_nil]
      exact .applied hreads happlying
    · exact .applied hreads happlying

/-! ## Calls -/

section

variable {deeds : List (Deed α)}

theorem isCall_of_isAside (h : ∀ d ∈ deeds, d.IsAside table) : ∀ d ∈ deeds, d.IsCall := by
  intro d hd
  have hd := h d hd
  cases d with
  | called c reply => exact trivial
  | used c r => exact hd.elim

theorem Transacted.isCall {r : Except Failure Unit} (h : Transacted table name text c r deeds) :
    ∀ d ∈ deeds, d.IsCall := by
  cases h <;> simp [Deed.IsCall]

theorem Around.isCall {r : Except Failure Unit}
    (h : Around table (Transacted table name text) r deeds) : ∀ d ∈ deeds, d.IsCall := by
  cases h with
  | unused e aside => exact isCall_of_isAside aside
  | used asideBefore use asideAfter result =>
    exact List.forall_mem_append.mpr ⟨List.forall_mem_append.mpr
      ⟨isCall_of_isAside asideBefore, use.isCall⟩, isCall_of_isAside asideAfter⟩

theorem Applying.isCall {scripts : List Script} {r : Except Failure Unit}
    (h : Applying table scripts r deeds) : ∀ d ∈ deeds, d.IsCall := by
  induction h with
  | nil => exact fun _ h ↦ nomatch h
  | unreadable _ => exact fun _ h ↦ nomatch h
  | failed _ apply => exact apply.isCall
  | cons _ apply _ ih => exact List.forall_mem_append.mpr ⟨apply.isCall, ih⟩

theorem Ran.isCall {all : List Script} {r : Except Failure (List String)}
    (h : Ran table all r deeds) : ∀ d ∈ deeds, d.IsCall := by
  cases h with
  | nothing _ => exact fun _ h ↦ nomatch h
  | unread e reads => exact isCall_of_isAside reads.aside
  | applied reads applying =>
    exact List.forall_mem_append.mpr ⟨isCall_of_isAside reads.aside, applying.isCall⟩

end

end Rowmap.Migration
