import Rowmap.Proofs.Migration.Ledger

/-!
# A run step by step

A runner takes one step at a time, and a step is the reading of the table or the transaction of one
migration. Between two steps, others may change the table, so what a runner read may be out of date
when it comes to a migration.
-/

namespace Rowmap.Migration

open Change Deed

variable {σ α : Type} [Backend σ] {table : String}

/-- How far a runner has come. -/
inductive Runner where
  /-- It is about to read the table. -/
  | reading
  /-- It has applied some migrations, and it is about to apply the next one. -/
  | applying (applied : List Script) (next : Script) (rest : List Script)
  | returned (names : List String)
  | raised (e : Failure)

namespace Runner

/-- A runner that has applied some migrations and goes on with others, if there are any. -/
def proceed (applied : List Script) : List Script → Runner
  | [] => .returned (applied.map (·.1))
  | next :: rest => .applying applied next rest

/-- The migrations that a runner will apply. -/
def ahead : Runner → List Script
  | .applying _ next rest => next :: rest
  | _ => []

def outcome? : Runner → Option (Except Failure (List String))
  | .returned names => some (.ok names)
  | .raised e => some (.error e)
  | _ => none

/-- A runner that has applied the next migration, or failed to. -/
def resume (applied : List Script) (next : Script) (rest : List Script) :
    Except Failure Unit → Runner
  | .ok () => proceed (applied ++ [next]) rest
  | .error e => .raised e

def step (pool : Option Pool) (table : String) (all : List Script) : Runner → App σ Runner
  | .reading =>
    if all.isEmpty then do
      App.tell (.pendingMigrations 0)
      .ok (.returned [])
    else do
      match ← (App.connected pool false (some (applied table))).attempt with
      | .ok done =>
        let pending := all.filter (isPending done)
        App.tell (.pendingMigrations pending.length)
        .ok (.proceed [] pending)
      | .error e => .ok (.raised e)
  | .applying applied next rest => do
    let count := applied.length + (rest.length + 1)
    let result ← (applyAll pool table count (applied.length + 1) [next]).attempt
    .ok (resume applied next rest result)
  | r => .ok r

theorem step_applying {pool : Option Pool} {before : List Script} {next : Script}
    {rest : List Script} {s s' : Session σ} {result : Except Failure Unit}
    (h : applyAll pool table (before.length + (rest.length + 1)) (before.length + 1) [next] s =
      (result, s')) (all : List Script) :
    step pool table all (.applying before next rest) s =
      (.ok (resume before next rest result), s') := by
  rw [step, bind_of_ok _ (show attempt _ s = (.ok result, s') by rw [attempt_apply, h])]
  rfl

theorem ahead_proceed (applied rest : List Script) : (proceed applied rest).ahead = rest := by
  cases rest <;> rfl

/-! ## One step -/

inductive Stepped (table : String) (all : List Script) :
    Runner → List (Deed α) → Runner → Prop where
  | nothing (empty : all = []) : Stepped table all .reading [] (.returned [])
  | unread (e : Failure) {deeds : List (Deed α)} (reads : Reads table (.error e) deeds) :
      Stepped table all .reading deeds (.raised e)
  | read {done : List Value} {deeds : List (Deed α)} (reads : Reads table (.ok done) deeds) :
      Stepped table all .reading deeds (.proceed [] (all.filter (isPending done)))
  | applied (before : List Script) {next : Script} (rest : List Script) {r : Except Failure Unit}
      {deeds : List (Deed α)} (applying : Applying table [next] r deeds) :
      Stepped table all (.applying before next rest) deeds (.resume before next rest r)
  | returned (names : List String) : Stepped table all (.returned names) [] (.returned names)
  | raised (e : Failure) : Stepped table all (.raised e) [] (.raised e)

theorem does_step {use : Connection → App σ α} (pool : Option Pool) (all : List Script) (r : Runner)
    (s : Session σ) :
    (step pool table all r).Does id use s fun result deeds ↦
      ∃ r', result = .ok r' ∧ Stepped table all r deeds r' := by
  cases r with
  | reading =>
    rw [step]
    split
    next hempty =>
      refine (App.does_tell _).bind (fun _ t _ h ↦ ?_) fun _ _ h ↦ nomatch h.1
      obtain ⟨-, rfl⟩ := h
      exact .ok ⟨_, rfl, .nothing (List.isEmpty_iff.mp hempty)⟩
    next =>
      refine (does_connected_applied pool).attempt_bind fun result t deeds hreads ↦ ?_
      cases result with
      | ok done =>
        refine (App.does_tell _).bind (fun _ u _ h ↦ ?_) fun _ _ h ↦ nomatch h.1
        obtain ⟨-, rfl⟩ := h
        refine .ok ⟨_, rfl, ?_⟩
        rw [List.append_nil, List.append_nil]
        exact .read hreads
      | error e =>
        refine .ok ⟨_, rfl, ?_⟩
        rw [List.append_nil]
        exact .unread e hreads
  | applying before next rest =>
    refine (does_applyAll pool _ _ [next] s).attempt_bind fun r t deeds h ↦ ?_
    refine .ok ⟨.resume before next rest r, rfl, ?_⟩
    rw [List.append_nil]
    exact .applied before rest h
  | returned names => exact .ok ⟨_, rfl, .returned names⟩
  | raised e => exact .ok ⟨_, rfl, .raised e⟩

theorem Stepped.isCall {all : List Script} {r r' : Runner} {deeds : List (Deed α)}
    (h : Stepped table all r deeds r') : ∀ d ∈ deeds, d.IsCall := by
  cases h with
  | unread _ reads => exact isCall_of_isAside reads.aside
  | read reads => exact isCall_of_isAside reads.aside
  | applied _ _ applying => exact applying.isCall
  | _ => exact fun _ h ↦ nomatch h

/-- A runner that came to something stays as it is. -/
theorem Stepped.of_outcome {all : List Script} {r r' : Runner} {deeds : List (Deed α)}
    (h : Stepped table all r deeds r') {result : Except Failure (List String)}
    (hr : r.outcome? = some result) : deeds = [] ∧ r' = r := by
  cases h with
  | returned => exact ⟨rfl, rfl⟩
  | raised => exact ⟨rfl, rfl⟩
  | _ => exact nomatch hr

/-- A step never fails. -/
theorem exists_step (pool : Option Pool) (all : List Script) (r : Runner) (s : Session σ) :
    ∃ r' deeds, (r.step pool table all s).1 = .ok r' ∧
      s.Calls deeds (r.step pool table all s).2 ∧ Stepped table all r deeds r' := by
  obtain ⟨deeds, hpath, r', hstep, hstepped⟩ :
    (step pool table all r).Does id (fun _ ↦ (Change.fail .missingPart : App σ Empty)) s _ :=
    does_step pool all r s
  exact ⟨r', deeds, hstep, ⟨hstepped.isCall, hpath⟩, hstepped⟩

theorem stepped_of_step {pool : Option Pool} {all : List Script} {r r' : Runner} {s : Session σ}
    {deeds : List (Deed Empty)} (step : (r.step pool table all s).1 = .ok r')
    (calls : s.Calls deeds (r.step pool table all s).2) : Stepped table all r deeds r' := by
  obtain ⟨r'', deeds', hstep, hcalls, hstepped⟩ := exists_step pool all r s
  obtain rfl := Except.ok.inj (step.symm.trans hstep)
  obtain rfl := calls.unique hcalls
  exact hstepped

/-! ## Migrations committed by a step -/

/-- What a step makes of a runner, and which migrations it commits. -/
inductive Move (all : List Script) : Runner → List (String × String) → Runner → Prop where
  | read {pending : List Script} (h : pending ⊆ all) : Move all .reading [] (.proceed [] pending)
  | unread (e : Failure) : Move all .reading [] (.raised e)
  | applied {before : List Script} {next : Script} {rest : List Script} {text : String}
      (read : textOf next.2 = .ok text) :
      Move all (.applying before next rest) [(next.1, text)] (.proceed (before ++ [next]) rest)
  | failed {before : List Script} {next : Script} {rest : List Script}
      {done : List (String × String)} (e : Failure)
      (committed : loaded done <+: [Migration.reading next]) :
      Move all (.applying before next rest) done (.raised e)
  | returned (names : List String) : Move all (.returned names) [] (.returned names)
  | raised (e : Failure) : Move all (.raised e) [] (.raised e)

namespace Move

variable {all : List Script} {r r' : Runner} {done : List (String × String)}

theorem ahead_subset (h : Move all r done r') (hr : r.ahead ⊆ all) : r'.ahead ⊆ all := by
  cases h with
  | read h => exact (ahead_proceed _ _).symm ▸ h
  | applied _ => exact (ahead_proceed _ _).symm ▸ List.subset_of_cons_subset hr
  | _ => exact List.nil_subset all

/-- A step commits at most the next migration. -/
theorem loaded_prefix (h : Move all r done r') :
    loaded done <+: (r.ahead.take 1).map Migration.reading := by
  cases h with
  | @applied _ next _ text read =>
    rw [ahead, List.take_succ_cons, List.take_zero, List.map_singleton, Migration.reading, read]
    exact List.prefix_rfl
  | failed e committed => exact committed
  | _ => exact List.nil_prefix

theorem nodup (h : Move all r done r') : (done.map (·.1)).Nodup := by
  have hlength := h.loaded_prefix.length_le
  rw [loaded, List.length_map, List.length_map] at hlength
  have hone := hlength.trans (List.length_take_le 1 _)
  rcases done with _ | ⟨m, rest⟩
  · exact List.nodup_nil
  · have hrest : rest.length = 0 := Nat.le_zero.mp (Nat.succ_le_succ_iff.mp hone)
    obtain rfl := List.length_eq_zero_iff.mp hrest
    exact List.pairwise_singleton _ _

/-- A runner with a migration ahead commits that one and goes on, or it fails. -/
theorem of_ahead {next : Script} {rest : List Script} (h : Move all r done r')
    (hahead : r.ahead = next :: rest) :
    (∃ text, done = [(next.1, text)] ∧ textOf next.2 = .ok text ∧ r'.ahead = rest) ∨
    ∃ e, r' = .raised e ∧ loaded done <+: [Migration.reading next] := by
  cases h with
  | applied read =>
    obtain ⟨rfl, rfl⟩ := List.cons.inj hahead
    exact .inl ⟨_, rfl, read, ahead_proceed _ _⟩
  | failed e committed =>
    obtain ⟨rfl, rfl⟩ := List.cons.inj hahead
    exact .inr ⟨e, rfl, committed⟩
  | _ => exact nomatch hahead

end Move

/-- **A step** makes calls of which there is an account, and moves the runner accordingly. -/
theorem Stepped.accounts {L : Ledger σ table} {d : Directory} {r r' : Runner}
    {deeds : List (Deed α)} {db : σ} (h : Stepped table (scripts d) r deeds r') (hd : L.Allows d)
    (hr : r.ahead ⊆ scripts d) (hanswered : Answered db deeds) :
    ∃ attempted done, L.Accounts db deeds attempted done ∧
      (L.IsUnique → ∀ m ∈ done, m.1 ∉ L.recorded db) ∧ Move (scripts d) r done r' := by
  have hnothing {deeds : List (Deed α)} (haside : ∀ d ∈ deeds, d.IsAside table)
      (hmove : Move (scripts d) r [] r') :
      ∃ attempted done, L.Accounts db deeds attempted done ∧
        (L.IsUnique → ∀ m ∈ done, m.1 ∉ L.recorded db) ∧ Move (scripts d) r done r' :=
    ⟨[], [], .of_aside haside, fun _ _ h ↦ (nomatch h), hmove⟩
  cases h with
  | nothing _ => exact hnothing (fun _ h ↦ nomatch h) (.read (List.nil_subset _))
  | unread e reads => exact hnothing reads.aside (.unread e)
  | read reads => exact hnothing reads.aside (.read (List.filter_subset_self _))
  | returned names => exact hnothing (fun _ h ↦ nomatch h) (.returned names)
  | raised e => exact hnothing (fun _ h ↦ nomatch h) (.raised e)
  | @applied before next rest r deeds applying =>
    obtain ⟨attempted, done, haccounts, hattempted, hdone, -, hok, hunique⟩ :=
      applying.accounts hanswered fun script hscript ↦
        hd.tame script (hr (List.mem_cons.mpr (.inl (List.mem_singleton.mp hscript))))
    refine ⟨attempted, done, haccounts, hunique, ?_⟩
    have hloaded : loaded done <+: [Migration.reading next] :=
      List.IsPrefix.trans (hdone.map _) hattempted
    cases r with
    | error e => exact .failed e hloaded
    | ok u =>
      obtain ⟨⟨name, text⟩, rfl⟩ := List.length_eq_one_iff.mp (hok rfl)
      have hread := (List.cons.inj (hloaded.eq_of_length rfl)).1
      obtain ⟨rfl, htext⟩ := Prod.mk.inj hread
      exact .applied htext.symm

end Runner

end Rowmap.Migration
