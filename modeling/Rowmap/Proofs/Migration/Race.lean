import Mathlib.Logic.Function.Basic
import Rowmap.Proofs.Migration.Memory
import Rowmap.Proofs.Migration.Runner

/-!
# Runs at the same time

Several runners on the same directory and the same table take steps in the order of a schedule.
`Interleaving` is such a course with the calls of each step. The invariant that carries over it is
the one of runs that follow each other: the names in the table are those of the migrations that were
committed, each once. What a runner read may be out of date, but the table takes no name twice, so a
runner that comes too late for a migration fails, and its transaction leaves nothing.
-/

namespace Rowmap.Migration

open Change Deed

variable {σ : Type} [Backend σ] {table : String}

/-! ## Interleavings -/

section

variable {ι : Type} [DecidableEq ι] {pools : ι → Option Pool} {d : Directory}

/-- Steps of runners in one session, one after the other, each with the calls that it makes. -/
inductive Interleaving (pools : ι → Option Pool) (table : String) (d : Directory) :
    (ι → Runner) → Session σ → List (ι × List (Deed Empty)) → (ι → Runner) → Session σ → Prop where
  | nil (runners : ι → Runner) (s : Session σ) : Interleaving pools table d runners s [] runners s
  | cons (i : ι) {runners runners' : ι → Runner} {r : Runner} {s s' : Session σ}
      {deeds : List (Deed Empty)} {trace : List (ι × List (Deed Empty))}
      (step : ((runners i).step (pools i) table (scripts d) s).1 = .ok r)
      (calls : s.Calls deeds ((runners i).step (pools i) table (scripts d) s).2)
      (rest : Interleaving pools table d (Function.update runners i r)
        ((runners i).step (pools i) table (scripts d) s).2 trace runners' s') :
      Interleaving pools table d runners s ((i, deeds) :: trace) runners' s'

/-- The steps of runners in the order of a schedule. -/
def follow (pools : ι → Option Pool) (table : String) (d : Directory) :
    List ι → (ι → Runner) → Session σ → (ι → Runner) × Session σ
  | [], runners, s => (runners, s)
  | i :: schedule, runners, s =>
    match (runners i).step (pools i) table (scripts d) s with
    | (.ok r, s') => follow pools table d schedule (Function.update runners i r) s'
    | (.error _, s') => follow pools table d schedule runners s'

theorem follow_cons {runners : ι → Runner} {s s' : Session σ} {i : ι} {r : Runner}
    (step : (runners i).step (pools i) table (scripts d) s = (.ok r, s')) (schedule : List ι) :
    follow pools table d (i :: schedule) runners s =
      follow pools table d schedule (Function.update runners i r) s' := by
  rw [follow, step]

def callsIn (trace : List (ι × List (Deed Empty))) : List (Deed Empty) := trace.flatMap (·.2)

def callsOf (i : ι) (trace : List (ι × List (Deed Empty))) : List (Deed Empty) :=
  callsIn (trace.filter (·.1 = i))

theorem callsOf_cons_self (i : ι) (deeds : List (Deed Empty))
    (trace : List (ι × List (Deed Empty))) :
    callsOf i ((i, deeds) :: trace) = deeds ++ callsOf i trace := by
  rw [callsOf, List.filter_cons_of_pos (by simp)]
  rfl

theorem callsOf_cons_of_ne {i j : ι} (deeds : List (Deed Empty))
    (trace : List (ι × List (Deed Empty))) (h : j ≠ i) :
    callsOf i ((j, deeds) :: trace) = callsOf i trace := by
  rw [callsOf, List.filter_cons_of_neg (by simpa using h)]
  rfl

/-- What becomes of a runner that is too late for a migration and has others to apply before it. -/
structure Loses (table : String) (i : ι) (before : List Script)
    (trace : List (ι × List (Deed Empty))) (runners : ι → Runner) : Prop where
  /-- It commits none but those. -/
  commits : ∃ done, Commits table (callsOf i trace) done ∧ loaded done <+: before.map reading
  fails : ∀ names, runners i ≠ .returned names
  /-- It has failed once it has taken a step for each of those and one more. -/
  raises : before.length < (trace.map (·.1)).count i → ∃ e, runners i = .raised e

namespace Loses

variable {i j : ι} {before : List Script} {deeds : List (Deed Empty)}
  {trace : List (ι × List (Deed Empty))} {runners : ι → Runner}

theorem cons_self (h : Loses table i before trace runners) {script : Script} {text : String}
    (commits : Commits table deeds [(script.1, text)]) (read : textOf script.2 = .ok text) :
    Loses table i (script :: before) ((i, deeds) :: trace) runners := by
  obtain ⟨done, hcommits, hloaded⟩ := h.commits
  refine ⟨⟨(script.1, text) :: done, ?_, ?_⟩, h.fails, fun hcount ↦ h.raises ?_⟩
  · rw [callsOf_cons_self]
    exact commits.append hcommits
  · rw [loaded, List.map_cons, List.map_cons, reading, read]
    exact (List.prefix_cons_inj _).mpr hloaded
  · rw [List.map_cons, List.count_cons_self] at hcount
    exact Nat.lt_of_succ_lt_succ hcount

theorem cons_of_ne (h : Loses table i before trace runners) (hij : j ≠ i)
    (deeds : List (Deed Empty)) : Loses table i before ((j, deeds) :: trace) runners where
  commits := (callsOf_cons_of_ne deeds trace hij).symm ▸ h.commits
  fails := h.fails
  raises hcount := by
    rw [List.map_cons, List.count_cons_of_ne hij] at hcount
    exact h.raises hcount

end Loses

namespace Interleaving

variable {L : Ledger σ table} {runners runners' : ι → Runner} {s s' : Session σ}
  {trace : List (ι × List (Deed Empty))}

theorem ahead_update {all : List Script} {i : ι} {r : Runner}
    (h : ∀ j, (runners j).ahead ⊆ all) (hr : r.ahead ⊆ all) :
    ∀ j, (Function.update runners i r j).ahead ⊆ all := by
  intro j
  by_cases hij : j = i
  · obtain rfl := hij
    rwa [Function.update_self]
  · rw [Function.update_of_ne hij]
    exact h j

theorem exists_of_schedule (schedule : List ι) (runners : ι → Runner) (s : Session σ) :
    ∃ trace, trace.map (·.1) = schedule ∧ Interleaving pools table d runners s trace
      (follow pools table d schedule runners s).1 (follow pools table d schedule runners s).2 := by
  induction schedule generalizing runners s with
  | nil => exact ⟨[], rfl, .nil runners s⟩
  | cons i schedule ih =>
    obtain ⟨r, deeds, hstep, hcalls, -⟩ :=
      Runner.exists_step (pools i) (scripts d) (runners i) s
    obtain ⟨trace, hschedule, hrest⟩ := ih (Function.update runners i r)
      ((runners i).step (pools i) table (scripts d) s).2
    refine ⟨(i, deeds) :: trace, congrArg (i :: ·) hschedule, .cons i hstep hcalls ?_⟩
    rwa [follow_cons (Prod.ext hstep rfl)]

/-- **What runners do together**: the names recorded are those of the migrations committed, each
once. -/
theorem since (hd : L.Allows d) (hunique : L.IsUnique)
    (h : Interleaving pools table d runners s trace runners' s')
    (hrunners : ∀ i, (runners i).ahead ⊆ scripts d) {start : σ} {earlier : List (String × String)}
    (hearlier : L.Since start s.db earlier) :
    (∀ i, (runners' i).ahead ⊆ scripts d) ∧ s.Calls (callsIn trace) s' ∧
    ∃ done, L.Since start s'.db (earlier ++ done) ∧ Commits table (callsIn trace) done ∧
      loaded done ⊆ (scripts d).map reading := by
  induction h generalizing earlier with
  | nil runners s =>
    refine ⟨hrunners, ⟨fun _ h ↦ (nomatch h), .done s⟩, [], ?_, .nil, List.nil_subset _⟩
    rwa [List.append_nil]
  | @cons i runners runners' r s s' deeds trace step calls rest ih =>
    obtain ⟨hanswered, hafter⟩ := calls.path.answered calls.isCall
    obtain ⟨attempted, done, haccounts, hnew, hmove⟩ :=
      (Runner.stepped_of_step step calls).accounts hd (hrunners i) hanswered
    have hsince := hearlier.append (hafter ▸ haccounts.ends) hmove.nodup (hnew hunique)
    obtain ⟨hahead, hcalls, done', hsince', hcommits, hloaded⟩ :=
      ih (ahead_update hrunners (hmove.ahead_subset (hrunners i))) hsince
    refine ⟨hahead, ⟨List.forall_mem_append.mpr ⟨calls.isCall, hcalls.isCall⟩,
      calls.path.append hcalls.path⟩, done ++ done', ?_, haccounts.commits.append hcommits, ?_⟩
    · rwa [← List.append_assoc]
    · rw [loaded, List.map_append]
      refine List.append_subset.mpr ⟨?_, hloaded⟩
      exact List.Subset.trans hmove.loaded_prefix.subset
        (List.map_subset _ (List.Subset.trans (List.take_subset 1 _) (hrunners i)))

/-- A runner that came to something does nothing more. -/
theorem of_outcome (h : Interleaving pools table d runners s trace runners' s') {i : ι}
    {result : Except Failure (List String)} (hi : (runners i).outcome? = some result) :
    runners' i = runners i ∧ callsOf i trace = [] := by
  induction h with
  | nil runners s => exact ⟨rfl, rfl⟩
  | @cons j runners runners' r s s' deeds trace step calls rest ih =>
    by_cases hij : j = i
    · obtain rfl := hij
      obtain ⟨rfl, rfl⟩ := (Runner.stepped_of_step step calls).of_outcome hi
      rw [callsOf_cons_self]
      have hself := Function.update_self j (runners j) runners
      obtain ⟨hend, hnothing⟩ := ih (hself.symm ▸ hi)
      exact ⟨hend.trans hself, hnothing⟩
    · rw [callsOf_cons_of_ne deeds trace hij]
      have hother := Function.update_of_ne (Ne.symm hij) r runners
      obtain ⟨hend, hnothing⟩ := ih (hother.symm ▸ hi)
      exact ⟨hend.trans hother, hnothing⟩

/-- A runner that fails in its first step, and does nothing more. -/
theorem loses_of_raised (h : Interleaving pools table d runners s trace runners' s') {i : ι}
    {e : Failure} (hi : runners i = .raised e) {deeds : List (Deed Empty)}
    {done : List (String × String)} {before : List Script} (hcommits : Commits table deeds done)
    (hdone : loaded done <+: before.map reading) :
    Loses table i before ((i, deeds) :: trace) runners' := by
  obtain ⟨hend, hnothing⟩ := h.of_outcome (congrArg Runner.outcome? hi)
  replace hend := hend.trans hi
  refine ⟨⟨done, ?_, hdone⟩, fun names hnames ↦ (nomatch hend.symm.trans hnames),
    fun _ ↦ ⟨e, hend⟩⟩
  rwa [callsOf_cons_self, hnothing, List.append_nil]

/-- **Losing a race.** A runner that comes to a migration whose name is recorded fails there, and
applies neither that one nor any after it. -/
theorem loses (hd : L.Allows d) (hunique : L.IsUnique)
    (h : Interleaving pools table d runners s trace runners' s')
    (hrunners : ∀ i, (runners i).ahead ⊆ scripts d) {i : ι} {before later : List Script}
    {lost : Script} (hahead : (runners i).ahead = before ++ lost :: later)
    (hlost : lost.1 ∈ L.recorded s.db) :
    Loses table i before trace runners' := by
  induction h generalizing before with
  | nil runners s =>
    refine ⟨⟨[], .nil, List.nil_prefix⟩, fun names hnames ↦ ?_,
      fun h ↦ absurd h (Nat.not_lt_zero _)⟩
    rw [hnames] at hahead
    exact List.append_ne_nil_of_right_ne_nil _ (List.cons_ne_nil _ _) hahead.symm
  | @cons j runners runners' r s s' deeds trace step calls rest ih =>
    obtain ⟨hanswered, hafter⟩ := calls.path.answered calls.isCall
    obtain ⟨attempted, done, haccounts, hnew, hmove⟩ :=
      (Runner.stepped_of_step step calls).accounts hd (hrunners j) hanswered
    have hrunners' (k : ι) : (Function.update runners j r k).ahead ⊆ scripts d :=
      ahead_update hrunners (hmove.ahead_subset (hrunners j)) k
    have hlost' : lost.1 ∈ L.recorded ((runners j).step (pools j) table (scripts d) s).2.db := by
      rw [← hafter, haccounts.ends]
      exact List.mem_append_left _ hlost
    by_cases hij : j = i
    · obtain rfl := hij
      cases before with
      | nil =>
        rcases hmove.of_ahead hahead with ⟨text, rfl, -⟩ | ⟨e, rfl, hloaded⟩
        · exact absurd hlost (hnew hunique _ (List.mem_singleton_self _))
        · refine rest.loses_of_raised (Function.update_self ..) haccounts.commits ?_
          cases done with
          | nil => exact List.nil_prefix
          | cons m done =>
            have hname := congrArg Prod.fst (List.cons_prefix_cons.mp hloaded).1
            exact absurd hlost (hname ▸ hnew hunique m List.mem_cons_self)
      | cons b before =>
        rcases hmove.of_ahead hahead with ⟨text, rfl, htext, hrest⟩ | ⟨e, rfl, hloaded⟩
        · have hi := congrArg Runner.ahead (Function.update_self j r runners)
          exact (ih hrunners' (hi.trans hrest) hlost').cons_self haccounts.commits htext
        · exact rest.loses_of_raised (Function.update_self ..) haccounts.commits
            (hloaded.trans ((List.prefix_cons_inj _).mpr List.nil_prefix))
    · have hi := congrArg Runner.ahead (Function.update_of_ne (Ne.symm hij) r runners)
      exact (ih hrunners' (hi.trans hahead) hlost').cons_of_ne hij deeds

/-! ### The course of one runner -/

/-- What a runner did after it had found out what to apply. -/
theorem course_of_proceed (h : Interleaving pools table d runners s trace runners' s') {i : ι}
    {before rest : List Script} (hi : runners i = .proceed before rest)
    {result : Except Failure (List String)} (hresult : (runners' i).outcome? = some result) :
    ∃ r, Applying table rest r (callsOf i trace) ∧
      result = r.map fun _ ↦ (before ++ rest).map (·.1) := by
  induction h generalizing before rest with
  | nil runners s =>
    cases rest with
    | nil =>
      rw [hi] at hresult
      refine ⟨.ok (), .nil, ?_⟩
      rw [List.append_nil]
      exact (Option.some.inj hresult).symm
    | cons next rest => exact nomatch hi ▸ hresult
  | @cons j runners runners' r s s' deeds trace step calls more ih =>
    have hstepped := Runner.stepped_of_step step calls
    by_cases hij : j = i
    · obtain rfl := hij
      rw [callsOf_cons_self]
      rw [hi] at hstepped
      have hself := Function.update_self j r runners
      cases rest with
      | nil =>
        obtain ⟨rfl, rfl⟩ := hstepped.of_outcome rfl
        exact ih hself hresult
      | cons next rest =>
        cases hstepped with
        | @applied _ _ _ r _ applying =>
          cases r with
          | error e =>
            obtain ⟨hend, hnothing⟩ := more.of_outcome (congrArg Runner.outcome? hself)
            rw [hend, hself] at hresult
            rw [hnothing, List.append_nil]
            exact ⟨.error e, applying.of_head, (Option.some.inj hresult).symm⟩
          | ok u =>
            obtain ⟨r, hrest, rfl⟩ := ih hself hresult
            refine ⟨r, applying.cons_of_head hrest, ?_⟩
            rw [List.append_assoc]
            rfl
    · rw [callsOf_cons_of_ne deeds trace hij]
      exact ih ((Function.update_of_ne (Ne.symm hij) r runners).trans hi) hresult

/-- **The course of one runner** among others is that of a run. -/
theorem course (h : Interleaving pools table d runners s trace runners' s') {i : ι}
    (hi : runners i = .reading) {result : Except Failure (List String)}
    (hresult : (runners' i).outcome? = some result) :
    Ran table (scripts d) result (callsOf i trace) := by
  induction h with
  | nil runners s => exact nomatch hi ▸ hresult
  | @cons j runners runners' r s s' deeds trace step calls more ih =>
    by_cases hij : j = i
    · obtain rfl := hij
      have hstepped := Runner.stepped_of_step step calls
      rw [callsOf_cons_self]
      rw [hi] at hstepped
      have hself := Function.update_self j r runners
      cases hstepped with
      | nothing empty =>
        obtain ⟨hend, hnothing⟩ := more.of_outcome (congrArg Runner.outcome? hself)
        rw [hend, hself] at hresult
        rw [hnothing]
        exact Option.some.inj hresult ▸ .nothing empty
      | unread e reads =>
        obtain ⟨hend, hnothing⟩ := more.of_outcome (congrArg Runner.outcome? hself)
        rw [hend, hself] at hresult
        rw [hnothing, List.append_nil]
        exact Option.some.inj hresult ▸ .unread e reads
      | read reads =>
        obtain ⟨r, happlying, rfl⟩ := more.course_of_proceed hself hresult
        exact .applied reads happlying
    · rw [callsOf_cons_of_ne deeds trace hij]
      exact ih ((Function.update_of_ne (Ne.symm hij) r runners).trans hi) hresult

end Interleaving

/-! ## A runner alone -/

theorem applyAll_cons (pool : Option Pool) (count index : Nat) (next : Script)
    (rest : List Script) :
    (applyAll pool table count index (next :: rest) : App σ Unit) =
      applyAll pool table count index [next] >>= fun _ ↦
        applyAll pool table count (index + 1) rest := by
  simp only [applyAll, bind_assoc]
  rfl

/-- A runner that goes on alone applies what is ahead of it. -/
theorem follow_proceed (i : ι) (before rest : List Script) (count : Nat)
    (hcount : count = before.length + rest.length) (runners : ι → Runner)
    (hi : runners i = .proceed before rest) (s : Session σ) :
    ∃ n runners', follow pools table d (List.replicate n i) runners s =
        (runners', (applyAll (pools i) table count (before.length + 1) rest s).2) ∧
      (runners' i).outcome? =
        some ((applyAll (pools i) table count (before.length + 1) rest s).1.map fun _ ↦
          (before ++ rest).map (·.1)) := by
  induction rest generalizing before runners s with
  | nil =>
    refine ⟨0, runners, rfl, ?_⟩
    rw [hi, List.append_nil]
    rfl
  | cons next rest ih =>
    rw [applyAll_cons]
    cases hrun : applyAll (pools i) table count (before.length + 1) [next] s with
    | mk result s₁ =>
      have hstep : (runners i).step (pools i) table (scripts d) s =
          (.ok (.resume before next rest result), s₁) := by
        rw [hi]
        exact Runner.step_applying (hcount ▸ hrun) (scripts d)
      cases result with
      | error e =>
        rw [bind_of_error _ hrun]
        refine ⟨1, _, follow_cons hstep [], ?_⟩
        rw [Function.update_self]
        rfl
      | ok u =>
        rw [bind_of_ok _ hrun]
        have hcount' : count = (before ++ [next]).length + rest.length := by
          rw [hcount, List.length_append, List.length_cons, List.length_singleton]
          omega
        obtain ⟨n, runners', hrest, houtcome⟩ :=
          ih (before ++ [next]) hcount' _ (Function.update_self ..) s₁
        rw [List.length_append] at hrest houtcome
        rw [List.append_assoc] at houtcome
        exact ⟨n + 1, runners', (follow_cons hstep _).trans hrest, houtcome⟩

omit [Backend σ] in
theorem bind_ok_apply {α β : Type} (x : App σ α) (f : α → β) (s : Session σ) :
    (x >>= fun a ↦ .ok (f a)) s = ((x s).1.map f, (x s).2) := by
  obtain ⟨a, t, hrun, hthen⟩ | ⟨e, t, hrun, hthen⟩ := bind_cases x (fun a ↦ .ok (f a)) s <;>
    rw [hthen, hrun]
  · rfl
  · rfl

/-- **A runner alone** does what a run does. -/
theorem follow_alone (i : ι) (runners : ι → Runner) (hi : runners i = .reading) (s : Session σ) :
    ∃ n runners', follow pools table d (List.replicate n i) runners s =
        (runners', (run (pools i) (some d) table s).2) ∧
      (runners' i).outcome? = some (run (pools i) (some d) table s).1 := by
  rw [run_eq, runOf]
  split
  next hempty =>
    have hstep : (runners i).step (pools i) table (scripts d) s =
        (.ok (.returned []), (App.tell (.pendingMigrations 0) s).2) := by
      rw [hi, Runner.step, if_pos hempty]
      rfl
    refine ⟨1, _, follow_cons hstep [], ?_⟩
    rw [Function.update_self]
    rfl
  next hempty =>
    cases hrun : App.connected (pools i) false (some (applied table)) s with
    | mk result s₁ =>
      have hattempt : (App.connected (pools i) false (some (applied table))).attempt s =
          (.ok result, s₁) := by rw [attempt_apply, hrun]
      cases result with
      | error e =>
        have hstep : (runners i).step (pools i) table (scripts d) s = (.ok (.raised e), s₁) := by
          rw [hi, Runner.step, if_neg hempty, bind_of_ok _ hattempt]
          rfl
        rw [bind_of_error _ hrun]
        refine ⟨1, _, follow_cons hstep [], ?_⟩
        rw [Function.update_self]
        rfl
      | ok listed =>
        -- what the runner applies, and the session in which it begins to
        let pending := (scripts d).filter (isPending listed)
        let told : Session σ := (App.tell (.pendingMigrations pending.length) s₁).2
        have hstep : (runners i).step (pools i) table (scripts d) s =
            (.ok (.proceed [] pending), told) := by
          rw [hi, Runner.step, if_neg hempty, bind_of_ok _ hattempt]
          rfl
        have hfinish := bind_ok_apply (applyAll (pools i) table pending.length 1 pending)
          (fun _ ↦ pending.map (·.1)) told
        obtain ⟨n, runners', hrest, houtcome⟩ :=
          follow_proceed i [] pending pending.length (Nat.zero_add _).symm _
            (Function.update_self ..) told
        rw [bind_of_ok _ hrun]
        refine ⟨n + 1, runners', (follow_cons hstep _).trans (hrest.trans ?_),
          houtcome.trans ?_⟩
        · exact congrArg (runners', ·) (congrArg Prod.snd hfinish).symm
        · exact (congrArg (some ·.1) hfinish).symm

/-- What runners came to that began together and took steps in turn. -/
structure CommitsOnce (L : Ledger σ table) (pools : ι → Option Pool) (d : Directory)
    (s : Session σ) (trace : List (ι × List (Deed Empty))) (runners : ι → Runner)
    (s' : Session σ) : Prop where
  interleaving : Interleaving pools table d (fun _ ↦ .reading) s trace runners s'
  calls : s.Calls (callsIn trace) s'
  /-- The names recorded since the start are those of the migrations committed, each once. -/
  commits : ∃ done, Commits table (callsIn trace) done ∧ L.Since s.db s'.db done ∧
    loaded done ⊆ (scripts d).map reading
  /-- What a runner did is what a run does. -/
  course : ∀ i result, (runners i).outcome? = some result →
    Ran table (scripts d) result (callsOf i trace)
  /-- A runner that has a migration ahead whose name is recorded will fail before it applies this
  one or any after it. -/
  loses : ∀ i before lost later, (runners i).ahead = before ++ lost :: later →
    lost.1 ∈ L.recorded s'.db → ∀ trace' runners' s'',
    Interleaving pools table d runners s' trace' runners' s'' → Loses table i before trace' runners'

/-- **Runners at the same time** commit each migration once at most, whatever the schedule, and one
that comes too late for a migration fails. A runner alone does what a run does. -/
theorem commits_once {L : Ledger σ table} (hd : L.Allows d) (hunique : L.IsUnique)
    (pools : ι → Option Pool) (s : Session σ) :
    (∀ schedule, ∃ runners s' trace,
      follow pools table d schedule (fun _ ↦ .reading) s = (runners, s') ∧
      trace.map (·.1) = schedule ∧ CommitsOnce L pools d s trace runners s') ∧
    ∀ i, ∃ n runners,
      follow pools table d (List.replicate n i) (fun _ ↦ .reading) s =
        (runners, (run (pools i) (some d) table s).2) ∧
      (runners i).outcome? = some (run (pools i) (some d) table s).1 := by
  have hreading (i : ι) : ((fun _ ↦ .reading : ι → Runner) i).ahead ⊆ scripts d :=
    List.nil_subset _
  refine ⟨fun schedule ↦ ?_, fun i ↦ follow_alone i _ rfl s⟩
  obtain ⟨trace, hschedule, hinterleaving⟩ := Interleaving.exists_of_schedule schedule _ s
  obtain ⟨hahead, hcalls, done, hsince, hcommits, hloaded⟩ :=
    hinterleaving.since hd hunique hreading (.refl L s.db)
  refine ⟨_, _, trace, rfl, hschedule, hinterleaving, hcalls, ⟨done, hcommits, hsince, hloaded⟩,
    fun i result hresult ↦ hinterleaving.course rfl hresult, ?_⟩
  exact fun i before lost later hlater hlost _ _ _ hfurther ↦
    hfurther.loses hd hunique hahead hlater hlost

end

def twoMigrations : Directory :=
  [("a.sql", .file "A"), ("b.sql", .file "B"), ("notes.txt", .file "N")]

def onePool : Bool → Option Pool := fun _ ↦ some ⟨"p"⟩

theorem commits_once_late : ∃ runners s trace, ∃ runners' : Bool → Runner, ∃ s' trace',
    CommitsOnce Memory.ledger onePool twoMigrations { db := {} } trace runners s ∧
    Interleaving onePool defaultTable twoMigrations runners s trace' runners' s' ∧
    Loses defaultTable false [] trace' runners' ∧ s'.db.recorded = ["a", "b"] ∧
    runners' true = .returned ["a", "b"] ∧ runners' false = .raised Memory.refusal := by
  have hscripts : scripts twoMigrations = [("a", .file "A"), ("b", .file "B")] := by
    rw [scripts, List.mergeSort_of_pairwise (by decide)]
    rfl
  have hallowed : Memory.ledger.Allows twoMigrations :=
    ⟨by decide, fun _ _ text _ ↦ Memory.ledger_tame text⟩
  obtain ⟨hschedules, -⟩ := commits_once hallowed Memory.ledger_isUnique onePool { db := {} }
  obtain ⟨runners, s, trace, hfollow, -, hcommits⟩ := hschedules [true, false, true]
  obtain ⟨trace', -, hfurther⟩ := Interleaving.exists_of_schedule [true, false] runners s
  obtain ⟨rfl, rfl⟩ := Prod.mk.inj hfollow
  have hlost : "a" ∈ (follow onePool defaultTable twoMigrations [true, false, true]
      (fun _ ↦ .reading) ({ db := {} } : Session Memory)).2.db.recorded := by
    simp only [follow, hscripts]
    exact List.mem_singleton_self "a"
  refine ⟨_, _, trace, _, _, trace', hcommits, hfurther, hcommits.loses false []
    ("a", .file "A") [("b", .file "B")] ?_ hlost _ _ _ hfurther, ?_⟩
  · simp only [follow, hscripts]
    rfl
  · simp only [follow, hscripts]
    exact ⟨rfl, rfl, rfl⟩

end Rowmap.Migration
