import Rowmap.Proofs.Migration.Memory

/-!
# Runs one after the other

Each migration is applied at most once, over any history of runs, each of which may fail anywhere.
What carries this over a history is that the names in the table are those that were there at the
start and, after them, those of the migrations that were committed since, each once.
-/

namespace Rowmap.Migration

open Deed

variable {σ α : Type} [Backend σ] {table : String} {L : Ledger σ table}

/-! ## One run -/

/-- **One run** attempts pending migrations in their order, and commits all of them but the last one
that it attempted at any rate. -/
theorem run_accounts {d : Directory} (hd : L.Allows d) (pool : Option Pool) (s : Session σ) :
    ∃ deeds attempted done, s.Calls deeds (run pool (some d) table s).2 ∧
      Ran table (scripts d) (run pool (some d) table s).1 deeds ∧
      L.Accounts s.db deeds attempted done ∧
      loaded attempted <+: (pending (L.recorded s.db) (scripts d)).map reading ∧
      done <+: attempted ∧ attempted.length ≤ done.length + 1 ∧
      ∀ names, (run pool (some d) table s).1 = .ok names → names = done.map (·.1) ∧
        loaded done = (pending (L.recorded s.db) (scripts d)).map reading := by
  obtain ⟨deeds, hpath, hran⟩ :
      (run pool (some d) table).Does id (fun _ ↦ (Change.fail .missingPart : App σ Empty)) s _ :=
    does_run pool d
  have hcalls : s.Calls deeds (run pool (some d) table s).2 := ⟨hran.isCall, hpath⟩
  have hanswered := (hpath.answered hran.isCall).1
  generalize hr : (run pool (some d) table s).1 = r at hran ⊢
  have hran' := hran
  cases hran with
  | nothing hempty =>
    refine ⟨[], [], [], hcalls, hran', .nil, List.nil_prefix, List.prefix_rfl, Nat.zero_le _,
      fun names hnames ↦ ⟨(Except.ok.inj hnames).symm, ?_⟩⟩
    rw [hempty]
    rfl
  | unread e reads =>
    exact ⟨deeds, [], [], hcalls, hran', .of_aside reads.aside, List.nil_prefix, List.prefix_rfl,
      Nat.zero_le _, nofun⟩
  | @applied listed r deeds more reads applying =>
    obtain ⟨hreads, hmore⟩ := answered_append.mp hanswered
    obtain ⟨names, hperm, rfl⟩ := reads.listed (L := L) hreads
    rw [filter_isPending hperm] at applying hran' ⊢
    obtain ⟨attempted, done, haccounts, hattempted, hdone, hlength, hok, -⟩ :=
      applying.accounts hmore fun script hscript ↦ hd.tame script (mem_pending.mp hscript).1
    have hreadings : r = .ok () →
        loaded done = (pending (L.recorded s.db) (scripts d)).map reading := fun hr ↦ by
      refine (List.IsPrefix.trans (hdone.map _) hattempted).eq_of_length ?_
      rw [List.length_map, List.length_map, hok hr]
    refine ⟨deeds ++ more, attempted, done, hcalls, hran',
      (Ledger.Accounts.of_aside reads.aside).append haccounts, hattempted, hdone, hlength,
      fun names' hnames ↦ ?_⟩
    cases r with
    | error e => exact nomatch hnames
    | ok u =>
      refine ⟨?_, hreadings rfl⟩
      have hnames' := congrArg (List.map (·.1)) (hreadings rfl)
      simp only [loaded, List.map_map] at hnames'
      exact (Except.ok.inj hnames).symm.trans hnames'.symm

/-! ## Histories -/

/-- What became of a session by runs of migrations, with all that they did. Whatever happens between
two runs leaves the table as it is. -/
inductive History (L : Ledger σ table) (start : Session σ) :
    List (Deed Empty) → Session σ → Prop where
  | start : History L start [] start
  | run {s : Session σ} {past deeds : List (Deed Empty)} (before : History L start past s)
      (pool : Option Pool) {d : Directory} (allowed : L.Allows d)
      (calls : s.Calls deeds (run pool (some d) table s).2) :
      History L start (past ++ deeds) (run pool (some d) table s).2
  | between {s : Session σ} {past : List (Deed Empty)} (before : History L start past s)
      (s' : Session σ) (kept : L.recorded s'.db = L.recorded s.db) : History L start past s'

/-- A run in a history that applies no migration twice. -/
structure AppliesOnce (L : Ledger σ table) (start s s' : Session σ) (past deeds : List (Deed Empty))
    (all : List Script) (attempted done : List (String × String))
    (result : Except Failure (List String)) : Prop where
  /-- At every moment, the names recorded since the start are those of the migrations committed
  since the start. -/
  agrees : ∀ before, before <+: deeds → L.Agrees start.db (past ++ before) (after s.db before)
  /-- The migrations that are executed are the first of the pending ones. -/
  ordered : loaded attempted <+: (pending (L.recorded s.db) all).map reading
  executes : executed deeds = attempted.map (·.2)
  /-- No migration is executed whose name is recorded. -/
  fresh : ∀ before c text reply after,
    deeds = before ++ .called (.driverExecute c text []) reply :: after →
    ∃ name, attempted[(executed before).length]? = some (name, text) ∧
      name ∉ L.recorded (Deed.after s.db before)
  commits : committed deeds = done.map (statements table)
  /-- A migration that is executed and not committed is the last one. -/
  stops : done <+: attempted ∧ attempted.length ≤ done.length + 1
  course : Ran table all result deeds
  returns : ∀ names, result = .ok names → names = done.map (·.1) ∧
    loaded done = (pending (L.recorded s.db) all).map reading ∧
    ∀ script ∈ all, script.1 ∈ L.recorded s'.db

namespace History

variable {start s : Session σ} {past deeds : List (Deed Empty)}

/-- What is true between runs. -/
theorem since (h : History L start past s) :
    ∃ done, L.Since start.db s.db done ∧ Commits table past done := by
  induction h with
  | start => exact ⟨[], .refl L _, .nil⟩
  | @run s past deeds _ pool d allowed calls ih =>
    obtain ⟨done, hsince, hcommits⟩ := ih
    obtain ⟨deeds', attempted, more, hcalls, -, haccounts, hattempted, hmore, -, -⟩ :=
      run_accounts allowed pool s
    obtain rfl := calls.unique hcalls
    obtain ⟨hnodup, hfresh⟩ :=
      names_of_loaded (isMigrationsOf_scripts allowed.distinct).nodup hattempted
    have hafter := (hcalls.path.answered hcalls.isCall).2
    refine ⟨done ++ more, hsince.append ?_ ?_ ?_, hcommits.append haccounts.commits⟩
    · rw [← hafter, haccounts.ends]
    · exact hnodup.sublist (hmore.map _).sublist
    · exact fun m hm ↦ hfresh m (hmore.subset hm)
  | between _ s' kept ih =>
    obtain ⟨done, hsince, hcommits⟩ := ih
    exact ⟨done, ⟨kept.trans hsince.recorded, hsince.nodup, hsince.fresh⟩, hcommits⟩

/-- **Each migration is applied at most once** over any history of runs. -/
theorem applies_once (h : History L start past s) (pool : Option Pool) {d : Directory}
    (hd : L.Allows d) :
    ∃ deeds all attempted done, s.Calls deeds (Migration.run pool (some d) table s).2 ∧
      IsMigrationsOf d all ∧
      AppliesOnce L start s (Migration.run pool (some d) table s).2 past deeds all attempted done
        (Migration.run pool (some d) table s).1 := by
  obtain ⟨earlier, hsince, hcommits⟩ := h.since
  obtain ⟨deeds, attempted, done, hcalls, hran, haccounts, hattempted, hdone, hlength, hreturns⟩ :=
    run_accounts hd pool s
  have hall := isMigrationsOf_scripts hd.distinct
  obtain ⟨hnodup, hfresh⟩ := names_of_loaded hall.nodup hattempted
  refine ⟨deeds, scripts d, attempted, done, hcalls, hall, ?_⟩
  constructor
  case agrees =>
    intro before hbefore
    obtain ⟨done', hdone', -, hcommitted, hrecorded⟩ := haccounts.moments before hbefore
    have hattempt := hdone'.trans hdone
    refine ⟨earlier ++ done', ?_, hsince.append hrecorded ?_ fun m hm ↦ ?_⟩
    · rw [hcommits.committed_append, hcommitted, List.map_append]
    · exact hnodup.sublist (hattempt.map _).sublist
    · exact hfresh m (hattempt.subset hm)
  case ordered => exact hattempted
  case executes => exact haccounts.runs
  case fresh =>
    intro before c text reply after hdeeds
    exact haccounts.not_recorded_of_executed hdone hnodup hfresh hdeeds
  case commits => exact haccounts.commits.committed_eq
  case stops => exact ⟨hdone, hlength⟩
  case course => exact hran
  case returns =>
    intro names hnames
    obtain ⟨rfl, hreadings⟩ := hreturns names hnames
    refine ⟨rfl, hreadings, fun script hscript ↦ ?_⟩
    rw [← (hcalls.path.answered hcalls.isCall).2, haccounts.ends, List.mem_append]
    by_cases hrecorded : script.1 ∈ L.recorded s.db
    · exact .inl hrecorded
    · refine .inr ?_
      have hnames := congrArg (List.map (·.1)) hreadings
      rw [loaded, List.map_map, List.map_map] at hnames
      have hscript : script.1 ∈ (pending (L.recorded s.db) (scripts d)).map (·.1) :=
        List.mem_map_of_mem (mem_pending.mpr ⟨hscript, hrecorded⟩)
      exact hnames ▸ hscript

def failing : Directory :=
  [("a.sql", .file "A"), ("b.sql", .file "B"), ("c.sql", .file "broken"), ("notes.txt", .file "N")]

/-- That directory with this migration repaired, and another one. -/
def repaired : Directory :=
  [("a.sql", .file "A"), ("b.sql", .file "B"), ("c.sql", .file "C"), ("d.sql", .file "D"),
    ("notes.txt", .file "N")]

def firstApplied : Session Memory where
  db := { recorded := ["a"], failing := ["broken"] }

/-- That session after a run with the failing migration. -/
def afterFailure : Session Memory :=
  (Migration.run (some ⟨"p"⟩) (some failing) defaultTable firstApplied).2

theorem applies_once_repaired :
    (Migration.run (some ⟨"p"⟩) (some failing) defaultTable firstApplied).1 =
      .error Memory.refusal ∧
    (Migration.run (some ⟨"p"⟩) (some repaired) defaultTable afterFailure).1 = .ok ["c", "d"] ∧
    ∃ past deeds all attempted done, History Memory.ledger firstApplied past afterFailure ∧
      afterFailure.Calls deeds
        (Migration.run (some ⟨"p"⟩) (some repaired) defaultTable afterFailure).2 ∧
      IsMigrationsOf repaired all ∧
      AppliesOnce Memory.ledger firstApplied afterFailure
        (Migration.run (some ⟨"p"⟩) (some repaired) defaultTable afterFailure).2 past deeds all
        attempted done
        (Migration.run (some ⟨"p"⟩) (some repaired) defaultTable afterFailure).1 := by
  have hfailing : scripts failing =
      [("a", .file "A"), ("b", .file "B"), ("c", .file "broken")] := by
    rw [scripts, List.mergeSort_of_pairwise (by decide)]
    rfl
  have hrepaired : scripts repaired =
      [("a", .file "A"), ("b", .file "B"), ("c", .file "C"), ("d", .file "D")] := by
    rw [scripts, List.mergeSort_of_pairwise (by decide)]
    rfl
  have hallowed {d : Directory} (hd : (d.map (·.1)).Nodup) : Memory.ledger.Allows d :=
    ⟨hd, fun _ _ text _ ↦ Memory.ledger_tame text⟩
  obtain ⟨past, -, -, hcalls, -⟩ := run_accounts (hallowed (by decide : (failing.map (·.1)).Nodup))
    (some ⟨"p"⟩) firstApplied
  have hhistory : History Memory.ledger firstApplied past afterFailure :=
    .run .start (some ⟨"p"⟩) (hallowed (by decide)) hcalls
  obtain ⟨deeds, all, attempted, done, hruns⟩ :=
    hhistory.applies_once (some ⟨"p"⟩) (hallowed (by decide : (repaired.map (·.1)).Nodup))
  refine ⟨?_, ?_, past, deeds, all, attempted, done, hhistory, hruns⟩
  · rw [run_eq, hfailing]
    rfl
  · rw [afterFailure, run_eq, run_eq, hfailing, hrepaired]
    rfl

end History

end Rowmap.Migration
