import Rowmap.Proofs.Migration.Course
import Rowmap.Proofs.Migration.Scripts

/-!
# The table of applied migrations

A ledger says what a database makes of the calls of a run: which names its table has, and which ones
the transaction on a connection is about to enter. Transactions are atomic: nothing is entered
before a commit, a commit enters all that its transaction did, and nothing else enters anything.

`Accounts` says of calls which migrations they executed and which of these they committed, with
their statements, at the end and at every moment before it. Accounts of calls one after the other
add up.
-/

namespace Rowmap.Migration

open Deed

variable {σ α : Type} [Backend σ] {table name text : String}

/-- A database with a table of applied migrations and atomic transactions of the driver. -/
structure Ledger (σ : Type) [Backend σ] (table : String) where
  /-- The names in the table. -/
  recorded : σ → List String
  /-- The names that the transaction on a connection will have entered when it is committed. -/
  entered : σ → Connection → List String
  aside : ∀ call, isAside table call = true →
    ∀ db, recorded (Backend.perform call db).2 = recorded db
  starts : ∀ c db, recorded (Backend.perform (.startTransaction c) db).2 = recorded db ∧
    ((Backend.perform (.startTransaction c) db).1 = .ok () →
      entered (Backend.perform (.startTransaction c) db).2 c = [])
  enters : ∀ c name db,
    recorded (Backend.perform (.driverExecute c (entryStatement table) [.text name]) db).2 =
      recorded db ∧
    ((Backend.perform (.driverExecute c (entryStatement table) [.text name]) db).1 = .ok () →
      entered (Backend.perform (.driverExecute c (entryStatement table) [.text name]) db).2 c =
        entered db c ++ [name])
  commits : ∀ c db, (Backend.perform (.commitTransaction c) db).1 = .ok () →
    recorded (Backend.perform (.commitTransaction c) db).2 = recorded db ++ entered db c
  failsToCommit : ∀ c db e, (Backend.perform (.commitTransaction c) db).1 = .error e →
    recorded (Backend.perform (.commitTransaction c) db).2 = recorded db
  rollsBack : ∀ c db, recorded (Backend.perform (.rollbackTransaction c) db).2 = recorded db
  /-- The table is listed as it is, in any order. -/
  lists : ∀ c db outcome, (Backend.perform (.exec c (listStatement table) []) db).1 = .ok outcome →
    ∃ names : List String, names.Perm (recorded db) ∧
      (outcome : Outcome).rows = names.map fun name ↦ [("key", .text name)]

def statements (table : String) (migration : String × String) : List Statement :=
  [⟨migration.2, []⟩, ⟨entryStatement table, [.text migration.1]⟩]

/-- The texts without values that the driver was given to execute. -/
def executed (deeds : List (Deed α)) : List String := deeds.filterMap script?

/-- The transactions of the driver that were committed, with their statements. -/
def committed (deeds : List (Deed α)) : List (List Statement) :=
  (deeds.foldl Journal.note {}).committed

theorem executed_append (deeds more : List (Deed α)) :
    executed (deeds ++ more) = executed deeds ++ executed more := List.filterMap_append

/-- Deeds that commit migrations and leave no transaction open. -/
def Commits (table : String) (deeds : List (Deed α)) (done : List (String × String)) : Prop :=
  ∀ past, deeds.foldl Journal.note { committed := past } =
    { committed := past ++ done.map (statements table) }

namespace Commits

variable {deeds more : List (Deed α)} {done done' : List (String × String)}

theorem of_opened_eq_nil
    (hopened : ∀ past c, (deeds.foldl Journal.note { committed := past }).opened c = [])
    (hcommitted : ∀ past, (deeds.foldl Journal.note { committed := past }).committed =
      past ++ done.map (statements table)) : Commits table deeds done := fun past ↦ by
  have hfunext := funext (hopened past)
  have hcommitted := hcommitted past
  cases hj : deeds.foldl Journal.note { committed := past } with
  | mk opened committed =>
    rw [hj] at hfunext hcommitted
    exact congr (congrArg Journal.mk hfunext) hcommitted

theorem of_foldl_eq (h : ∀ past, deeds.foldl Journal.note { committed := past } =
    { committed := past }) : Commits table deeds [] := fun past ↦
  (h past).trans (congrArg _ (List.append_nil past).symm)

theorem nil : Commits table ([] : List (Deed α)) [] := of_foldl_eq fun _ ↦ rfl

theorem append (h : Commits table deeds done) (h' : Commits table more done') :
    Commits table (deeds ++ more) (done ++ done') := fun past ↦ by
  rw [List.foldl_append, h, h', List.append_assoc, List.map_append]

theorem committed_eq (h : Commits table deeds done) :
    committed deeds = done.map (statements table) := congrArg Journal.committed (h [])

theorem committed_append (h : Commits table deeds done) (more : List (Deed α)) :
    committed (deeds ++ more) = done.map (statements table) ++ committed more := by
  rw [committed, List.foldl_append, h [], Journal.committed_foldl]
  rfl

end Commits

namespace Ledger

variable (L : Ledger σ table)

/-- A text that leaves the table alone and does not end its transaction. -/
def Tame (text : String) : Prop := ∀ c db,
  L.recorded (Backend.perform (.driverExecute c text []) db).2 = L.recorded db ∧
  ((Backend.perform (.driverExecute c text []) db).1 = .ok () →
    L.entered (Backend.perform (.driverExecute c text []) db).2 c = L.entered db c)

/-- A table that takes no name a second time. -/
def IsUnique : Prop := ∀ c name db,
  (Backend.perform (.driverExecute c (entryStatement table) [.text name]) db).1 = .ok () →
    name ∉ L.recorded db

/-- An account of calls: the migrations that they attempted, and those of them that they committed.
-/
structure Accounts (db : σ) (deeds : List (Deed α)) (attempted done : List (String × String)) :
    Prop where
  runs : executed deeds = attempted.map (·.2)
  bound : done.length ≤ attempted.length
  commits : Commits table deeds done
  ends : L.recorded (after db deeds) = L.recorded db ++ done.map (·.1)
  moments : ∀ before, before <+: deeds → ∃ done', done' <+: done ∧
    done'.length ≤ (executed before).length ∧
    committed before = done'.map (statements table) ∧
    L.recorded (after db before) = L.recorded db ++ done'.map (·.1)

variable {L} {db : σ} {deeds more : List (Deed α)} {attempted done : List (String × String)}

namespace Accounts

/-- **Accounts add up.** -/
theorem append {attempted' done' : List (String × String)}
    (h : L.Accounts db deeds attempted done)
    (h' : L.Accounts (after db deeds) more attempted' done') :
    L.Accounts db (deeds ++ more) (attempted ++ attempted') (done ++ done') where
  runs := by rw [executed_append, h.runs, h'.runs, List.map_append]
  bound := by
    rw [List.length_append, List.length_append]
    exact Nat.add_le_add h.bound h'.bound
  commits := h.commits.append h'.commits
  ends := by rw [after_append, h'.ends, h.ends, List.map_append, List.append_assoc]
  moments before hbefore := by
    obtain ⟨rest, hrest⟩ := hbefore
    rcases List.append_eq_append_iff.mp hrest with ⟨rest', rfl, -⟩ | ⟨before', rfl, rfl⟩
    · obtain ⟨done₁, hdone, hmoment⟩ := h.moments before (List.prefix_append before rest')
      exact ⟨done₁, hdone.trans (List.prefix_append done done'), hmoment⟩
    · obtain ⟨done₁, hdone, hlength, hcommitted, hrecorded⟩ :=
        h'.moments before' (List.prefix_append before' rest)
      refine ⟨done ++ done₁, (List.prefix_append_right_inj done).mpr hdone, ?_, ?_, ?_⟩
      · rw [executed_append, List.length_append, List.length_append, h.runs, List.length_map]
        exact Nat.add_le_add h.bound hlength
      · rw [h.commits.committed_append, hcommitted, List.map_append]
      · rw [after_append, hrecorded, h.ends, List.map_append, List.append_assoc]

end Accounts

/-! ## Deeds that enter nothing -/

/-- A deed that commits nothing and leaves the table as it is. -/
def Idle (L : Ledger σ table) (d : Deed α) : Prop :=
  (∀ db, L.recorded (after db [d]) = L.recorded db) ∧
    ∀ j, (Journal.note j d).committed = j.committed

theorem idle_of_isAside {d : Deed α} (h : d.IsAside table) : L.Idle d := by
  refine ⟨fun db ↦ ?_, fun j ↦ by rw [Journal.note_of_isAside h]⟩
  cases d with
  | called call reply => exact L.aside call h db
  | used c r => exact h.elim

theorem idle_startTransaction (c : Connection) (reply) :
    L.Idle (.called (.startTransaction c) reply : Deed α) :=
  ⟨fun db ↦ (L.starts c db).1, fun j ↦ by cases reply <;> rfl⟩

theorem Tame.idle (h : L.Tame text) (c : Connection) (reply) :
    L.Idle (.called (.driverExecute c text []) reply : Deed α) :=
  ⟨fun db ↦ (h c db).1, fun j ↦ by cases reply <;> rfl⟩

theorem idle_enter (c : Connection) (name : String) (reply) :
    L.Idle (.called (.driverExecute c (entryStatement table) [.text name]) reply : Deed α) :=
  ⟨fun db ↦ (L.enters c name db).1, fun j ↦ by cases reply <;> rfl⟩

theorem idle_rollbackTransaction (c : Connection) (reply) :
    L.Idle (.called (.rollbackTransaction c) reply : Deed α) :=
  ⟨fun db ↦ L.rollsBack c db, fun _ ↦ rfl⟩

theorem recorded_after_of_idle (h : ∀ d ∈ deeds, L.Idle d) (db : σ) :
    L.recorded (after db deeds) = L.recorded db := by
  induction deeds generalizing db with
  | nil => rfl
  | cons d deeds ih =>
    obtain ⟨hd, hdeeds⟩ := List.forall_mem_cons.mp h
    rw [← List.singleton_append, after_append, ih hdeeds, hd.1]

theorem committed_of_idle (h : ∀ d ∈ deeds, L.Idle d) : committed deeds = [] := by
  have hfold (j : Journal) : (deeds.foldl Journal.note j).committed = j.committed := by
    induction deeds generalizing j with
    | nil => rfl
    | cons d deeds ih =>
      obtain ⟨hd, hdeeds⟩ := List.forall_mem_cons.mp h
      rw [List.foldl_cons, ih hdeeds, hd.2]
  exact hfold {}

namespace Accounts

theorem moment_of_idle {before : List (Deed α)} (h : ∀ d ∈ before, L.Idle d) :
    ∃ done', done' <+: done ∧ done'.length ≤ (executed before).length ∧
      committed before = done'.map (statements table) ∧
      L.recorded (after db before) = L.recorded db ++ done'.map (·.1) :=
  ⟨[], List.nil_prefix, Nat.zero_le _, committed_of_idle h,
    (recorded_after_of_idle h db).trans (List.append_nil _).symm⟩

/-- An account of deeds that enter nothing, and leave no transaction open. -/
theorem of_idle (h : ∀ d ∈ deeds, L.Idle d) (runs : executed deeds = attempted.map (·.2))
    (commits : Commits table deeds []) : L.Accounts db deeds attempted [] where
  runs := runs
  bound := Nat.zero_le _
  commits := commits
  ends := (recorded_after_of_idle h db).trans (List.append_nil _).symm
  moments _ hbefore := moment_of_idle fun d hd ↦ h d (hbefore.subset hd)

theorem of_aside (h : ∀ d ∈ deeds, d.IsAside table) : L.Accounts db deeds [] [] := by
  refine of_idle (fun d hd ↦ idle_of_isAside (h d hd)) ?_ (.of_foldl_eq fun _ ↦
    Journal.foldl_note_of_isAside h _)
  refine List.filterMap_eq_nil_iff.mpr fun d hd ↦ ?_
  have hd := h d hd
  cases d with
  | used c r => rfl
  | called call reply => cases call <;> first | rfl | exact absurd hd Bool.false_ne_true

theorem nil : L.Accounts db ([] : List (Deed α)) [] [] := of_aside fun _ h ↦ nomatch h

theorem of_idle_append {last : Deed α} (hidle : ∀ d ∈ deeds, L.Idle d)
    (runs : executed (deeds ++ [last]) = attempted.map (·.2))
    (bound : done.length ≤ attempted.length)
    (commits : Commits table (deeds ++ [last]) done)
    (ends : L.recorded (after (after db deeds) [last]) =
      L.recorded (after db deeds) ++ done.map (·.1)) :
    L.Accounts db (deeds ++ [last]) attempted done where
  runs := runs
  bound := bound
  commits := commits
  ends := by rw [after_append, ends, recorded_after_of_idle hidle]
  moments before hbefore := by
    rcases List.prefix_concat_iff.mp hbefore with rfl | hbefore
    · refine ⟨done, List.prefix_rfl, ?_, commits.committed_eq, ?_⟩
      · rwa [runs, List.length_map]
      · rw [after_append, ends, recorded_after_of_idle hidle]
    · exact moment_of_idle fun d hd ↦ hidle d (hbefore.subset hd)

/-- A migration that is executed was not in the table at that moment: what is committed then was
attempted before it. -/
theorem not_recorded_of_executed (h : L.Accounts db deeds attempted done)
    (hdone : done <+: attempted) (hnodup : (attempted.map (·.1)).Nodup)
    (hfresh : ∀ m ∈ attempted, m.1 ∉ L.recorded db) {before after' : List (Deed α)}
    {c : Connection} {reply}
    (hdeeds : deeds = before ++ .called (.driverExecute c text []) reply :: after') :
    ∃ name, attempted[(executed before).length]? = some (name, text) ∧
      name ∉ L.recorded (after db before) := by
  obtain ⟨done', hdone', hlength, -, hrecorded⟩ := h.moments before ⟨_, hdeeds.symm⟩
  have hruns : attempted.map (·.2) = executed before ++ text :: executed after' := by
    rw [← h.runs, hdeeds, executed_append]
    rfl
  obtain ⟨first, last, rfl, hfirst, hlast⟩ := List.map_eq_append_iff.mp hruns
  obtain ⟨m, rest, rfl, rfl, -⟩ := List.map_eq_cons_iff.mp hlast
  have hindex : (executed before).length = first.length := by rw [← hfirst, List.length_map]
  refine ⟨m.1, ?_, ?_⟩
  · rw [hindex]
    simp
  · rw [hrecorded, List.mem_append, not_or]
    refine ⟨hfresh m (List.mem_append_right _ List.mem_cons_self), fun hmem ↦ ?_⟩
    have hearlier : done' <+: first := List.prefix_of_prefix_length_le (hdone'.trans hdone)
      (List.prefix_append first (m :: rest)) (hindex ▸ hlength)
    rw [List.map_append, List.nodup_append] at hnodup
    exact hnodup.2.2 _ ((hearlier.map _).subset hmem) _ List.mem_cons_self rfl

end Accounts

end Ledger

/-! ## Accounts of a run -/

section

variable {L : Ledger σ table} {db : σ} {deeds : List (Deed α)} {c : Connection}

/-- The account of a transaction: it executes the migration if it is started, and commits it only
when all went well. -/
theorem Transacted.accounts {r : Except Failure Unit} (h : Transacted table name text c r deeds)
    (hanswered : Answered db deeds) (htame : L.Tame text) :
    ∃ attempted done, L.Accounts db deeds attempted done ∧ attempted <+: [(name, text)] ∧
      done <+: attempted ∧ (r = .ok () → done = [(name, text)]) ∧
      (L.IsUnique → ∀ m ∈ done, m.1 ∉ L.recorded db) := by
  cases h with
  | unstarted e =>
    refine ⟨[], [], .of_idle (List.forall_mem_singleton.mpr (L.idle_startTransaction c _)) rfl
      (.of_foldl_eq fun _ ↦ rfl), List.nil_prefix, List.prefix_rfl, nofun, fun _ _ h ↦ nomatch h⟩
  | unexecuted e e' reply =>
    refine ⟨[(name, text)], [], .of_idle ?_ rfl (.of_opened_eq_nil (fun past d ↦ ?_) fun past ↦
      (List.append_nil past).symm), List.prefix_rfl, List.nil_prefix, nofun, fun _ _ h ↦ nomatch h⟩
    · simpa [L.idle_startTransaction, htame.idle] using L.idle_rollbackTransaction c reply
    · by_cases hd : d = c <;> simp [Journal.note, Journal.withOpened, hd]
  | unentered e e' reply =>
    refine ⟨[(name, text)], [], .of_idle ?_ rfl (.of_opened_eq_nil (fun past d ↦ ?_) fun past ↦
      (List.append_nil past).symm), List.prefix_rfl, List.nil_prefix, nofun, fun _ _ h ↦ nomatch h⟩
    · simpa [L.idle_startTransaction, htame.idle, L.idle_enter] using
        L.idle_rollbackTransaction c reply
    · by_cases hd : d = c <;> simp [Journal.note, Journal.withOpened, hd]
  | ended =>
    obtain ⟨hstarted, hexecuted, hentered, hreply, -⟩ := hanswered
    have hidle : ∀ d ∈ [.called (.startTransaction c) (.ok ()),
        .called (.driverExecute c text []) (.ok ()),
        .called (.driverExecute c (entryStatement table) [.text name]) (.ok ())],
        L.Idle (d : Deed α) := by
      simp [L.idle_startTransaction, htame.idle, L.idle_enter]
    have hnew : L.IsUnique → name ∉ L.recorded db := fun hunique ↦ by
      have hnot := hunique c name _ hentered
      rwa [(htame c _).1, (L.starts c db).1] at hnot
    cases r with
    | error e =>
      refine ⟨[(name, text)], [], .of_idle_append hidle rfl (Nat.zero_le _)
        (.of_opened_eq_nil (fun past d ↦ ?_) fun past ↦ (List.append_nil past).symm) ?_,
        List.prefix_rfl, List.nil_prefix, nofun, fun _ _ h ↦ nomatch h⟩
      · by_cases hd : d = c <;> simp [Journal.note, Journal.withOpened, hd]
      · exact (L.failsToCommit c _ e hreply).trans (List.append_nil _).symm
    | ok u =>
      refine ⟨[(name, text)], [(name, text)], .of_idle_append hidle rfl (Nat.le_refl _)
        (.of_opened_eq_nil (fun past d ↦ ?_) fun past ↦ ?_) ?_, List.prefix_rfl, List.prefix_rfl,
        fun _ ↦ rfl, fun h ↦ List.forall_mem_singleton.mpr (hnew h)⟩
      · by_cases hd : d = c <;> simp [Journal.note, Journal.withOpened, hd]
      · simp [Journal.note, Journal.withOpened, statements]
      · refine (L.commits c _ hreply).trans (congrArg _ ?_)
        have hone := (L.enters c name _).2 hentered
        rw [(htame c _).2 hexecuted, (L.starts c db).2 hstarted] at hone
        exact hone

theorem Around.accounts {r : Except Failure Unit}
    (h : Around table (Transacted table name text) r deeds) (hanswered : Answered db deeds)
    (htame : L.Tame text) :
    ∃ attempted done, L.Accounts db deeds attempted done ∧ attempted <+: [(name, text)] ∧
      done <+: attempted ∧ (r = .ok () → done = [(name, text)]) ∧
      (L.IsUnique → ∀ m ∈ done, m.1 ∉ L.recorded db) := by
  cases h with
  | unused e aside =>
    exact ⟨[], [], .of_aside aside, List.nil_prefix, List.prefix_rfl, nofun,
      fun _ _ h ↦ nomatch h⟩
  | @used _ _ _ before _ after asideBefore use asideAfter result =>
    obtain ⟨hfirst, hlast⟩ := answered_append.mp hanswered
    obtain ⟨hbefore, hinner⟩ := answered_append.mp hfirst
    obtain ⟨attempted, done, haccounts, hattempted, hdone, hok, hunique⟩ :=
      use.accounts hinner htame
    have haround := ((Ledger.Accounts.of_aside asideBefore).append haccounts).append
      (.of_aside asideAfter)
    rw [List.append_nil, List.append_nil] at haround
    refine ⟨attempted, done, haround, hattempted, hdone, fun hr ↦ hok (result () hr),
      fun h m hm hmem ↦ hunique h m hm ?_⟩
    rwa [Ledger.recorded_after_of_idle fun d hd ↦ Ledger.idle_of_isAside (asideBefore d hd)]

def reading (script : Script) : String × Except Failure String := (script.1, textOf script.2)

/-- What was read of migrations that could be read. -/
def loaded (migrations : List (String × String)) : List (String × Except Failure String) :=
  migrations.map fun m ↦ (m.1, .ok m.2)

/-- The account of migrations applied one after the other: those that are executed are the first of
them, and all of these but the last one are committed at any rate. -/
theorem Applying.accounts {scripts : List Script} {r : Except Failure Unit}
    (h : Applying table scripts r deeds) (hanswered : Answered db deeds)
    (htame : ∀ script ∈ scripts, ∀ text, textOf script.2 = .ok text → L.Tame text) :
    ∃ attempted done, L.Accounts db deeds attempted done ∧
      loaded attempted <+: scripts.map reading ∧ done <+: attempted ∧
      attempted.length ≤ done.length + 1 ∧ (r = .ok () → done.length = scripts.length) ∧
      (L.IsUnique → ∀ m ∈ done, m.1 ∉ L.recorded db) := by
  induction h generalizing db with
  | nil =>
    exact ⟨[], [], .nil, List.nil_prefix, List.prefix_rfl, Nat.zero_le _, fun _ ↦ rfl,
      fun _ _ h ↦ nomatch h⟩
  | unreadable _ =>
    exact ⟨[], [], .nil, List.nil_prefix, List.prefix_rfl, Nat.zero_le _, nofun,
      fun _ _ h ↦ nomatch h⟩
  | @failed name text entry rest e deeds read apply =>
    obtain ⟨attempted, done, haccounts, hattempted, hdone, -, hunique⟩ :=
      apply.accounts hanswered (htame _ List.mem_cons_self text read)
    refine ⟨attempted, done, haccounts, ?_, hdone, ?_, nofun, hunique⟩
    · refine (hattempted.map _).trans ?_
      rw [List.map_singleton, List.map_cons, reading, read]
      exact (List.prefix_cons_inj _).mpr List.nil_prefix
    · exact hattempted.length_le.trans (Nat.le_add_left 1 _)
  | @cons name text entry rest r deeds more read apply next ih =>
    obtain ⟨hdeeds, hmore⟩ := answered_append.mp hanswered
    obtain ⟨htameHead, htameRest⟩ := List.forall_mem_cons.mp htame
    obtain ⟨attempted, done, haccounts, hattempted, hdone, hok, hunique⟩ :=
      apply.accounts hdeeds (htameHead text read)
    obtain ⟨attempted', done', haccounts', hattempted', hdone', hlength', hok', hunique'⟩ :=
      ih hmore htameRest
    obtain rfl := hok rfl
    obtain rfl := hattempted.eq_of_length_le hdone.length_le
    refine ⟨_, _, haccounts.append haccounts', ?_, ?_, ?_, fun hr ↦ ?_, fun h ↦ ?_⟩
    · rw [List.singleton_append, loaded, List.map_cons, List.map_cons, reading, read]
      exact (List.prefix_cons_inj _).mpr hattempted'
    · exact (List.prefix_append_right_inj _).mpr hdone'
    · simpa [Nat.succ_le_succ_iff, Nat.add_right_comm] using hlength'
    · rw [List.singleton_append, List.length_cons, List.length_cons, hok' hr]
    · refine List.forall_mem_append.mpr ⟨hunique h, fun m hm hmem ↦ hunique' h m hm ?_⟩
      rw [haccounts.ends]
      exact List.mem_append_left _ hmem

end

variable {L : Ledger σ table}

/-! ## Reading the table -/

theorem namesIn_map_text (names : List String) :
    namesIn (names.map fun name ↦ [("key", .text name)]) = .ok (names.map .text) := by
  induction names with
  | nil => rfl
  | cons name names ih =>
    rw [namesIn] at ih ⊢
    rw [List.map_cons, List.mapM_cons, ih]
    rfl

theorem Reads.listed {db : σ} {deeds : List (Deed α)} {done : List Value}
    (h : Reads table (.ok done) deeds) (hanswered : Answered db deeds) :
    ∃ names : List String, names.Perm (L.recorded db) ∧ done = names.map .text := by
  obtain ⟨before, c, outcome, after, rfl, hnames⟩ := h.lists done rfl
  obtain ⟨-, hlisted, -⟩ := answered_append.mp hanswered
  obtain ⟨names, hperm, hrows⟩ := L.lists c _ outcome hlisted
  rw [hrows, namesIn_map_text] at hnames
  refine ⟨names, ?_, (Except.ok.inj hnames).symm⟩
  rwa [Ledger.recorded_after_of_idle fun d hd ↦ Ledger.idle_of_isAside
    (h.aside d (List.mem_append_left _ hd))] at hperm

/-! ## Names -/

/-- A directory with one entry under each name, whose migrations leave the table alone and do not
end their transactions. -/
structure Ledger.Allows (L : Ledger σ table) (d : Directory) : Prop where
  distinct : (d.map (·.1)).Nodup
  tame : ∀ script ∈ scripts d, ∀ text, textOf script.2 = .ok text → L.Tame text

theorem names_of_loaded {recorded : List String} {all : List Script}
    {migrations : List (String × String)} (hall : (all.map (·.1)).Nodup)
    (h : loaded migrations <+: (pending recorded all).map reading) :
    (migrations.map (·.1)).Nodup ∧ ∀ m ∈ migrations, m.1 ∉ recorded := by
  have hnames : migrations.map (·.1) <+: (pending recorded all).map (·.1) := by
    have hnames := h.map (·.1)
    rwa [loaded, List.map_map, List.map_map] at hnames
  refine ⟨(hall.sublist (List.filter_sublist.map _)).sublist hnames.sublist, fun m hm ↦ ?_⟩
  obtain ⟨script, hscript, hname⟩ := List.mem_map.mp (hnames.subset (List.mem_map_of_mem hm))
  exact hname ▸ (mem_pending.mp hscript).2

namespace Ledger

/-- The names in a table are those that it had at the start and, after them, those of migrations,
each once. -/
structure Since (L : Ledger σ table) (start db : σ) (done : List (String × String)) : Prop where
  recorded : L.recorded db = L.recorded start ++ done.map (·.1)
  nodup : (done.map (·.1)).Nodup
  fresh : ∀ m ∈ done, m.1 ∉ L.recorded start

theorem Since.refl (L : Ledger σ table) (db : σ) : L.Since db db [] :=
  ⟨(List.append_nil _).symm, List.nodup_nil, fun _ h ↦ nomatch h⟩

theorem Since.append {start db db' : σ} {done more : List (String × String)}
    (h : L.Since start db done) (hrecorded : L.recorded db' = L.recorded db ++ more.map (·.1))
    (hnodup : (more.map (·.1)).Nodup) (hfresh : ∀ m ∈ more, m.1 ∉ L.recorded db) :
    L.Since start db' (done ++ more) where
  recorded := by rw [hrecorded, h.recorded, List.map_append, List.append_assoc]
  nodup := by
    rw [List.map_append, List.nodup_append]
    refine ⟨h.nodup, hnodup, fun name hname name' hname' heq ↦ ?_⟩
    obtain ⟨m, hm, rfl⟩ := List.mem_map.mp hname'
    refine hfresh m hm ?_
    rw [h.recorded, ← heq]
    exact List.mem_append_right _ hname
  fresh := by
    refine List.forall_mem_append.mpr ⟨h.fresh, fun m hm hmem ↦ hfresh m hm ?_⟩
    rw [h.recorded]
    exact List.mem_append_left _ hmem

/-- The names in a table are those that it had at the start and, after them, those of the migrations
committed since, each once. -/
def Agrees (L : Ledger σ table) (start : σ) (deeds : List (Deed α)) (db : σ) : Prop :=
  ∃ done, committed deeds = done.map (statements table) ∧ L.Since start db done

end Ledger

end Rowmap.Migration
