import Rowmap.Database.Scripted
import Rowmap.Proofs.Condition.Meaning
import Rowmap.Proofs.Query.Core
import Rowmap.Proofs.Select.Equality

/-!
# Loaded queries are fresh

Each setter of a query decides by itself whether the loaded rows still answer it: some always say
no, others compare what they are given with what was there. What a loaded query shows, the statement
that it renders to, the shape of its rows and whether they are streamed, is what it showed when it
was last run, after any sequence of setters and runs.

The argument is one relation between a query and what a setter makes of it: if the rows still count
as loaded, they did before, and the query shows what it did.
-/

namespace Rowmap

/-- What a query shows of itself: the statement that it renders to, the shape of its rows, and
whether they are streamed. -/
structure Shown where
  statement : Except Failure Statement
  output : OutputType
  streaming : Bool

namespace Query

variable {σ : Type} {q q' q'' : Query} {s s' : Session σ}

def shown (q : Query) (s : Session σ) : Shown where
  statement := (q.statement false false 0 s).1
  output := q.select.output
  streaming := q.isStreaming

theorem statement_apply (q : Query) (count isSubquery : Bool) (bound : Int) (s : Session σ) :
    (q.statement count isSubquery bound s).1 =
      (Value.refreshItems (s.current s.depth) q.select.wheres >>= fun wheres ↦
        ({ q.select with wheres }.statement count isSubquery bound).result) := by
  simp only [statement, App.refreshSelect, App.logged, Change.bind_apply, Change.get_apply,
    Change.ofExcept_apply]
  cases Value.refreshItems (s.current s.depth) q.select.wheres with
  | error e => rfl
  | ok wheres => rfl

/-! ## Setters -/

/-- Whether a query shows what another one shows, where that renders. -/
structure ShowsLike (q q' : Query) : Prop where
  wheres : q'.select.wheres = q.select.wheres
  output : q'.select.output = q.select.output
  streaming : q'.isStreaming = q.isStreaming
  statement : ∀ wheres st, ({ q.select with wheres }.statement false false 0).result = .ok st →
    ({ q'.select with wheres }.statement false false 0).result = .ok st

/-- Whether rows that are loaded after a change were loaded before it, and are still fresh. -/
def KeepsFresh (q q' : Query) : Prop := q'.isLoaded = true → q.isLoaded = true ∧ ShowsLike q q'

theorem ShowsLike.refl (q : Query) : ShowsLike q q := ⟨rfl, rfl, rfl, fun _ _ h ↦ h⟩

theorem ShowsLike.trans (h : ShowsLike q q') (h' : ShowsLike q' q'') : ShowsLike q q'' where
  wheres := h'.wheres.trans h.wheres
  output := h'.output.trans h.output
  streaming := h'.streaming.trans h.streaming
  statement wheres st hst := h'.statement wheres st (h.statement wheres st hst)

/-- A selection that differs from another one in its clauses alone shows the same, where they are
written alike. -/
theorem ShowsLike.of_clauses {select : Select Value} (htable : select.table = q.select.table)
    (hwheres : select.wheres = q.select.wheres) (houtput : select.output = q.select.output)
    (hstreaming : select.streaming = q.select.streaming)
    (hcolumns : ∀ wheres columns, { q.select with wheres }.columnList = .ok columns →
      { select with wheres }.columnList = .ok columns)
    (htail : ∀ wheres texts, { q.select with wheres }.tailClauses false = .ok texts →
      { select with wheres }.tailClauses false = .ok texts) : ShowsLike q { q with select } where
  wheres := hwheres
  output := houtput
  streaming := congrArg (fun v : Option Value ↦ (v.getD (.bool false)).truthy) hstreaming
  statement wheres _ hst :=
    @Select.statement_congr { q.select with wheres } { select with wheres } _ _ _ _ htable rfl
      (hcolumns wheres) (htail wheres) hst

theorem KeepsFresh.refl (q : Query) : KeepsFresh q q := fun h ↦ ⟨h, .refl q⟩

theorem KeepsFresh.trans (h : KeepsFresh q q') (h' : KeepsFresh q' q'') : KeepsFresh q q'' := by
  intro hloaded
  obtain ⟨hloaded', hshows'⟩ := h' hloaded
  obtain ⟨hloaded, hshows⟩ := h hloaded'
  exact ⟨hloaded, hshows.trans hshows'⟩

theorem KeepsFresh.of_not_loaded (h : q'.isLoaded = false) : KeepsFresh q q' := by
  intro hloaded
  exact absurd (hloaded.symm.trans h) Bool.noConfusion

/-- A setter that says no where something has changed. Where the rows are loaded after it, nothing
has but the part that it sets. -/
theorem of_staleIf {changed : Bool} {f : Select Value → Select Value}
    (h : (do staleIf changed; modifySelect f) q = (.ok (), q'))
    (hf : ∀ select, (f select).loaded = select.loaded) (hloaded : q'.isLoaded = true) :
    changed = false ∧ q.isLoaded = true ∧ q' = { q with select := f q.select } := by
  cases changed with
  | false =>
    obtain ⟨-, rfl⟩ := Prod.mk.inj h
    exact ⟨rfl, (hf q.select).symm.trans hloaded, rfl⟩
  | true =>
    obtain ⟨-, rfl⟩ := Prod.mk.inj h
    exact absurd ((hf _).symm.trans hloaded) Bool.false_ne_true

/-- A setter that compares what it is given with what was there. -/
theorem of_staleUnlessEqual {v old : Value} {f : Select Value → Select Value}
    (h : (do staleUnlessEqual v old; modifySelect f) q = (.ok (), q'))
    (hf : ∀ select, (f select).loaded = select.loaded) (hloaded : q'.isLoaded = true) :
    v.isEqualTo old = .ok true ∧ q.isLoaded = true ∧ q' = { q with select := f q.select } := by
  rw [staleUnlessEqual, bind_assoc] at h
  obtain ⟨equal, hequal, hset⟩ := Change.ofExcept_bind_eq_ok.mp h
  obtain ⟨hchanged, hkept⟩ := of_staleIf hset hf hloaded
  rw [Bool.not_eq_false'] at hchanged
  exact ⟨hchanged ▸ hequal, hkept⟩

theorem keepsFresh_limit {v : Value} (h : limit v q = (.ok (), q')) : KeepsFresh q q' := by
  intro hloaded
  obtain ⟨hequal, hloaded, rfl⟩ := of_staleUnlessEqual h (fun _ ↦ rfl) hloaded
  refine ⟨hloaded, .of_clauses rfl rfl rfl rfl (fun _ _ hcolumns ↦ hcolumns) ?_⟩
  intro wheres texts htexts
  exact @Select.tailClauses_limit { q.select with wheres } v texts hequal htexts

theorem keepsFresh_offset {v : Value} (h : offset v q = (.ok (), q')) : KeepsFresh q q' := by
  intro hloaded
  obtain ⟨hequal, hloaded, rfl⟩ := of_staleUnlessEqual h (fun _ ↦ rfl) hloaded
  refine ⟨hloaded, .of_clauses rfl rfl rfl rfl (fun _ _ hcolumns ↦ hcolumns) ?_⟩
  intro wheres texts htexts
  exact @Select.tailClauses_offset { q.select with wheres } v texts hequal htexts

theorem keepsFresh_stream {v : Value} (h : stream_ v q = (.ok (), q')) : KeepsFresh q q' := by
  intro hloaded
  obtain ⟨hequal, hloaded, rfl⟩ := of_staleUnlessEqual h (fun _ ↦ rfl) hloaded
  have hcase := Value.EqualCase.of_compare? (Value.compare?_of_isEqualTo hequal)
  refine ⟨hloaded, rfl, rfl, hcase.truthy_eq, fun wheres st hst ↦ ?_⟩
  exact hst

theorem keepsFresh_output {v : Value} (h : output v q = (.ok (), q')) : KeepsFresh q q' := by
  intro hloaded
  obtain ⟨o, -, hrest⟩ := Change.ofExcept_bind_eq_ok.mp h
  rw [Change.get_bind] at hrest
  obtain ⟨⟨⟩, -, hset⟩ := Change.ofExcept_bind_eq_ok.mp hrest
  obtain ⟨hchanged, hloaded, rfl⟩ := of_staleIf hset (fun _ ↦ rfl) hloaded
  obtain rfl : o = q.select.output := by simpa using hchanged
  exact ⟨hloaded, .refl q⟩

theorem keepsFresh_returns {v : Value} (h : returns v q = (.ok (), q')) : KeepsFresh q q' := by
  obtain ⟨selector, hselector, hrest⟩ := Change.ofExcept_bind_eq_ok.mp h
  rw [Change.get_bind, ← bind_assoc] at hrest
  obtain ⟨⟨⟩, q₁, hset, hrest⟩ := Change.bind_eq_ok.mp hrest
  have hfirst : KeepsFresh q q₁ := by
    intro hloaded
    obtain ⟨hequal, hloaded, rfl⟩ := of_staleUnlessEqual hset (fun _ ↦ rfl) hloaded
    refine ⟨hloaded, .of_clauses rfl rfl rfl rfl ?_ fun _ _ htexts ↦ htexts⟩
    intro wheres columns hcolumns
    exact @Select.columnList_congr { q.select with wheres } v selector columns hselector hequal
      hcolumns
  -- the shape that the keys imply is set as any other, behind the keys
  refine hfirst.trans ?_
  cases himplied : selector.implied? with
  | none =>
    rw [himplied] at hrest
    obtain ⟨-, rfl⟩ := Prod.mk.inj hrest
    exact .refl q₁
  | some implied =>
    rw [himplied] at hrest
    exact keepsFresh_output hrest

theorem keepsFresh_unlessNull {v : Value} {setter : Value → Change Query Unit}
    (hsetter : ∀ {q q' : Query}, setter v q = (.ok (), q') → KeepsFresh q q')
    (h : unlessNull v setter q = (.ok (), q')) : KeepsFresh q q' := by
  rw [unlessNull] at h
  split at h
  · obtain ⟨-, rfl⟩ := Prod.mk.inj h
    exact .refl q
  · exact hsetter h

theorem keepsFresh_options {outputType returning streaming : Value}
    (h : options outputType returning streaming q = (.ok (), q')) : KeepsFresh q q' := by
  obtain ⟨⟨⟩, q₁, hstreaming, hrest⟩ := Change.bind_eq_ok.mp h
  obtain ⟨⟨⟩, q₂, hreturning, houtput⟩ := Change.bind_eq_ok.mp hrest
  have hfirst := keepsFresh_unlessNull keepsFresh_stream hstreaming
  have hsecond := keepsFresh_unlessNull keepsFresh_returns hreturning
  exact (hfirst.trans hsecond).trans (keepsFresh_unlessNull keepsFresh_output houtput)

theorem keepsFresh_where {tree : Value} (h : where_ tree q = (.ok (), q')) : KeepsFresh q q' := by
  obtain ⟨-, rfl⟩ := Prod.mk.inj h
  exact .of_not_loaded rfl

theorem keepsFresh_orderBy {specs : List Value} (h : orderBy specs q = (.ok (), q')) :
    KeepsFresh q q' := by
  obtain ⟨⟨⟩, q₁, -, hset⟩ := Change.bind_eq_ok.mp h
  obtain ⟨-, rfl⟩ := Prod.mk.inj hset
  exact .of_not_loaded rfl

/-! ## Runs -/

variable [Backend σ]

theorem keeps_close :
    Change.Keeps (fun u ↦ (u.1.select, u.2.objects)) (close : On Query σ Unit) := by
  refine (Change.Keeps.gets _).bind fun q ↦ ?_
  cases q.stream with
  | none => exact .ok ()
  | some id =>
    refine Change.Keeps.bind (fun _ ↦ rfl) fun _ ↦ ?_
    exact (App.keeps_withStream id (RowStream.keeps_close false).objects).onSecond.of_comp
      fun u : Query × _ ↦ (u.1.select, u.2)

theorem select_of_openStream {statement : Statement} {source : Source} {u u' : Query × Session σ}
    (h : openStream statement source u = (.ok (), u')) : u'.1.select = u.1.select := by
  have hkept := keeps_core_openStream statement source u
  rw [h] at hkept
  exact (Prod.mk.inj hkept).2

/-- **A run** that succeeds has rendered the statement that the query shows, and changes nothing of
the selection but the rows, which are loaded. -/
theorem of_run {given : Source} (h : run given (q, s) = (.ok (), q', s')) :
    (∃ st, (q.shown s).statement = .ok st) ∧
      ∃ rows, q'.select = { q.select with rows, loaded := true } := by
  rw [run, On.object, Change.gets_bind] at h
  obtain ⟨⟨⟩, -, hrest⟩ := Change.ofExcept_bind_eq_ok.mp h
  obtain ⟨⟨⟩, ⟨q₁, s₁⟩, hclose, hrest⟩ := Change.bind_eq_ok.mp hrest
  -- closing the stream of the last run leaves the selection and the live objects alone
  have hkept := keeps_close (q, s)
  rw [hclose] at hkept
  obtain ⟨hselect, hobjects⟩ := Prod.mk.inj hkept
  rw [Change.gets_bind] at hrest
  obtain ⟨st, ⟨q₂, s₂⟩, hstatement, hrest⟩ := Change.bind_eq_ok.mp hrest
  obtain ⟨hst, hq₂⟩ := Prod.mk.inj hstatement
  obtain rfl : q₁ = q₂ := congrArg Prod.fst hq₂
  refine ⟨⟨st, ?_⟩, ?_⟩
  · rw [statement_apply, hselect, Session.current_congr hobjects] at hst
    rw [shown, statement_apply]
    exact hst
  · rw [← hselect]
    have hloaded (u : Query × Session σ)
        (hset : On.own (setLoaded true) u = (.ok (), q', s')) :
        q'.select = { u.1.select with loaded := true } := by
      obtain ⟨rfl, -⟩ := Prod.mk.inj (Prod.mk.inj hset).2
      rfl
    cases hstreaming : q₁.isStreaming with
    | true =>
      rw [hstreaming, if_pos rfl] at hrest
      obtain ⟨⟨⟩, u, hopen, hset⟩ := Change.bind_eq_ok.mp hrest
      have hkept : u.1.select = q₁.select := select_of_openStream hopen
      refine ⟨q₁.select.rows, (hloaded u hset).trans ?_⟩
      rw [hkept]
    | false =>
      rw [hstreaming, if_neg Bool.false_ne_true] at hrest
      obtain ⟨outcome, u₁, hcheckout, hrest⟩ := Change.bind_eq_ok.mp hrest
      obtain ⟨rows, u₂, hshape, hrest⟩ := Change.bind_eq_ok.mp hrest
      obtain ⟨⟨⟩, u₃, hrows, hset⟩ := Change.bind_eq_ok.mp hrest
      have hu₁ : q₁ = u₁.1 := congrArg (fun result ↦ result.2.1) hcheckout
      have hu₂ : u₁.1 = u₂.1 := congrArg (fun result ↦ result.2.1) hshape
      have hu₃ : { u₂.1.select with rows } = u₃.1.select :=
        congrArg (fun result ↦ result.2.1.select) hrows
      refine ⟨rows, (hloaded u₃ hset).trans ?_⟩
      rw [← hu₃, ← hu₂, ← hu₁]

/-! ## Histories -/

/-- A call of a setter. -/
inductive Setting where
  | where_ (tree : Value)
  | orderBy (specs : List Value)
  | limit (v : Value)
  | offset (v : Value)
  | output (v : Value)
  | returns (v : Value)
  | options (outputType returning streaming : Value)

/-- What a call of a setter does. -/
def Setting.apply : Setting → Change Query Unit
  | .where_ tree => Query.where_ tree
  | .orderBy specs => Query.orderBy specs
  | .limit v => Query.limit v
  | .offset v => Query.offset v
  | .output v => Query.output v
  | .returns v => Query.returns v
  | .options outputType returning streaming => Query.options outputType returning streaming

omit [Backend σ] in
theorem Setting.keepsFresh {c : Setting} (h : c.apply q = (.ok (), q')) : KeepsFresh q q' := by
  cases c with
  | where_ tree => exact keepsFresh_where h
  | orderBy specs => exact keepsFresh_orderBy h
  | limit v => exact keepsFresh_limit h
  | offset v => exact keepsFresh_offset h
  | output v => exact keepsFresh_output h
  | returns v => exact keepsFresh_returns h
  | options outputType returning streaming => exact keepsFresh_options h

/-- Whether the live objects in the conditions of a query are in one session what they are in
another. -/
def HoldsAlike (q : Query) (s s' : Session σ) : Prop :=
  Value.refreshItems (s'.current s'.depth) q.select.wheres =
    Value.refreshItems (s.current s.depth) q.select.wheres

/-- What a query and its session can become by setters and runs that succeed, with what the query
showed when it was last run. Anything else may happen in the session in between, but nothing changes
the live objects in the conditions. -/
inductive History : Query → Session σ → Option Shown → Prop where
  | new {t : RecordType} {source : Source} {outputType returning streaming : Value} {q : Query}
      (s : Session σ) (h : make t source outputType returning streaming = .ok q) : History q s none
  | set {q q' : Query} {s : Session σ} {ran : Option Shown} (before : History q s ran) (c : Setting)
      (h : c.apply q = (.ok (), q')) : History q' s ran
  | run {q q' : Query} {s s' : Session σ} {ran : Option Shown} (before : History q s ran)
      (given : Source) (h : run given (q, s) = (.ok (), q', s')) (held : q.HoldsAlike s s') :
      History q' s' (some (q.shown s))
  | others {q : Query} {s s' : Session σ} {ran : Option Shown} (before : History q s ran)
      (held : q.HoldsAlike s s') : History q s' ran

omit [Backend σ] in
theorem shown_of_showsLike (h : ShowsLike q q') {st : Statement}
    (hst : (q.shown s).statement = .ok st) : q'.shown s = q.shown s := by
  have hst' : (q'.shown s).statement = .ok st := by
    rw [shown, statement_apply] at hst ⊢
    obtain ⟨wheres, hrefresh, hst⟩ := Except.bind_eq_ok.mp hst
    rw [h.wheres, hrefresh]
    exact h.statement wheres st hst
  rw [shown, Shown.mk.injEq]
  exact ⟨hst'.trans hst.symm, h.output, h.streaming⟩

omit [Backend σ] in
theorem not_isLoaded_of_make {t : RecordType} {source : Source}
    {outputType returning streaming : Value}
    (h : make t source outputType returning streaming = .ok q) : q.isLoaded = false := by
  obtain ⟨⟨conn, pool⟩, -, h⟩ := Except.bind_eq_ok.mp h
  dsimp only at h
  split at h
  · rename_i hoptions
    obtain rfl := Except.ok.inj h
    rw [Bool.eq_false_iff]
    intro hloaded
    exact Bool.false_ne_true (keepsFresh_options hoptions hloaded).1
  · simp at h

omit [Backend σ] in
theorem statement_of_holdsAlike (hwheres : q'.select.wheres = q.select.wheres)
    (hstatement : ∀ wheres, { q'.select with wheres }.statement false false 0 =
      { q.select with wheres }.statement false false 0)
    (held : q.HoldsAlike s s') : (q'.shown s').statement = (q.shown s).statement := by
  rw [shown, shown, statement_apply, statement_apply, hwheres, held]
  simp only [hstatement]

/-- A query shows after a run that succeeds what it showed before. -/
theorem shown_of_run {given : Source} (h : run given (q, s) = (.ok (), q', s'))
    (held : q.HoldsAlike s s') : q'.shown s' = q.shown s := by
  obtain ⟨-, rows, hselect⟩ := of_run h
  have hstatement := @statement_of_holdsAlike _ q q' s s' (by rw [hselect])
    (fun wheres ↦ by rw [hselect]; rfl) held
  rw [shown, Shown.mk.injEq]
  refine ⟨hstatement, ?_, ?_⟩
  · show q'.select.output = q.select.output
    rw [hselect]
  · show (q'.select.streaming.getD (.bool false)).truthy =
      (q.select.streaming.getD (.bool false)).truthy
    rw [hselect]

/-- **Loaded queries are fresh.** A query that counts as loaded shows what it showed when it was
last run, and rendered then. In particular bounds that are equal write the same clause. -/
theorem shown_of_isLoaded {ran : Option Shown} (h : History q s ran) (hloaded : q.isLoaded = true) :
    (ran = some (q.shown s) ∧ ∃ st, (q.shown s).statement = .ok st) ∧
    ∀ word v w, v.isEqualTo w = .ok true →
      Select.windowClause word (valueOption v) = Select.windowClause word (valueOption w) := by
  refine ⟨?_, fun word v w h ↦ Select.windowClause_of_isEqualTo h word⟩
  induction h with
  | new s hmake => exact absurd (hloaded.symm.trans (not_isLoaded_of_make hmake)) Bool.noConfusion
  | @set q q' s ran _ c hset ih =>
    -- what is loaded after the setter was loaded before it, and had rendered
    obtain ⟨hloaded, hshows⟩ := Setting.keepsFresh hset hloaded
    obtain ⟨hran, st, hst⟩ := ih hloaded
    have heq := shown_of_showsLike hshows hst
    rw [heq]
    exact ⟨hran, st, hst⟩
  | run _ given hrun held _ =>
    rw [shown_of_run hrun held]
    exact ⟨rfl, (of_run hrun).1⟩
  | @others q s s' ran _ held ih =>
    have heq : q.shown s' = q.shown s := by
      rw [shown, Shown.mk.injEq]
      exact ⟨statement_of_holdsAlike rfl (fun _ ↦ rfl) held, rfl, rfl⟩
    rw [heq]
    exact ih hloaded

/-- A query for one letter, on a connection, before it is run. -/
def oneLetter : Query where
  type := ⟨.letters, [], [], []⟩
  select := { table := .letters, wheres := [.map [("a", .int 3)]], limit := some (.int 1) }
  conn := some ⟨"c"⟩

def oneConnection : Session Scripted := { db := { connections := [("c", {})] } }

def oneLetterRun : Query × Session Scripted := (run .absent (oneLetter, oneConnection)).2

theorem shown_of_isLoaded_oneLetter :
    ∃ (q : Query) (s : Session Scripted) (ran : Option Shown), History q s ran ∧
      q.isLoaded = true ∧ q.select.limit = some (.bool true) ∧ ran = some (q.shown s) := by
  have hmake : History (blank ⟨.letters, [], [], []⟩ (some ⟨"c"⟩) none) oneConnection none :=
    @History.new _ _ _ (.connection ⟨"c"⟩) .null .null .null _ oneConnection rfl
  have hwhere := hmake.set (.where_ (.map [("a", .int 3)])) rfl
  have hlimit : History oneLetter oneConnection none := hwhere.set (.limit (.int 1)) rfl
  have hrun : run .absent (oneLetter, oneConnection) =
      (.ok (), oneLetterRun.1, oneLetterRun.2) := Prod.ext rfl rfl
  have hran := hlimit.run .absent hrun rfl
  have hequal : (Value.bool true).isEqualTo (.int 1) = .ok true := by
    simp [Value.isEqualTo, Value.answered, Value.compare?, Value.compareScalar?, Value.number?,
      Number.compare?, Number.signals, Number.equal]
  have hset : limit (.bool true) oneLetterRun.1 = (.ok (), { oneLetterRun.1 with
      select := { oneLetterRun.1.select with limit := some (.bool true) } }) := by
    show (do
      staleUnlessEqual (.bool true) (.int 1)
      modifySelect fun s ↦ { s with limit := some (.bool true) }) oneLetterRun.1 = _
    rw [staleUnlessEqual, hequal]
    rfl
  have hagain := hran.set (.limit (.bool true)) hset
  exact ⟨_, _, _, hagain, rfl, rfl, (shown_of_isLoaded hagain rfl).1.1⟩

end Query

end Rowmap
