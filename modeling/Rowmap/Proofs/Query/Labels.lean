import Rowmap.Proofs.Query.Projection
import Rowmap.Proofs.Query.Retains

/-!
# Rows keep their labels

The rows that a query was given outlive the settings under which it ran, and its data reads the
settings that there are now. A setter that changes the shape of the rows, or the key of single
values, says at least that they are not loaded any more. So rows that count as loaded have the
labels under which they were fetched, and the data of such a query projects them.

Data is given of rows that do not count as loaded as well. Where these were fetched for another key,
or in another shape, single values are given under the key that is returned now.
-/

namespace Rowmap.Query

open Change

variable {σ α β : Type} {q q' q'' ran : Query} {s s' : Session σ}

theorem LabelsLike.refl (q : Query) : q.LabelsLike q := ⟨rfl, fun _ ↦ rfl⟩

/-- Only single values have a key to agree on. -/
theorem LabelsLike.of_output (houtput : q.select.output = ran.select.output)
    (hvalue : q.select.output ≠ .value) : q.LabelsLike ran :=
  ⟨houtput, fun h ↦ absurd h hvalue⟩

theorem LabelsLike.trans (h : q'.LabelsLike q) (h' : q''.LabelsLike q') : q''.LabelsLike q where
  output := h'.output.trans h.output
  key hvalue := (h'.key hvalue).trans (h.key (h'.output ▸ hvalue))

/-! ## Setters -/

/-- What a change makes of a query that leaves its rows alone: where they count as loaded after it,
they did before, and the query labels them as it did. -/
structure Follows (q q' : Query) : Prop where
  type : q'.type = q.type
  rows : q'.rows = q.rows
  loaded : q'.isLoaded = true → q.isLoaded = true
  streaming : q'.isLoaded = true → q'.isStreaming = q.isStreaming
  labels : q'.isLoaded = true → q'.LabelsLike q

namespace Follows

theorem refl (q : Query) : q.Follows q := ⟨rfl, rfl, id, fun _ ↦ rfl, fun _ ↦ .refl q⟩

theorem trans (h : q.Follows q') (h' : q'.Follows q'') : q.Follows q'' where
  type := h'.type.trans h.type
  rows := h'.rows.trans h.rows
  loaded hloaded := h.loaded (h'.loaded hloaded)
  streaming hloaded := (h'.streaming hloaded).trans (h.streaming (h'.loaded hloaded))
  labels hloaded := (h.labels (h'.loaded hloaded)).trans (h'.labels hloaded)

theorem of_stale (htype : q'.type = q.type) (hrows : q'.rows = q.rows)
    (hloaded : q'.isLoaded = false) : q.Follows q' :=
  have hnot (h : q'.isLoaded = true) : False := Bool.false_ne_true (hloaded.symm.trans h)
  ⟨htype, hrows, fun h ↦ (hnot h).elim, fun h ↦ (hnot h).elim, fun h ↦ (hnot h).elim⟩

/-- A change of the query in other respects. -/
theorem of_select (htype : q'.type = q.type) (hselect : q'.select = q.select) : q.Follows q' where
  type := htype
  rows := congrArg Select.rows hselect
  loaded := by rw [isLoaded, isLoaded, hselect]; exact id
  streaming _ := by rw [isStreaming, isStreaming, Query.streaming, Query.streaming, hselect]
  labels _ := ⟨congrArg Select.output hselect, fun _ ↦ by rw [hselect]⟩

end Follows

/-- A change that leaves the rows of every query alone, even if it fails. -/
def LeavesRows (x : Change Query α) : Prop := ∀ q : Query, q.Follows (x q).2

namespace LeavesRows

variable {x : Change Query α}

theorem ok (a : α) : LeavesRows (.ok a) := fun q ↦ .refl q

theorem ofExcept (r : Except Failure α) : LeavesRows (.ofExcept r) := fun q ↦ .refl q

theorem bind_at {f : α → Change Query β} {q : Query} (hfirst : q.Follows (x q).2)
    (hf : ∀ a, LeavesRows (f a)) : q.Follows ((x >>= f) q).2 := by
  obtain ⟨a, q₁, hrun, hthen⟩ | ⟨e, q₁, hrun, hthen⟩ := bind_cases x f q <;>
    rw [hrun] at hfirst <;> rw [hthen]
  · exact hfirst.trans (hf a q₁)
  · exact hfirst

theorem bind {f : α → Change Query β} (hx : LeavesRows x) (hf : ∀ a, LeavesRows (f a)) :
    LeavesRows (x >>= f) := fun q ↦ bind_at (hx q) hf

end LeavesRows

/-- What a setter does that compares what it is given with what was there. -/
theorem staleUnlessEqual_apply (v old : Value) (f : Select Value → Select Value) (q : Query) :
    (do staleUnlessEqual v old; modifySelect f : Change Query Unit) q =
      match v.isEqualTo old with
      | .error e => (.error e, q)
      | .ok equal => (.ok (), { q with select := f { q.select with
          loaded := q.select.loaded && equal } }) := by
  rw [staleUnlessEqual, bind_assoc, bind_apply, ofExcept_apply]
  rcases v.isEqualTo old with e | equal
  · rfl
  · rcases equal with _ | _
    · simp [staleIf, setLoaded, withLoaded, modifySelect, bind_apply]
    · simp [staleIf, modifySelect, bind_apply]

/-- A part of the selection is compared that leaves the labels alone while it stays equal. -/
theorem follows_staleUnlessEqual (v old : Value) {f : Select Value → Select Value}
    (hrows : ∀ select, (f select).rows = select.rows)
    (hloaded : ∀ select, (f select).loaded = select.loaded)
    (hlabels : v.isEqualTo old = .ok true → q.Follows { q with select := f q.select }) :
    q.Follows ((do staleUnlessEqual v old; modifySelect f : Change Query Unit) q).2 := by
  rw [staleUnlessEqual_apply]
  rcases hequal : v.isEqualTo old with e | equal
  · exact .refl q
  rcases equal with _ | _
  · exact .of_stale rfl (hrows _) ((hloaded _).trans (Bool.and_false _))
  · have hsame : { q.select with loaded := q.select.loaded && true } = q.select := by
      rw [Bool.and_true]
    dsimp only
    rw [hsame]
    exact hlabels hequal

theorem leavesRows_limit (v : Value) : LeavesRows (limit v) := fun q ↦
  follows_staleUnlessEqual v (optionValue q.select.limit) (fun _ ↦ rfl) (fun _ ↦ rfl) fun _ ↦
    ⟨rfl, rfl, id, fun _ ↦ rfl, fun _ ↦ ⟨rfl, fun _ ↦ rfl⟩⟩

theorem leavesRows_offset (v : Value) : LeavesRows (offset v) := fun q ↦
  follows_staleUnlessEqual v (optionValue q.select.offset) (fun _ ↦ rfl) (fun _ ↦ rfl) fun _ ↦
    ⟨rfl, rfl, id, fun _ ↦ rfl, fun _ ↦ ⟨rfl, fun _ ↦ rfl⟩⟩

theorem leavesRows_stream (v : Value) : LeavesRows (stream_ v) := fun q ↦
  follows_staleUnlessEqual v q.streaming (fun _ ↦ rfl) (fun _ ↦ rfl) fun hequal ↦
    have hcase := Value.EqualCase.of_compare? (Value.compare?_of_isEqualTo hequal)
    ⟨rfl, rfl, id, fun _ ↦ hcase.truthy_eq, fun _ ↦ ⟨rfl, fun _ ↦ rfl⟩⟩

/-- Another shape says that the rows are not loaded. -/
theorem leavesRows_output (v : Value) : LeavesRows (output v) := by
  intro q
  rw [output_apply]
  rcases outputOf v with e | o
  · exact .refl q
  dsimp only
  rcases checkReturns q.select.returns o with e | _
  · exact .refl q
  by_cases hsame : o = q.select.output
  · refine ⟨rfl, rfl, ?_, fun _ ↦ rfl, fun _ ↦ ⟨hsame, fun _ ↦ rfl⟩⟩
    exact fun h ↦ (Bool.and_eq_true_iff.mp h).1
  · refine .of_stale rfl rfl ?_
    show (q.select.loaded && decide (o = q.select.output)) = false
    rw [decide_eq_false hsame, Bool.and_false]

/-- **What is returned** labels single values; another key says that they are not loaded. -/
theorem leavesRows_returns (v : Value) : LeavesRows (returns v) := by
  refine .bind (.ofExcept _) fun selector q ↦ ?_
  show q.Follows ((staleUnlessEqual (returnsValue selector) (returnsValue q.select.returns) >>=
    fun _ ↦ modifySelect (fun s ↦ { s with returns := selector }) >>= _) q).2
  rw [← bind_assoc]
  refine LeavesRows.bind_at (follows_staleUnlessEqual _ _ (fun _ ↦ rfl) (fun _ ↦ rfl)
    fun hequal ↦ ?_) fun _ ↦ ?_
  · have hcase := Value.EqualCase.of_compare? (Value.compare?_of_isEqualTo hequal)
    exact ⟨rfl, rfl, id, fun _ ↦ rfl, fun _ ↦ ⟨rfl, fun _ ↦ hcase.asText?_eq⟩⟩
  · rcases selector.implied? with _ | implied
    · exact .ok ()
    · exact leavesRows_output (.output implied)

theorem leavesRows_unlessNull {setter : Value → Change Query Unit} (v : Value)
    (hsetter : LeavesRows (setter v)) : LeavesRows (unlessNull v setter) := by
  rw [unlessNull]
  split
  · exact .ok ()
  · exact hsetter

theorem leavesRows_orderBy (specs : List Value) : LeavesRows (orderBy specs) := by
  refine .bind ?_ fun _ q ↦ .of_stale rfl rfl rfl
  induction specs with
  | nil => exact .ok ()
  | cons spec specs ih =>
    refine .bind (.bind (.ofExcept _) fun order q ↦ ?_) fun _ ↦ ih
    exact ⟨rfl, rfl, id, fun _ ↦ rfl, fun _ ↦ ⟨rfl, fun _ ↦ rfl⟩⟩

/-- **Setters** leave the rows alone, whether or not they fail. -/
theorem Setting.leavesRows (c : Setting) : LeavesRows c.apply := by
  rcases c with tree | specs | v | v | v | v | ⟨outputType, returning, streaming⟩
  · exact fun q ↦ .of_stale rfl rfl rfl
  · exact leavesRows_orderBy specs
  · exact leavesRows_limit v
  · exact leavesRows_offset v
  · exact leavesRows_output v
  · exact leavesRows_returns v
  · exact .bind (leavesRows_unlessNull streaming (leavesRows_stream streaming)) fun _ ↦
      .bind (leavesRows_unlessNull returning (leavesRows_returns returning)) fun _ ↦
        leavesRows_unlessNull outputType (leavesRows_output outputType)

/-! ## Operations -/

theorem keeps_bind_at {τ γ : Type} {view : τ → γ} {x : Change τ α} {f : α → Change τ β} {t : τ}
    (hx : view (x t).2 = view t) (hf : ∀ a, Keeps view (f a)) :
    view ((x >>= f) t).2 = view t := by
  obtain ⟨a, t', hrun, hthen⟩ | ⟨e, t', hrun, hthen⟩ := bind_cases x f t <;>
    rw [hrun] at hx <;> rw [hthen]
  · exact (hf a t').trans hx
  · exact hx

def streamed (u : Query × Session σ) : RecordType × List Value × Value :=
  (u.1.type, u.1.rows, u.1.streaming)

theorem keeps_streamed {x : On Query σ α} (hx : Keeps core x) : Keeps streamed x :=
  hx.of_comp fun c : RecordType × Select Value ↦
    (c.1, c.2.rows, c.2.streaming.getD (.bool false))

variable [Backend σ]

theorem keeps_core_fetchShaped (given : Source) :
    Keeps core (fetchShaped given : On Query σ (List Value)) := by
  have hfetch : Keeps core (fetch : On Query σ (List Row)) :=
    (Keeps.gets _).bind fun q ↦ (Keeps.ofExcept _).bind fun _ ↦ keeps_core_close.bind fun _ ↦
      (Keeps.gets _).bind fun q ↦ (keeps_core_beside _).bind fun statement ↦
        (keeps_core_beside _).bind fun _ ↦ .ok _
  exact hfetch.bind fun rows ↦ (Keeps.gets _).bind fun q ↦ keeps_core_beside _

/-- **A run that fails** leaves the rows alone, unless it was streamed. -/
theorem core_of_run_error {given : Source} (hbuffered : q.isStreaming = false) {e : Failure}
    {u : Query × Session σ} (h : run given (q, s) = (.error e, u)) : core u = core (q, s) := by
  rw [run_of_buffered given hbuffered] at h
  have hkept := keeps_core_fetchShaped given (q, s)
  obtain ⟨vs, u', -, hthen⟩ | ⟨e', u', hfetch, hthen⟩ := bind_cases (fetchShaped given) _ (q, s) <;>
    rw [hthen] at h
  · exact nomatch (Prod.mk.inj h).1
  · rw [hfetch] at hkept
    rw [← (Prod.mk.inj h).2]
    exact hkept

def runStreamed (given : Source) : On Query σ Unit := do
  let q ← On.object
  Change.ofExcept q.checkRunnable
  close
  let q ← On.object
  let statement ← On.beside (q.statement false false 0)
  openStream statement (given.orElse (.ofParts q.conn q.pool))
  On.own (setLoaded true)

theorem run_of_isStreaming (given : Source) (hstreaming : q.isStreaming = true) (s : Session σ) :
    run given (q, s) = runStreamed given (q, s) := by
  rw [run, runStreamed, On.object, gets_bind, gets_bind]
  refine bind_congr_at fun _ u hcheck ↦ bind_congr_at fun _ u' hclose ↦ ?_
  obtain ⟨-, rfl⟩ := Prod.mk.inj hcheck
  have hstill : u'.1.isStreaming = true := (isStreaming_of_close hclose).trans hstreaming
  rw [gets_bind, gets_bind]
  refine bind_congr_at fun statement u hstatement ↦ ?_
  dsimp only
  rw [hstill, if_pos rfl]

/-- **A streamed run** leaves the rows alone, and the query streamed. -/
theorem streamed_of_run (given : Source) (hstreaming : q.isStreaming = true) (s : Session σ) :
    streamed (run given (q, s)).2 = streamed (q, s) := by
  have hkeeps : Keeps streamed (runStreamed given : On Query σ Unit) :=
    (Keeps.gets _).bind fun _ ↦ (Keeps.ofExcept _).bind fun _ ↦
      (keeps_streamed keeps_core_close).bind fun _ ↦ (Keeps.gets _).bind fun q ↦
        (keeps_streamed (keeps_core_beside _)).bind fun statement ↦
          (keeps_streamed (keeps_core_openStream _ _)).bind fun _ _ ↦ rfl
  rw [run_of_isStreaming given hstreaming]
  exact hkeeps (q, s)

/-- **A pass over a streaming query** leaves its rows alone, even if it has to run it. -/
theorem streamed_of_advance (hstreaming : q.isStreaming = true) (s : Session σ) :
    streamed (advance .waiting (q, s) : Except Failure (Option (Value × Pass)) × _).2 =
      streamed (q, s) := by
  have hheld : Keeps streamed (heldStream : On Query σ Nat) := keeps_streamed keeps_core_heldStream
  have hstream : streamed (streamOfPass (q, s) : Except Failure Nat × _).2 = streamed (q, s) := by
    rw [streamOfPass, On.object, gets_bind]
    split
    · exact keeps_bind_at (streamed_of_run .absent hstreaming s) fun _ ↦ hheld
    · exact hheld (q, s)
  exact keeps_bind_at hstream fun id ↦
    (keeps_streamed (keeps_core_pullFrom id)).bind fun _ ↦ .ok _

namespace Operation

/-- Whether an operation that ended in some way puts no rows in the place of those there are: it is
no run but one that is streamed or fails, and no pass that makes another one. -/
def KeepsRows (q : Query) (r : Except Failure (List Pass)) : Operation → Prop
  | .run _ => q.isStreaming = true ∨ ∃ e, r = .error e
  | .advance .waiting => q.isStreaming = true
  | _ => True

/-- Whether an operation declares that the rows answer the query. -/
def declares : Operation → Bool
  | .setLoaded loaded => loaded
  | _ => false

/-- What an operation leaves of a query that puts no rows in the place of those there are. -/
structure Leaves (o : Operation) (q q' : Query) : Prop where
  type : q'.type = q.type
  rows : q'.rows = q.rows
  labels : o.declares = false → q.Follows q' ∨ q'.isStreaming = true

theorem Leaves.of_follows {o : Operation} (h : q.Follows q') : o.Leaves q q' :=
  ⟨h.type, h.rows, fun _ ↦ .inl h⟩

omit [Backend σ] in
theorem Leaves.of_core {o : Operation} {u : Query × Session σ} (h : core u = core (q, s)) :
    o.Leaves q u.1 :=
  .of_follows (.of_select (Prod.mk.inj h).1 (Prod.mk.inj h).2)

omit [Backend σ] in
theorem Leaves.of_streamed {o : Operation} {u : Query × Session σ}
    (h : streamed u = streamed (q, s)) (hstreaming : q.isStreaming = true) : o.Leaves q u.1 := by
  obtain ⟨htype, hrest⟩ := Prod.mk.inj h
  obtain ⟨hrows, hsame⟩ := Prod.mk.inj hrest
  exact ⟨htype, hrows, fun _ ↦ .inr ((congrArg Value.truthy hsame).trans hstreaming)⟩

/-- **Every operation** leaves the rows alone that puts none in their place. -/
theorem leaves_perform {o : Operation} {r : Except Failure (List Pass)} {u : Query × Session σ}
    (h : o.perform (q, s) = (r, u)) (hkeeps : o.KeepsRows q r) : o.Leaves q u.1 := by
  have hcore (hx : Keeps core (o.perform : On Query σ (List Pass))) : o.Leaves q u.1 := by
    have hkept := hx (q, s)
    rw [h] at hkept
    exact .of_core hkept
  rcases o with c | loaded | ⟨pool, releaseOld⟩ | releaseOld | given | _ | _ | pass | pass
  · have hset : (c.apply q).2 = u.1 := by
      have hu := congrArg (fun result ↦ result.2.1) h
      rw [← hu, perform, bind_apply, On.own, onFirst_apply]
      rcases (c.apply q).1 with _ | _ <;> rfl
    exact .of_follows (hset ▸ c.leavesRows q)
  · obtain ⟨-, rfl⟩ := Prod.mk.inj h
    refine ⟨rfl, rfl, fun hdeclares ↦ .inl (.of_stale rfl rfl hdeclares)⟩
  · exact hcore ((keeps_core_setPool pool releaseOld).bind fun _ ↦ .ok _)
  · exact hcore ((keeps_core_setConnection none releaseOld).bind fun _ ↦ .ok _)
  · have hstreamed (hstreaming : q.isStreaming = true) : (Operation.run given).Leaves q u.1 := by
      have hkept := keeps_bind_at (streamed_of_run given hstreaming s) fun _ ↦
        (Keeps.ok [] : Keeps streamed (Change.ok ([] : List Pass) : On Query σ (List Pass)))
      exact .of_streamed ((congrArg (fun result ↦ streamed result.2) h).symm.trans hkept) hstreaming
    rcases hbuffered : q.isStreaming with _ | _
    · obtain ⟨e, rfl⟩ := hkeeps.resolve_left (by rw [hbuffered]; exact Bool.false_ne_true)
      obtain ⟨_, u', -, hthen⟩ | ⟨e', u', hrun, hthen⟩ :=
        bind_cases (Query.run given) (fun _ ↦ .ok ([] : List Pass)) (q, s)
      · have hresult := (Prod.mk.inj (hthen.symm.trans h)).1
        contradiction
      · obtain ⟨-, rfl⟩ := Prod.mk.inj (hthen.symm.trans h)
        exact .of_core (core_of_run_error hbuffered hrun)
    · exact hstreamed hbuffered
  · exact hcore (keeps_core_close.bind fun _ ↦ .ok _)
  · exact hcore ((Keeps.gets _).bind fun _ ↦ (Keeps.ofExcept _).bind fun _ ↦ .ok _)
  · rcases pass with _ | id | _
    · have hkept := keeps_bind_at (streamed_of_advance hkeeps s)
        fun next : Option (Value × Pass) ↦ Keeps.ok (next.map (·.2)).toList
      exact .of_streamed ((congrArg (fun result ↦ streamed result.2) h).symm.trans hkept) hkeeps
    · exact hcore (((keeps_core_pullFrom id).bind fun _ ↦ .ok _).bind fun _ ↦ .ok _)
    · exact hcore (Keeps.bind (.ok _) fun _ ↦ .ok _)
  · exact hcore ((keeps_core_beside _).bind fun _ ↦ .ok _)

end Operation

/-! ## Histories -/

/-- Rows that a query was given, and the query as it ran for them. -/
structure Filling where
  ran : Query
  rows : List Row

/-- What can become of a query and its session, with the rows that it was given last, and whether
they were declared to answer the query since. A query that has just been made was given none. What
fails counts as well, and anything else may happen in the session that retains its records. -/
inductive Past : Query → Session σ → Filling → Bool → Prop where
  | new {t : RecordType} {source : Source} {outputType returning streaming : Value} {q : Query}
      (s : Session σ) (h : make t source outputType returning streaming = .ok q) :
      Past q s ⟨q, []⟩ false
  | filled {q q' : Query} {s s' : Session σ} {f : Filling} {declared : Bool}
      (before : Past q s f declared) (given : Source) (hbuffered : q.isStreaming = false)
      (h : run given (q, s) = (.ok (), q', s')) :
      Past q' s' ⟨q', (s.since s').flatMap Event.rows⟩ false
  | step {q q' : Query} {s s' : Session σ} {f : Filling} {declared : Bool}
      {r : Except Failure (List Pass)} (before : Past q s f declared) (o : Operation)
      (h : o.perform (q, s) = (r, q', s')) (hkeeps : o.KeepsRows q r) :
      Past q' s' f (declared || o.declares)
  | others {q : Query} {s s' : Session σ} {f : Filling} {declared : Bool}
      (before : Past q s f declared) (h : s.Retains s') : Past q s' f declared

/-- What a query holds of a row; a record that it holds was there before. -/
def HoldsLive (q : Query) (s : Session σ) (row : Row) (held : Value) : Prop :=
  q.Holds s.records row held ∧ (q.select.output = .record →
    ∀ id typeName printed attributes, held = .object id typeName printed attributes → id < s.next)

/-- What the rows of a query are, after anything that can become of it. -/
structure Labelled (q : Query) (s : Session σ) (f : Filling) (declared : Bool) : Prop where
  type : q.type = f.ran.type
  rows : List.Forall₂ (f.ran.HoldsLive s) f.rows q.rows
  labels : declared = false → q.isLoaded = true → q.isStreaming = true ∨ q.LabelsLike f.ran

omit [Backend σ] in
theorem HoldsLive.retain {row : Row} {held : Value} (h : q.HoldsLive s row held)
    (hs : s.Retains s') : q.HoldsLive s' row held := by
  obtain ⟨hheld, hlive⟩ := h
  rw [Holds] at hheld
  rw [HoldsLive, Holds]
  rcases hshape : q.select.output with _ | _ | _
  · rw [hshape] at hheld
    obtain ⟨id, typeName, printed, attributes, r, source, rfl, hr, hmade⟩ := hheld
    have hid := hlive hshape id typeName printed attributes rfl
    refine ⟨⟨id, typeName, printed, attributes, r, source, rfl, ?_, hmade⟩,
      fun _ _ _ _ _ hsame ↦ ?_⟩
    · exact (hs.records id hid).trans hr
    · obtain ⟨rfl, -⟩ := Value.object.inj hsame
      exact Nat.lt_of_lt_of_le hid hs.next
  · rw [hshape] at hheld
    exact ⟨hheld, fun hrecord ↦ absurd hrecord (by decide)⟩
  · rw [hshape] at hheld
    exact ⟨hheld, fun hrecord ↦ absurd hrecord (by decide)⟩

omit [Backend σ] in
/-- The records that are made of rows take the last numbers. -/
theorem lt_next_of_recordsOf {t : RecordType} {source : Source} {rows : List Row} {vs : List Value}
    (h : recordsOf t source rows s = (.ok vs, s')) : ∀ v ∈ vs,
      ∀ id typeName printed attributes, v = .object id typeName printed attributes →
        id < s'.next := by
  induction rows generalizing s vs with
  | nil =>
    obtain ⟨hvs, rfl⟩ := Prod.mk.inj h
    obtain rfl := Except.ok.inj hvs
    exact nofun
  | cons row rows ih =>
    obtain ⟨r, rest, -, rfl, hrest⟩ := of_recordsOf_cons h
    refine List.forall_mem_cons.mpr ⟨fun id _ _ _ hsame ↦ ?_, ih hrest⟩
    obtain ⟨rfl, -⟩ := Value.object.inj hsame
    generalize hadded : { s with records := _, next := _ } = s₀ at hrest
    have hgrows := (retains_recordsOf t source rows s₀).next
    rw [hrest, ← hadded] at hgrows
    exact hgrows

/-- **A run** that is not streamed leaves the query holding what it was given since. -/
theorem labelled_of_run {given : Source} (hbuffered : q.isStreaming = false)
    (h : run given (q, s) = (.ok (), q', s')) :
    Labelled q' s' ⟨q', (s.since s').flatMap Event.rows⟩ false := by
  obtain ⟨rows, hgives, hheld⟩ := holds_of_run h hbuffered
  rw [hgives.flatMap_since]
  refine ⟨rfl, ?_, fun _ _ ↦ .inr (.refl q')⟩
  have hlive : q'.select.output = .record → ∀ v ∈ q'.rows, ∀ id typeName printed attributes,
      v = .object id typeName printed attributes → id < s'.next := by
    intro hshape
    rw [run_of_buffered given hbuffered] at h
    obtain ⟨vs, ⟨q₀, s₀⟩, hshaped, hstore⟩ := bind_eq_ok.mp h
    obtain ⟨-, hend⟩ := Prod.mk.inj hstore
    obtain ⟨rfl, rfl⟩ := Prod.mk.inj hend
    rw [fetchShaped] at hshaped
    obtain ⟨_, ⟨q₁, s₁⟩, -, hshaped⟩ := bind_eq_ok.mp hshaped
    rw [On.object, gets_bind] at hshaped
    obtain ⟨s₂, hsame, hrecords⟩ := On.beside_eq_ok hshaped
    obtain ⟨rfl, rfl⟩ := Prod.mk.inj hsame
    rw [shapeRows, show q₀.select.output = .record from hshape] at hrecords
    exact lt_next_of_recordsOf hrecords
  refine List.forall₂_iff_zip.mpr ⟨hheld.length_eq, fun hmem ↦ ?_⟩
  exact ⟨List.forall₂_zip hheld hmem, fun hshape ↦ hlive hshape _ (List.of_mem_zip hmem).2⟩

omit [Backend σ] in
/-- A query that has just been made holds nothing. -/
theorem labelled_of_make {t : RecordType} {source : Source}
    {outputType returning streaming : Value}
    (h : make t source outputType returning streaming = .ok q) (s : Session σ) :
    Labelled q s ⟨q, []⟩ false := by
  obtain ⟨⟨conn, pool⟩, -, h⟩ := Except.bind_eq_ok.mp h
  have hset := (Setting.options outputType returning streaming).leavesRows (blank t conn pool)
  refine ⟨rfl, ?_, fun _ _ ↦ .inr (.refl q)⟩
  have hrows : q.rows = [] := by
    dsimp only at h
    split at h
    next hoptions =>
      obtain rfl := Except.ok.inj h
      rw [Setting.apply, hoptions] at hset
      exact hset.rows
    next => exact nomatch h
  rw [hrows]
  exact List.Forall₂.nil

/-- **An operation** that puts no rows in the place of those there are keeps their labels, while
they count as loaded. -/
theorem Labelled.perform {f : Filling} {declared : Bool} (h : Labelled q s f declared)
    {o : Operation} {r : Except Failure (List Pass)} (hrun : o.perform (q, s) = (r, q', s'))
    (hkeeps : o.KeepsRows q r) : Labelled q' s' f (declared || o.declares) := by
  have hleaves : o.Leaves q q' := Operation.leaves_perform hrun hkeeps
  have hlive := o.retains_perform (q, s)
  rw [hrun] at hlive
  refine ⟨hleaves.type.trans h.type, ?_, fun hnot hloaded ↦ ?_⟩
  · rw [hleaves.rows]
    exact h.rows.imp fun row held hheld ↦ hheld.retain hlive
  · obtain ⟨hdeclared, hother⟩ := Bool.or_eq_false_iff.mp hnot
    rcases hleaves.labels hother with hfollows | hstreaming
    · rcases h.labels hdeclared (hfollows.loaded hloaded) with hbefore | hbefore
      · exact .inl ((hfollows.streaming hloaded).trans hbefore)
      · exact .inr (hbefore.trans (hfollows.labels hloaded))
    · exact .inl hstreaming

/-- **Whatever becomes of a query**, it holds the rows that it was given last. -/
theorem Past.labelled {f : Filling} {declared : Bool} (h : Past q s f declared) :
    Labelled q s f declared := by
  induction h with
  | new s h => exact labelled_of_make h s
  | filled _ given hbuffered h => exact labelled_of_run hbuffered h
  | step _ o h hkeeps ih => exact ih.perform h hkeeps
  | others _ h ih => exact ⟨ih.type, ih.rows.imp fun row held hheld ↦ hheld.retain h, ih.labels⟩

/-! ## Other labels -/

/-- What can be given of what a query holds of a row that it was given in another shape, or for
another key: it is given whole as a single value, or it was a single value itself and has pairs of
its own, or is a record. -/
def Mistakes (q ran : Query) (o : DataOptions) (held : Value) : RowData → Prop
  | .value v => q.select.output = .value ∧ (v = held ∨ v = .null ∨
      (o.includeDefaults = true ∧ ∃ key, v = q.type.default key))
  | .pairs ps => ran.select.output = .value ∧ match q.select.output with
    | .record => ∃ id typeName printed attributes, held = .object id typeName printed attributes
    | .object => ∃ own, pairsOf held = .ok own ∧ ∀ p ∈ ps, p ∈ own ∨
      (o.includeDefaults = true ∧ ∃ key, p.2 = q.type.default key)
    | .value => False

/-- A query that returns the single values of a field, and options that show them. -/
structure Returns (q : Query) (o : DataOptions) (key : String) : Prop where
  buffered : q.isStreaming = false
  output : q.select.output = .value
  returns : q.select.returns = .one (.text key)
  declared : q.type.declares key = true
  shown : q.type.shows o key = true
  fields : o.fields = none
  onlyDirty : o.onlyDirty = false
  onlySet : o.onlySet = false

section Mistakes

omit [Backend σ]

variable {o : DataOptions} {records : Numbered Record} {row : Row} {held : Value}

theorem map_eq_ok {γ δ : Type} {x : Except Failure γ} {f : γ → δ} {d : δ} :
    f <$> x = .ok d ↔ ∃ c, x = .ok c ∧ f c = d := by
  rcases x with e | c <;> simp

/-- What is done with values that go with something ends in values that go with it. -/
theorem forall₂_of_mapM_of_forall₂ {γ δ : Type} {R : γ → Value → Prop} {S : γ → δ → Prop}
    {f : Value → Except Failure δ} {cs : List γ} {vs : List Value} {ds : List δ}
    (hheld : List.Forall₂ R cs vs) (h : vs.mapM f = .ok ds)
    (hf : ∀ c v d, R c v → f v = .ok d → S c d) : List.Forall₂ S cs ds := by
  have hresults := Except.forall₂_of_mapM h
  clear h
  induction hheld generalizing ds with
  | nil =>
    obtain rfl := List.forall₂_nil_left_iff.mp hresults
    exact .nil
  | cons hfirst _ ih =>
    obtain ⟨d, ds', hd, hds, rfl⟩ := List.forall₂_cons_left_iff.mp hresults
    exact .cons (hf _ _ _ hfirst hd) (ih hds)

theorem exists_object_of_recordData {ps : Pairs} (h : recordData records o held = .ok ps) :
    ∃ id typeName printed attributes, held = .object id typeName printed attributes := by
  rw [recordData.eq_def] at h
  split at h
  next id typeName printed attributes => exact ⟨id, typeName, printed, attributes, rfl⟩
  next => exact nomatch h

/-- Maps are not taken for records. -/
theorem mistakes_of_recordData (hshape : q.select.output = .record)
    (hlabels : ¬q.LabelsLike ran) (hheld : ran.Holds records row held) {ps : Pairs}
    (h : recordData records o held = .ok ps) : q.Mistakes ran o held (.pairs ps) := by
  obtain ⟨id, typeName, printed, attributes, rfl⟩ := exists_object_of_recordData h
  rw [Mistakes, hshape]
  refine ⟨?_, id, typeName, printed, attributes, rfl⟩
  rcases hran : ran.select.output with _ | _ | _
  · exact (hlabels (.of_output (hshape.trans hran.symm) (by rw [hshape]; decide))).elim
  · rw [Holds, hran] at hheld
    contradiction
  · rfl

theorem exists_pairs_of_objectData {allowed : Option (List Value)} {ps : Pairs}
    (h : q.objectData o allowed held = .ok ps) :
    ∃ own, pairsOf held = .ok own ∧ ∀ p ∈ ps, p ∈ own ∨
      (o.includeDefaults = true ∧ ∃ key, p.2 = q.type.default key) := by
  obtain ⟨own, hown, hkept⟩ := Except.bind_eq_ok.mp h
  obtain rfl := Except.ok.inj hkept
  refine ⟨own, hown, fun p hp ↦ ?_⟩
  obtain ⟨⟨key, v⟩, hmem, rfl⟩ := List.mem_map.mp hp
  have hmem : (key, v) ∈ own := (mem_letThrough.mp hmem).1
  dsimp only
  rcases key.asText? with _ | name
  · exact .inl hmem
  · refine (orDefault_eq_or q.type o name v).imp (fun hsame ↦ ?_) id
    show (key, orDefault q.type o name v) ∈ own
    rwa [hsame]

/-- Records are not taken for maps. -/
theorem mistakes_of_objectData (hshape : q.select.output = .object)
    (hlabels : ¬q.LabelsLike ran) (hheld : ran.Holds records row held)
    {allowed : Option (List Value)} {ps : Pairs} (h : q.objectData o allowed held = .ok ps) :
    q.Mistakes ran o held (.pairs ps) := by
  obtain ⟨own, hown, hpairs⟩ := exists_pairs_of_objectData h
  rw [Mistakes, hshape]
  refine ⟨?_, own, hown, hpairs⟩
  rcases hran : ran.select.output with _ | _ | _
  · rw [Holds, hran] at hheld
    obtain ⟨id, typeName, printed, attributes, -, -, rfl, -⟩ := hheld
    contradiction
  · exact (hlabels (.of_output (hshape.trans hran.symm) (by rw [hshape]; decide))).elim
  · rfl

theorem mistakes_of_valueData (hshape : q.select.output = .value) {allowed : Option (List Value)}
    {v : Value} (h : q.valueData o allowed held = .ok v) : q.Mistakes ran o held (.value v) := by
  obtain ⟨passes, rfl⟩ : ∃ passes : Bool, v = orDefault q.type o
      (returnsValue q.select.returns).inline (if passes then held else .null) := by
    rw [valueData.eq_def] at h
    dsimp only at h
    split at h
    next => exact ⟨true, (Except.ok.inj h).symm⟩
    next keys =>
      split at h
      · exact ⟨isAmong keys _, (Except.ok.inj h).symm⟩
      · exact nomatch h
  refine ⟨hshape, ?_⟩
  rcases orDefault_eq_or q.type o (returnsValue q.select.returns).inline
    (if passes then held else .null) with hsame | hdefault
  · rw [hsame]
    rcases passes with _ | _
    · exact .inr (.inl rfl)
    · exact .inl rfl
  · exact .inr (.inr hdefault)

/-- **Data under other labels** mistakes what is held of each row for something else. -/
theorem mistakes_of_data {rows : List Row} (hheld : List.Forall₂ (ran.Holds records) rows q.rows)
    (hlabels : ¬q.LabelsLike ran) {ds : List RowData} (h : q.data records o = .ok ds) :
    List.Forall₂ (fun row d ↦ ∃ held, ran.Holds records row held ∧ q.Mistakes ran o held d)
      rows ds := by
  rw [data] at h
  obtain ⟨⟨⟩, -, h⟩ := Except.bind_eq_ok.mp h
  rcases hshape : q.select.output with _ | _ | _
  · rw [hshape] at h
    refine forall₂_of_mapM_of_forall₂ hheld h fun row held d hrow hd ↦ ⟨held, hrow, ?_⟩
    obtain ⟨ps, hps, rfl⟩ := map_eq_ok.mp hd
    exact mistakes_of_recordData hshape hlabels hrow hps
  · rw [hshape] at h
    obtain ⟨allowed, -, h⟩ := Except.bind_eq_ok.mp h
    refine forall₂_of_mapM_of_forall₂ hheld h fun row held d hrow hd ↦ ⟨held, hrow, ?_⟩
    obtain ⟨ps, hps, rfl⟩ := map_eq_ok.mp hd
    exact mistakes_of_objectData hshape hlabels hrow hps
  · rw [hshape] at h
    obtain ⟨allowed, -, h⟩ := Except.bind_eq_ok.mp h
    refine forall₂_of_mapM_of_forall₂ hheld h fun row held d hrow hd ↦ ⟨held, hrow, ?_⟩
    obtain ⟨v, hv, rfl⟩ := map_eq_ok.mp hd
    exact mistakes_of_valueData hshape hv

/-- **Single values** are whatever is held, under the key that is returned now. -/
theorem data_of_returns {key : String} (h : q.Returns o key)
    (hhidden : ∀ v ∈ q.type.privateFields, v.hashable = true) :
    q.data records o = .ok (q.rows.map fun held ↦ .value (orDefault q.type o key held)) := by
  have hpicks : q.type.Picks o q.type.keys :=
    { fields := by rw [Record.chosenKeys, h.fields]
      declared := fun key hkey ↦ Table.declares_of_mem_keys hkey
      hashable := hhidden, onlyDirty := h.onlyDirty, onlySet := h.onlySet }
  obtain ⟨allowed, hallowed, hpasses⟩ := exists_allowedKeys hpicks
  have hdeclared : key ∈ q.type.keys := Table.mem_keys_of_declares h.declared
  have hcheck : q.checkDataOptions o = .ok () := by
    rw [checkDataOptions, h.buffered, h.fields, h.onlyDirty, h.onlySet]
    simp
  rw [data, hcheck, h.output, hallowed]
  refine Except.mapM_of_forall₂ ?_
  rw [List.forall₂_map_right_iff]
  refine List.forall₂_same.mpr fun held _ ↦ ?_
  have hreturns : returnsValue q.select.returns = .text key := by rw [h.returns]; rfl
  have hpass : allowed.all (isAmong · (.text key)) = true := by
    rw [hpasses key hdeclared, h.shown, Bool.and_true]
    exact List.contains_iff_mem.mpr hdeclared
  have hkey : (returnsValue q.select.returns).asText? = some key := by rw [hreturns]; rfl
  rw [valueData_of_text hkey, hreturns, if_pos hpass]
  rfl

end Mistakes

/-! ## Labels of rows -/

/-- **Rows keep their labels while they count as loaded.** Let anything have become of a query, and
let the options be of the right types. If its rows count as loaded, and nobody declared that they
do, then it streams, or labels them as it did when it ran for them. Wherever that is so, its data is
refused with a fault of the library or projects the rows that it was given last under the labels of
that run. Where it is not so, what it gives of a row is a mistake about what it holds of that row: a
query that returns single values of a field gives just that, whatever it was fetched as. -/
theorem rows_keep_labels {f : Filling} {declared : Bool} (h : Past q s f declared)
    {o : DataOptions} (ho : f.ran.type.Reads o)
    (ht : f.ran.select.output = .record → f.ran.type.KeepsState) :
    (declared = false → q.isLoaded = true → q.isStreaming = true ∨ q.LabelsLike f.ran) ∧
    (q.isStreaming = true ∨ q.LabelsLike f.ran →
      FaultsOr (List.Forall₂ (f.ran.Projects o) f.rows) (q.data s.records o)) ∧
    (¬q.LabelsLike f.ran → ∀ ds, q.data s.records o = .ok ds → List.Forall₂
      (fun row d ↦ ∃ held, f.ran.Holds s.records row held ∧ q.Mistakes f.ran o held d)
        f.rows ds) ∧
    ∀ key, q.Returns o key → ∃ ds, q.data s.records o = .ok ds ∧ List.Forall₂
      (fun row d ↦ ∃ held, f.ran.Holds s.records row held ∧
        d = .value (orDefault f.ran.type o key held)) f.rows ds := by
  obtain ⟨htype, hrows, hlabels⟩ := h.labelled
  have hheld : List.Forall₂ (f.ran.Holds s.records) f.rows q.rows :=
    hrows.imp fun _ _ hrow ↦ hrow.1
  refine ⟨hlabels, ?_, fun hnot ds hds ↦ mistakes_of_data hheld hnot hds, fun key hkey ↦ ?_⟩
  · rintro (hstreaming | hsame)
    · rw [data_of_isStreaming hstreaming]
      exact ⟨_, rfl⟩
    · exact data_projects htype hsame ho ht hheld
  · refine ⟨_, data_of_returns hkey (htype ▸ ho.hidden), ?_⟩
    rw [List.forall₂_map_right_iff, htype]
    exact hheld.imp fun row held hrow ↦ ⟨held, hrow, rfl⟩

/-- A query for the texts of all letters, which are private. -/
def whispered : Query where
  type := discreet.type
  select := { table := .letters, output := .value, returns := .one (.text "b") }
  conn := some ⟨"c"⟩

def whisperedRow : Row := [("b", .text "x")]

/-- The query and the session after a run that is given the row. -/
def whisperedRun : Query × Session Scripted :=
  (run .absent (whispered, givingBack whisperedRow)).2

def relabelled : Query := (returns (.text "a") whisperedRun.1).2

theorem rows_keep_labels_whispered :
    whisperedRun.1.isLoaded = true ∧
    FaultsOr (List.Forall₂ (whisperedRun.1.Projects {}) [whisperedRow])
      (whisperedRun.1.data whisperedRun.2.records {}) ∧
    ∃ ds, relabelled.data whisperedRun.2.records {} = .ok ds ∧
      List.Forall₂ (fun row d ↦ ∃ held, whisperedRun.1.Holds whisperedRun.2.records row held ∧
        d = .value (orDefault discreet.type {} "a" held)) [whisperedRow] ds := by
  have hmake : Past whispered (givingBack whisperedRow) ⟨whispered, []⟩ false :=
    @Past.new _ _ discreet.type (.connection ⟨"c"⟩) .null (.text "b") .null _ _ rfl
  have hran : Past whisperedRun.1 whisperedRun.2 ⟨whisperedRun.1, [whisperedRow]⟩ false :=
    hmake.filled .absent rfl (Prod.ext rfl rfl)
  have hset : Past relabelled whisperedRun.2 ⟨whisperedRun.1, [whisperedRow]⟩ false :=
    hran.step (.set (.returns (.text "a"))) (Prod.ext rfl rfl) trivial
  have ho : discreet.type.Reads {} :=
    { fields := nofun
      hidden := fun v hv ↦ by rw [List.mem_singleton.mp hv]; rfl }
  obtain ⟨hlabels, hprojects, -, -⟩ := rows_keep_labels hran ho nofun
  obtain ⟨-, -, -, hgives⟩ := rows_keep_labels hset ho nofun
  refine ⟨rfl, hprojects (hlabels rfl rfl), hgives "a" ?_⟩
  exact { buffered := rfl, output := rfl, returns := rfl, declared := rfl, shown := rfl
          fields := rfl, onlyDirty := rfl, onlySet := rfl }

/-- **Single values under another key** are given, though they do not count as loaded and there is
no going through them: a text that was held back before is given as a letter. -/
theorem data_of_relabelled :
    run .absent (whispered, givingBack whisperedRow) = (.ok (), whisperedRun) ∧
    whisperedRun.1.data whisperedRun.2.records {} = .ok [.value .null] ∧
    returns (.text "a") whisperedRun.1 = (.ok (), relabelled) ∧
    relabelled.isLoaded = false ∧ relabelled.iterate = .error (.fault .notLoaded) ∧
    relabelled.data whisperedRun.2.records {} = .ok [.value (.text "x")] :=
  ⟨rfl, rfl, rfl, rfl, rfl, rfl⟩

end Rowmap.Query
