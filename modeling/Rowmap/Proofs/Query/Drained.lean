import Rowmap.Proofs.Query.Custody
import Rowmap.Proofs.Query.Labels
import Rowmap.Proofs.Stream.Drained

/-!
# Queries hold drained streams

Everything that is done to a query leaves the stream that it holds live, and drained if it is
closed. A query does not notice that its stream closes, so it can be spent: it counts as loaded
while there is nothing to be had from its stream any more.
-/

namespace Rowmap

namespace Query

open Change

variable {σ α : Type} {q q' : Query} {s s' : Session σ}

/-- Whether the stream that a query holds, if it holds one, is live and drained. -/
def HoldsDrained (u : Query × Session σ) : Prop :=
  ∀ n, u.1.stream = some n → ∃ a, u.2.streams.lookup n = some a ∧ a.Drained

theorem HoldsDrained.of_none (h : q.stream = none) : HoldsDrained (q, s) :=
  fun _ hn ↦ nomatch h.symm.trans hn

theorem holdsDrained_of_keeps {x : On Query σ α}
    (hx : Keeps (fun u : Query × Session σ ↦ (u.1.stream, u.2.streams)) x) :
    Preserves HoldsDrained x :=
  .of_keeps (p := fun view : Option Nat × Numbered RowStream ↦
    ∀ n, view.1 = some n → ∃ a, view.2.lookup n = some a ∧ a.Drained) hx

theorem holdsDrained_withStream {x : On RowStream σ α} (id : Nat)
    (hstreams : Keeps (fun u ↦ u.2.streams) x) (hx : Preserves (fun u ↦ u.1.Drained) x) :
    Preserves HoldsDrained (On.beside (App.withStream id x) : On Query σ α) := by
  rintro ⟨q, s⟩ h n hn
  obtain ⟨a, ha, hdrained⟩ := h n hn
  show ∃ a, (App.withStream id x s).2.streams.lookup n = some a ∧ a.Drained
  rcases hlookup : s.streams.lookup id with _ | b
  · rw [App.withStream, hlookup]
    exact ⟨a, ha, hdrained⟩
  · have hput : (App.withStream id x s).2.streams = s.streams.put id (x (b, s)).2.1 := by
      rw [App.withStream, hlookup]
      exact congrArg (Numbered.put · id _) (hstreams (b, s))
    rw [hput]
    by_cases hsame : n = id
    · subst hsame
      obtain rfl := Option.some.inj (ha.symm.trans hlookup)
      exact ⟨_, Numbered.lookup_put_self _ _ _, hx (a, s) hdrained⟩
    · rw [Numbered.lookup_put_of_ne _ _ hsame]
      exact ⟨a, ha, hdrained⟩

/-- A query that holds no stream while something happens beside it, and what is done then. -/
theorem holdsDrained_bind {β : Type} {x : On Query σ α} {f : α → On Query σ β}
    (hx : Keeps (fun u ↦ u.1.stream) x)
    (hf : ∀ a u, u.1.stream = none → HoldsDrained ((f a) u).2) (u : Query × Session σ)
    (hu : u.1.stream = none) : HoldsDrained ((x >>= f) u).2 := by
  have hkept := hx u
  obtain ⟨a, u', hrun, hthen⟩ | ⟨e, u', hrun, hthen⟩ := bind_cases x f u <;>
    rw [hrun] at hkept <;> rw [hthen]
  · exact hf a u' (hkept.trans hu)
  · exact .of_none (hkept.trans hu)

variable [Backend σ]

theorem holdsDrained_close : Preserves HoldsDrained (close : On Query σ Unit) := by
  rintro ⟨q, s⟩ -
  exact .of_none (congrArg Query.stream (close_fst (q, s)))

/-- **A new stream** is held by the query from when it is open. -/
theorem openOn_apply (q : Query) (c : Connection) (statement : Statement) (source : Source)
    (u : Query × Session σ) : q.openOn c statement source u =
      match RowStream.open_ (q.streamOn c statement source,
        u.2.withStream (q.streamOn c statement source)) with
      | (.ok _, b, t) => (.ok (), { u.1 with stream := some u.2.next },
          { t with streams := t.streams.put u.2.next b })
      | (.error e, b, t) => (.error e, u.1, { t with streams := t.streams.put u.2.next b }) := by
  obtain ⟨p, s⟩ := u
  have hadd : (On.beside (App.addStream (q.streamOn c statement source)) : On Query σ Nat) (p, s) =
      (.ok s.next, p, s.withStream (q.streamOn c statement source)) := rfl
  have hlookup : (s.withStream (q.streamOn c statement source)).streams.lookup s.next =
      some (q.streamOn c statement source) := Numbered.lookup_put_self _ _ _
  have hopen : App.withStream s.next RowStream.open_
      (s.withStream (q.streamOn c statement source)) =
      match RowStream.open_ (q.streamOn c statement source,
        s.withStream (q.streamOn c statement source)) with
      | (r, b, t) => (r, { t with streams := t.streams.put s.next b }) := by
    rw [App.withStream, hlookup]
  rw [openOn, bind_of_ok _ hadd, bind_apply, On.beside, onSecond_apply, hopen]
  rcases RowStream.open_ (q.streamOn c statement source,
    s.withStream (q.streamOn c statement source)) with ⟨e | _, b, t⟩
  · rfl
  · rfl

theorem holdsDrained_openStream (statement : Statement) (source : Source) (u : Query × Session σ)
    (hu : u.1.stream = none) : HoldsDrained (openStream statement source u).2 := by
  rw [openStream_eq]
  refine holdsDrained_bind (.gets _) (fun q u hu ↦ ?_) u hu
  refine holdsDrained_bind (fun u ↦ congrArg Query.stream (connection_fst q u)) (fun c u hu ↦ ?_)
    u hu
  rw [openOn_apply]
  rcases hopen : RowStream.open_ (q.streamOn c statement source,
    u.2.withStream (q.streamOn c statement source)) with ⟨e | _, b, t⟩
  · exact .of_none hu
  · obtain ⟨owns, rfl⟩ := RowStream.of_open hopen
    rintro n hn
    obtain rfl := Option.some.inj hn
    exact ⟨_, Numbered.lookup_put_self _ _ _, RowStream.drained_of_open rfl⟩

/-- **A run** gives the stream of the last one up, and the new one is open. -/
theorem holdsDrained_run (given : Source) :
    Preserves HoldsDrained (run given : On Query σ Unit) := by
  refine .object fun q ↦ (Preserves.ofExcept _).bind fun _ ↦ ?_
  rintro u -
  have hclose : (close u : Except Failure Unit × _).2.1.stream = none := by rw [close_fst]
  obtain ⟨_, u', hrun, hthen⟩ | ⟨e, u', hrun, hthen⟩ := bind_cases close _ u <;>
    rw [hrun] at hclose <;> rw [hthen]
  · refine holdsDrained_bind (.gets _) (fun q u hu ↦ ?_) u' hclose
    refine holdsDrained_bind (fun _ ↦ rfl) (fun statement u hu ↦ ?_) u hu
    have hloaded : Preserves HoldsDrained (On.own (setLoaded true) : On Query σ Unit) :=
      holdsDrained_of_keeps fun _ ↦ rfl
    dsimp only
    split
    · exact Preserves.bind_at (holdsDrained_openStream statement _ u hu) fun _ ↦ hloaded
    · refine holdsDrained_bind (fun _ ↦ rfl) (fun outcome u hu ↦ ?_) u hu
      refine holdsDrained_bind (fun _ ↦ rfl) (fun rows u hu ↦ ?_) u hu
      exact .of_none hu
  · exact .of_none hclose

theorem holdsDrained_pullFrom (id : Nat) :
    Preserves HoldsDrained (pullFrom id : On Query σ (Option Value)) := by
  have hpull : Preserves HoldsDrained
      (On.beside (App.withStream id RowStream.pull) : On Query σ Value) :=
    holdsDrained_withStream id RowStream.keeps_streams_pull RowStream.drained_pull
  refine hpull.attempt.bind fun r ↦ ?_
  rcases r with e | v
  · refine (holdsDrained_withStream id (RowStream.keeps_streams_close false)
      (RowStream.drained_close false)).bind fun _ ↦ ?_
    split
    · exact .ok none
    · exact .fail _
  · exact .ok _

/-- **Passing over a stream** leaves it drained if it leaves it closed. -/
theorem holdsDrained_advance (pass : Pass) :
    Preserves HoldsDrained (advance pass : On Query σ (Option (Value × Pass))) := by
  have hheld : Preserves HoldsDrained (heldStream : On Query σ Nat) := by
    refine .object fun q ↦ ?_
    rcases q.stream with _ | id
    · exact .fail _
    · exact .ok id
  have hstream : Preserves HoldsDrained (streamOfPass : On Query σ Nat) := by
    refine .object fun q ↦ ?_
    split
    · exact (holdsDrained_run _).bind fun _ ↦ hheld
    · exact hheld
  rcases pass with _ | id | _
  · exact hstream.bind fun id ↦ (holdsDrained_pullFrom id).bind fun _ ↦ .ok _
  · exact (holdsDrained_pullFrom id).bind fun _ ↦ .ok _
  · exact .ok none

theorem holdsDrained_setConnection (conn : Option Connection) (releaseOld : Bool) :
    Preserves HoldsDrained (setConnection conn releaseOld : On Query σ Unit) := by
  refine holdsDrained_of_keeps ((Keeps.gets _).bind fun q ↦ Keeps.bind (fun _ ↦ rfl) fun _ ↦ ?_)
  rcases q.conn with _ | c
  · exact .ok ()
  · dsimp only
    split
    · exact fun _ ↦ rfl
    · exact .ok ()

/-- **Every operation** leaves the stream that the query holds drained if it is closed. -/
theorem Operation.holdsDrained_perform (o : Operation) :
    Preserves HoldsDrained (o.perform : On Query σ (List Pass)) := by
  rcases o with c | loaded | ⟨pool, releaseOld⟩ | releaseOld | given | _ | _ | pass | pass
  · refine Preserves.bind (holdsDrained_of_keeps fun u ↦ ?_) fun _ ↦ .ok _
    exact congrArg (·, u.2.streams) (Prod.mk.inj (c.keeps u.1)).2
  · exact Preserves.bind (holdsDrained_of_keeps fun _ ↦ rfl) fun _ ↦ .ok _
  · refine Preserves.bind ?_ fun _ ↦ .ok _
    exact Preserves.bind (holdsDrained_of_keeps fun _ ↦ rfl) fun _ ↦
      holdsDrained_setConnection none releaseOld
  · exact (holdsDrained_setConnection none releaseOld).bind fun _ ↦ .ok _
  · exact (holdsDrained_run given).bind fun _ ↦ .ok _
  · exact holdsDrained_close.bind fun _ ↦ .ok _
  · exact .object fun q ↦ (Preserves.ofExcept _).bind fun _ ↦ .ok _
  · exact (holdsDrained_advance pass).bind fun _ ↦ .ok _
  · refine Preserves.bind ?_ fun _ ↦ .ok _
    rcases pass with _ | id | _
    · exact .ok ()
    · exact holdsDrained_withStream id (RowStream.keeps_streams_close false)
        (RowStream.drained_close false)
    · exact .ok ()

/-! ## Histories -/

/-- What can become of a query and its session: the query is made, and then anything is done to it,
which succeeds or fails. Anything else may happen in the session, but not to the stream that the
query holds. -/
inductive Evolved : Query → Session σ → Prop where
  | new {t : RecordType} {source : Source} {outputType returning streaming : Value} {q : Query}
      (s : Session σ) (h : make t source outputType returning streaming = .ok q) : Evolved q s
  | step {q q' : Query} {s s' : Session σ} {r : Except Failure (List Pass)} (before : Evolved q s)
      (o : Operation) (h : o.perform (q, s) = (r, q', s')) : Evolved q' s'
  | connect {q q' : Query} {s s' : Session σ} {r : Except Failure Unit} (before : Evolved q s)
      (conn : Option Connection) (releaseOld : Bool)
      (h : setConnection conn releaseOld (q, s) = (r, q', s')) : Evolved q' s'
  | others {q : Query} {s s' : Session σ} (before : Evolved q s)
      (h : ∀ n, q.stream = some n → s'.streams.lookup n = s.streams.lookup n) : Evolved q s'

theorem Evolved.holdsDrained (h : Evolved q s) : HoldsDrained (q, s) := by
  induction h with
  | new s h => exact .of_none (stream_of_make h)
  | @step q q' s s' r _ o h ih =>
    have hkept := o.holdsDrained_perform (q, s) ih
    rwa [h] at hkept
  | @connect q q' s s' r _ conn releaseOld h ih =>
    have hkept := holdsDrained_setConnection conn releaseOld (q, s) ih
    rwa [h] at hkept
  | others _ h ih =>
    intro n hn
    rw [h n hn]
    exact ih n hn

/-! ## Spent queries -/

/-- Whether a query counts as loaded while the stream that it holds is closed. -/
def Spent (q : Query) (s : Session σ) : Prop :=
  q.isLoaded = true ∧
    ∃ id a, q.stream = some id ∧ s.streams.lookup id = some a ∧ a.closed = true

omit [Backend σ] in
theorem heldStream_of_stream {id : Nat} (hid : q.stream = some id) (s : Session σ) :
    (heldStream : On Query σ Nat) (q, s) = (.ok id, q, s) := by
  rw [heldStream, On.object, gets_bind, hid]
  rfl

/-- A pass over a query that is loaded goes on with the stream that the query holds. -/
theorem advance_of_isLoaded (hloaded : q.isLoaded = true) {id : Nat} (hid : q.stream = some id)
    (s : Session σ) : advance .waiting (q, s) = advance (.over id) (q, s) := by
  have hstream : (streamOfPass : On Query σ Nat) (q, s) = (.ok id, q, s) := by
    rw [streamOfPass, On.object, gets_bind]
    dsimp only
    rw [hloaded, hid]
    exact heldStream_of_stream hid s
  exact bind_of_ok _ hstream

end Query

end Rowmap
