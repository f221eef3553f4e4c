import Rowmap.Proofs.Query.Drained
import Rowmap.Proofs.Query.Private
import Rowmap.Proofs.Stream.Sends

/-!
# Passes over streaming queries

A pass over the rows of a streaming query goes over the stream that the query holds if it counts as
loaded, and otherwise runs it. A pass that runs the query hands out a record for each row of the
cursor that it opens, in their order, and ends when there is none left. But the query still counts
as loaded then, and still holds the stream. So the next pass goes over the closed stream: it ends
before the first row, without having sent or read anything.
-/

namespace Rowmap

namespace Query

open Change

variable {σ α : Type} {q : Query} {s : Session σ}

/-! ## Live streams -/

theorem withStream_apply {x : On RowStream σ α} {id : Nat} {a b : RowStream} {t : Session σ}
    {r : Except Failure α} (ha : s.streams.lookup id = some a) (hx : x (a, s) = (r, b, t)) :
    App.withStream id x s = (r, { t with streams := t.streams.put id b }) := by
  rw [App.withStream, ha]
  dsimp only
  rw [hx]

theorem adds_withStream {x : On RowStream σ α} {n : Nat} {a : RowStream} {p : List Event → Prop}
    (ha : s.streams.lookup n = some a) (hx : x.Adds (·.2) (a, s) fun _ _ added ↦ p added) :
    (App.withStream n x).Adds id s fun _ _ added ↦ p added := by
  obtain ⟨added, hadded, hp⟩ := hx
  rcases hrun : x (a, s) with ⟨r, b, t⟩
  rw [hrun] at hadded
  refine ⟨added, ?_, hp⟩
  rw [withStream_apply ha hrun]
  exact hadded

/-! ## Runs -/

variable [Backend σ]

theorem onlySends_connection (p : Statement → Prop) (q : Query) (u : Query × Session σ) :
    OnlySends (·.2) p (q.connection : On Query σ Connection) u := by
  rw [connection]
  rcases q.conn with _ | c
  · refine OnlySends.onSecond ?_ u.1
    exact (App.onlySends_poolOrDefault p q.pool _).bind fun pool s _ ↦
      App.onlySends_usableConnection p pool _ s
  · exact .ok c

/-- What a streaming query and its session are after a run that succeeded: the statement that the
query shows was sent, and no other, and the query holds a new stream that is open over its cursor,
from which nothing was fetched yet. `db` is the database as it was when the cursor was opened. -/
structure Opened (q : Query) (s : Session σ) (given : Source) (u : Query × Session σ) (id : Nat)
    (c : Connection) (st : Statement) (db : σ) : Prop where
  statement : (q.shown s).statement = .ok st
  sends : Sends (·.2) [st] (run given) (q, s)
  query : u.1 = ({ q with stream := some id }).withLoaded true
  stream : ∃ owns, u.2.streams.lookup id =
    some ((q.streamOn c st (given.orElse (.ofParts q.conn q.pool))).inUse [] false owns)
  cursor : Backend.perform (.openCursor c st.text st.values) db = (.ok (), u.2.db)

theorem of_openOn {c : Connection} {st : Statement} {source : Source} {u w : Query × Session σ}
    (h : q.openOn c st source u = (.ok (), w)) :
    w.1 = { u.1 with stream := some u.2.next } ∧
    Sends (·.2) [st] (q.openOn c st source) u ∧
    (∃ owns, w.2.streams.lookup u.2.next =
      some ((q.streamOn c st source).inUse [] false owns)) ∧
    ∃ db, Backend.perform (.openCursor c st.text st.values) db = (.ok (), w.2.db) := by
  have happly := openOn_apply q c st source u
  rcases hopen : RowStream.open_ (q.streamOn c st source,
    u.2.withStream (q.streamOn c st source)) with ⟨e | ⟨⟨⟩⟩, b, t⟩
  · rw [hopen] at happly
    exact nomatch happly.symm.trans h
  · rw [hopen] at happly
    obtain ⟨-, rfl⟩ := Prod.mk.inj (happly.symm.trans h)
    obtain ⟨owns, rfl⟩ := RowStream.of_open hopen
    obtain ⟨⟨added, hadded, hsent⟩, hcursor⟩ := RowStream.opens_of_open hopen
    refine ⟨rfl, ⟨added, ?_, hsent⟩, ⟨owns, Numbered.lookup_put_self _ _ _⟩, hcursor⟩
    rw [happly]
    rw [hopen] at hadded
    exact hadded

theorem of_openStream {st : Statement} {source : Source} {u w : Query × Session σ}
    (h : openStream st source u = (.ok (), w)) :
    ∃ id c, w.1 = { u.1 with stream := some id } ∧ Sends (·.2) [st] (openStream st source) u ∧
    (∃ owns, w.2.streams.lookup id = some ((u.1.streamOn c st source).inUse [] false owns)) ∧
    ∃ db, Backend.perform (.openCursor c st.text st.values) db = (.ok (), w.2.db) := by
  have hopened := h
  rw [openStream_eq, On.object, gets_bind] at hopened
  obtain ⟨c, ⟨q, s⟩, hconnection, hopened⟩ := bind_eq_ok.mp hopened
  obtain rfl : q = u.1 := by
    have hfst := connection_fst u.1 u
    rwa [hconnection] at hfst
  obtain ⟨hquery, hsends, hstream, hcursor⟩ := of_openOn hopened
  refine ⟨s.next, c, hquery, ?_, hstream, hcursor⟩
  rw [openStream_eq]
  refine Sends.silent_bind (.of_onlySends (.of_events rfl)) rfl ?_
  exact Sends.silent_bind (.of_onlySends (onlySends_connection _ _ _)) hconnection hsends

/-- **A run of a streaming query** opens a stream over the statement that the query shows. -/
theorem exists_opened_of_run {given : Source} (hstreaming : q.isStreaming = true)
    {u : Query × Session σ} (h : run given (q, s) = (.ok (), u)) :
    ∃ id c st db, Opened q s given u id c st db := by
  have hrun := run_of_isStreaming given hstreaming s
  rw [hrun, runStreamed, On.object, gets_bind] at h
  obtain ⟨⟨⟩, hcheck, h⟩ := ofExcept_bind_eq_ok.mp h
  obtain ⟨⟨⟩, ⟨q₁, s₁⟩, hclose, h⟩ := bind_eq_ok.mp h
  obtain rfl : q₁ = { q with stream := none } := by
    have hfst := close_fst (q, s)
    rwa [hclose] at hfst
  have hobjects : s₁.objects = s.objects := by
    have hkept := keeps_close (q, s)
    rw [hclose] at hkept
    exact (Prod.mk.inj hkept).2
  rw [gets_bind] at h
  obtain ⟨st, ⟨q₂, s₂⟩, hrender, h⟩ := bind_eq_ok.mp h
  obtain ⟨s₂', hsame, hstatement⟩ := On.beside_eq_ok hrender
  obtain ⟨rfl, rfl⟩ := Prod.mk.inj hsame
  obtain ⟨⟨⟩, ⟨q₃, s₃⟩, hopen, h⟩ := bind_eq_ok.mp h
  obtain ⟨id, c, hquery, hsends, hstream, db, hcursor⟩ := of_openStream hopen
  obtain rfl : q₃ = { q with stream := some id } := hquery
  obtain ⟨-, rfl⟩ := Prod.mk.inj h
  refine ⟨id, c, st, db, ?_, ?_, rfl, hstream, hcursor⟩
  · have hst := congrArg Prod.fst hstatement
    rw [statement_apply, Session.current_congr hobjects] at hst
    rw [shown, statement_apply]
    exact hst
  · -- nothing but the opening sends something
    rw [Sends, hrun]
    refine Sends.silent_bind (.of_onlySends (.of_events rfl)) rfl ?_
    refine Sends.silent_bind (.of_onlySends (.ofExcept _)) (Prod.ext hcheck rfl) ?_
    refine Sends.silent_bind (.of_onlySends (onlySends_close _ _)) hclose ?_
    refine Sends.silent_bind (.of_onlySends (.of_events rfl)) rfl ?_
    refine Sends.silent_bind (.of_onlySends (.of_events ?_)) hrender ?_
    · exact keeps_events_statement { q with stream := none } s₁
    · exact hsends.bind_silent fun _ _ _ ↦ .of_onlySends (.of_events rfl)

/-! ## Pulling in a session -/

theorem pullFrom_of_ok {id : Nat} {a b : RowStream} {t : Session σ} {v : Value}
    (ha : s.streams.lookup id = some a) (hpull : RowStream.pull (a, s) = (.ok v, b, t))
    (q : Query) :
    pullFrom id (q, s) = (.ok (some v), q, { t with streams := t.streams.put id b }) := by
  have hattempt : (On.beside (App.withStream id RowStream.pull)).attempt (q, s) =
      (.ok (.ok v), q, { t with streams := t.streams.put id b }) := by
    rw [attempt_apply, On.beside, onSecond_apply, withStream_apply ha hpull]
  rw [pullFrom, bind_of_ok _ hattempt]
  rfl

/-- A pull that fails and leaves the stream closed ends a pass, by that failure unless it told that
the rows have ended. -/
theorem pullFrom_of_error {id : Nat} {a b : RowStream} {t : Session σ} {e : Failure}
    (ha : s.streams.lookup id = some a) (hpull : RowStream.pull (a, s) = (.error e, b, t))
    (hclosed : b.closed = true) (q : Query) : ∃ r, pullFrom id (q, s) =
      (r, q, { t with streams := (t.streams.put id b).put id b }) ∧
      (e = .ended → r = .ok none) ∧ ∀ v, r ≠ .ok (some v) := by
  have hattempt : (On.beside (App.withStream id RowStream.pull)).attempt (q, s) =
      (.ok (.error e), q, { t with streams := t.streams.put id b }) := by
    rw [attempt_apply, On.beside, onSecond_apply, withStream_apply ha hpull]
  have hlookup : ({ t with streams := t.streams.put id b } : Session σ).streams.lookup id =
      some b := Numbered.lookup_put_self _ _ _
  have hclose : (On.beside (App.withStream id (RowStream.close false)) : On Query σ Unit)
      (q, { t with streams := t.streams.put id b }) =
      (.ok (), q, { t with streams := (t.streams.put id b).put id b }) := by
    rw [On.beside, onSecond_apply,
      withStream_apply hlookup (RowStream.close_of_closed false hclosed _)]
  rw [pullFrom, bind_of_ok _ hattempt]
  dsimp only
  rw [bind_of_ok _ hclose]
  by_cases hended : e = .ended
  · subst hended
    exact ⟨.ok none, rfl, fun _ ↦ rfl, by simp⟩
  · refine ⟨.error e, ?_, fun h ↦ absurd h hended, by simp⟩
    split
    · exact absurd rfl hended
    · rfl

/-- **A pull from a stream with nothing to hand out** reads its cursor before anything else. -/
theorem fetches_of_pullFrom {id : Nat} {a : RowStream} (ha : s.streams.lookup id = some a)
    (hwants : a.wantsFetch = true) (hcursor : a.hasCursor = true) (q : Query) :
    (pullFrom id : On Query σ (Option Value)).Adds (·.2) (q, s) fun _ _ added ↦
      a.Fetches added := by
  have hpull : (On.beside (App.withStream id RowStream.pull) : On Query σ Value).Adds (·.2) (q, s)
      fun _ _ added ↦ a.Fetches added := by
    have hfetches := adds_withStream ha (RowStream.fetches_of_pull hwants hcursor s)
    exact (Adds.onSecond hfetches).mono fun _ _ _ h ↦ h.2
  refine hpull.attempt_bind fun r u added h ↦ ?_
  rcases r with e | v
  · have hclose : (On.beside (App.withStream id (RowStream.close false)) : On Query σ Unit).Adds
        (·.2) u fun _ _ _ ↦ True :=
      (((App.onlySends_withStream id (RowStream.onlySends_close (fun _ ↦ True) false)
        u.2).onSecond u.1).adds).mono fun _ _ _ _ ↦ trivial
    refine hclose.bind (fun _ w more _ ↦ ?_) fun _ _ more _ ↦ h.append more
    split
    · exact .ok (by rw [List.append_nil]; exact h.append more)
    · exact .fail (by rw [List.append_nil]; exact h.append more)
  · exact .ok (h.append [])

theorem advance_over_of_pullFrom {id : Nat} {u w : Query × Session σ}
    {r : Except Failure (Option Value)} (h : pullFrom id u = (r, w)) :
    advance (.over id) u = (r.map fun v ↦ v.map (·, .over id), w) := by
  show (pullFrom id >>= fun v ↦ Change.ok (v.map (·, Pass.over id))) u = _
  rw [bind_apply, h]
  rcases r with e | v
  · rfl
  · rfl

/-! ## Passes -/

open RowStream (Made Passing)

/-- A pass over a query that was begun in a session and gone on with: how far it has come, what the
query and the session are by then, and what it has handed out, each with the session by then. While
it goes over a stream anything may happen that leaves that stream and the rows ahead of the cursors
where they are. -/
inductive Traversal (ahead : Connection → List Row → σ → Prop) (q : Query) (s : Session σ) :
    Pass → Query × Session σ → List (Value × Session σ) → Prop where
  | begun : Traversal ahead q s .waiting (q, s) []
  | handed {pass next : Pass} {u w : Query × Session σ} {v : Value}
      {handed : List (Value × Session σ)} (h : Traversal ahead q s pass u handed)
      (hrun : advance pass u = (.ok (some (v, next)), w)) :
      Traversal ahead q s next w (handed ++ [(v, w.2)])
  | others {id : Nat} {u w : Query × Session σ} {handed : List (Value × Session σ)}
      (h : Traversal ahead q s (.over id) u handed)
      (hstream : w.2.streams.lookup id = u.2.streams.lookup id)
      (hkeeps : ∀ c rest, ahead c rest u.2.db → ahead c rest w.2.db) :
      Traversal ahead q s (.over id) w handed

variable {ahead : List Row → σ → Prop} {fresh a : RowStream} {rows : List Row} {n id : Nat}
  {u : Query × Session σ} {handed : List (Value × Session σ)} {own : List Event}

/-- **One step of a pass** over a stream that is fed by a cursor hands out the next row, if there is
one, and otherwise ends, without a failure unless a call fails. -/
theorem advance_over (hfeeds : Backend.Feeds σ fresh.conn n ahead) (hn : 0 < n)
    (hbatch : fresh.batchSize = .int n) (hsuits : ∀ row ∈ rows, fresh.shape.Suits row)
    (ha : u.2.streams.lookup id = some a) (h : Passing n ahead rows fresh a u.2 handed own) :
    (handed.length < rows.length ∧ ∃ v b w more,
      advance (.over id) u = (.ok (some (v, .over id)), w) ∧ w.2.streams.lookup id = some b ∧
      Passing n ahead rows fresh b w.2 (handed ++ [(v, w.2)]) more) ∨
    (handed.length = rows.length ∧ ∃ r b w added,
      advance (.over id) u = (r, w) ∧ w.1 = u.1 ∧ w.2.events = u.2.events ++ added ∧
      (∀ next, r ≠ .ok (some next)) ∧ ((∀ e ∈ added, e.isAnswered = true) → r = .ok none) ∧
      w.2.streams.lookup id = some b ∧ b.closed = true) := by
  obtain ⟨hless, v, b, t, added, hpull, -, hpassing⟩ | ⟨hall, b, t, added, hpull, hevents,
    hpassing, -⟩ := h.pull hfeeds hn hbatch hsuits
  · refine .inl ⟨hless, v, b, (u.1, { t with streams := t.streams.put id b }), own ++ added,
      ?_, Numbered.lookup_put_self _ _ _, hpassing.congr rfl rfl⟩
    exact advance_over_of_pullFrom (pullFrom_of_ok ha hpull u.1)
  · obtain ⟨⟨buffer, exhausted, owns, rfl⟩, -⟩ := hpassing
    obtain ⟨closing, hclosing, hended, hparts⟩ := RowStream.adds_close
      (a := fresh.inUse buffer exhausted owns) false rfl t
    rcases hclose : RowStream.close false (fresh.inUse buffer exhausted owns, t) with ⟨r, b, t'⟩
    rw [hclose] at hclosing hended hparts
    obtain ⟨e, he, hok⟩ : ∃ e, RowStream.pull (a, u.2) = (.error e, b, t') ∧
        (r = .ok () → e = .ended) := by
      rw [hpull, bind_apply, hclose]
      rcases r with e | _
      · exact ⟨e, rfl, nofun⟩
      · exact ⟨.ended, rfl, fun _ ↦ rfl⟩
    have hclosed : b.closed = true := congrArg RowStream.closed hended
    obtain ⟨r', hr', hnone, hnot⟩ := pullFrom_of_error ha he hclosed u.1
    refine .inr ⟨hall, _, b, _, added ++ closing, advance_over_of_pullFrom hr', rfl, ?_, ?_, ?_,
      Numbered.lookup_put_self _ _ _, hclosed⟩
    · show t'.events = _
      rw [show t'.events = _ from hclosing, show t.events = _ from hevents, List.append_assoc]
    · rcases r' with e | v
      · exact nofun
      · rcases v with _ | v
        · exact nofun
        · exact absurd rfl (hnot v)
    · intro hanswered
      rw [hnone (hok (hparts.answered (List.forall_mem_append.mp hanswered).2))]
      rfl

/-! ## Passes that run their query -/

theorem advance_of_reruns (hreruns : q.isLoaded = false ∨ q.stream = none) :
    (advance .waiting (q, s) : Except Failure (Option (Value × Pass)) × _) =
      (run .absent >>= fun _ ↦ heldStream >>= fun id ↦ advance (.over id)) (q, s) := by
  have hcondition : (!q.isLoaded || q.stream.isNone) = true := by
    obtain hloaded | hstream := hreruns
    · rw [hloaded]
      rfl
    · rw [hstream]
      exact Bool.or_true _
  have hstream : (streamOfPass (q, s) : Except Failure Nat × _) =
      (run .absent >>= fun _ ↦ heldStream) (q, s) := by
    rw [streamOfPass, On.object, gets_bind]
    dsimp only
    rw [hcondition]
    rfl
  show (streamOfPass >>= fun id ↦ advance (.over id)) (q, s) = _
  rw [← bind_assoc, bind_apply, hstream, ← bind_apply]

/-- What holds of a pass that has come so far over the rows of the cursor that it opened: it has
handed out a record for each of the first rows, in their order, it hands out one more while there is
a row left, and then it ends, without a failure unless a call fails. The query is spent then. -/
structure HandsOut (q : Query) (rows : List Row) (id : Nat) (pass : Pass)
    (u : Query × Session σ) (handed : List (Value × Session σ)) : Prop where
  made : List.Forall₂ (Made (.record q.type (.ofParts q.conn q.pool)))
    (rows.take handed.length) handed
  goesOn : handed.length < rows.length →
    ∃ v next w, advance pass u = (.ok (some (v, next)), w)
  ends : rows.length ≤ handed.length → handed.length = rows.length ∧
    ∃ r w added, advance pass u = (r, w) ∧ w.2.events = u.2.events ++ added ∧
      (∀ next, r ≠ .ok (some next)) ∧ ((∀ e ∈ added, e.isAnswered = true) → r = .ok none) ∧
      (w.1.stream = some id → w.1.isLoaded = true → w.1.Spent w.2)

theorem advance_of_opened {c : Connection} {st : Statement} {db : σ} {id : Nat}
    (hreruns : q.isLoaded = false ∨ q.stream = none) {u : Query × Session σ}
    (hrun : run .absent (q, s) = (.ok (), u)) (h : Opened q s .absent u id c st db) :
    (advance .waiting (q, s) : Except Failure (Option (Value × Pass)) × _) =
      advance (.over id) u := by
  have hstream : u.1.stream = some id := by
    rw [h.query]
    rfl
  rw [advance_of_reruns hreruns, bind_of_ok _ hrun, bind_of_ok _ (heldStream_of_stream hstream u.2)]

theorem Traversal.passing {ahead : Connection → List Row → σ → Prop} {c : Connection}
    {st : Statement} {db : σ} (hfeeds : ∀ c, Backend.Feeds σ c 100 (ahead c))
    (hreruns : q.isLoaded = false ∨ q.stream = none) {u : Query × Session σ}
    (hrun : run .absent (q, s) = (.ok (), u)) (hopened : Opened q s .absent u id c st db)
    (hahead : ahead c rows u.2.db)
    (hsuits : ∀ row ∈ rows, (RowShape.record q.type (.ofParts q.conn q.pool)).Suits row)
    {pass : Pass} {w : Query × Session σ} (h : Traversal ahead q s pass w handed) :
    ∃ w' a own, advance pass w = advance (.over id) w' ∧
      (∃ more, w'.2.events = w.2.events ++ more) ∧ w'.2.streams.lookup id = some a ∧
      Passing 100 (ahead c) rows (q.streamOn c st (.ofParts q.conn q.pool)) a w'.2 handed own ∧
      (pass = .waiting ∧ w = (q, s) ∨ pass = .over id ∧ w = w') := by
  induction h with
  | begun =>
    obtain ⟨added, hadded, -⟩ := hopened.sends
    obtain ⟨owns, hstream⟩ := hopened.stream
    rw [hrun] at hadded
    exact ⟨u, _, [], advance_of_opened hreruns hrun hopened, ⟨added, hadded⟩, hstream,
      .opened owns hahead, .inl ⟨rfl, rfl⟩⟩
  | @handed pass next w w₁ v handed _ hstep ih =>
    obtain ⟨w', a, own, hsame, -, hlookup, hpassing, -⟩ := ih
    rw [hsame] at hstep
    obtain ⟨-, v', b, w'', more, hrun', hlookup', hpassing'⟩ | ⟨-, r, b, w'', added, hrun', -, -,
      hnot, -⟩ := advance_over (hfeeds c) (by decide) rfl hsuits hlookup hpassing
    · obtain ⟨hresult, rfl⟩ := Prod.mk.inj (hstep.symm.trans hrun')
      obtain ⟨rfl, rfl⟩ := Prod.mk.inj (Option.some.inj (Except.ok.inj hresult))
      exact ⟨w₁, b, more, rfl, ⟨[], (List.append_nil _).symm⟩, hlookup', hpassing', .inr ⟨rfl, rfl⟩⟩
    · exact absurd (congrArg Prod.fst (hrun'.symm.trans hstep)) (hnot _)
  | @others n w w₁ handed _ hstream hkeeps ih =>
    obtain ⟨w', a, own, hsame, -, hlookup, hpassing, ⟨hwaiting, -⟩ | ⟨hover, rfl⟩⟩ := ih
    · exact nomatch hwaiting
    · obtain rfl := Pass.over.inj hover
      exact ⟨w₁, a, own, rfl, ⟨[], (List.append_nil _).symm⟩, hstream.trans hlookup,
        hpassing.others (hkeeps c), .inr ⟨rfl, rfl⟩⟩

theorem Spent.advance (h : q.Spent s) (hdrained : HoldsDrained (q, s)) :
    ∃ streams, Query.advance .waiting (q, s) = (.ok none, q, { s with streams }) ∧
      q.Spent { s with streams } := by
  obtain ⟨hloaded, id, a, hid, ha, hclosed⟩ := h
  obtain ⟨b, hb, hdrained⟩ := hdrained id hid
  obtain rfl := Option.some.inj (ha.symm.trans hb)
  have hpull := RowStream.pull_of_closed hclosed (hdrained hclosed) s
  obtain ⟨r, hr, hnone, -⟩ := pullFrom_of_error ha hpull hclosed q
  refine ⟨(s.streams.put id a).put id a, ?_, hloaded, id, a, hid,
    Numbered.lookup_put_self _ _ _, hclosed⟩
  rw [advance_of_isLoaded hloaded hid, advance_over_of_pullFrom hr, hnone rfl]
  rfl

/-- The first thing that a pass does with a stream that it has opened is to read its cursor. -/
theorem Opened.fetches {c : Connection} {st : Statement} {db : σ} {id : Nat}
    {u : Query × Session σ} (h : Opened q s .absent u id c st db) :
    ∃ reply more, (advance (.over id) u).2.2.events =
      u.2.events ++ .called (.fetch c (.int 100)) reply :: more := by
  obtain ⟨owns, hstream⟩ := h.stream
  obtain ⟨added, hadded, reply, more, rfl⟩ := fetches_of_pullFrom hstream rfl rfl u.1
  refine ⟨reply, more, ?_⟩
  rw [advance_over_of_pullFrom rfl]
  exact hadded

theorem Traversal.handsOut {ahead : Connection → List Row → σ → Prop} {c : Connection}
    {st : Statement} {db : σ} (hfeeds : ∀ c, Backend.Feeds σ c 100 (ahead c))
    (hreruns : q.isLoaded = false ∨ q.stream = none) {u : Query × Session σ}
    (hrun : run .absent (q, s) = (.ok (), u)) (hopened : Opened q s .absent u id c st db)
    (hahead : ahead c rows u.2.db)
    (hsuits : ∀ row ∈ rows, (RowShape.record q.type (.ofParts q.conn q.pool)).Suits row)
    {pass : Pass} {w : Query × Session σ} (h : Traversal ahead q s pass w handed) :
    HandsOut q rows id pass w handed := by
  obtain ⟨w', a, own, hsame, ⟨more, hmore⟩, hlookup, hpassing, -⟩ :=
    h.passing hfeeds hreruns hrun hopened hahead hsuits
  have hstep := advance_over (hfeeds c) (by decide) rfl hsuits hlookup hpassing
  refine ⟨?_, fun hless ↦ ?_, fun hall ↦ ?_⟩
  · obtain ⟨done, left, hrows, hmade, -⟩ := hpassing.handed
    rw [hrows, ← hmade.length_eq, List.take_left]
    exact hmade
  · obtain ⟨-, v, b, w₁, _, hrun', -⟩ | ⟨hlast, -⟩ := hstep
    · exact ⟨v, _, w₁, hsame.trans hrun'⟩
    · omega
  · obtain ⟨hless, -⟩ | ⟨hlast, r, b, w₁, added, hrun', hquery, hadded, hnot, hanswered, hb,
      hclosed⟩ := hstep
    · omega
    · refine ⟨hlast, r, w₁, more ++ added, hsame.trans hrun', ?_, hnot, fun hall ↦ ?_,
        fun hid hloaded ↦ ⟨hloaded, id, b, hid, hb, hclosed⟩⟩
      · rw [hadded, hmore, List.append_assoc]
      · exact hanswered (List.forall_mem_append.mp hall).2

/-- **A pass streams unless the query is spent.** Over a spent query it ends before the first row,
without an event, and the query stays spent. A query that is not loaded or holds no stream is run:
the pass fails if the run does. Otherwise the statement that the query shows is sent, the new cursor
is read first of all, and there is a record for each of its rows, in their order. -/
theorem passes_stream_unless_spent {rowsOf : Connection → Statement → σ → List Row}
    {ahead : Connection → List Row → σ → Prop} (hserves : Backend.Serves σ rowsOf ahead)
    (h : Evolved q s) (hstreaming : q.isStreaming = true) :
    (q.Spent s → ∃ streams, advance .waiting (q, s) = (.ok none, q, { s with streams }) ∧
      q.Spent { s with streams }) ∧
    (q.isLoaded = false ∨ q.stream = none →
      (∀ e u, run .absent (q, s) = (.error e, u) → advance .waiting (q, s) = (.error e, u)) ∧
      ∀ u, run .absent (q, s) = (.ok (), u) → ∃ id c st db, Opened q s .absent u id c st db ∧
        (∃ reply more, (advance .waiting (q, s)).2.2.events =
          u.2.events ++ .called (.fetch c (.int 100)) reply :: more) ∧
        ((∀ row ∈ rowsOf c st db, (RowShape.record q.type (.ofParts q.conn q.pool)).Suits row) →
          ∀ pass w handed, Traversal ahead q s pass w handed →
            HandsOut q (rowsOf c st db) id pass w handed)) := by
  refine ⟨fun hspent ↦ hspent.advance h.holdsDrained,
    fun hreruns ↦ ⟨fun e u hrun ↦ ?_, fun u hrun ↦ ?_⟩⟩
  · rw [advance_of_reruns hreruns, bind_of_error _ hrun]
  · obtain ⟨id, c, st, db, hopened⟩ := exists_opened_of_run hstreaming hrun
    refine ⟨id, c, st, db, hopened, ?_, fun hsuits pass w handed htraversal ↦ ?_⟩
    · rw [advance_of_opened hreruns hrun hopened]
      exact hopened.fetches
    · exact htraversal.handsOut hserves.feeds hreruns hrun hopened
        (hserves.opens _ _ _ _ hopened.cursor) hsuits

/-! ## Two passes over letters -/

/-- A streaming query for letters on a connection of its own. -/
def lettersHere : Query where
  type := ⟨.letters, [], [], []⟩
  select := { table := .letters, streaming := some (.bool true) }
  conn := some ⟨"c"⟩

def twoLetters : Session CursorOver where
  db := ⟨CursorOver.twoRows⟩

/-- The query and the session after one letter of a pass, after both, and after its end. -/
def oneHanded : Query × Session CursorOver := (advance .waiting (lettersHere, twoLetters)).2

def bothHanded : Query × Session CursorOver := (advance (.over 1) oneHanded).2

def passedOver : Query × Session CursorOver := (advance (.over 1) bothHanded).2

theorem passes_stream_unless_spent_letters :
    Backend.Serves CursorOver (fun _ _ d ↦ d.rows) (fun _ rows d ↦ d.rows = rows) ∧
    Evolved lettersHere twoLetters ∧ lettersHere.isStreaming = true ∧ lettersHere.stream = none ∧
    (∃ id handed,
      Traversal (fun _ rows (d : CursorOver) ↦ d.rows = rows) lettersHere twoLetters (.over 1)
        bothHanded handed ∧
      HandsOut lettersHere CursorOver.twoRows id (.over 1) bothHanded handed) ∧
    Evolved passedOver.1 passedOver.2 ∧ passedOver.1.Spent passedOver.2 ∧
    ∃ streams, advance .waiting passedOver =
      (.ok none, passedOver.1, { passedOver.2 with streams }) := by
  have hserves : Backend.Serves CursorOver (fun _ _ d ↦ d.rows) (fun _ rows d ↦ d.rows = rows) := by
    refine ⟨fun c st db db' h ↦ ?_, fun c ↦ CursorOver.feeds c 100⟩
    exact congrArg CursorOver.rows (Prod.mk.inj h).2.symm
  have hnew : Evolved lettersHere twoLetters :=
    .new twoLetters (make_streaming ⟨.letters, [], [], []⟩ (.connection ⟨"c"⟩) rfl)
  have honce : Evolved oneHanded.1 oneHanded.2 := hnew.step (.advance .waiting) rfl
  have hboth : Evolved bothHanded.1 bothHanded.2 := honce.step (.advance (.over 1)) rfl
  have hover : Evolved passedOver.1 passedOver.2 := hboth.step (.advance (.over 1)) rfl
  have hspent : passedOver.1.Spent passedOver.2 := by
    refine ⟨rfl, 1, _, rfl, rfl, ?_⟩
    rfl
  refine ⟨hserves, hnew, rfl, rfl, ?_, hover, hspent, ?_⟩
  · obtain ⟨-, hruns⟩ := (passes_stream_unless_spent hserves hnew rfl).2 (.inr rfl)
    obtain ⟨id, c, st, db, hopened, -, hpasses⟩ := hruns _ rfl
    obtain rfl : db = ⟨CursorOver.twoRows⟩ := (Prod.mk.inj hopened.cursor).2
    have hbegun : Traversal (fun _ rows (d : CursorOver) ↦ d.rows = rows) lettersHere twoLetters
        .waiting (lettersHere, twoLetters) [] := .begun
    have hpassed := (hbegun.handed (w := oneHanded) rfl).handed (w := bothHanded) rfl
    refine ⟨id, _, hpassed, hpasses (fun row hrow ↦ ?_) _ _ _ hpassed⟩
    simp only [CursorOver.twoRows, List.mem_cons, List.not_mem_nil, or_false] at hrow
    rcases hrow with rfl | rfl
    · exact ⟨_, rfl⟩
    · exact ⟨_, rfl⟩
  · obtain ⟨streams, hstreams, -⟩ := (passes_stream_unless_spent hserves hover rfl).1 hspent
    exact ⟨streams, hstreams⟩

/-- A session in which a cursor has one row, and the next one another. -/
def twoCursors : Session Scripted where
  db := { connections := [("c", { driver := {
    batches := [.ok [[("a", .int 1)]], .ok [[("a", .int 2)]]] } })] }

/-- A second pass ends before the first row, without an event, while the database has the row of
another cursor to give. -/
theorem advance_of_spent :
    let handed := advance .waiting (lettersHere, twoCursors)
    let ended := advance (.over 1) handed.2
    let again := advance .waiting ended.2
    (∃ v, handed.1 = .ok (some (v, .over 1))) ∧ ended.1 = .ok none ∧
    ended.2.1.isStreaming = true ∧ ended.2.1.Spent ended.2.2 ∧
    again.1 = .ok none ∧ again.2.2.events = ended.2.2.events ∧
    (again.2.2.db.script ⟨"c"⟩).driver.batches = [.ok [[("a", .int 2)]]] := by
  refine ⟨⟨_, rfl⟩, rfl, rfl, ⟨rfl, 1, _, rfl, rfl, ?_⟩, rfl, rfl, rfl⟩
  rfl

end Query

end Rowmap
