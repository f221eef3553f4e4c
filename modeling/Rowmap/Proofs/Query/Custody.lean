import Rowmap.Proofs.Query.Freshness
import Rowmap.Proofs.Stream.Custody

/-!
# Streaming queries leak no connection

A streaming query without a connection of its own checks one out for each stream that it opens, and
the stream releases it on closing. Whatever is done to the query, and however that fails, at most
one connection is held between two operations, by the stream that the query holds; all others have
been given back, each once.

`Accounts` is the invariant: every stream of the query is closed, but for the one that it holds, and
that has the custody of the connection held. It is kept by each operation, and so by every course of
them.
-/

namespace Rowmap

namespace Query

open Change

variable {σ α : Type} {q q' : Query} {passes : List Pass} {s s' : Session σ}
  {held k : Option Connection} {n : Nat}

/-! ## The invariant -/

/-- Whether a stream has a use for a query: the query holds it, or a pass goes over it. -/
def Uses (q : Query) (passes : List Pass) (n : Nat) : Prop := q.stream = some n ∨ .over n ∈ passes

def StreamsOn (q : Query) (s : Session σ) (c : Connection) : Prop :=
  ∃ n a, q.stream = some n ∧ s.streams.lookup n = some a ∧ a.closed = false ∧ a.conn = c

/-- Whether a query accounts for the connection held: it has none of its own, its streams are closed
but for the one that it holds, and that is open if a connection is held. -/
structure Accounts (q : Query) (passes : List Pass) (s : Session σ) (held : Option Connection) :
    Prop where
  conn : q.conn = none
  old : ∀ n, q.Uses passes n → n < s.next
  streams : ∀ n, q.Uses passes n → ∃ a, s.streams.lookup n = some a ∧ a.Accounts held ∧
    (a.closed = false → q.stream = some n)
  held : ∀ c, held = some c → q.StreamsOn s c

namespace Accounts

/-- Other things that happen in a session leave the streams of a query alone. -/
theorem others (h : q.Accounts passes s held) (hnext : s.next ≤ s'.next)
    (hstreams : ∀ n, q.Uses passes n → s'.streams.lookup n = s.streams.lookup n) :
    q.Accounts passes s' held where
  conn := h.conn
  old n hn := (h.old n hn).trans_le hnext
  streams n hn := hstreams n hn ▸ h.streams n hn
  held c hc := by
    obtain ⟨n, a, hstream, ha⟩ := h.held c hc
    exact ⟨n, a, hstream, hstreams n (.inl hstream) ▸ ha⟩

theorem grows (h : q.Accounts passes s held) (hgrows : s.Grows s') : q.Accounts passes s' held :=
  h.others hgrows.next fun _ _ ↦ by rw [hgrows.streams]

/-- Nothing but the connection and the stream of a query matters. -/
theorem congr (h : q.Accounts passes s held) (hconn : q'.conn = q.conn)
    (hstream : q'.stream = q.stream) : q'.Accounts passes s held where
  conn := hconn.trans h.conn
  old n hn := h.old n (by rwa [Uses, hstream] at hn)
  streams n hn := by
    rw [hstream]
    exact h.streams n (by rwa [Uses, hstream] at hn)
  held c hc := by
    rw [StreamsOn, hstream]
    exact h.held c hc

theorem append (h : q.Accounts passes s held) {more : List Pass}
    (hmore : ∀ n, .over n ∈ more → q.Uses passes n) : q.Accounts (more ++ passes) s held := by
  have huses (n : Nat) (hn : q.Uses (more ++ passes) n) : q.Uses passes n := by
    obtain hstream | hpass := hn
    · exact .inl hstream
    · exact (List.mem_append.mp hpass).elim (hmore n) .inr
  exact ⟨h.conn, fun n hn ↦ h.old n (huses n hn), fun n hn ↦ h.streams n (huses n hn), h.held⟩

theorem closed (h : q.Accounts passes s none) (hn : q.Uses passes n) :
    ∃ a, s.streams.lookup n = some a ∧ a.closed = true := by
  obtain ⟨a, ha, haccounts, -⟩ := h.streams n hn
  refine ⟨a, ha, ?_⟩
  by_contra hopen
  exact nomatch (haccounts (Bool.eq_false_iff.mpr hopen)).2

/-- Where no connection is held, the query need not hold a stream. -/
theorem withoutStream (h : q.Accounts passes s none) :
    { q with stream := none }.Accounts passes s none := by
  have huses (n : Nat) (hn : { q with stream := none }.Uses passes n) : q.Uses passes n :=
    .inr (hn.resolve_left fun hstream ↦ nomatch hstream)
  refine ⟨h.conn, fun n hn ↦ h.old n (huses n hn), fun n hn ↦ ?_, fun _ hc ↦ nomatch hc⟩
  obtain ⟨a, ha, hclosed⟩ := h.closed (huses n hn)
  exact ⟨a, ha, RowStream.elim_of_closed hclosed, RowStream.elim_of_closed hclosed⟩

/-- A query that holds no open stream has no connection to account for. -/
theorem eq_none (h : q.Accounts passes s held)
    (hstream : ∀ n a, q.stream = some n → s.streams.lookup n = some a → a.closed = true) :
    held = none := by
  refine Option.eq_none_iff_forall_ne_some.mpr fun c hc ↦ ?_
  obtain ⟨n, a, hn, ha, hopen, -⟩ := h.held c hc
  exact RowStream.elim_of_closed (hstream n a hn ha) hopen

theorem lives (h : q.Accounts passes s held) (hn : q.Uses passes n) {a b : RowStream}
    (ha : s.streams.lookup n = some a) (hlives : a.Lives held b k) (hnext : s.next ≤ s'.next)
    (hstreams : s'.streams = s.streams.put n b) : q.Accounts passes s' k where
  conn := h.conn
  old m hm := (h.old m hm).trans_le hnext
  streams m hm := by
    obtain ⟨a', ha', haccounts, hopen⟩ := h.streams m hm
    rw [hstreams]
    by_cases hmn : m = n
    · subst hmn
      obtain rfl : a' = a := Option.some.inj (ha'.symm.trans ha)
      refine ⟨b, Numbered.lookup_put_self _ _ _, hlives.accounts haccounts, fun hb ↦ ?_⟩
      cases hlives with
      | stays hclosed => exact hopen (hclosed.symm.trans hb)
      | ends _ hclosed => exact RowStream.elim_of_closed hclosed hb
    · rw [Numbered.lookup_put_of_ne _ _ hmn]
      refine ⟨a', ha', ?_, hopen⟩
      cases hlives with
      | stays => exact haccounts
      | ends hopen' =>
        -- of two streams only one can be held by the query, so this one is closed
        obtain ⟨_, ha'', -, hstream⟩ := h.streams n hn
        obtain rfl := Option.some.inj (ha''.symm.trans ha)
        exact fun ha' ↦ absurd (Option.some.inj ((hopen ha').symm.trans (hstream hopen'))) hmn
  held c hc := by
    cases hlives with
    | stays hclosed hconn =>
      obtain ⟨m, a', hstream, ha', hopen, hc⟩ := h.held c hc
      by_cases hmn : m = n
      · subst hmn
        obtain rfl : a' = a := Option.some.inj (ha'.symm.trans ha)
        refine ⟨m, b, hstream, ?_, hclosed.trans hopen, hconn.trans hc⟩
        rw [hstreams, Numbered.lookup_put_self]
      · refine ⟨m, a', hstream, ?_, hopen, hc⟩
        rw [hstreams, Numbered.lookup_put_of_ne _ _ hmn, ha']
    | ends => exact nomatch hc

/-- A stream that was opened on the connection held is the one that the query holds. -/
theorem opened (h : q.Accounts passes s none) {a b : RowStream}
    (hopen : a.closed = false) (ha : a.Accounts (some a.conn))
    (hlives : a.Lives (some a.conn) b k) (hnext : s.next < s'.next)
    (hself : s'.streams.lookup s.next = some b)
    (hothers : ∀ n, n ≠ s.next → s'.streams.lookup n = s.streams.lookup n) :
    { q with stream := some s.next }.Accounts passes s' k where
  conn := h.conn
  old n hn := by
    obtain hn | hn := hn
    · obtain rfl := Option.some.inj hn
      exact hnext
    · exact (h.old n (.inr hn)).trans hnext
  streams n hn := by
    by_cases hnew : n = s.next
    · subst hnew
      exact ⟨b, hself, hlives.accounts ha, fun _ ↦ rfl⟩
    · have hpass : Pass.over n ∈ passes :=
        hn.resolve_left fun hn ↦ hnew (Option.some.inj hn).symm
      obtain ⟨a', ha', hclosed⟩ := h.closed (.inr hpass)
      rw [hothers n hnew]
      exact ⟨a', ha', RowStream.elim_of_closed hclosed, RowStream.elim_of_closed hclosed⟩
  held d hd := by
    cases hlives with
    | stays hclosed hconn =>
      obtain rfl : a.conn = d := Option.some.inj hd
      exact ⟨s.next, b, rfl, hself, hclosed.trans hopen, hconn⟩
    | ends => exact nomatch hd

end Accounts

/-! ## Operations -/

/-- What minds the connections of streams keeps the invariant of the query that they are of. -/
theorem passes_withStream (h : q.Accounts passes s held) (hn : q.Uses passes n)
    {x : On RowStream σ α} (hx : RowStream.Minds x) :
    (App.withStream n x).Passes id s held fun _ t k ↦ q.Accounts passes t k := by
  obtain ⟨a, ha, haccounts, -⟩ := h.streams n hn
  have hlive : (App.withStream n x).Passes id s held fun _ t k ↦
      ∃ b, t.streams = s.streams.put n b ∧ s.next ≤ t.next ∧ a.Lives held b k :=
    App.passes_withStream ha (hx a s held haccounts)
  refine hlive.mono fun _ t k hk ↦ ?_
  obtain ⟨b, hstreams, hnext, hlives⟩ := hk
  exact h.lives hn ha hlives hnext hstreams

variable [Backend σ]

/-- **Closing** a query leaves no connection held. -/
theorem passes_close (hdb : Backend.Releases σ) (h : q.Accounts passes s held) :
    (close : On Query σ Unit).Passes (fun u ↦ u.2) (q, s) held fun _ u k ↦
      u.1.Accounts passes u.2 k ∧ k = none := by
  refine Passes.object ?_
  cases hstream : q.stream with
  | none =>
    exact .of_events rfl ⟨h, h.eq_none fun n _ hn ↦ nomatch hstream.symm.trans hn⟩
  | some n =>
    refine Passes.modify ?_
    obtain ⟨a, ha, haccounts, -⟩ := h.streams n (.inl hstream)
    have hclose : (App.withStream n (RowStream.close false)).Passes id s held fun _ t k ↦
        ∃ b, t.streams = s.streams.put n b ∧ s.next ≤ t.next ∧ a.Lives held b k ∧
          b.closed = true :=
      App.passes_withStream ha (RowStream.settles_close hdb false s haccounts)
    refine hclose.onSecond.mono fun _ u k hk ↦ ?_
    obtain ⟨hobject, b, hstreams, hnext, hlives, hclosed⟩ := hk
    have hlater := h.lives (.inl hstream) ha hlives hnext hstreams
    obtain rfl : k = none := hlater.eq_none fun m c hm hc ↦ by
      obtain rfl : n = m := Option.some.inj (hstream.symm.trans hm)
      rw [hstreams, Numbered.lookup_put_self] at hc
      rwa [← Option.some.inj hc]
    rw [hobject]
    exact ⟨hlater.withoutStream, rfl⟩

/-- A stream that opens on the connection held becomes the one that the query holds; where it fails
to open, the connection has been given back. -/
theorem passes_openOn (hdb : Backend.Releases σ) (h : q.Accounts passes s none) (c : Connection)
    (statement : Statement) (source : Source) :
    (q.openOn c statement source).Passes (fun u ↦ u.2) (q, s) (some c) fun _ u k ↦
      u.1.Accounts passes u.2 k := by
  rw [openOn]
  generalize ha : q.streamOn c statement source = a
  have hopen : a.closed = false := by rw [← ha, streamOn]
  have hconn : a.conn = c := by rw [← ha, streamOn]
  have haccounts : a.Accounts (some a.conn) := by
    refine fun _ ↦ ⟨?_, rfl⟩
    rw [← ha, streamOn, h.conn]
    rfl
  subst hconn
  refine App.passes_addStream ?_
  have hadded : (s.withStream a).streams.lookup s.next = some a := Numbered.lookup_put_self _ _ _
  have hlive : (App.withStream s.next RowStream.open_).Passes id (s.withStream a) (some a.conn)
      fun r t k ↦ ∃ b, t.streams = (s.withStream a).streams.put s.next b ∧ s.next < t.next ∧
        a.Lives (some a.conn) b k ∧ ∀ e, r = .error e → b.closed = true :=
    App.passes_withStream hadded (RowStream.settles_open hdb (s.withStream a) haccounts)
  have hothers (t : Session σ) (b : RowStream)
      (ht : t.streams = (s.withStream a).streams.put s.next b) (n : Nat) (hn : n ≠ s.next) :
      t.streams.lookup n = s.streams.lookup n := by
    rw [ht, Numbered.lookup_put_of_ne _ _ hn]
    exact Numbered.lookup_put_of_ne _ _ hn
  refine hlive.onSecond.bind (fun _ u k hk ↦ ?_) fun e u k hk ↦ ?_
  · obtain ⟨hobject, b, hstreams, hnext, hlives, -⟩ := hk
    have hself : u.2.streams.lookup s.next = some b := by
      rw [hstreams, Numbered.lookup_put_self]
    refine .of_events rfl ?_
    show Accounts { u.1 with stream := some s.next } passes u.2 k
    rw [hobject]
    exact h.opened hopen haccounts hlives hnext hself (hothers u.2 b hstreams)
  · obtain ⟨hobject, b, hstreams, hnext, hlives, hclosed⟩ := hk
    obtain rfl := hlives.eq_none hopen (hclosed e rfl)
    rw [hobject]
    refine h.others hnext.le fun n hn ↦ hothers u.2 b hstreams n ?_
    exact (h.old n hn).ne

/-- **Opening a stream** while no connection is held leaves the connection that it takes to the
stream that the query holds then, or gives it back if that fails. -/
theorem passes_openStream (hdb : Backend.Releases σ) (h : q.Accounts passes s none)
    (statement : Statement) (source : Source) :
    (openStream statement source : On Query σ Unit).Passes (fun u ↦ u.2) (q, s) none fun _ u k ↦
      u.1.Accounts passes u.2 k := by
  rw [openStream_eq]
  refine Passes.object ?_
  rw [connection, h.conn]
  refine (Passes.onSecond (App.settles_connection hdb q.pool s)).bind (fun c u k hk ↦ ?_)
    fun e u k hk ↦ ?_
  · obtain ⟨hobject, hgrows, rfl⟩ := hk
    obtain ⟨p, t⟩ := u
    obtain rfl : p = q := hobject
    exact passes_openOn hdb (h.grows hgrows) c statement source
  · obtain ⟨hobject, hgrows, rfl⟩ := hk
    rw [hobject]
    exact h.grows hgrows

/-! ### Runs -/

omit [Backend σ] in
theorem quiet_recordsOf (t : RecordType) (source : Source) (rows : List Row) :
    Quiet id (recordsOf t source rows : App σ (List Value)) := by
  induction rows with
  | nil => exact .ok []
  | cons row rows ih =>
    refine (Quiet.ofExcept _).bind fun r ↦ (App.quiet_addRecord r).bind fun n ↦ ?_
    exact (App.quiet_recordValue n).bind fun v ↦ ih.bind fun vs ↦ .ok (v :: vs)

omit [Backend σ] in
theorem quiet_shapeRows (q : Query) (source : Source) (rows : List Row) :
    Quiet id (q.shapeRows source rows : App σ (List Value)) := by
  rw [shapeRows]
  cases q.select.output with
  | record => exact quiet_recordsOf q.type source rows
  | value => exact .ofExcept _
  | object => exact .ok _

omit [Backend σ] in
theorem quiet_statement (q : Query) (count isSubquery : Bool) (bound : Int) :
    Quiet id (q.statement count isSubquery bound : App σ Statement) := by
  have hget : Quiet id (Change.get : App σ (Session σ)) := .of_events (fun _ ↦ rfl) .refl
  refine (hget.bind fun s ↦ (Quiet.ofExcept _).bind fun wheres ↦ .ok _).bind fun select ↦ ?_
  exact .of_events (fun _ ↦ rfl) fun _ ↦ ⟨rfl, Nat.le_refl _⟩

omit [Backend σ] in
/-- What is done beside a query without its streams keeps the invariant, if as much is held then as
before. -/
theorem passes_beside (h : q.Accounts passes s held) {x : App σ α}
    (hx : x.Settles id s held fun _ _ k ↦ k = held) :
    (On.beside x).Passes (fun u ↦ u.2) (q, s) held fun _ u k ↦
      u.1.Accounts passes u.2 k ∧ k = held := by
  refine (Passes.onSecond hx).mono fun _ u k hk ↦ ?_
  obtain ⟨hobject, hgrows, rfl⟩ := hk
  rw [hobject]
  exact ⟨h.grows hgrows, rfl⟩

omit [Backend σ] in
theorem passes_own (h : q.Accounts passes s held) {x : Change Query α}
    (hx : Keeps (fun q : Query ↦ (q.conn, q.stream)) x) :
    (On.own x).Passes (fun u ↦ u.2) (q, s) held fun _ u k ↦ u.1.Accounts passes u.2 k := by
  obtain ⟨hconn, hstream⟩ := Prod.mk.inj (hx q)
  exact .of_events rfl (h.congr hconn hstream)

/-- **A run** closes the stream of the last one before it opens its own. -/
theorem passes_run (hdb : Backend.Releases σ) (h : q.Accounts passes s held) (given : Source) :
    (run given).Passes (fun u ↦ u.2) (q, s) held fun _ u k ↦ u.1.Accounts passes u.2 k := by
  refine Passes.object ?_
  cases hcheck : q.checkRunnable with
  | error e => exact .of_events rfl h
  | ok _ =>
    refine (passes_close hdb h).bind (fun _ u k hk ↦ ?_) fun _ u k hk ↦ hk.1
    obtain ⟨h, rfl⟩ := hk
    obtain ⟨q, s⟩ := u
    refine Passes.object ?_
    have hstatement := passes_beside h (quiet_statement q false false 0 s none)
    refine hstatement.bind (fun statement u k hk ↦ ?_) fun _ u k hk ↦ hk.1
    obtain ⟨hu, rfl⟩ := hk
    have hloaded (v : Query × Session σ) (l : Option Connection) (hl : v.1.Accounts passes v.2 l) :
        (On.own (setLoaded true)).Passes (fun u ↦ u.2) v l fun _ u k ↦ u.1.Accounts passes u.2 k :=
      passes_own hl fun _ ↦ rfl
    cases hstreaming : q.isStreaming with
    | true =>
      rw [if_pos rfl]
      exact (passes_openStream hdb hu statement _).bind (fun _ v l hl ↦ hloaded v l hl)
        fun _ _ _ hl ↦ hl
    | false =>
      rw [if_neg Bool.false_ne_true, h.conn]
      have hcheckout := passes_beside hu (App.settles_checkout hdb q.pool false
        (fun c ↦ App.quiet_execute c statement.text statement.values) u.2)
      refine hcheckout.bind (fun outcome v l hv ↦ ?_) fun _ _ _ hv ↦ hv.1
      have hrows (source : Source) := passes_beside hv.1
        (quiet_shapeRows q source outcome.rows v.2 l)
      refine (hrows _).bind (fun rows w m hw ↦ ?_) fun _ _ _ hw ↦ hw.1
      exact (passes_own hw.1 fun _ ↦ rfl).bind (fun _ x n hx ↦ hloaded x n hx) fun _ _ _ hx ↦ hx

/-! ### Passes -/

theorem passes_streamOfPass (hdb : Backend.Releases σ) (h : q.Accounts passes s held) :
    (streamOfPass : On Query σ Nat).Passes (fun u ↦ u.2) (q, s) held fun r u k ↦
      u.1.Accounts passes u.2 k ∧ ∀ n, r = .ok n → u.1.stream = some n := by
  have hstream (u : Query × Session σ) (k : Option Connection) (hu : u.1.Accounts passes u.2 k) :
      (heldStream : On Query σ Nat).Passes (fun u ↦ u.2) u k fun r u k ↦
        u.1.Accounts passes u.2 k ∧ ∀ n, r = .ok n → u.1.stream = some n := by
    refine Passes.object ?_
    cases hheld : u.1.stream with
    | none => exact .of_events rfl ⟨hu, fun n hn ↦ by cases hn⟩
    | some n => exact .of_events rfl ⟨hu, fun m hm ↦ Except.ok.inj hm ▸ hheld⟩
  refine Passes.object ?_
  dsimp only
  cases (!q.isLoaded || q.stream.isNone) with
  | false => exact hstream (q, s) held h
  | true =>
    exact (passes_run hdb h .absent).bind (fun _ u k hk ↦ hstream u k hk)
      fun _ _ _ hk ↦ ⟨hk, fun n hn ↦ by cases hn⟩

/-- **Pulling** from a stream of the query leaves the query as it is. -/
theorem passes_pullFrom (hdb : Backend.Releases σ) (h : q.Accounts passes s held)
    (hn : q.Uses passes n) :
    (pullFrom n : On Query σ (Option Value)).Passes (fun u ↦ u.2) (q, s) held fun _ u k ↦
      u.1 = q ∧ q.Accounts passes u.2 k := by
  have hpull := passes_withStream h hn (RowStream.minds_pull hdb)
  refine hpull.onSecond.attempt_bind fun outcome u k hk ↦ ?_
  obtain ⟨hobject, hu⟩ := hk
  cases outcome with
  | ok v => exact .of_events rfl ⟨hobject, hu⟩
  | error e =>
    obtain ⟨p, t⟩ := u
    obtain rfl : p = q := hobject
    have hclose := passes_withStream hu hn (RowStream.minds_close hdb false)
    refine hclose.onSecond.bind (fun _ v l hl ↦ ?_) fun _ _ _ hl ↦ hl
    cases e <;> exact .of_events rfl hl

theorem passes_over (hdb : Backend.Releases σ) (h : q.Accounts passes s held)
    (hn : q.Uses passes n) :
    (do .ok ((← pullFrom n).map (·, Pass.over n)) : On Query σ (Option (Value × Pass))).Passes
      (fun u ↦ u.2) (q, s) held fun r u k ↦ u.1.Accounts passes u.2 k ∧
        ∀ next m, r = .ok (some next) → next.2 = .over m → u.1.Uses passes m := by
  refine (passes_pullFrom hdb h hn).bind (fun v u k hk ↦ ?_) fun _ u k hk ↦ ?_
  · obtain ⟨hobject, hu⟩ := hk
    refine .of_events rfl ⟨hobject ▸ hu, fun next m hnext hm ↦ ?_⟩
    obtain ⟨_, -, rfl⟩ := Option.map_eq_some_iff.mp (Except.ok.inj hnext)
    obtain rfl := Pass.over.inj hm
    exact hobject ▸ hn
  · exact ⟨hk.1 ▸ hk.2, fun _ _ hnext ↦ nomatch hnext⟩

/-- **Advancing** a pass of a query leaves a pass over a stream of the query. -/
theorem passes_advance (hdb : Backend.Releases σ) (h : q.Accounts passes s held) {pass : Pass}
    (hpass : pass ∈ passes) :
    (advance pass : On Query σ (Option (Value × Pass))).Passes (fun u ↦ u.2) (q, s) held
      fun r u k ↦ u.1.Accounts passes u.2 k ∧
        ∀ next m, r = .ok (some next) → next.2 = .over m → u.1.Uses passes m := by
  match pass, hpass with
  | .done, _ => exact .of_events rfl ⟨h, fun _ _ hnext ↦ nomatch hnext⟩
  | .over n, hpass => exact passes_over hdb h (.inr hpass)
  | .waiting, _ =>
    refine (passes_streamOfPass hdb h).bind (fun n u k hk ↦ ?_)
      fun _ u k hk ↦ ⟨hk.1, fun _ _ hnext ↦ nomatch hnext⟩
    exact passes_over hdb hk.1 (.inl (hk.2 n rfl))

/-- **Giving up** a pass of a query. -/
theorem passes_abandon (hdb : Backend.Releases σ) (h : q.Accounts passes s held) {pass : Pass}
    (hpass : pass ∈ passes) :
    (On.beside (abandon pass) : On Query σ Unit).Passes (fun u ↦ u.2) (q, s) held
      fun _ u k ↦ u.1.Accounts passes u.2 k := by
  match pass, hpass with
  | .done, _ => exact .of_events rfl h
  | .waiting, _ => exact .of_events rfl h
  | .over n, hpass =>
    have hclose := passes_withStream h (.inr hpass) (RowStream.minds_close hdb false)
    refine hclose.onSecond.mono fun _ u k hk ↦ ?_
    rw [hk.1]
    exact hk.2

/-! ### Setters -/

section

omit [Backend σ]

theorem keeps_staleIf (changed : Bool) :
    Keeps (fun q : Query ↦ (q.conn, q.stream)) (staleIf changed) := by
  cases changed <;> exact fun _ ↦ rfl

theorem keeps_staleUnlessEqual (v old : Value) :
    Keeps (fun q : Query ↦ (q.conn, q.stream)) (staleUnlessEqual v old) :=
  (Keeps.ofExcept _).bind fun _ ↦ keeps_staleIf _

theorem keeps_modifySelect (f : Select Value → Select Value) :
    Keeps (fun q : Query ↦ (q.conn, q.stream)) (modifySelect f) := fun _ ↦ rfl

theorem keeps_orderBy (specs : List Value) :
    Keeps (fun q : Query ↦ (q.conn, q.stream)) (orderBy specs) := by
  refine Keeps.bind ?_ fun _ _ ↦ rfl
  induction specs with
  | nil => exact .ok ()
  | cons spec specs ih =>
    exact ((Keeps.ofExcept _).bind fun _ ↦ keeps_modifySelect _).bind fun _ ↦ ih

theorem keeps_output (v : Value) : Keeps (fun q : Query ↦ (q.conn, q.stream)) (output v) :=
  (Keeps.ofExcept _).bind fun _ ↦ Keeps.get.bind fun _ ↦ (Keeps.ofExcept _).bind fun _ ↦
    (keeps_staleIf _).bind fun _ ↦ keeps_modifySelect _

theorem keeps_returns (v : Value) : Keeps (fun q : Query ↦ (q.conn, q.stream)) (returns v) := by
  refine (Keeps.ofExcept _).bind fun selector ↦ Keeps.get.bind fun _ ↦
    (keeps_staleUnlessEqual _ _).bind fun _ ↦ (keeps_modifySelect _).bind fun _ ↦ ?_
  cases selector.implied? with
  | none => exact .ok ()
  | some implied => exact keeps_output _

theorem keeps_stream (v : Value) : Keeps (fun q : Query ↦ (q.conn, q.stream)) (stream_ v) :=
  Keeps.get.bind fun _ ↦ (keeps_staleUnlessEqual _ _).bind fun _ ↦ keeps_modifySelect _

theorem keeps_unlessNull {setter : Value → Change Query Unit} (v : Value)
    (hsetter : Keeps (fun q : Query ↦ (q.conn, q.stream)) (setter v)) :
    Keeps (fun q : Query ↦ (q.conn, q.stream)) (unlessNull v setter) := by
  rw [unlessNull]
  split
  · exact .ok ()
  · exact hsetter

theorem keeps_options (outputType returning streaming : Value) :
    Keeps (fun q : Query ↦ (q.conn, q.stream)) (options outputType returning streaming) :=
  (keeps_unlessNull _ (keeps_stream _)).bind fun _ ↦
    (keeps_unlessNull _ (keeps_returns _)).bind fun _ ↦ keeps_unlessNull _ (keeps_output _)

/-- **Setters** leave the connection and the stream of a query alone, even those that fail. -/
theorem Setting.keeps (c : Setting) :
    Keeps (fun q : Query ↦ (q.conn, q.stream)) c.apply := by
  cases c with
  | where_ tree => exact (keeps_modifySelect _).bind fun _ _ ↦ rfl
  | orderBy specs => exact keeps_orderBy specs
  | limit v =>
    exact Keeps.get.bind fun _ ↦ (keeps_staleUnlessEqual _ _).bind fun _ ↦ keeps_modifySelect _
  | offset v =>
    exact Keeps.get.bind fun _ ↦ (keeps_staleUnlessEqual _ _).bind fun _ ↦ keeps_modifySelect _
  | output v => exact keeps_output v
  | returns v => exact keeps_returns v
  | options outputType returning streaming => exact keeps_options outputType returning streaming

end

omit [Backend σ] in
/-- A new query holds no stream. -/
theorem stream_of_make {t : RecordType} {source : Source} {outputType returning streaming : Value}
    (h : make t source outputType returning streaming = .ok q) : q.stream = none := by
  obtain ⟨⟨conn, pool⟩, -, h⟩ := Except.bind_eq_ok.mp h
  have hkept := keeps_options outputType returning streaming (blank t conn pool)
  dsimp only at h
  split at h
  · rename_i hoptions
    rw [hoptions] at hkept
    obtain rfl := Except.ok.inj h
    exact (Prod.mk.inj hkept).2
  · simp at h

/-! ## Courses -/

/-- What is done to a streaming query. -/
inductive Operation where
  | set (c : Setting)
  | setLoaded (loaded : Bool)
  | setPool (pool : Option Pool) (releaseOld : Bool)
  /-- Takes the connection of its own from the query, if it has one. -/
  | dropConnection (releaseOld : Bool)
  | run (given : Source)
  | close
  | startPass
  | advance (pass : Pass)
  | abandon (pass : Pass)

namespace Operation

/-- What an operation does, and the passes that it comes to. -/
def perform : Operation → On Query σ (List Pass)
  | .set c => do
    On.own c.apply
    .ok []
  | .setLoaded loaded => do
    On.own (Query.setLoaded loaded)
    .ok []
  | .setPool pool releaseOld => do
    Query.setPool pool releaseOld
    .ok []
  | .dropConnection releaseOld => do
    setConnection none releaseOld
    .ok []
  | .run given => do
    Query.run given
    .ok []
  | .close => do
    Query.close
    .ok []
  | .startPass => do
    let pass ← Change.ofExcept (← On.object).startPass
    .ok [pass]
  | .advance pass => do
    let next : Option (Value × Pass) ← Query.advance pass
    .ok (next.map (·.2)).toList
  | .abandon pass => do
    On.beside (Query.abandon pass)
    .ok []

def pass? : Operation → Option Pass
  | .advance pass | .abandon pass => some pass
  | _ => none

/-- **Every operation** keeps the invariant, for the passes that there are then. -/
theorem passes_perform (hdb : Backend.Releases σ) (h : q.Accounts passes s held) (o : Operation)
    (hpass : ∀ pass, o.pass? = some pass → pass ∈ passes) :
    (o.perform : On Query σ (List Pass)).Passes (fun u ↦ u.2) (q, s) held fun r u k ↦
      u.1.Accounts (r.toOption.getD [] ++ passes) u.2 k := by
  have hnothing {x : On Query σ Unit} (hx : x.Passes (fun u ↦ u.2) (q, s) held fun _ u k ↦
      u.1.Accounts passes u.2 k) : (x >>= fun _ ↦ .ok ([] : List Pass)).Passes (fun u ↦ u.2) (q, s)
        held fun r u k ↦ u.1.Accounts (r.toOption.getD [] ++ passes) u.2 k :=
    hx.bind (fun _ _ _ hk ↦ .of_events rfl hk) fun _ _ _ hk ↦ hk
  have hdrop (releaseOld : Bool) (p : Query) (hp : p.Accounts passes s held) :
      (setConnection none releaseOld : On Query σ Unit).Passes (fun u ↦ u.2) (p, s) held
        fun _ u k ↦ u.1.Accounts passes u.2 k := by
    refine Passes.object (Passes.modify ?_)
    rw [hp.conn]
    exact .of_events rfl (hp.congr hp.conn.symm rfl)
  cases o with
  | set c => exact hnothing (passes_own h c.keeps)
  | setLoaded loaded => exact hnothing (passes_own h fun _ ↦ rfl)
  | setPool pool releaseOld =>
    exact hnothing (Passes.modify (hdrop releaseOld _ (h.congr rfl rfl)))
  | dropConnection releaseOld => exact hnothing (hdrop releaseOld q h)
  | run given => exact hnothing (passes_run hdb h given)
  | close => exact hnothing ((passes_close hdb h).mono fun _ _ _ hk ↦ hk.1)
  | startPass =>
    refine Passes.object ?_
    rw [Query.startPass]
    split
    · refine .of_events rfl (h.append fun n hn ↦ ?_)
      exact nomatch List.mem_singleton.mp hn
    · exact .of_events rfl h
  | advance pass =>
    refine (passes_advance hdb h (hpass pass rfl)).bind (fun next u k hk ↦ ?_) fun _ _ _ hk ↦ hk.1
    refine .of_events rfl (hk.1.append fun n hn ↦ ?_)
    obtain ⟨onward, rfl, hover⟩ := Option.map_eq_some_iff.mp (Option.mem_toList.mp hn)
    exact hk.2 onward n rfl hover
  | abandon pass => exact hnothing (passes_abandon hdb h (hpass pass rfl))

end Operation

/-- What a new query without a connection of its own, its session and its passes can come to by any
operations, failing or not, with the events of these operations in order. A pass that there was can
be taken up wherever it had come to. Anything else may happen in the session in between, but not to
the streams of the query. -/
inductive Course : Query → Session σ → List Pass → List Event → Prop where
  | new {t : RecordType} {source : Source} {outputType returning streaming : Value} {q : Query}
      (s : Session σ) (h : make t source outputType returning streaming = .ok q)
      (hconn : q.conn = none) : Course q s [] []
  | step {q q' : Query} {s s' : Session σ} {passes : List Pass} {own added : List Event}
      {r : Except Failure (List Pass)} (before : Course q s passes own) (o : Operation)
      (hpass : ∀ pass, o.pass? = some pass → pass ∈ passes) (h : o.perform (q, s) = (r, q', s'))
      (hadded : s'.events = s.events ++ added) :
      Course q' s' (r.toOption.getD [] ++ passes) (own ++ added)
  | others {q : Query} {s s' : Session σ} {passes : List Pass} {own : List Event}
      (before : Course q s passes own) (hnext : s.next ≤ s'.next)
      (hstreams : ∀ n, q.Uses passes n → s'.streams.lookup n = s.streams.lookup n) :
      Course q s' passes own

namespace Course

omit [Backend σ] in
theorem accounts_of_make {t : RecordType} {source : Source}
    {outputType returning streaming : Value}
    (h : make t source outputType returning streaming = .ok q) (hconn : q.conn = none)
    (s : Session σ) : q.Accounts [] s none := by
  have hnone (n : Nat) (hn : q.Uses [] n) : False := by
    obtain hn | hn := hn
    · exact nomatch (stream_of_make h).symm.trans hn
    · exact nomatch hn
  exact ⟨hconn, fun n hn ↦ (hnone n hn).elim, fun n hn ↦ (hnone n hn).elim, fun _ hc ↦ nomatch hc⟩

/-- **Custody along a course.** The events of the operations keep the custody of connections, and
the query accounts for the one that is held. -/
theorem accounts (hdb : Backend.Releases σ) {own : List Event} (h : Course q s passes own) :
    ∃ held, Custody.after none own = some held ∧ q.Accounts passes s held := by
  induction h with
  | new s hmake hconn => exact ⟨none, rfl, accounts_of_make hmake hconn s⟩
  | @step q q' s s' passes own added r _ o hpass hrun hadded ih =>
    obtain ⟨held, hafter, haccounts⟩ := ih
    obtain ⟨events, held', hevents, hafter', hpost⟩ :=
      Operation.passes_perform hdb haccounts o hpass
    rw [hrun] at hevents hpost
    obtain rfl : added = events := List.append_cancel_left (hadded.symm.trans hevents)
    exact ⟨held', Custody.after_append hafter hafter', hpost⟩
  | others _ hnext hstreams ih =>
    obtain ⟨held, hafter, haccounts⟩ := ih
    exact ⟨held, hafter, haccounts.others hnext hstreams⟩

/-- Any operation can follow. -/
theorem perform (hdb : Backend.Releases σ) (h : Course q s passes s.events) (o : Operation)
    (hpass : ∀ pass, o.pass? = some pass → pass ∈ passes) :
    Course (o.perform (q, s)).2.1 (o.perform (q, s)).2.2
      ((o.perform (q, s)).1.toOption.getD [] ++ passes) (o.perform (q, s)).2.2.events := by
  obtain ⟨held, -, haccounts⟩ := h.accounts hdb
  obtain ⟨added, -, hadded, -⟩ := Operation.passes_perform hdb haccounts o hpass
  have hstep := h.step o hpass rfl hadded
  rwa [← hadded] at hstep

/-- **No connection leaks.** After any operations on a streaming query without a connection of its
own, however they end, the connections taken for it have been given back, each once for each time
that it was taken, but for at most one, which the open stream that the query holds is on; and none
was given back while it was not held. Closing the query gives that one back as well, even if closing
fails. -/
theorem leaks_nothing (hdb : Backend.Releases σ) {own : List Event} (h : Course q s passes own) :
    (∃ held, Custody.after none own = some held ∧
      (Custody.taken own).Perm (Custody.returned own ++ held.toList) ∧
      ∀ c, held = some c → q.StreamsOn s c) ∧
    ∃ added, (close (q, s)).2.2.events = s.events ++ added ∧
      Custody.after none (own ++ added) = some none ∧
      (Custody.taken (own ++ added)).Perm (Custody.returned (own ++ added)) := by
  obtain ⟨held, hafter, haccounts⟩ := h.accounts hdb
  obtain ⟨added, held', hadded, hclose, -, rfl⟩ := passes_close hdb haccounts
  have hend := Custody.after_append hafter hclose
  refine ⟨⟨held, hafter, Custody.perm_of_after hafter, haccounts.held⟩, added, hadded, hend, ?_⟩
  have hperm := Custody.perm_of_after hend
  rwa [Option.toList_none, List.append_nil] at hperm

end Course

end Query

/-- A scripted database that gives back every connection that it is asked to, and fails ordinarily
otherwise. -/
structure Steady where
  script : Scripted

namespace Steady

/-- The reply of the script, without the failures that a steady database has not. -/
def reply : (call : Call) → Except Failure call.Reply → Except Failure call.Reply
  | .invalidate _, _ | .close _, _ => .ok ()
  | _, r => r.mapError fun e ↦ if e.isOrdinary then e else Scripted.exhausted

instance : Backend Steady where
  perform call s :=
    (reply call (Backend.perform call s.script).1, ⟨(Backend.perform call s.script).2⟩)

theorem ordinary_reply {call : Call} {r : Except Failure call.Reply} {e : Failure}
    (h : reply call r = .error e) : e.isOrdinary = true := by
  unfold reply at h
  split at h
  · exact nomatch h
  · exact nomatch h
  · cases r with
    | ok a => exact nomatch h
    | error e' =>
      obtain rfl := Except.error.inj h
      dsimp only
      split
      · assumption
      · rfl

theorem releases : Backend.Releases Steady where
  ordinary _ _ _ h := ordinary_reply h
  invalidates _ _ := rfl
  closes _ _ := rfl

end Steady

namespace Query

/-- A new query that streams and is otherwise as queries are. -/
theorem make_streaming (t : RecordType) (source : Source) {conn : Option Connection}
    {pool : Option Pool} (h : source.split = .ok (conn, pool)) :
    make t source .null .null (.bool true) = .ok { blank t conn pool with
      select := { table := t.table, streaming := some (.bool true) } } := by
  have hne : Factored.ofInt 1 ≠ Factored.ofInt 0 := fun h ↦ by
    simpa using congrArg Factored.toRat h
  have hequal : (Value.bool true).isEqualTo (.bool false) = .ok false := by
    simp [Value.isEqualTo, Value.answered, Value.compare?, Value.compareScalar?, Value.number?,
      Number.compare?, Number.signals, Number.equal, hne]
  have hstream : stream_ (.bool true) (blank t conn pool) = (.ok (), { blank t conn pool with
      select := { table := t.table, streaming := some (.bool true) } }) := by
    show (do
      staleUnlessEqual (.bool true) (.bool false)
      modifySelect fun s ↦ { s with streaming := some (.bool true) }) _ = _
    rw [staleUnlessEqual, hequal]
    rfl
  have hoptions : options .null .null (.bool true) (blank t conn pool) =
      (.ok (), { blank t conn pool with
        select := { table := t.table, streaming := some (.bool true) } }) := by
    rw [options, unlessNull, if_neg (by decide), Change.bind_of_ok _ hstream]
    rfl
  rw [make, h]
  dsimp only [bind, Except.bind]
  rw [hoptions]

def streamedLetters : Query where
  type := ⟨.letters, [], [], []⟩
  select := { table := .letters, streaming := some (.bool true) }
  pool := some ⟨"p"⟩

/-- A session with two connections in that pool. No cursor can be opened on the first one. -/
def twoConnections : Session Steady where
  db := ⟨{
    connections := [("c", { driver := { failures := [("cursor", Scripted.exhausted)] } }),
      ("d", { driver := { batches := [.ok [[("a", .int 1)]]] } })]
    pools := [("p", [⟨"c"⟩, ⟨"d"⟩])] }⟩

/-- The query and the session after a run that fails, one that does not, and the first row. -/
def firstLetter : Query × Session Steady :=
  let failed := (Operation.run .absent).perform (streamedLetters, twoConnections)
  let opened := (Operation.run .absent).perform failed.2
  let started := Operation.startPass.perform opened.2
  ((Operation.advance .waiting).perform started.2).2

theorem Course.leaks_nothing_firstLetter :
    Backend.Releases Steady ∧ ∃ passes,
      Course firstLetter.1 firstLetter.2 passes firstLetter.2.events ∧
      Custody.taken firstLetter.2.events = [⟨"c"⟩, ⟨"d"⟩] ∧
      Custody.returned firstLetter.2.events = [⟨"c"⟩] ∧
      firstLetter.1.StreamsOn firstLetter.2 ⟨"d"⟩ := by
  have hdb := Steady.releases
  have hnew : Course streamedLetters twoConnections [] twoConnections.events :=
    .new twoConnections (make_streaming _ (.pool ⟨"p"⟩) rfl) rfl
  have hfailed := hnew.perform hdb (.run .absent) fun _ h ↦ nomatch h
  have hopened := hfailed.perform hdb (.run .absent) fun _ h ↦ nomatch h
  have hstarted := hopened.perform hdb .startPass fun _ h ↦ nomatch h
  have hwaiting : Pass.waiting ∈ [Pass.waiting] := List.mem_singleton.mpr rfl
  have hrow := hstarted.perform hdb (.advance .waiting) fun _ h ↦ by
    obtain rfl := Option.some.inj h
    exact hwaiting
  obtain ⟨⟨held, hafter, -, hheld⟩, -⟩ := Course.leaks_nothing hdb hrow
  have hd : Custody.after none firstLetter.2.events = some (some ⟨"d"⟩) := rfl
  refine ⟨hdb, _, hrow, rfl, rfl, hheld _ ?_⟩
  exact Option.some.inj (hafter.symm.trans hd)

end Query

end Rowmap
