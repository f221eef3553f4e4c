import Rowmap.Proofs.Stream.Closing
import Rowmap.Proofs.Stream.Custody

/-!
# Streams hand out every row once

A cursor feeds a stream if each fetch takes the next rows from those ahead of it, as many as were
asked for while there are so many. Between the rows pulled so far and those ahead of the cursor lie
those in the buffer, so together they are always all rows: `Fed` says so, with the batches that were
fetched by then. Every one of them is full but the last, which is short, and after which the stream
only hands out what it has.
-/

namespace Rowmap

/-- A cursor whose fetches take the next rows from those that are ahead of it, by a view of the
database. -/
def Backend.Feeds (σ : Type) [Backend σ] (c : Connection) (n : Nat) (ahead : List Row → σ → Prop) :
    Prop :=
  ∀ rows db, ahead rows db → ∃ db', ahead (rows.drop n) db' ∧
    Backend.perform (.fetch c (.int n)) db = (.ok (rows.take n), db')

/-- Whether a stream can make something of a row. -/
def RowShape.Suits : RowShape → Row → Prop
  | .entries, _ => True
  | .record type source, row => ∃ r, Record.ofRow type source row = .ok r

namespace RowStream

open Change

variable {σ α : Type} [Backend σ] {a b : RowStream} {s t : Session σ}

/-! ## Opening and fetching -/

theorem keeps_startTransaction :
    Keeps (fun u : RowStream × Session σ ↦ { u.1 with ownsTransaction := false })
      startTransaction := by
  refine Keeps.bind (.gets _) fun a ↦ Keeps.bind (fun _ ↦ rfl) fun present ↦ ?_
  rcases (present : Bool) with _ | _
  · exact fun _ ↦ rfl
  refine Keeps.bind (fun _ ↦ rfl) fun busy ↦ ?_
  rcases (busy : Bool) with _ | _
  · exact Keeps.bind (fun _ ↦ rfl) fun _ _ ↦ rfl
  · exact fun _ ↦ rfl

/-- A stream that was opened has its cursor, and perhaps a transaction of its own; everything else
is as it was made. -/
theorem of_open (h : open_ (a, s) = (.ok (), b, t)) :
    ∃ owns, b = { a with hasCursor := true, ownsTransaction := owns } := by
  have hopen := guarded_eq_ok (show guarded _ (a, _) = _ from h)
  obtain ⟨_, ⟨c, u⟩, hstart, hrest⟩ := bind_eq_ok.mp hopen
  obtain ⟨_, ⟨d, v⟩, hcursor, hlast⟩ := bind_eq_ok.mp hrest
  obtain rfl : d = c := congrArg (fun w ↦ w.2.1) hcursor.symm
  obtain rfl : b = { d with hasCursor := true } := congrArg (fun w ↦ w.2.1) hlast.symm
  have hkept : { d with ownsTransaction := false } = { a with ownsTransaction := false } :=
    (congrArg (fun w ↦ { w.2.1 with ownsTransaction := false }) hstart.symm).trans
      (keeps_startTransaction _)
  exact ⟨d.ownsTransaction, congrArg
    (fun e ↦ { e with hasCursor := true, ownsTransaction := d.ownsTransaction }) hkept⟩

omit [Backend σ] in
theorem wantsFetch_iff :
    a.wantsFetch = true ↔ a.buffer = [] ∧ a.closed = false ∧ a.exhausted = false := by
  simp [wantsFetch, and_assoc]

/-- A batch is fetched when there is nothing to hand out and more may come. -/
theorem fill_of_fetch {batch : List Row} {db : σ} (hwants : a.wantsFetch = true)
    (hcursor : a.hasCursor = true)
    (hfetch : Backend.perform (.fetch a.conn a.batchSize) s.db = (.ok batch, db))
    (hreceive : a.receive batch = .ok b) :
    fill (a, s) = (.ok (), b, { s with
      db, events := s.events ++ [.called (.fetch a.conn a.batchSize) (some batch)] }) := by
  have hcall : (On.beside (App.call (.fetch a.conn a.batchSize)) : On RowStream σ (List Row))
      (a, s) = (.ok batch, a, { s with
        db, events := s.events ++ [.called (.fetch a.conn a.batchSize) (some batch)] }) := by
    show ((App.call (.fetch a.conn a.batchSize) s).1, a, _) = _
    rw [App.call, hfetch]
    rfl
  show (if a.wantsFetch then _ else _ : On RowStream σ Unit) (a, s) = _
  rw [if_pos hwants, if_pos hcursor, bind_of_ok _ (guarded_of_ok hcall), own_receive_apply,
    hreceive]

/-! ## Rows in batches -/

def fetched (c : Connection) (n : Nat) (batch : List Row) : Event :=
  .called (.fetch c (.int n)) (some batch)

variable {c : Connection} {n : Nat} {ahead : List Row → σ → Prop} {rows left : List Row}
  {own : List Event}

/-- What an open stream has fetched of all rows, with the rows that are left to be handed out: those
in the buffer, and those ahead of the cursor unless a short batch was fetched. -/
inductive Fed (c : Connection) (n : Nat) (ahead : List Row → σ → Prop) (rows left : List Row) :
    RowStream → σ → List Event → Prop where
  | more {a : RowStream} {db : σ} {full : List (List Row)} {rest : List Row}
      (hexhausted : a.exhausted = false) (hfull : ∀ batch ∈ full, batch.length = n)
      (hrows : rows = full.flatten ++ rest) (hahead : ahead rest db)
      (hleft : left = a.buffer ++ rest) : Fed c n ahead rows left a db (full.map (fetched c n))
  | last {a : RowStream} {db : σ} {full : List (List Row)} {short : List Row}
      (hexhausted : a.exhausted = true) (hfull : ∀ batch ∈ full, batch.length = n)
      (hshort : short.length < n) (hrows : rows = full.flatten ++ short)
      (hleft : left = a.buffer) :
      Fed c n ahead rows left a db ((full ++ [short]).map (fetched c n))

theorem receive_of_int (hbatch : a.batchSize = .int n) (batch : List Row) : a.receive batch =
    .ok { a with
      buffer := a.buffer ++ batch, exhausted := a.exhausted || decide (batch.length < n) } := by
  rw [receive_eq_ok, hbatch]
  exact ⟨_, rfl, by simp⟩

omit [Backend σ] in
theorem Fed.fetch {full : List (List Row)} {rest : List Row} {db : σ}
    (hfull : ∀ batch ∈ full, batch.length = n) (hrows : rows = full.flatten ++ rest)
    (hahead : ahead (rest.drop n) db) : Fed c n ahead rows rest
      { a with buffer := rest.take n, exhausted := decide ((rest.take n).length < n) } db
      (full.map (fetched c n) ++ [fetched c n (rest.take n)]) := by
  rw [← List.map_singleton, ← List.map_append]
  by_cases hshort : rest.length < n
  · rw [List.take_of_length_le (Nat.le_of_lt hshort), decide_eq_true hshort]
    exact .last rfl hfull hshort hrows rfl
  · have hlength : (rest.take n).length = n := List.length_take_of_le (Nat.le_of_not_lt hshort)
    have hmore : rows = (full ++ [rest.take n]).flatten ++ rest.drop n := by
      rw [hrows, List.flatten_append, List.flatten_singleton, List.append_assoc,
        List.take_append_drop]
    refine .more ?_ ?_ hmore hahead (List.take_append_drop n rest).symm
    · simp [hlength]
    · exact List.forall_mem_append.mpr ⟨hfull, List.forall_mem_singleton.mpr hlength⟩

/-- **Filling** fetches nothing in vain: afterwards there is a row to hand out, unless none is left.
-/
theorem Fed.fill (h : Fed c n ahead rows left a s.db own) (hfeeds : Backend.Feeds σ c n ahead)
    (hn : 0 < n) (hconn : a.conn = c) (hbatch : a.batchSize = .int n) (hopen : a.closed = false)
    (hcursor : a.hasCursor = true) : ∃ buffer exhausted db added,
      fill (a, s) =
        (.ok (), { a with buffer, exhausted }, { s with db, events := s.events ++ added }) ∧
      Fed c n ahead rows left { a with buffer, exhausted } db (own ++ added) ∧
      (buffer = [] → left = [] ∧ exhausted = true) := by
  subst hconn
  by_cases hwants : a.wantsFetch = true
  · obtain ⟨hbuffer, -, hmore⟩ := wantsFetch_iff.mp hwants
    obtain ⟨-, hfull, hrows, hahead, rfl⟩ | ⟨hexhausted, -⟩ := h
    · rename_i full rest
      obtain ⟨db', hahead', hperform⟩ := hfeeds rest s.db hahead
      have hreceive := receive_of_int hbatch (rest.take n)
      rw [hbuffer, hmore, List.nil_append, Bool.false_or] at hreceive
      rw [hbuffer, List.nil_append]
      refine ⟨_, _, db', [fetched a.conn n (rest.take n)], ?_,
        Fed.fetch hfull hrows hahead', fun hnil ↦ ?_⟩
      · rw [fill_of_fetch hwants hcursor (hbatch ▸ hperform) hreceive, hbatch]
        rfl
      · rw [hnil]
        exact ⟨(List.take_eq_nil_iff.mp hnil).resolve_left (Nat.ne_of_gt hn), decide_eq_true hn⟩
    · exact absurd hexhausted (by simp [hmore])
  · refine ⟨a.buffer, a.exhausted, s.db, [], ?_, ?_, fun hbuffer ↦ ?_⟩
    · rw [fill_of_not_wantsFetch (Bool.not_eq_true _ ▸ hwants), List.append_nil]
    · rwa [List.append_nil]
    · -- an empty buffer is not filled only if the last batch was fetched
      obtain ⟨hexhausted, -⟩ | ⟨hexhausted, -, -, -, hleft⟩ := h
      · exact absurd (wantsFetch_iff.mpr ⟨hbuffer, hopen, hexhausted⟩) hwants
      · exact ⟨hleft.trans hbuffer, hexhausted⟩

omit [Backend σ] in
theorem Fed.handOut {row : Row} {buffer : List Row} {db : σ} (hbuffer : a.buffer = row :: buffer)
    (h : Fed c n ahead rows left a db own) :
    ∃ rest, left = row :: rest ∧ Fed c n ahead rows rest { a with buffer } db own := by
  obtain ⟨hexhausted, hfull, hrows, hahead, hleft⟩ | ⟨hexhausted, hfull, hshort, hrows, hleft⟩ := h
  · rw [hbuffer] at hleft
    exact ⟨_, hleft, .more hexhausted hfull hrows hahead rfl⟩
  · exact ⟨_, hleft.trans hbuffer, .last hexhausted hfull hshort hrows rfl⟩

/-! ## Handing out -/

/-- What is handed out for a row, in the session by then: its columns with their values, or a record
made of it, which is live. -/
inductive Made : RowShape → Row → Value × Session σ → Prop where
  | entries (row : Row) (s : Session σ) : Made .entries row (.map row, s)
  | record {type : RecordType} {source : Source} {row : Row} {r : Record} {id : Nat} {s : Session σ}
      (hrow : Record.ofRow type source row = .ok r) (hrecord : s.records.lookup id = some r) :
      Made (.record type source) row (r.toValue id, s)

omit [Backend σ] in
theorem Made.congr {shape : RowShape} {row : Row} {v : Value} (h : Made shape row (v, s))
    (hrecords : t.records = s.records) : Made shape row (v, t) := by
  obtain ⟨row, s⟩ | ⟨hrow, hrecord⟩ := h
  · exact .entries row t
  · exact .record hrow (hrecords ▸ hrecord)

omit [Backend σ] in
theorem exists_made {shape : RowShape} {row : Row} (h : shape.Suits row) (s : Session σ) :
    ∃ v t, shapeRow shape row s = (.ok v, t) ∧ t.db = s.db ∧ t.events = s.events ∧
      Made shape row (v, t) := by
  cases shape with
  | entries => exact ⟨.map row, s, rfl, rfl, rfl, .entries row s⟩
  | record type source =>
    obtain ⟨r, hrow⟩ := h
    let t : Session σ := { s with next := s.next + 1, records := s.records.put s.next r }
    have hadd : App.addRecord r s = (.ok s.next, t) := rfl
    have hrecord : t.records.lookup s.next = some r := Numbered.lookup_put_self _ _ _
    refine ⟨r.toValue s.next, { t with records := t.records.put s.next r }, ?_, rfl, rfl,
      .record hrow (Numbered.lookup_put_self _ _ _)⟩
    rw [shapeRow, hrow]
    show (App.addRecord r >>= App.recordValue) s = _
    rw [bind_of_ok _ hadd, App.recordValue, App.withRecord, hrecord]
    rfl

/-- A stream that was opened and pulled from any number of times, with what it handed out, each with
the session by then, and with what it has done since it was opened. Between the pulls anything may
happen that leaves the rows ahead of the cursor where they are. -/
inductive Passage (ahead : List Row → σ → Prop) (rows : List Row) (fresh : RowStream) :
    RowStream → Session σ → List (Value × Session σ) → List Event → Prop where
  | opened {a : RowStream} {s t : Session σ} (hrun : open_ (fresh, s) = (.ok (), a, t))
      (hahead : ahead rows t.db) : Passage ahead rows fresh a t [] []
  | others {a : RowStream} {s t : Session σ} {handed : List (Value × Session σ)}
      {own : List Event} (h : Passage ahead rows fresh a s handed own)
      (hkeeps : ∀ rest, ahead rest s.db → ahead rest t.db) : Passage ahead rows fresh a t handed own
  | pulled {a b : RowStream} {s t : Session σ} {v : Value} {handed : List (Value × Session σ)}
      {own added : List Event} (h : Passage ahead rows fresh a s handed own)
      (hrun : pull (a, s) = (.ok v, b, t)) (hadded : t.events = s.events ++ added) :
      Passage ahead rows fresh b t (handed ++ [(v, t)]) (own ++ added)

/-- A stream in use: open, with its cursor, and otherwise as it was made but for its progress. -/
def inUse (a : RowStream) (buffer : List Row) (exhausted owns : Bool) : RowStream :=
  { a with buffer, exhausted, hasCursor := true, ownsTransaction := owns, closed := false }

/-- What holds along a passage: the stream is in use, and the rows that it has handed out and those
that are left are all rows. -/
structure Passing (n : Nat) (ahead : List Row → σ → Prop) (rows : List Row) (fresh a : RowStream)
    (s : Session σ) (handed : List (Value × Session σ)) (own : List Event) : Prop where
  made : ∃ buffer exhausted owns, a = fresh.inUse buffer exhausted owns
  handed : ∃ done left, rows = done ++ left ∧ List.Forall₂ (Made fresh.shape) done handed ∧
    Fed fresh.conn n ahead rows left a s.db own

/-- **One pull** hands out the next row, if there is one, and otherwise closes the stream. -/
theorem Passing.pull {fresh : RowStream} {handed : List (Value × Session σ)}
    (hfeeds : Backend.Feeds σ fresh.conn n ahead) (hn : 0 < n) (hbatch : fresh.batchSize = .int n)
    (hsuits : ∀ row ∈ rows, fresh.shape.Suits row)
    (h : Passing n ahead rows fresh a s handed own) :
    (handed.length < rows.length ∧ ∃ v b t added, RowStream.pull (a, s) = (.ok v, b, t) ∧
      t.events = s.events ++ added ∧
      Passing n ahead rows fresh b t (handed ++ [(v, t)]) (own ++ added)) ∨
    (handed.length = rows.length ∧ ∃ b t added,
      RowStream.pull (a, s) = (do close false; .fail .ended : On RowStream σ Value) (b, t) ∧
      t.events = s.events ++ added ∧ Passing n ahead rows fresh b t handed (own ++ added) ∧
      b.buffer = [] ∧ b.exhausted = true) := by
  obtain ⟨⟨buffer, exhausted, owns, rfl⟩, done, left, hrows, hmade, hfed⟩ := h
  obtain ⟨buffer', exhausted', db, added, hfill, hfed', hnil⟩ :=
    hfed.fill hfeeds hn rfl hbatch rfl rfl
  have hlength := congrArg List.length hrows
  rw [List.length_append, hmade.length_eq] at hlength
  rcases buffer' with _ | ⟨row, rest⟩
  · obtain ⟨rfl, hexhausted⟩ := hnil rfl
    refine .inr ⟨hlength.symm, fresh.inUse [] exhausted' owns, _, added, pull_of_nil hfill rfl, rfl,
      ⟨⟨[], exhausted', owns, rfl⟩, done, [], hrows, hmade, hfed'⟩, rfl, hexhausted⟩
  · obtain ⟨left', rfl, hfed''⟩ := hfed'.handOut rfl
    have hmem : row ∈ rows := hrows ▸ List.mem_append_right _ List.mem_cons_self
    obtain ⟨v, t, hshape, hdb, hevents, hrow⟩ := exists_made (hsuits row hmem)
      ({ s with db, events := s.events ++ added } : Session σ)
    refine .inl ⟨?_, v, fresh.inUse rest exhausted' owns, t, added, ?_, hevents,
      ⟨rest, exhausted', owns, rfl⟩, done ++ [row], left', ?_, ?_, ?_⟩
    · rw [hlength, List.length_cons]
      omega
    · exact pull_of_cons hfill rfl hshape
    · rw [hrows, List.append_assoc]
      rfl
    · exact List.rel_append hmade (.cons hrow .nil)
    · rw [hdb]
      exact hfed''

omit [Backend σ] in
theorem Fed.keep {db db' : σ} (hkeeps : ∀ rest, ahead rest db → ahead rest db')
    (h : Fed c n ahead rows left a db own) : Fed c n ahead rows left a db' own := by
  obtain ⟨hexhausted, hfull, hrows, hahead, hleft⟩ | ⟨hexhausted, hfull, hshort, hrows, hleft⟩ := h
  · exact .more hexhausted hfull hrows (hkeeps _ hahead) hleft
  · exact .last hexhausted hfull hshort hrows hleft

omit [Backend σ] in
theorem Passing.opened {fresh : RowStream} (owns : Bool) (hahead : ahead rows s.db) :
    Passing n ahead rows fresh (fresh.inUse [] false owns) s [] [] := by
  refine ⟨⟨[], false, owns, rfl⟩, [], rows, rfl, .nil, ?_⟩
  show Fed _ _ _ _ _ _ _ (List.map (fetched fresh.conn n) [])
  exact .more rfl (List.forall_mem_nil _) rfl hahead rfl

omit [Backend σ] in
theorem Passing.others {fresh : RowStream} {handed : List (Value × Session σ)}
    (hkeeps : ∀ rest, ahead rest s.db → ahead rest t.db)
    (h : Passing n ahead rows fresh a s handed own) :
    Passing n ahead rows fresh a t handed own := by
  obtain ⟨done, left, hrows, hmade, hfed⟩ := h.handed
  exact ⟨h.made, done, left, hrows, hmade, hfed.keep hkeeps⟩

theorem Passage.passing {fresh : RowStream} {handed : List (Value × Session σ)}
    (hnew : fresh.IsNew) (hfeeds : Backend.Feeds σ fresh.conn n ahead) (hn : 0 < n)
    (hbatch : fresh.batchSize = .int n) (hsuits : ∀ row ∈ rows, fresh.shape.Suits row)
    (h : Passage ahead rows fresh a s handed own) :
    Passing n ahead rows fresh a s handed own := by
  induction h with
  | opened hrun hahead =>
    obtain ⟨owns, rfl⟩ := of_open hrun
    have hinUse : fresh.inUse [] false owns =
        { fresh with hasCursor := true, ownsTransaction := owns } := by
      rw [inUse, hnew.buffer, hnew.exhausted, hnew.closed]
    exact hinUse ▸ .opened owns hahead
  | others h hkeeps ih => exact ih.others hkeeps
  | pulled h hrun hadded ih =>
    obtain ⟨-, v, b, t, added, hpull, hevents, hpassing⟩ | ⟨-, b, t, added, hpull, -⟩ :=
      ih.pull hfeeds hn hbatch hsuits
    · rw [hrun] at hpull
      cases hpull
      obtain rfl := List.append_cancel_left (hadded.symm.trans hevents)
      exact hpassing
    · -- a pull that ends hands out no row
      rw [hrun] at hpull
      obtain ⟨_, _, -, hended⟩ := bind_eq_ok.mp hpull.symm
      exact nomatch hended

omit [Backend σ] in
theorem Passing.congr {fresh : RowStream} {v : Value} {handed : List (Value × Session σ)}
    (h : Passing n ahead rows fresh a s (handed ++ [(v, s)]) own)
    (hrecords : t.records = s.records) (hdb : t.db = s.db) :
    Passing n ahead rows fresh a t (handed ++ [(v, t)]) own := by
  obtain ⟨done, left, hrows, hmade, hfed⟩ := h.handed
  refine ⟨h.made, done, left, hrows, ?_, hdb ▸ hfed⟩
  obtain ⟨row, before, hlast, hnil, hdone⟩ :=
    List.forall₂_cons_right_iff.mp (List.forall₂_drop_append done handed [(v, s)] hmade)
  obtain rfl := List.forall₂_nil_right_iff.mp hnil
  rw [← List.take_append_drop handed.length done, hdone]
  exact List.rel_append (List.forall₂_take_append done handed [(v, s)] hmade)
    (.cons (hlast.congr hrecords) .nil)

/-- All rows were fetched, in full batches and then a short one. -/
def FetchedAll (c : Connection) (n : Nat) (rows : List Row) (own : List Event) : Prop :=
  ∃ full short, own = (full ++ [short]).map (fetched c n) ∧ rows = (full ++ [short]).flatten ∧
    (∀ batch ∈ full, batch.length = n) ∧ short.length < n

theorem FetchedAll.length_eq (h : FetchedAll c n rows own) : own.length = rows.length / n + 1 := by
  obtain ⟨full, short, rfl, rfl, hfull, hshort⟩ := h
  have hlengths : full.map List.length = List.replicate full.length n :=
    List.eq_replicate_iff.mpr ⟨List.length_map _, List.forall_mem_map.mpr hfull⟩
  have hn : 0 < n := Nat.zero_lt_of_lt hshort
  have hrows : (full ++ [short]).flatten.length = short.length + full.length * n := by
    rw [List.flatten_append, List.length_append, List.flatten_singleton, List.length_flatten,
      hlengths, List.sum_replicate_nat, Nat.add_comm]
  rw [hrows, Nat.add_mul_div_right _ _ hn, Nat.div_eq_of_lt hshort, Nat.zero_add, List.length_map,
    List.length_append, List.length_singleton]

omit [Backend σ] in
theorem Fed.fetchedAll {db : σ} (hexhausted : a.exhausted = true)
    (h : Fed c n ahead rows left a db own) : FetchedAll c n rows own := by
  obtain ⟨hmore, -⟩ | ⟨-, hfull, hshort, hrows, -⟩ := h
  · exact absurd hexhausted (by simp [hmore])
  · refine ⟨_, _, rfl, ?_, hfull, hshort⟩
    rw [hrows, List.flatten_append, List.flatten_singleton]

/-- **Every row once, in order.** While a stream that is fed by a cursor is pulled from, each pull
hands out what the stream makes of the next row, and leaves it open, until there is none left. Then
the pull closes the stream without a failure, and has ended unless closing failed. By then all rows
were fetched, in full batches and then a short one, with no further fetch. -/
theorem hands_out_every_row {fresh : RowStream} {handed : List (Value × Session σ)}
    (hnew : fresh.IsNew) (hfeeds : Backend.Feeds σ fresh.conn n ahead) (hn : 0 < n)
    (hbatch : fresh.batchSize = .int n) (hsuits : ∀ row ∈ rows, fresh.shape.Suits row)
    (h : Passage ahead rows fresh a s handed own) :
    List.Forall₂ (Made fresh.shape) (rows.take handed.length) handed ∧ a.closed = false ∧
    (handed.length < rows.length → ∃ v b t, RowStream.pull (a, s) = (.ok v, b, t)) ∧
    (rows.length ≤ handed.length → handed.length = rows.length ∧ ∃ owns r b t last closing,
      RowStream.pull (a, s) = (r >>= fun _ ↦ .error .ended, b, t) ∧
      t.events = s.events ++ (last ++ closing) ∧ b.closed = true ∧
      FetchedAll fresh.conn n rows (own ++ last) ∧
      (own ++ last).length = rows.length / n + 1 ∧
      Closing (fresh.inUse [] true owns) false r closing) := by
  have hpassing := h.passing hnew hfeeds hn hbatch hsuits
  obtain ⟨⟨_, _, _, rfl⟩, done, left, hrows, hmade, -⟩ := id hpassing
  have htake : rows.take handed.length = done := by
    rw [hrows, ← hmade.length_eq, List.take_left]
  refine ⟨htake ▸ hmade, rfl, fun hmore ↦ ?_, fun hall ↦ ?_⟩
  · obtain ⟨-, v, b, t, -, hpull, -⟩ | ⟨hlast, -⟩ := hpassing.pull hfeeds hn hbatch hsuits
    · exact ⟨v, b, t, hpull⟩
    · omega
  · obtain ⟨hless, -⟩ | ⟨hlast, b, t, last, hpull, hevents, hpassing', hbuffer, hexhausted⟩ :=
      hpassing.pull hfeeds hn hbatch hsuits
    · omega
    · obtain ⟨⟨buffer, exhausted, owns, rfl⟩, done', left', -, -, hfed⟩ := hpassing'
      obtain rfl : buffer = [] := hbuffer
      obtain rfl : exhausted = true := hexhausted
      have hfetched := hfed.fetchedAll rfl
      obtain ⟨closing, hclosing, hended, hparts⟩ :=
        adds_close (a := fresh.inUse [] true owns) false rfl t
      rcases hclose : close false (fresh.inUse [] true owns, t) with ⟨r, b, u⟩
      rw [hclose] at hclosing hended hparts
      refine ⟨hlast, owns, r, b, u, last, closing, ?_, ?_, ?_, hfetched, hfetched.length_eq, hparts⟩
      · rw [hpull, bind_apply, hclose]
        rcases r with e | _ <;> rfl
      · rw [hclosing, hevents, List.append_assoc]
      · exact congrArg RowStream.closed hended

end RowStream

/-- A database that is a cursor over rows, with a driver outside a transaction. -/
structure CursorOver where
  rows : List Row

namespace CursorOver

instance : Backend CursorOver where
  perform
    | .fetch _ (.int n), d => (.ok (d.rows.take n.toNat), ⟨d.rows.drop n.toNat⟩)
    | .driver _, d => (.ok true, d)
    | .driverInTransaction _, d => (.ok false, d)
    | .startTransaction _, d | .openCursor .., d | .commitTransaction _, d => (.ok (), d)
    | _, d => (.error .missingPart, d)

theorem feeds (c : Connection) (n : Nat) :
    Backend.Feeds CursorOver c n fun rows d ↦ d.rows = rows := by
  rintro _ d rfl
  exact ⟨⟨d.rows.drop n⟩, rfl, rfl⟩

/-- Two rows, which fill one batch. -/
def twoRows : List Row := [[("a", .int 1)], [("a", .int 2)]]

/-- A stream that fetches two rows at once. -/
def pairs : RowStream := { RowStream.notifying with batchSize := .int 2 }

/-- That stream over those rows once it was opened, and after one pull and another. -/
def opened : RowStream × Session CursorOver := (RowStream.open_ (pairs, { db := ⟨twoRows⟩ })).2

def pulledOnce : RowStream × Session CursorOver := (RowStream.pull opened).2

def pulledTwice : RowStream × Session CursorOver := (RowStream.pull pulledOnce).2

def handedTwice : List (Value × Session CursorOver) :=
  [(.map [("a", .int 1)], pulledOnce.2), (.map [("a", .int 2)], pulledTwice.2)]

theorem hands_out_every_row_pulledTwice : pairs.IsNew ∧
    Backend.Feeds CursorOver pairs.conn 2 (fun rows d ↦ d.rows = rows) ∧
    (∀ row ∈ twoRows, pairs.shape.Suits row) ∧
    RowStream.Passage (fun rows (d : CursorOver) ↦ d.rows = rows) twoRows pairs
      pulledTwice.1 pulledTwice.2 handedTwice [RowStream.fetched pairs.conn 2 twoRows] ∧
    List.Forall₂ (RowStream.Made pairs.shape) twoRows handedTwice ∧
    (RowStream.pull pulledTwice).1 = .error .ended ∧
    ∃ last, RowStream.FetchedAll pairs.conn 2 twoRows
      ([RowStream.fetched pairs.conn 2 twoRows] ++ last) := by
  have hnew : pairs.IsNew := ⟨rfl, rfl, rfl, rfl, rfl⟩
  have hsuits : ∀ row ∈ twoRows, pairs.shape.Suits row := fun _ _ ↦ trivial
  have hfeeds := feeds pairs.conn 2
  have hopened : RowStream.Passage (fun rows (d : CursorOver) ↦ d.rows = rows) twoRows pairs
      opened.1 opened.2 [] [] := .opened rfl rfl
  have honce : RowStream.Passage (fun rows (d : CursorOver) ↦ d.rows = rows) twoRows pairs
      pulledOnce.1 pulledOnce.2 (handedTwice.take 1) [RowStream.fetched pairs.conn 2 twoRows] :=
    hopened.pulled rfl rfl
  have htwice : RowStream.Passage (fun rows (d : CursorOver) ↦ d.rows = rows) twoRows pairs
      pulledTwice.1 pulledTwice.2 handedTwice [RowStream.fetched pairs.conn 2 twoRows] :=
    honce.pulled rfl rfl
  obtain ⟨hmade, -, -, hend⟩ :=
    RowStream.hands_out_every_row hnew hfeeds Nat.two_pos rfl hsuits htwice
  obtain ⟨-, _, _, _, _, last, _, -, -, -, hfetched, -⟩ := hend (Nat.le_refl 2)
  exact ⟨hnew, hfeeds, hsuits, htwice, hmade, rfl, last, hfetched⟩

end CursorOver

end Rowmap
