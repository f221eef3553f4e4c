import Rowmap.Proofs.Query.Freshness
import Rowmap.Proofs.Record.Private
import Rowmap.Proofs.Stream.Custody
import Rowmap.Proofs.Stream.Sends
import Rowmap.Query.Rows

/-!
# Private fields of queries

What a query gives as plain data without private fields is the same whatever these hold in its rows.
The three shapes of rows hide them in three ways: a record takes their keys out of its data, a map
is filtered by the keys that the options let through, and a single value is replaced by null unless
its key is let through. `Holds` says what a query holds of each row that it was given when it was
run, so the rows can be compared where they come from.
-/

namespace Rowmap

namespace Query

open Change

variable {σ : Type} {q q' : Query} {s s' : Session σ}

/-- What a query holds of a row that it was given: a record that was made of it, the value under the
key that is returned, or the row as a map. -/
def Holds (q : Query) (records : Numbered Record) (row : Row) (held : Value) : Prop :=
  match q.select.output with
  | .record => ∃ id typeName printed attributes r source,
      held = .object id typeName printed attributes ∧ records.lookup id = some r ∧
        Record.ofRow q.type source row = .ok r
  | .value => cell row (returnsValue q.select.returns) = .ok held
  | .object => held = .map row

/-! ## What a run leaves -/

theorem recordValue_eq {id : Nat} {r : Record} (h : s.records.lookup id = some r) :
    App.recordValue id s = (.ok (r.toValue id), { s with records := s.records.put id r }) := by
  rw [App.recordValue, App.withRecord, h]
  rfl

/-- The record of the first row takes the next number, and is shown as it was made. -/
theorem of_recordsOf_cons {t : RecordType} {source : Source} {row : Row} {rows : List Row}
    {vs : List Value} (h : recordsOf t source (row :: rows) s = (.ok vs, s')) :
    ∃ r rest, Record.ofRow t source row = .ok r ∧ vs = r.toValue s.next :: rest ∧
      recordsOf t source rows { s with
        records := (s.records.put s.next r).put s.next r, next := s.next + 1 } =
          (.ok rest, s') := by
  rw [recordsOf] at h
  obtain ⟨r, hrow, h⟩ := ofExcept_bind_eq_ok.mp h
  obtain ⟨id, s₁, hadd, h⟩ := bind_eq_ok.mp h
  obtain ⟨v, s₂, hvalue, h⟩ := bind_eq_ok.mp h
  obtain ⟨rest, s₃, hrest, h⟩ := bind_eq_ok.mp h
  obtain ⟨hvs, rfl⟩ := Prod.mk.inj h
  obtain rfl := Except.ok.inj hvs
  obtain ⟨hid, rfl⟩ := Prod.mk.inj hadd
  obtain rfl := Except.ok.inj hid
  obtain ⟨hv, rfl⟩ := Prod.mk.inj
    ((recordValue_eq (Numbered.lookup_put_self s.records s.next r)).symm.trans hvalue)
  obtain rfl := Except.ok.inj hv
  exact ⟨r, rest, hrow, rfl, hrest⟩

theorem holds_recordsOf {t : RecordType} {source : Source} {rows : List Row} {vs : List Value}
    (h : recordsOf t source rows s = (.ok vs, s')) :
    (∀ id < s.next, s'.records.lookup id = s.records.lookup id) ∧
    s'.events = s.events ∧ List.Forall₂ (fun row held ↦ ∃ id typeName printed attributes r,
      held = .object id typeName printed attributes ∧ s'.records.lookup id = some r ∧
        Record.ofRow t source row = .ok r) rows vs := by
  induction rows generalizing s vs with
  | nil =>
    obtain ⟨hvs, rfl⟩ := Prod.mk.inj h
    obtain rfl := Except.ok.inj hvs
    exact ⟨fun _ _ ↦ rfl, rfl, .nil⟩
  | cons row rows ih =>
    obtain ⟨r, rest, hrow, rfl, hrest⟩ := of_recordsOf_cons h
    obtain ⟨hold, hevents, hheld⟩ := ih hrest
    have hnext : s.next < s.next + 1 := Nat.lt_succ_self _
    refine ⟨fun id hid ↦ ?_, hevents, .cons ⟨_, _, _, _, r, rfl, ?_, hrow⟩ hheld⟩
    · rw [hold id (hid.trans hnext)]
      exact (Numbered.lookup_put_of_ne _ _ hid.ne).trans (Numbered.lookup_put_of_ne _ _ hid.ne)
    · rw [hold _ hnext]
      exact Numbered.lookup_put_self _ _ _

theorem holds_shapeRows {source : Source} {rows : List Row} {vs : List Value}
    (h : q.shapeRows source rows s = (.ok vs, s')) :
    s'.events = s.events ∧ List.Forall₂ (q.Holds s'.records) rows vs := by
  rw [shapeRows] at h
  cases houtput : q.select.output with
  | record =>
    rw [houtput] at h
    obtain ⟨-, hevents, hheld⟩ := holds_recordsOf h
    refine ⟨hevents, hheld.imp fun row held hrow ↦ ?_⟩
    obtain ⟨id, typeName, printed, attributes, r, rfl, hr, hrow⟩ := hrow
    rw [Holds, houtput]
    exact ⟨_, _, _, _, r, source, rfl, hr, hrow⟩
  | value =>
    rw [houtput] at h
    obtain ⟨hvs, rfl⟩ := Prod.mk.inj h
    refine ⟨rfl, (Except.forall₂_of_mapM hvs).imp fun row held hrow ↦ ?_⟩
    rw [Holds, houtput]
    exact hrow
  | object =>
    rw [houtput] at h
    obtain ⟨hvs, rfl⟩ := Prod.mk.inj h
    obtain rfl := Except.ok.inj hvs
    refine ⟨rfl, List.forall₂_map_right_iff.mpr (List.forall₂_same.mpr fun row _ ↦ ?_)⟩
    rw [Holds, houtput]

theorem keeps_events_statement (q : Query) :
    Keeps Session.events (q.statement false false 0 : App σ Statement) :=
  (Keeps.get.bind fun _ ↦ (Keeps.ofExcept _).bind fun _ ↦ .ok _).bind fun _ _ ↦ rfl

theorem gives_statement {statement : Statement}
    (h : q.statement false false 0 s = (.ok statement, s')) : s.Gives [] s' := by
  have hkept := keeps_events_statement q s
  rw [h] at hkept
  exact ⟨[], hkept.trans (List.append_nil _).symm, rfl⟩

variable [Backend σ]

theorem gives_checkout {conn : Option Connection} {pool : Option Pool} {statement : Statement}
    {outcome : Outcome} (h : App.checkout conn pool false
      (fun c ↦ App.execute c statement.text statement.values) s = (.ok outcome, s')) :
    s.Gives outcome.rows s' := by
  obtain ⟨c, s₁, s₂, hexec, hbefore, hafter⟩ := App.of_checkout h
  have hgives : s₁.Gives outcome.rows s₂ := by
    obtain ⟨⟨⟩, s₃, htell, hcall⟩ := bind_eq_ok.mp hexec
    obtain ⟨-, rfl⟩ := Prod.mk.inj htell
    obtain ⟨hreply, rfl⟩ := Prod.mk.inj hcall
    refine ⟨[.called (.exec c statement.text statement.values) (some outcome)], ?_, ?_⟩
    · rw [hreply]
      rfl
    · exact List.append_nil _
  have hgives := (hbefore.trans hgives).trans hafter
  rwa [List.nil_append, List.append_nil] at hgives

theorem onlySends_close (p : Statement → Prop) (u : Query × Session σ) :
    OnlySends (·.2) p (close : On Query σ Unit) u := by
  refine OnlySends.bind (.of_events rfl) fun q u' _ ↦ ?_
  cases q.stream with
  | none => exact .ok ()
  | some id =>
    exact OnlySends.bind (.of_events rfl) fun _ u'' _ ↦
      (App.onlySends_withStream id (RowStream.onlySends_close p false) u''.2).onSecond u''.1

theorem keeps_type_run (given : Source) :
    Keeps (fun u ↦ u.1.type) (run given : On Query σ Unit) :=
  (keeps_asked_run given).of_comp Prod.fst

/-- **A run** of a query that is not streamed leaves it holding what statements gave back since. -/
theorem holds_of_run {given : Source} (h : run given (q, s) = (.ok (), q', s'))
    (hstreaming : q.isStreaming = false) :
    ∃ rows, s.Gives rows s' ∧ List.Forall₂ (q'.Holds s'.records) rows q'.rows := by
  rw [run, On.object, gets_bind] at h
  obtain ⟨⟨⟩, -, h⟩ := ofExcept_bind_eq_ok.mp h
  obtain ⟨⟨⟩, ⟨q₁, s₁⟩, hclose, h⟩ := bind_eq_ok.mp h
  have hclosed : s.Gives [] s₁ := .of_onlySends (onlySends_close _ (q, s)) hclose
  have hkept := keeps_close (q, s)
  rw [hclose] at hkept
  have hnot : q₁.isStreaming = false := by
    rwa [isStreaming, streaming, (Prod.mk.inj hkept).1]
  rw [gets_bind] at h
  obtain ⟨statement, u, hbeside, h⟩ := bind_eq_ok.mp h
  obtain ⟨s₂, rfl, hstatement⟩ := On.beside_eq_ok hbeside
  dsimp only at h
  rw [hnot, if_neg Bool.false_ne_true] at h
  obtain ⟨outcome, u, hbeside, h⟩ := bind_eq_ok.mp h
  obtain ⟨s₃, rfl, hcheckout⟩ := On.beside_eq_ok hbeside
  obtain ⟨rows, u, hbeside, h⟩ := bind_eq_ok.mp h
  obtain ⟨s₄, rfl, hshape⟩ := On.beside_eq_ok hbeside
  obtain ⟨-, hend⟩ := Prod.mk.inj h
  obtain ⟨rfl, rfl⟩ := Prod.mk.inj hend
  obtain ⟨hevents, hholds⟩ := holds_shapeRows hshape
  obtain ⟨added, hadded, hrows⟩ :=
    hclosed.trans ((gives_statement hstatement).trans (gives_checkout hcheckout))
  exact ⟨outcome.rows, ⟨added, hevents.trans hadded, hrows⟩, hholds⟩

/-! ## Data -/

/-- Rows that agree in what a query gives of them without private fields: the columns of the public
fields where they are made into records, and otherwise everything under other keys. -/
def AgreeInPublic (q : Query) (row row' : Row) : Prop :=
  match q.select.output with
  | .record => q.type.AgreeInPublic row row'
  | .value | .object =>
    row'.filter (!q.type.hides ·.1) = row.filter (!q.type.hides ·.1)

/-- What is done with the rows of two queries ends in the same way where it does so row by row. -/
theorem mapM_eq_of_forall₂ {α : Type} {R : Row → Value → Prop} {R' : Row → Value → Prop}
    {S : Row → Row → Prop} {f f' : Value → Except Failure α} {rows rows' : List Row}
    {held held' : List Value} (hheld : List.Forall₂ R rows held)
    (hheld' : List.Forall₂ R' rows' held') (hrows : List.Forall₂ S rows rows')
    (hf : ∀ row row' v v', S row row' → R row v → R' row' v' → f' v' = f v) :
    held'.mapM f' = held.mapM f := by
  induction hrows generalizing held held' with
  | nil =>
    obtain rfl := List.forall₂_nil_left_iff.mp hheld
    obtain rfl := List.forall₂_nil_left_iff.mp hheld'
    rfl
  | cons hrow _ ih =>
    obtain ⟨v, vs, hv, hvs, rfl⟩ := List.forall₂_cons_left_iff.mp hheld
    obtain ⟨v', vs', hv', hvs', rfl⟩ := List.forall₂_cons_left_iff.mp hheld'
    rw [List.mapM_cons, List.mapM_cons, hf _ _ v v' hrow hv hv', ih hvs hvs']

/-- A key that is hidden is not let through. -/
theorem isAmong_of_hides {t : RecordType} {o : DataOptions} {allowed : Option (List Value)}
    (ho : o.includePrivate = false) (h : allowedKeys t o = .ok allowed) : ∃ keys,
      allowed = some keys ∧ ∀ (v : Value) (key : String), v.asText? = some key →
        t.hides key = true → isAmong keys v = false := by
  rw [allowedKeys, ho, Bool.and_false, if_neg Bool.false_ne_true] at h
  obtain ⟨chosen, -, h⟩ := Except.bind_eq_ok.mp h
  obtain ⟨keys, -, h⟩ := Except.bind_eq_ok.mp h
  rw [if_neg Bool.false_ne_true] at h
  obtain ⟨hidden, hset, h⟩ := Except.bind_eq_ok.mp h
  obtain rfl : t.privateFields = hidden := by
    rw [setOf] at hset
    split at hset
    · exact Except.ok.inj hset
    · cases hset
  refine ⟨_, (Except.ok.inj h).symm, fun v key hv hhides ↦ ?_⟩
  rw [isAmong, List.any_eq_false]
  intro x hx hmatch
  obtain ⟨-, hstays⟩ := List.mem_filter.mp hx
  obtain ⟨p, hp, hkey⟩ := List.any_eq_true.mp hhides
  have hxkey : x.asText? = some key := (Value.asText?_eq_of_matchesElement hmatch).trans hv
  have hamong : isAmong t.privateFields x = true :=
    List.any_eq_true.mpr ⟨p, hp, (Value.matchesElement_iff (beq_iff_eq.mp hkey) hxkey).mpr rfl⟩
  rw [hamong] at hstays
  exact Bool.noConfusion hstays

theorem lookup_filter_of_not_hides {t : RecordType} {key : String} (h : t.hides key = false)
    (row : Row) : (row.filter (!t.hides ·.1)).lookup key = row.lookup key := by
  induction row with
  | nil => rfl
  | cons e row ih =>
    rw [List.filter_cons]
    split
    · rw [List.lookup_cons, List.lookup_cons, ih]
    next hgoes =>
      have hne : (key == e.1) = false := by
        refine beq_false_of_ne fun heq ↦ hgoes ?_
        rw [← heq, h]
        rfl
      rw [ih, List.lookup_cons, hne]

/-- A row of single values: it is blanked unless its key is let through. -/
theorem valueData_eq {o : DataOptions} {keys : List Value} {row row' : Row} {v v' : Value}
    (hkeys : ∀ (w : Value) (key : String), w.asText? = some key →
      q.type.hides key = true → isAmong keys w = false)
    (hrows : row'.filter (!q.type.hides ·.1) = row.filter (!q.type.hides ·.1))
    (hv : cell row (returnsValue q.select.returns) = .ok v)
    (hv' : cell row' (returnsValue q.select.returns) = .ok v') :
    q.valueData o (some keys) v' = q.valueData o (some keys) v := by
  cases hkey : (returnsValue q.select.returns).asText? with
  | none =>
    rw [cell, hkey] at hv
    cases hv
  | some key =>
    cases hhides : q.type.hides key with
    | true => rw [valueData, valueData, hkeys _ key hkey hhides]; rfl
    | false =>
      have hsame : row'.lookup key = row.lookup key := by
        rw [← lookup_filter_of_not_hides hhides, hrows, lookup_filter_of_not_hides hhides]
      have hcell : cell row' (returnsValue q.select.returns) =
          cell row (returnsValue q.select.returns) := by
        rw [cell, cell, hkey, Option.bind_some, Option.bind_some, hsame]
      rw [hcell, hv] at hv'
      rw [Except.ok.inj hv']

theorem objectData_eq {o : DataOptions} {keys : List Value} {row row' : Row}
    (hkeys : ∀ (w : Value) (key : String), w.asText? = some key →
      q.type.hides key = true → isAmong keys w = false)
    (hrows : row'.filter (!q.type.hides ·.1) = row.filter (!q.type.hides ·.1)) :
    q.objectData o (some keys) (.map row') = q.objectData o (some keys) (.map row) := by
  have hkept (row : Row) : (Pairs.ofEntries row).filter (isAmong keys ·.1) =
      (Pairs.ofEntries (row.filter (!q.type.hides ·.1))).filter (isAmong keys ·.1) := by
    rw [Pairs.ofEntries, Pairs.ofEntries, List.filter_map, List.filter_map, List.filter_filter]
    refine congrArg _ (List.filter_congr fun e _ ↦ ?_)
    cases hhides : q.type.hides e.1 with
    | true => simp [hkeys (.text e.1) e.1 rfl hhides]
    | false => simp
  have hdata (row : Row) : q.objectData o (some keys) (.map row) =
      .ok (((Pairs.ofEntries row).filter (isAmong keys ·.1)).map fun p ↦
        (p.1, (p.1.asText?.map (orDefault q.type o · p.2)).getD p.2)) := rfl
  rw [hdata, hdata, hkept row', hrows, ← hkept row]

/-- Two queries with the same settings, as far as these are about the rows. -/
structure SetAlike (q q' : Query) : Prop where
  type : q'.type = q.type
  output : q'.select.output = q.select.output
  returns : q'.select.returns = q.select.returns
  streaming : q'.isStreaming = q.isStreaming

theorem SetAlike.symm (h : q.SetAlike q') : q'.SetAlike q :=
  ⟨h.type.symm, h.output.symm, h.returns.symm, h.streaming.symm⟩

theorem SetAlike.trans {q'' : Query} (h : q.SetAlike q') (h' : q'.SetAlike q'') : q.SetAlike q'' :=
  ⟨h'.type.trans h.type, h'.output.trans h.output, h'.returns.trans h.returns,
    h'.streaming.trans h.streaming⟩

theorem SetAlike.agreeInPublic_iff (h : q.SetAlike q') {row row' : Row} :
    q'.AgreeInPublic row row' ↔ q.AgreeInPublic row row' := by
  rw [AgreeInPublic, AgreeInPublic, h.output, h.type]

theorem SetAlike.checkDataOptions (h : q.SetAlike q') (o : DataOptions) :
    q'.checkDataOptions o = q.checkDataOptions o := by
  rw [Query.checkDataOptions, Query.checkDataOptions, h.streaming, h.output]

/-- What is done with the keys that are allowed without private fields need only agree where they
leave out what is hidden. -/
theorem bind_allowedKeys_congr {t : RecordType} {o : DataOptions} (ho : o.includePrivate = false)
    {β : Type} {f g : Option (List Value) → Except Failure β}
    (h : ∀ keys, (∀ (v : Value) (key : String), v.asText? = some key → t.hides key = true →
      isAmong keys v = false) → f (some keys) = g (some keys)) :
    (allowedKeys t o >>= f) = (allowedKeys t o >>= g) := by
  cases hallowed : allowedKeys t o with
  | error e => rfl
  | ok allowed =>
    obtain ⟨keys, rfl, hkeys⟩ := isAmong_of_hides ho hallowed
    exact h keys hkeys

theorem data_eq {records records' : Numbered Record} {o : DataOptions} {rows rows' : List Row}
    (h : q.SetAlike q') (ho : o.includePrivate = false)
    (ht : q.select.output = .record → q.type.KeepsState)
    (hheld : List.Forall₂ (q.Holds records) rows q.rows)
    (hheld' : List.Forall₂ (q'.Holds records') rows' q'.rows)
    (hrows : List.Forall₂ q.AgreeInPublic rows rows') :
    q'.data records' o = q.data records o := by
  have hcheck := h.checkDataOptions o
  obtain ⟨htype, houtput, hreturns, -⟩ := h
  rw [data, data, hcheck, houtput, htype]
  refine bind_congr fun _ ↦ ?_
  cases hshape : q.select.output with
  | record =>
    refine mapM_eq_of_forall₂ hheld hheld' hrows fun row row' v v' hrow hv hv' ↦ ?_
    rw [AgreeInPublic, hshape] at hrow
    rw [Holds, hshape] at hv
    rw [Holds, houtput, hshape] at hv'
    obtain ⟨id, _, _, _, r, source, rfl, hr, hmade⟩ := hv
    obtain ⟨id', _, _, _, r', source', rfl, hr', hmade'⟩ := hv'
    rw [htype] at hmade'
    have halike := Record.PubliclyAlike.of_ofRow (ht hshape) hrow hmade hmade'
    rw [recordData, recordData, hr, hr']
    dsimp only
    rw [halike.data_eq ho]
  | value =>
    refine bind_allowedKeys_congr ho fun keys hkeys ↦ ?_
    refine mapM_eq_of_forall₂ hheld hheld' hrows fun row row' v v' hrow hv hv' ↦ ?_
    rw [AgreeInPublic, hshape] at hrow
    rw [Holds, hshape] at hv
    rw [Holds, houtput, hshape, hreturns] at hv'
    have hsame (w : Value) : q'.valueData o (some keys) w = q.valueData o (some keys) w := by
      rw [valueData, valueData, htype, hreturns]
    rw [hsame, valueData_eq hkeys hrow hv hv']
  | object =>
    refine bind_allowedKeys_congr ho fun keys hkeys ↦ ?_
    refine mapM_eq_of_forall₂ hheld hheld' hrows fun row row' v v' hrow hv hv' ↦ ?_
    rw [AgreeInPublic, hshape] at hrow
    rw [Holds, hshape] at hv
    rw [Holds, houtput, hshape] at hv'
    subst hv hv'
    have hsame (w : Value) : q'.objectData o (some keys) w = q.objectData o (some keys) w := by
      rw [objectData, objectData, htype]
    rw [hsame, objectData_eq hkeys hrow]

theorem data_of_isStreaming (h : q.isStreaming = true) (records : Numbered Record)
    (o : DataOptions) : q.data records o = .error (.fault (.unavailableInStream "data()")) := by
  rw [data, checkDataOptions, h]
  rfl

/-! ## Two runs -/

theorem setAlike_of_run {given : Source} (h : run given (q, s) = (.ok (), q', s')) :
    q.SetAlike q' := by
  have htype := keeps_type_run given (q, s)
  rw [h] at htype
  obtain ⟨-, rows, hselect⟩ := of_run h
  refine ⟨htype, ?_, ?_, ?_⟩
  · rw [hselect]
  · rw [hselect]
  · rw [isStreaming, streaming, hselect]
    rfl

/-- **Private fields stay hidden.** Without them, data is the same of records that are alike but for
these, and of queries with the same settings that were run and were given rows that agree but for
these, however the queries select their rows and whatever else there is in their sessions. Only
where rows are made into records, no field may stand where a record keeps the key of its row. -/
theorem data_hides_private {σ σ' : Type} [Backend σ] [Backend σ'] {o : DataOptions}
    (ho : o.includePrivate = false) :
    (∀ r r' : Record, r.PubliclyAlike r' → r'.data o = r.data o) ∧
    ∀ (q q' q₁ q₁' : Query) (s s₁ : Session σ) (s' s₁' : Session σ') (given given' : Source),
      q.SetAlike q' → (q.select.output = .record → q.type.KeepsState) →
      run given (q, s) = (.ok (), q₁, s₁) → run given' (q', s') = (.ok (), q₁', s₁') →
      List.Forall₂ q.AgreeInPublic ((s.since s₁).flatMap Event.rows)
        ((s'.since s₁').flatMap Event.rows) →
      q₁'.data s₁'.records o = q₁.data s₁.records o := by
  refine ⟨fun r r' h ↦ h.data_eq ho, ?_⟩
  intro q q' q₁ q₁' s s₁ s' s₁' given given' hset ht hrun hrun' hrows
  have hran := setAlike_of_run hrun
  have hran' := setAlike_of_run hrun'
  cases hstreaming : q.isStreaming with
  | true =>
    rw [data_of_isStreaming (hran.streaming.trans hstreaming),
      data_of_isStreaming (hran'.streaming.trans (hset.streaming.trans hstreaming))]
  | false =>
    obtain ⟨rows, hgives, hheld⟩ := holds_of_run hrun hstreaming
    obtain ⟨rows', hgives', hheld'⟩ := holds_of_run hrun' (hset.streaming.trans hstreaming)
    rw [hgives.flatMap_since, hgives'.flatMap_since] at hrows
    refine data_eq (hran.symm.trans (hset.trans hran')) ho ?_ hheld hheld' ?_
    · rwa [hran.output, hran.type]
    · exact hrows.imp fun _ _ ↦ hran.agreeInPublic_iff.mpr

/-- A query for all letters, whose text is private. -/
def discreet : Query where
  type := ⟨.letters, [], [.text "b"], []⟩
  select := { table := .letters }
  conn := some ⟨"c"⟩

def givingBack (row : Row) : Session Scripted where
  db := { connections := [("c", { results := [.ok ⟨[row], .int 1, true, .null⟩] })] }

/-- The query and the session after a run that is given a letter with some text. -/
def discreetRun (text : String) : Query × Session Scripted :=
  (run .absent (discreet, givingBack [("a", .int 1), ("b", .text text)])).2

theorem data_hides_private_discreet :
    (discreetRun "x").1.data (discreetRun "x").2.records {} =
      .ok [.pairs [(.text "a", .int 1)]] ∧
    (discreetRun "y").1.data (discreetRun "y").2.records {} =
      (discreetRun "x").1.data (discreetRun "x").2.records {} := by
  refine ⟨rfl, ?_⟩
  have hrun (text : String) :
      run .absent (discreet, givingBack [("a", .int 1), ("b", .text text)]) =
        (.ok (), (discreetRun text).1, (discreetRun text).2) := Prod.ext rfl rfl
  refine (data_hides_private (o := {}) rfl).2 discreet discreet _ _ _ _ _ _ .absent .absent
    ⟨rfl, rfl, rfl, rfl⟩ (fun _ ↦ ⟨rfl, rfl⟩) (hrun "x") (hrun "y") (.cons ?_ .nil)
  intro e he hpublic
  obtain rfl | rfl := List.mem_pair.mp he
  · rfl
  · exact absurd hpublic (by decide)

/-- A query for all records with a field in the place of the key of the row, which is private. -/
def keyShowing : Query where
  type := { Record.keyHolder with privateFields := [.text "id"] }
  select := { table := Record.keyHolder.table }
  conn := some ⟨"c"⟩

def keyShowingRow (id : String) : Row := [(Record.rowKeyName, .map []), ("id", .text id)]

/-- The query and the session after a run that is given the row. -/
def keyShowingRun (id : String) : Query × Session Scripted :=
  (run .absent (keyShowing, givingBack (keyShowingRow id))).2

/-- **A field in the place of the key of the row** shows the private key. -/
theorem data_of_keyShowing :
    keyShowing.AgreeInPublic (keyShowingRow "x") (keyShowingRow "y") ∧
    run .absent (keyShowing, givingBack (keyShowingRow "x")) = (.ok (), keyShowingRun "x") ∧
    run .absent (keyShowing, givingBack (keyShowingRow "y")) = (.ok (), keyShowingRun "y") ∧
    (keyShowingRun "x").1.data (keyShowingRun "x").2.records {} =
      .ok [.pairs [(.text Record.rowKeyName, .map [("id", .text "x")])]] ∧
    (keyShowingRun "y").1.data (keyShowingRun "y").2.records {} =
      .ok [.pairs [(.text Record.rowKeyName, .map [("id", .text "y")])]] := by
  refine ⟨fun e he hpublic ↦ ?_, rfl, rfl, rfl, rfl⟩
  obtain rfl | rfl := List.mem_pair.mp he
  · rfl
  · exact absurd hpublic (by decide)

end Query

end Rowmap
