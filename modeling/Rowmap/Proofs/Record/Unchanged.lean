import Rowmap.Proofs.Record.Dirty

/-!
# What operations leave of a record

Loading, saving and deleting a record ask the database first and change the record last, by what was
given back once the connection is out of use. So whatever fails before that leaves the record as it
was. `Ending` lists how an operation can end, with what became of the record; what may still fail
then is taking over a row.

Taking over a row fails for want of a part of the primary key, which a row with all columns has, or
because a field stands where the record keeps the key of its row.
-/

namespace Rowmap

/-- The rows that a statement gave back. -/
def Event.rows : Event → List Row
  | .called (.exec ..) (some outcome) => Outcome.rows outcome
  | _ => []

/-- What happened since an earlier moment of a session. -/
def Session.since {σ : Type} (s s' : Session σ) : List Event := s'.events.drop s.events.length

theorem Session.mem_since {σ : Type} {s s₁ s₂ s' : Session σ} {e : Event}
    (hbefore : s.events <+: s₁.events) (he : e ∈ s₁.since s₂) (hafter : s₂.events <+: s'.events) :
    e ∈ s.since s' := by
  obtain ⟨more, hmore⟩ := hafter
  rw [since, ← hmore, List.drop_append]
  exact List.mem_append_left _ (List.drop_subset_drop_left s₂.events hbefore.length_le he)

/-- Between two moments of a session, statements gave back some rows, one after the other. -/
def Session.Gives {σ : Type} (s : Session σ) (rows : List Row) (s' : Session σ) : Prop :=
  ∃ added, s'.events = s.events ++ added ∧ added.flatMap Event.rows = rows

namespace Session.Gives

variable {τ σ α : Type} {s s₁ s' : Session σ} {rows more : List Row}

theorem refl (s : Session σ) : s.Gives [] s := ⟨[], (List.append_nil _).symm, rfl⟩

theorem trans (h : s.Gives rows s₁) (h' : s₁.Gives more s') : s.Gives (rows ++ more) s' := by
  obtain ⟨added, hadded, rfl⟩ := h
  obtain ⟨added', hadded', rfl⟩ := h'
  exact ⟨added ++ added', by rw [hadded', hadded, List.append_assoc], List.flatMap_append⟩

theorem isPrefix (h : s.Gives rows s') : s.events <+: s'.events := by
  obtain ⟨added, hadded, -⟩ := h
  exact ⟨added, hadded.symm⟩

theorem flatMap_since (h : s.Gives rows s') : (s.since s').flatMap Event.rows = rows := by
  obtain ⟨added, hadded, rfl⟩ := h
  rw [since, hadded, List.drop_left]

/-- Nothing is given back where no statement is sent. -/
theorem of_onlySends {session : τ → Session σ} {x : Change τ α} {u u' : τ}
    {y : Except Failure α} (hx : Change.OnlySends session (fun _ ↦ False) x u)
    (h : x u = (y, u')) : (session u).Gives [] (session u') := by
  obtain ⟨added, hadded, hnone⟩ := hx
  rw [h] at hadded
  refine ⟨added, hadded, List.flatMap_eq_nil_iff.mpr fun e he ↦ ?_⟩
  have hsilent : e.statement? = none := Option.eq_none_iff_forall_ne_some.mpr fun st hst ↦
    hnone st (List.mem_filterMap.mpr ⟨e, he, hst⟩)
  match e with
  | .called (.exec ..) reply => exact nomatch hsilent
  | .entered _ | .streamClosed _ => rfl
  | .called (.connect _) reply | .called (.dispose _) reply | .called (.inTransaction _) reply
  | .called (.begin _) reply | .called (.commit _) reply | .called (.rollback _) reply
  | .called (.invalidate _) reply | .called (.close _) reply | .called (.driver _) reply
  | .called (.driverClosed _) reply | .called (.driverInTransaction _) reply
  | .called (.startTransaction _) reply | .called (.commitTransaction _) reply
  | .called (.rollbackTransaction _) reply | .called (.openCursor ..) reply
  | .called (.fetch ..) reply | .called (.driverExecute ..) reply => rfl

end Session.Gives

/-- A row with a value in the column of every field. -/
def RecordType.IsCarriedBy (t : RecordType) (row : Row) : Prop :=
  ∀ e ∈ t.table.fields, ∃ v, row.lookup (e.2.column e.1) = some v ∧ v ≠ .unset

/-! ## What a use of a connection gives back -/

theorem Table.mem_keys_of_declares {α : Type} {t : Table α} {key : String}
    (h : t.declares key = true) : key ∈ t.keys := by
  by_contra hmem
  rw [declares, field?, List.lookup_eq_none_iff.mpr] at h
  · simp at h
  · intro e he
    rw [bne_iff_ne]
    rintro rfl
    exact hmem (List.mem_map_of_mem he)

theorem Except.mapError_eq_ok {ε ε' α : Type} {x : Except ε α} {f : ε → ε'} {a : α} :
    x.mapError f = .ok a ↔ x = .ok a := by
  cases x <;> simp [Except.mapError]

namespace App

open Change

variable {σ α : Type} [Backend σ] {s s' : Session σ}

/-- **What a use of a connection gives back** is what was done with the connection. -/
theorem of_checkout {conn : Option Connection} {pool : Option Pool} {destroy : Bool}
    {body : Connection → App σ α} {a : α}
    (h : checkout conn pool destroy body s = (.ok a, s')) :
    ∃ c s₁ s₂, body c s₁ = (.ok a, s₂) ∧ s.Gives [] s₁ ∧ s₂.Gives [] s' := by
  have hrecast {x : App σ α} {t t' : Session σ} (hx : recast x t = (.ok a, t')) :
      x t = (.ok a, t') := by
    obtain ⟨hresult, hstate⟩ := Prod.mk.inj hx
    exact Prod.ext (Except.mapError_eq_ok.mp hresult) hstate
  cases conn with
  | some c => exact ⟨c, s, s', hrecast h, .refl s, .refl s'⟩
  | none =>
    obtain ⟨p, s₁, hpool, h⟩ := bind_eq_ok.mp h
    obtain ⟨c, s₂, hconnect, h⟩ := bind_eq_ok.mp h
    obtain ⟨r, s₃, huse, h⟩ := bind_eq_ok.mp h
    obtain ⟨⟨⟩, s₄, hrelease, h⟩ := bind_eq_ok.mp h
    obtain ⟨rfl, rfl⟩ := Prod.mk.inj h
    have hused : recast (committed c body) s₂ = (.ok a, s₃) := by
      obtain ⟨hresult, hstate⟩ := Prod.mk.inj huse
      exact Prod.ext (Except.ok.inj hresult) hstate
    obtain ⟨a', s₅, hbody, h⟩ := bind_eq_ok.mp (hrecast hused)
    obtain ⟨open_, s₆, hopen, h⟩ := bind_eq_ok.mp h
    have hcommit : a' = a ∧ s₅.Gives [] s₃ := by
      have hlook := Session.Gives.of_onlySends (onlySends_silent fun _ ↦ rfl) hopen
      cases open_ with
      | false =>
        obtain ⟨ha, rfl⟩ := Prod.mk.inj h
        exact ⟨Except.ok.inj ha, hlook⟩
      | true =>
        obtain ⟨⟨⟩, s₇, hcommit, h⟩ := bind_eq_ok.mp h
        obtain ⟨ha, rfl⟩ := Prod.mk.inj h
        exact ⟨Except.ok.inj ha,
          hlook.trans (.of_onlySends (onlySends_silent fun _ ↦ rfl) hcommit)⟩
    obtain ⟨rfl, hcommitted⟩ := hcommit
    refine ⟨c, s₂, s₅, hbody, ?_, hcommitted.trans ?_⟩
    · exact (Session.Gives.of_onlySends (onlySends_poolOrDefault _ pool s) hpool).trans
        (.of_onlySends (onlySends_usableConnection _ p _ s₁) hconnect)
    · exact .of_onlySends (onlySends_release _ c _ s₃) hrelease

end App

namespace Record

open Change

variable {σ : Type} [Backend σ] {s s' : Session σ} {t : RecordType} {r r' : Record}

/-- What a record is given back was given back by a statement. -/
theorem of_send {statement : Statement} {outcome : Outcome}
    (h : (r.send statement : App σ Outcome) s = (.ok outcome, s')) :
    ∃ e ∈ s.since s', e.rows = outcome.rows := by
  obtain ⟨c, s₁, s₂, hexec, hbefore, hafter⟩ := App.of_checkout h
  obtain ⟨⟨⟩, s₃, htell, hcall⟩ := bind_eq_ok.mp hexec
  obtain ⟨-, rfl⟩ := Prod.mk.inj htell
  obtain ⟨hreply, rfl⟩ := Prod.mk.inj hcall
  refine ⟨.called (.exec c statement.text statement.values) (some outcome),
    Session.mem_since hbefore.isPrefix ?_ hafter.isPrefix, rfl⟩
  rw [Session.since, hreply, List.drop_left]
  exact List.mem_singleton_self _

/-! ## Operations -/

/-- What is done to a record with its row. -/
inductive Operation where
  | load (fields : Option Value)
  | save (skipReload ignoreConflict : Bool)
  | delete

namespace Operation

def run : Operation → On Record σ Bool
  | .load fields => Record.load fields
  | .save skipReload ignoreConflict => Record.save skipReload ignoreConflict
  | .delete => Record.delete

def selects : Operation → Bool
  | .load _ => true
  | .save skipReload _ => !skipReload
  | .delete => false

/-- How an operation ends: with what result, and with what became of the record, where `events` is
what happened in between. -/
inductive Ending (op : Operation) (r : Record) (events : List Event) :
    Except Failure Bool → Record → Prop where
  | failed (e : Failure) : Ending op r events (.error e) r
  | nothing : Ending op r events (.ok false) r
  | several {fields : Option Value} (hop : op = .load fields) {e : Event} (he : e ∈ events)
      (hrows : 1 < e.rows.length) : Ending op r events (.ok false)
        { r with warnings := r.warnings ++ [LogEvent.severalMatchesWarning r.type.name] }
  | took (hop : op.selects = true) {e : Event} (he : e ∈ events) {row : Row}
      (hrow : row ∈ e.rows) :
      Ending op r events ((loadRow row r).1.map fun _ ↦ true) (loadRow row r).2
  | written : Ending op r events (.ok true) r
  | removed : Ending op r events (.ok true) r.unmatched

variable {op : Operation} {x : Except Failure Bool}

omit [Backend σ] in
/-- An operation with nothing left to do ends as it stands. -/
theorem ending_of_eq {y : Except Failure Bool} {r₁ : Record} {s₁ : Session σ}
    (h : (y, r₁, s₁) = (x, r', s')) (hend : op.Ending r (s.since s₁) y r₁) :
    op.Ending r (s.since s') x r' := by
  obtain ⟨rfl, hstate⟩ := Prod.mk.inj h
  obtain ⟨rfl, rfl⟩ := Prod.mk.inj hstate
  exact hend

omit [Backend σ] in
/-- What goes on beside a record leaves it as it is, also where it fails. -/
theorem ending_beside {α : Type} {y : App σ α} {f : α → On Record σ Bool} {events : List Event}
    (h : (On.beside y >>= f) (r, s) = (x, r', s'))
    (hf : ∀ a s₁, y s = (.ok a, s₁) → f a (r, s₁) = (x, r', s') → op.Ending r events x r') :
    op.Ending r events x r' := by
  rw [bind_apply, On.beside, onSecond_apply] at h
  cases hrun : y s with
  | mk z s₁ =>
    rw [hrun] at h
    cases z with
    | error e =>
      obtain ⟨rfl, hstate⟩ := Prod.mk.inj h
      obtain ⟨rfl, -⟩ := Prod.mk.inj hstate
      exact .failed e
    | ok a => exact hf a s₁ hrun h

omit [Backend σ] in
/-- The row that is taken over was given back before. -/
theorem ending_took {row : Row} {s₁ : Session σ} (hop : op.selects = true) {e : Event}
    (he : e ∈ s.since s₁) (hrow : row ∈ e.rows)
    (h : (do On.own (loadRow row); .ok true : On Record σ Bool) (r, s₁) = (x, r', s')) :
    op.Ending r (s.since s') x r' := by
  rw [bind_apply, On.own, onFirst_apply] at h
  have htook : op.Ending r (s.since s₁) ((loadRow row r).1.map fun _ ↦ true) (loadRow row r).2 :=
    .took hop he hrow
  cases hrun : loadRow row r with
  | mk y r₁ =>
    rw [hrun] at h htook
    cases y <;> exact ending_of_eq h htook

omit [Backend σ] in
theorem ending_takeMatches {asked : Option Value} {fields : Value} {s₁ : Session σ} {e : Event}
    (he : e ∈ s.since s₁) (h : takeMatches fields e.rows (r, s₁) = (x, r', s')) :
    (load asked).Ending r (s.since s') x r' := by
  match hrows : e.rows with
  | [] =>
    rw [hrows] at h
    exact ending_of_eq h .nothing
  | [row] =>
    rw [hrows] at h
    exact ending_took rfl he (hrows ▸ List.mem_singleton_self row) h
  | row :: other :: rows =>
    rw [hrows] at h
    exact ending_of_eq h (.several rfl he (by rw [hrows]; exact Nat.one_lt_succ_succ _))

omit [Backend σ] in
theorem ending_takeWritten {skipReload ignoreConflict : Bool} {s₁ : Session σ} {e : Event}
    (he : e ∈ s.since s₁) (h : takeWritten skipReload e.rows (r, s₁) = (x, r', s')) :
    (save skipReload ignoreConflict).Ending r (s.since s') x r' := by
  cases skipReload with
  | true =>
    exact ending_of_eq h .written
  | false =>
    match hrows : e.rows with
    | [] =>
      rw [hrows] at h
      exact ending_of_eq h .nothing
    | row :: rows =>
      rw [hrows] at h
      exact ending_took rfl he (hrows ▸ List.mem_cons_self) h

/-- **How an operation ends**, whatever the database did. -/
theorem ending_run (op : Operation) (h : op.run (r, s) = (x, r', s')) :
    op.Ending r (s.since s') x r' := by
  have hrefresh (v : Value) : App.refresh v s = ((App.refresh v s).1, s) := rfl
  have hrefreshed : r.refreshed s = ((r.refreshed s).1, s) := Prod.ext rfl (r.keeps_refreshed s)
  cases op with
  | load asked =>
    rw [run, Record.load, On.object, gets_bind] at h
    refine ending_beside h fun fields s₁ hrun h ↦ ?_
    obtain ⟨-, rfl⟩ := Prod.mk.inj ((hrefresh _).symm.trans hrun)
    split at h
    · exact ending_of_eq h .nothing
    · refine ending_beside h fun statement s₂ hlogged h ↦ ?_
      obtain ⟨-, rfl⟩ := Prod.mk.inj hlogged
      refine ending_beside h fun outcome s₃ hsend h ↦ ?_
      obtain ⟨e, he, hrows⟩ := of_send hsend
      exact ending_takeMatches he (hrows ▸ h)
  | save skipReload ignoreConflict =>
    rw [run, Record.save, On.object, gets_bind] at h
    refine ending_beside h fun now s₁ hrun h ↦ ?_
    obtain ⟨-, rfl⟩ := Prod.mk.inj (hrefreshed.symm.trans hrun)
    refine ending_beside h fun found s₂ hlogged h ↦ ?_
    obtain ⟨-, rfl⟩ := Prod.mk.inj hlogged
    cases found with
    | none =>
      exact ending_of_eq h .nothing
    | some statement =>
      refine ending_beside h fun outcome s₃ hsend h ↦ ?_
      obtain ⟨e, he, hrows⟩ := of_send hsend
      exact ending_takeWritten he (hrows ▸ h)
  | delete =>
    rw [run, Record.delete, On.object, gets_bind] at h
    refine ending_beside h fun now s₁ hrun h ↦ ?_
    obtain ⟨-, rfl⟩ := Prod.mk.inj (hrefreshed.symm.trans hrun)
    refine ending_beside h fun statement s₂ hlogged h ↦ ?_
    refine ending_beside h fun outcome s₃ hsend h ↦ ?_
    split at h
    · exact ending_of_eq h .removed
    · exact ending_of_eq h .nothing

end Operation

/-! ## Taking over a row -/

/-- A run of puts gives each of its fields a value, and none of them loses one. -/
theorem mem_setKeys_foldl {f : Record → String × Field → Record} {fields : List (String × Field)}
    {key : String} (hputs : ∀ r, ∀ e ∈ fields, ∃ v, f r e = r.put e.1 v) {r : Record}
    (h : key ∈ r.setKeys ∨ key ∈ fields.map (·.1)) : key ∈ (fields.foldl f r).setKeys := by
  induction fields generalizing r with
  | nil => exact h.resolve_right List.not_mem_nil
  | cons e fields ih =>
    rw [List.map_cons, List.mem_cons] at h
    obtain ⟨v, hv⟩ := hputs r e List.mem_cons_self
    rw [List.foldl_cons]
    refine ih (fun r e he ↦ hputs r e (List.mem_cons_of_mem _ he)) ?_
    rw [hv, mem_setKeys_put]
    tauto

theorem isSet_takeRow {row : Row} (hrow : r.type.IsCarriedBy row) {key : String}
    (hkey : r.type.declares key = true) : (r.takeRow row).isSet key = true := by
  have hmem : key ∈ r.type.table.keys := Table.mem_keys_of_declares hkey
  rw [isSet, List.contains_iff_mem, takeRow]
  rw [RecordType.IsCarriedBy] at hrow
  refine mem_setKeys_foldl (fun r e he ↦ ?_) (.inr hmem)
  obtain ⟨v, hv, hset⟩ := hrow e he
  obtain ⟨name, field⟩ := e
  refine ⟨v, ?_⟩
  dsimp only at hv ⊢
  split
  · rename_i hnone
    simp [hv] at hnone
  · rename_i hunset
    exact absurd (Option.some.inj (hv.symm.trans hunset)) hset
  · rename_i w _ hw
    rw [Option.some.inj (hv.symm.trans hw)]

theorem loadRow_of_carried (ht : r.type.KeepsState)
    (hkeys : ∀ key ∈ r.type.table.primaryKey, ∃ name, key.asText? = some name ∧
      r.type.declares name = true) {row : Row} (hrow : r.type.IsCarriedBy row) :
    (loadRow row r).1 = .ok () := by
  have htype : (r.takeRow row).type = r.type := (puts_takeRow rfl row).type
  have hmissing : (r.takeRow row).missingKey? = none := by
    rw [missingKey?, List.find?_eq_none]
    intro key hkey
    obtain ⟨name, hname, hdeclared⟩ := hkeys key (htype ▸ hkey)
    rw [isPartSet, hname, Option.any_some, isSet_takeRow hrow hdeclared]
    exact Bool.false_ne_true
  have hloaded : (r.takeRow row).setLoaded true false = (r.takeRow row).matched := by
    rw [setLoaded, hmissing]
    rfl
  simp only [loadRow, bind_apply, modify_apply, get_apply, ofExcept_apply, hloaded,
    matched_eq ht htype, set_apply]

/-- **Whatever goes wrong leaves a record as it was.** -/
theorem unchanged_unless_done (op : Operation) {x : Except Failure Bool}
    (hrun : op.run (r, s) = (x, r', s')) (hx : x ≠ .ok true)
    (hkeys : ∀ key ∈ r.type.table.primaryKey, ∃ name, key.asText? = some name ∧
      r.type.declares name = true)
    (hrows : op.selects = true → ∀ e ∈ s.since s', ∀ row ∈ e.rows, r.type.IsCarriedBy row) :
    r' = r ∨
      (x = .ok false ∧ (∃ fields, op = .load fields) ∧ (∃ e ∈ s.since s', 1 < e.rows.length) ∧
        r' = { r with
          warnings := r.warnings ++ [LogEvent.severalMatchesWarning r.type.name] }) ∨
      (¬ r.type.KeepsState ∧ ∃ e ∈ s.since s', ∃ row ∈ e.rows, ∃ failure,
        loadRow row r = (.error failure, r') ∧ x = .error failure) := by
  cases op.ending_run hrun with
  | failed e => exact .inl rfl
  | nothing => exact .inl rfl
  | several hop he hlen => exact .inr (.inl ⟨rfl, ⟨_, hop⟩, ⟨_, he, hlen⟩, rfl⟩)
  | took hop he hrow =>
    rename_i e row
    cases hload : (loadRow row r).1 with
    | ok _ =>
      rw [hload] at hx
      exact absurd rfl hx
    | error failure =>
      refine .inr (.inr ⟨fun ht ↦ ?_, e, he, row, hrow, failure, Prod.ext hload rfl, rfl⟩)
      have hloaded := loadRow_of_carried ht hkeys (hrows hop e he row hrow)
      rw [hload] at hloaded
      simp at hloaded
  | written => exact absurd rfl hx
  | removed => exact absurd rfl hx

def letterRow : Row := [("a", .int 1), ("b", .text "x")]

def cancelled : Failure := .raised { kind := .cancelled, message := "", graph := [], node := 0 }

/-- A session with a connection on which an update succeeds and its commit is cancelled. -/
def uncommitting : Session Scripted where
  db := {
    connections := [("c", {
      results := [.ok ⟨[letterRow], .int 1, true, .null⟩]
      failures := [("commit", cancelled)] })]
    pools := [("p", [⟨"c"⟩])] }

/-- A letter of a pool, which was loaded and given another text since. -/
def uncommitted : Record := { letter with pool := some ⟨"p"⟩ }

/-- What came of saving the letter in that session. -/
def uncommittedSave : Except Failure Bool × Record × Session Scripted :=
  (Operation.save false false).run (uncommitted, uncommitting)

theorem unchanged_unless_done_uncommitted :
    uncommittedSave.1 = .error cancelled ∧
    (uncommitting.since uncommittedSave.2.2).flatMap Event.rows = [letterRow] ∧
    uncommittedSave.2.1 = uncommitted := by
  have hfailed : uncommittedSave.1 = .error cancelled := rfl
  have hgiven : (uncommitting.since uncommittedSave.2.2).flatMap Event.rows = [letterRow] := rfl
  have hkeys : ∀ key ∈ uncommitted.type.table.primaryKey, ∃ name, key.asText? = some name ∧
      uncommitted.type.declares name = true := by
    intro key hkey
    obtain rfl := List.mem_singleton.mp hkey
    exact ⟨"b", rfl, rfl⟩
  have hrows : ∀ e ∈ uncommitting.since uncommittedSave.2.2, ∀ row ∈ e.rows,
      uncommitted.type.IsCarriedBy row := by
    intro e he row hrow
    have hmem := List.mem_flatMap.mpr ⟨e, he, hrow⟩
    rw [hgiven, List.mem_singleton] at hmem
    subst hmem
    intro field hfield
    obtain rfl | rfl := List.mem_pair.mp hfield
    · exact ⟨.int 1, rfl, nofun⟩
    · exact ⟨.text "x", rfl, nofun⟩
  refine ⟨hfailed, hgiven, ?_⟩
  obtain h | ⟨hfalse, -⟩ | ⟨hkeeps, -⟩ :=
    unchanged_unless_done (.save false false) (x := uncommittedSave.1) rfl
      (by rw [hfailed]; exact nofun) hkeys fun _ ↦ hrows
  · exact h
  · rw [hfailed] at hfalse
    exact nomatch hfalse
  · exact absurd ⟨rfl, rfl⟩ hkeeps

/-- A session with a connection that gives back a text for a field in the place of the key of the
row. -/
def textGiving : Session Scripted where
  db := { connections := [("c", {
    results := [.ok ⟨[[(rowKeyName, .text "x"), ("id", .text "y")]], .int 1, true, .null⟩] })] }

/-- **A field in the place of the key of the row** has been given a value when loading fails. -/
theorem load_of_keyHolder :
    Record.make keyHolder (.connection ⟨"c"⟩) .null [] =
      .ok (empty keyHolder (some ⟨"c"⟩) none) ∧
    (empty keyHolder (some ⟨"c"⟩) none).values = [(rowKeyName, .map [])] ∧
    ∃ failed : Record, ∃ s : Session Scripted,
      (Operation.load (some (.map [("id", .text "y")]))).run
        (empty keyHolder (some ⟨"c"⟩) none, textGiving) = (.error (.wrongType none), failed, s) ∧
      (textGiving.since s).flatMap Event.rows = [[(rowKeyName, .text "x"), ("id", .text "y")]] ∧
      failed.values = [(rowKeyName, .text "x"), ("id", .text "y")] :=
  ⟨rfl, rfl, _, _, rfl, rfl, rfl⟩

end Record

end Rowmap
