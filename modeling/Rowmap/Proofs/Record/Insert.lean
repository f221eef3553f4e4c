import Rowmap.Proofs.Record.Unchanged

/-!
# Insertions of rows

The statement that saves a record which matches no row, in full: the columns of the fields that were
given a value or have a default, with what is assigned to them. Such a record has no clean copy to
compare with, so the fields that count as dirty are those with a value.

`Reached` holds of the records that come of a construction and any steps and operations, whatever
failed on the way. Nothing is asked of their types: where a field stands in the place of the state
of a record, the record is still consistent.
-/

namespace Rowmap

theorem Value.keys_refreshEntries {current : Nat → Option (Except Failure Value)}
    {es es' : List (String × Value)} (h : Value.refreshEntries current es = .ok es') :
    es'.map (·.1) = es.map (·.1) := by
  induction es generalizing es' with
  | nil =>
    obtain rfl := Except.ok.inj h
    rfl
  | cons e es ih =>
    obtain ⟨key, v⟩ := e
    rw [Value.refreshEntries] at h
    obtain ⟨v', -, h⟩ := Except.bind_eq_ok.mp h
    obtain ⟨rest, hrest, h⟩ := Except.bind_eq_ok.mp h
    obtain rfl := Except.ok.inj h
    rw [List.map_cons, List.map_cons, ih hrest]

namespace Record

variable {t : RecordType} {r r' : Record}

/-! ## Reached records -/

/-- The records that are made, and changed by steps, by operations and by other connections, all of
which may fail. -/
inductive Reached (t : RecordType) : Record → Prop where
  | make {source : Source} {values : Value} {further : Entries} {r : Record}
      (h : Record.make t source values further = .ok r) : Reached t r
  | step {r : Record} (before : Reached t r) (step : Step) : Reached t (step.take r).2
  | operate {σ : Type} [Backend σ] {r : Record} (before : Reached t r) (op : Operation)
      (s : Session σ) : Reached t (op.run (r, s)).2.1
  | setConnection {σ : Type} [Backend σ] {r : Record} (before : Reached t r)
      (conn : Option Connection) (releaseOld : Bool) (s : Session σ) :
      Reached t (Record.setConnection conn releaseOld (r, s)).2.1
  | setPool {σ : Type} [Backend σ] {r : Record} (before : Reached t r) (pool : Option Pool)
      (releaseOld : Bool) (s : Session σ) : Reached t (Record.setPool pool releaseOld (r, s)).2.1

theorem Consistent.of_ending {op : Operation} {events : List Event} {x : Except Failure Bool}
    (h : Consistent t r) (hending : op.Ending r events x r') : Consistent t r' := by
  cases hending with
  | failed e => exact h
  | nothing => exact h
  | several _ _ _ => exact ⟨h.type, h.sets, h.declared, h.clean⟩
  | took _ _ _ => exact h.of_outcome (Step.outcome_take h.type (.load _) none)
  | written => exact h
  | removed => exact h.unmatched

section

variable {σ : Type} [Backend σ]

/-- Another connection leaves everything else of a record as it is. -/
theorem setConnection_eq (conn : Option Connection) (releaseOld : Bool) (s : Session σ) :
    (setConnection conn releaseOld (r, s)).2.1 = { r with conn } := by
  rw [setConnection, On.object, Change.gets_bind, Change.bind_apply, On.own, Change.onFirst_apply,
    Change.modify_apply]
  dsimp only
  cases r.conn with
  | none => rfl
  | some c =>
    dsimp only
    split <;> rfl

theorem setPool_eq (pool : Option Pool) (releaseOld : Bool) (s : Session σ) :
    (setPool pool releaseOld (r, s)).2.1 = { r with pool, conn := none } := by
  rw [setPool, Change.bind_apply, On.own, Change.onFirst_apply, Change.modify_apply]
  exact setConnection_eq none releaseOld s

end

/-- **Reached records are consistent**, whatever failed on the way. -/
theorem Reached.consistent (h : Reached t r) : Consistent t r := by
  induction h with
  | make h => exact consistent_make h
  | step _ step ih => exact ih.of_outcome (Step.outcome_take ih.type step none)
  | operate _ op s ih => exact ih.of_ending (op.ending_run rfl)
  | setConnection _ conn releaseOld s ih =>
    rw [setConnection_eq]
    exact ⟨ih.type, ih.sets, ih.declared, ih.clean⟩
  | setPool _ pool releaseOld s ih =>
    rw [setPool_eq]
    exact ⟨ih.type, ih.sets, ih.declared, ih.clean⟩

/-! ## Inserted fields -/

/-- The fields that an insertion writes, in declaration order. -/
def insertedKeys (r : Record) : List String :=
  r.type.keys.filter fun key ↦ r.isSet key || !(r.type.default key).isNull

/-- What an insertion writes for a field: its value, or its default if it was never given one. -/
def insertedValue (r : Record) (values : Entries) (key : String) : Value :=
  if r.isSet key then values.valueAt key else r.type.default key

/-- The statement that inserts the row of a record, with its values up to date. -/
def InsertsRow (r : Record) (values : Entries) (skipReload ignoreConflict : Bool) (st : Statement) :
    Prop :=
  ∃ table assigned, Sql.quoteName r.type.table.name = .ok table ∧
    Assigned r.type 0 (Entries.graph (r.insertedValue values) r.insertedKeys) assigned st.values ∧
    st.text = "INSERT INTO " ++ table ++
      (if r.insertedKeys = [] then " DEFAULT VALUES"
        else " (" ++ ", ".intercalate (r.insertedKeys.map fun key ↦
          Sql.quoteIdentifier (r.type.columnOf key)) ++ ") VALUES (" ++
            ", ".intercalate (assigned.map (·.sql)) ++ ")") ++
      (if ignoreConflict then " ON CONFLICT DO NOTHING" else "") ++ returning r.type skipReload

/-- What a field contributes to an insertion, when none was set to unset. -/
theorem contribution_of_unloaded (h : Consistent t r) (hloaded : r.loaded = false)
    (hunset : ∀ key, r.values.lookup key ≠ some .unset) {key : String}
    (hkey : r.type.declares key = true) :
    r.contribution { includeDefaults := true, includePrivate := true, onlyDirty := true } key =
      .ok (if r.isSet key || !(r.type.default key).isNull then
        some (r.insertedValue r.values key) else none) := by
  have hset : r.isSet key = (r.values.lookup key).isSome :=
    Bool.eq_iff_iff.mpr (isSet_iff h key)
  have hdirty : r.isFieldDirty key = (r.values.lookup key).isSome := by
    rw [Bool.eq_iff_iff, isFieldDirty_of_unloaded h hloaded, Entries.valueOrUnset]
    cases hlookup : r.values.lookup key with
    | none => simp
    | some v => simpa [hlookup] using hunset key
  have hget : r.get key = .ok (r.values.valueAt key) := by rw [get, if_pos hkey]
  rw [contribution, hdirty, insertedValue, hset, hget]
  cases hlookup : r.values.lookup key with
  | none => cases hnull : (r.type.default key).isNull <;> rfl
  | some v => cases hnull : (r.type.default key).isNull <;> rfl

/-! ## The statement -/

/-- **The statement of an insertion**, for a record as it is now. -/
theorem additionStatement_eq (h : Consistent t r) (hloaded : r.loaded = false)
    (hkeys : t.keys.Nodup) (htable : ∃ table, Sql.quoteName t.table.name = .ok table)
    (hunset : ∀ key, r.values.lookup key ≠ some .unset)
    (hassign : ∀ key ∈ r.insertedKeys, CanAssign (r.insertedValue r.values key))
    (skipReload ignoreConflict : Bool) :
    ∃ st, r.additionStatement skipReload ignoreConflict = .ok st ∧
      InsertsRow r r.values skipReload ignoreConflict st := by
  obtain rfl := h.type
  obtain ⟨table, htable⟩ := htable
  obtain ⟨ps, assigned, bound, hdata, hassignments, hassigned⟩ := exists_assignments rfl rfl hkeys
    (fun key hkey ↦ contribution_of_unloaded h hloaded hunset (Table.declares_of_mem_keys hkey))
    hassign
  rw [← insertedKeys] at hassigned
  refine ⟨insertStatement r.type table assigned bound skipReload ignoreConflict, ?_, table,
    assigned, htable, hassigned, ?_⟩
  · rw [additionStatement, hdata]
    show (do
      let written ← .ofExcept (assignments r.type ps)
      let table ← tableName r.type
      .ok (insertStatement r.type table written.1 written.2 skipReload ignoreConflict) :
        Logged Statement) = _
    rw [hassignments, tableName, htable]
    rfl
  · have hcolumns : assigned.map (·.column) =
        r.insertedKeys.map fun key ↦ Sql.quoteIdentifier (r.type.columnOf key) := by
      rw [hassigned.columns_eq, Entries.graph, List.map_map]
      rfl
    simp only [insertStatement, hcolumns, hassigned.isEmpty_iff]

/-! ## Placeholders -/

theorem Assigned.numbers {n : Nat} {es : Entries} {assigned : List Assignment}
    {bound : List Value} (h : Assigned t n es assigned bound)
    (hinlined : ∀ e ∈ es, ∀ text, inlineAssigned? e.2 = some (.ok text) → Sql.numbers text = []) :
    (assigned.map (·.sql)).flatMap Sql.numbers = List.range' (n + 1) bound.length := by
  induction h with
  | nil => rfl
  | inlined h _ ih =>
    rw [List.forall_mem_cons] at hinlined
    rw [List.map_cons, List.flatMap_cons, hinlined.1 _ h, ih hinlined.2]
    rfl
  | bound _ _ ih =>
    rw [List.forall_mem_cons] at hinlined
    rw [List.map_cons, List.flatMap_cons, ih hinlined.2, ← Int.natCast_succ,
      Sql.numbers_placeholder, List.length_cons, List.range'_succ]
    rfl

/-- **The placeholders of an insertion** run from one, with as many values. -/
theorem InsertsRow.numbers (ht : r.type.table.Plain) {values : Entries}
    {skipReload ignoreConflict : Bool} {st : Statement}
    (h : InsertsRow r values skipReload ignoreConflict st)
    (hinlined : ∀ key ∈ r.insertedKeys, ∀ text,
      inlineAssigned? (r.insertedValue values key) = some (.ok text) → Sql.numbers text = []) :
    Sql.numbers st.text = List.range' 1 st.values.length := by
  obtain ⟨table, assigned, htable, hassigned, htext⟩ := h
  have hvalues : Sql.Separates ") VALUES (" := .of_toList rfl (by decide) (by decide)
  have hinsert : Sql.Opens "INSERT INTO " := Sql.opens_of_no_dollar (by decide)
  have hdefaults : Sql.Closes " DEFAULT VALUES" :=
    Sql.closes_of_start (Sql.numbers_of_no_dollar (by decide)) (by decide)
  have hconflict : Sql.Closes (if ignoreConflict then " ON CONFLICT DO NOTHING" else "") := by
    cases ignoreConflict with
    | true => exact Sql.closes_of_start (Sql.numbers_of_no_dollar (by decide)) (by decide)
    | false => exact Sql.closes_empty
  have hstart : Sql.numbers ("INSERT INTO " ++ table) = [] :=
    (hinsert table).trans (ht.of_quoteName htable)
  have hcolumns : Sql.numbers (", ".intercalate (r.insertedKeys.map fun key ↦
      Sql.quoteIdentifier (r.type.columnOf key))) = [] := by
    rw [Sql.Separates.comma.numbers_intercalate, List.flatMap_map, List.flatMap_eq_nil_iff]
    exact fun key _ ↦ numbers_columnOf ht key
  have hnumbers := hassigned.numbers fun e he text hinline ↦ by
    obtain ⟨key, hkey, rfl⟩ := List.mem_map.mp he
    exact hinlined key hkey text hinline
  rw [htext, closes_returning ht, hconflict]
  split
  · rename_i hnone
    rw [hnone] at hassigned
    have hbound : st.values = [] := by
      generalize st.values = bound at hassigned
      cases hassigned
      rfl
    rw [hdefaults, hstart, hbound]
    rfl
  · generalize "INSERT INTO " ++ table = start at hstart ⊢
    rw [String.append_assoc, String.append_assoc, String.append_assoc,
      Sql.Separates.opening.numbers_between, hstart, hvalues.numbers_between, hcolumns,
      Sql.closes_parenthesis, Sql.Separates.comma.numbers_intercalate, hnumbers]
    rfl

/-! ## Saving -/

variable {σ : Type} {s : Session σ}

theorem Consistent.of_refreshed (h : Consistent t r) (hr : (r.refreshed s).1 = .ok r') :
    Consistent t r' := by
  obtain ⟨-, hvalues, hr'⟩ := Record.of_refreshed hr
  have hkeys : r'.values.keys = r.values.keys := Value.keys_refreshEntries hvalues
  rw [hr']
  exact h.of_values hkeys _

/-- **Saving a record that matches no row** sends one statement, which inserts the fields that were
given a value or have a default. -/
theorem save_of_unloaded [Backend σ] (h : Reached t r) (hloaded : r.loaded = false)
    (hkeys : t.keys.Nodup) (htable : ∃ table, Sql.quoteName t.table.name = .ok table)
    (hr : (r.refreshed s).1 = .ok r') (hunset : ∀ key, r'.values.lookup key ≠ some .unset)
    (hassign : ∀ key ∈ r.insertedKeys, CanAssign (r.insertedValue r'.values key))
    (hconn : App.HasConnection r.conn r.pool s) (skipReload ignoreConflict : Bool) :
    ∃ st, InsertsRow r r'.values skipReload ignoreConflict st ∧
      (t.table.Plain → (∀ key ∈ r.insertedKeys, ∀ text,
        inlineAssigned? (r.insertedValue r'.values key) = some (.ok text) →
          Sql.numbers text = []) →
        Sql.numbers st.text = List.range' 1 st.values.length) ∧
      Change.Sends (fun u : Record × Session σ ↦ u.2) [st] (save skipReload ignoreConflict)
        (r, s) := by
  have hconsistent := h.consistent.of_refreshed hr
  obtain ⟨hrun, -, hr'⟩ := of_refreshed hr
  have hsame : r'.loaded = r.loaded ∧ r'.insertedKeys = r.insertedKeys ∧
      r'.insertedValue = r.insertedValue ∧ r'.conn = r.conn ∧ r'.pool = r.pool := by
    rw [hr']
    exact ⟨rfl, rfl, rfl, rfl, rfl⟩
  obtain ⟨hloaded', hkeys', hvalue, hconn', hpool⟩ := hsame
  obtain ⟨st, hst, hinserts⟩ := additionStatement_eq hconsistent (hloaded'.trans hloaded) hkeys
    htable hunset (by rwa [hkeys', hvalue]) skipReload ignoreConflict
  have hinserts' : InsertsRow r r'.values skipReload ignoreConflict st := by
    rw [InsertsRow, hkeys', hvalue, hconsistent.type] at hinserts
    rwa [InsertsRow, h.consistent.type]
  have hsave : r'.saveStatement skipReload ignoreConflict = .ok (some st) := by
    rw [saveStatement, hloaded', hloaded, if_neg Bool.false_ne_true, hst]
    rfl
  refine ⟨st, hinserts', fun hplain ↦ ?_, sends_save hrun (congrArg Logged.result hsave) ?_⟩
  · exact hinserts'.numbers (by rwa [h.consistent.type])
  · rwa [hconn', hpool]

def numberedLetter (number : Value) : RecordType :=
  { letter.type with defaults := [("a", number)] }

/-- A new letter without a number, whose text was set to null. -/
def blankLetter (number : Value) : Record where
  type := numberedLetter number
  values := [("b", .null)]
  setKeys := ["b"]
  conn := some ⟨"c"⟩

def oneConnection : Session Scripted where
  db := { connections := [("c", {})] }

theorem save_of_unloaded_blankLetter :
    Reached (numberedLetter (.int 1)) (blankLetter (.int 1)) ∧
    (blankLetter (.int 1)).insertedKeys = ["a", "b"] ∧
    ∃ st, InsertsRow (blankLetter (.int 1)) [("b", .null)] false true st ∧
      Sql.numbers st.text = List.range' 1 st.values.length ∧
      Change.Sends (fun u : Record × Session Scripted ↦ u.2) [st] (save false true)
        (blankLetter (.int 1), oneConnection) := by
  have hreached : Reached (numberedLetter (.int 1)) (blankLetter (.int 1)) :=
    @Reached.make _ (.connection ⟨"c"⟩) (.map [("b", .null)]) [] _ rfl
  have hkeys : (blankLetter (.int 1)).insertedKeys = ["a", "b"] := rfl
  have hplain : (numberedLetter (.int 1)).table.Plain := by
    refine ⟨fun s hs ↦ ?_, fun key field hfield ↦ ?_⟩
    · obtain rfl := Option.some.inj hs
      rfl
    · obtain h | h := List.mem_pair.mp hfield <;> cases h <;> exact ⟨rfl, rfl⟩
  have hunset : ∀ key, (blankLetter (.int 1)).values.lookup key ≠ some .unset := by
    intro key
    rw [blankLetter, List.lookup_cons]
    split <;> simp
  have hbound : ∀ key ∈ (blankLetter (.int 1)).insertedKeys,
      inlineAssigned? ((blankLetter (.int 1)).insertedValue [("b", .null)] key) = none := by
    rw [hkeys, List.forall_mem_cons, List.forall_mem_singleton]
    exact ⟨rfl, rfl⟩
  have hrefreshed : ((blankLetter (.int 1)).refreshed oneConnection).1 =
      .ok (blankLetter (.int 1)) := rfl
  obtain ⟨st, hinserts, hnumbers, hsends⟩ := save_of_unloaded hreached rfl (by decide) ⟨_, rfl⟩
    hrefreshed hunset (fun key hkey x hx ↦ nomatch (hbound key hkey).symm.trans hx) (.inl rfl)
    false true
  refine ⟨hreached, hkeys, st, hinserts, hnumbers hplain ?_, hsends⟩
  exact fun key hkey text htext ↦ nomatch (hbound key hkey).symm.trans htext

/-- **A default without a literal** keeps a record from being inserted. -/
theorem save_of_unwritableDefault :
    Reached (numberedLetter (.wrapped (.list [.int 1]) false none true))
      (blankLetter (.wrapped (.list [.int 1]) false none true)) ∧
    save false false (blankLetter (.wrapped (.list [.int 1]) false none true), oneConnection) =
      (.error .noLiteral, blankLetter (.wrapped (.list [.int 1]) false none true),
        oneConnection) :=
  ⟨@Reached.make _ (.connection ⟨"c"⟩) (.map [("b", .null)]) [] _ rfl, rfl⟩

end Record

end Rowmap
