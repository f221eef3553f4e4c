import Rowmap.Proofs.Query.Private
import Rowmap.Proofs.Record.Carried

/-!
# Rows as records and as maps

A query gives its rows as records or as maps. For records it asks for all columns and takes each
field's value from the row; for maps it asks for each column under the key of its field and leaves
the row as it is. From there on the fields that were chosen are picked, and the private ones left
out, once by the record and once by the query.

Both ways give the same data of the same rows, whatever is chosen, with one exception: where
defaults are asked for, a map gets one in the place of null, and a record does not, because null is
what it was given. There is no record without a primary key, so a type without one has its rows as
maps alone.
-/

namespace Rowmap

/-- Maps with the same keys, once each, and with the same values under them but for some. -/
structure Entries.AlikeBut (excepted : String → Prop) (es fs : Entries) : Prop where
  keys : es.keys.Perm fs.keys
  nodup : es.keys.Nodup
  values : ∀ key, ¬excepted key → fs.lookup key = es.lookup key

theorem Entries.AlikeBut.of_graph {excepted : String → Prop} {keys keys' : List String}
    (hkeys : keys.Perm keys') (hnodup : keys.Nodup) {f g : String → Value}
    (h : ∀ key, ¬excepted key → g key = f key) :
    AlikeBut excepted (graph f keys) (graph g keys') := by
  refine ⟨?_, ?_, fun key hkey ↦ ?_⟩
  · rwa [keys_graph, keys_graph]
  · rwa [keys_graph]
  · by_cases hmem : key ∈ keys
    · rw [lookup_graph f hmem, lookup_graph g (hkeys.subset hmem), h key hkey]
    · have hmem' : key ∉ keys' := fun h ↦ hmem (hkeys.symm.subset h)
      rw [lookup_eq_none (by rwa [keys_graph]), lookup_eq_none (by rwa [keys_graph])]

theorem Value.eq_null_of_isNull {v : Value} (h : v.isNull = true) : v = .null := by
  rw [isNull.eq_def] at h
  split at h
  · rfl
  · exact nomatch h

/-- Sequences agree where what follows does so after each way in which the first change succeeds. -/
theorem Change.bind_congr_at {τ α β : Type} {x : Change τ α} {f g : α → Change τ β} {s : τ}
    (h : ∀ a s', x s = (.ok a, s') → f a s' = g a s') : (x >>= f) s = (x >>= g) s := by
  obtain ⟨a, t, hrun, hthen⟩ | ⟨e, t, hrun, hthen⟩ := bind_cases x f s <;> rw [hthen]
  · rw [bind_of_ok g hrun, h a t hrun]
  · rw [bind_of_error g hrun]

namespace RecordType

variable {t : RecordType}

/-- The columns of the fields, each with the key that it goes by. -/
def aliases (t : RecordType) : List (String × String) :=
  t.table.fields.map fun e ↦ (e.2.column e.1, e.1)

/-- The columns of the fields as a statement writes them, each under the key that it goes by. -/
def aliasTexts (t : RecordType) : List String :=
  t.aliases.map fun (column, key) ↦
    if column == key then Sql.quoteIdentifier column
    else Sql.quoteIdentifier column ++ " AS " ++ Sql.quoteIdentifier key

/-- What a database gives of a row if its columns go by the keys of the fields. -/
def byKeys (t : RecordType) (row : Row) : Row :=
  t.aliases.map fun (column, key) ↦ (key, Entries.valueAt row column)

/-- Whether a default is asked for in the place of a null. -/
def FillsIn (t : RecordType) (o : DataOptions) (row : Row) (key : String) : Prop :=
  o.includeDefaults = true ∧ (t.default key).isNull = false ∧ (t.cell row key).isNull = true

/-- What is given of a row when fields are chosen: what it has for those that are shown. -/
def picked (t : RecordType) (o : DataOptions) (chosen : List String) (row : Row) : Entries :=
  .graph (t.cell row) ((Entries.firsts chosen).filter (t.shows o))

theorem byKeys_eq (hkeys : t.keys.Nodup) (row : Row) :
    t.byKeys row = Entries.graph (t.cell row) t.keys := by
  rw [byKeys, aliases, Entries.graph, keys, Table.keys, List.map_map, List.map_map]
  refine List.map_congr_left fun e he ↦ ?_
  have hcell : t.cell row e.1 = Entries.valueAt row (e.2.column e.1) := by
    rw [cell, Table.field?_of_mem hkeys he]
    rfl
  exact congrArg (Prod.mk e.1) hcell.symm

end RecordType

/-- **The columns of a selection of maps** are those of all fields, under their keys. -/
theorem Select.columnList_of_everything {s : Select Value} {t : RecordType}
    (houtput : s.output = .object) (hreturns : s.returns = .everything)
    (htable : s.table = t.table) (hkeys : t.keys.Nodup) :
    s.columnList = .ok (", ".intercalate t.aliasTexts) := by
  have hcolumn {e : String × Field} (he : e ∈ t.table.fields) :
      t.table.column (.text e.1) = .ok (e.2.column e.1) := by
    rw [Table.column, Value.asText?, Option.bind_some, Table.field?_of_mem hkeys he]
    rfl
  have htexts : s.returnedKeys.mapM (namedColumn s.table) = .ok t.aliasTexts := by
    rw [returnedKeys, hreturns, htable]
    refine Except.mapM_of_forall₂ ?_
    rw [Table.keys, List.map_map, RecordType.aliasTexts, RecordType.aliases, List.map_map,
      List.forall₂_map_left_iff, List.forall₂_map_right_iff]
    refine List.forall₂_same.mpr fun e he ↦ ?_
    show namedColumn t.table (.text e.1) = _
    rw [namedColumn, hcolumn he]
    rfl
  rw [columnList, houtput]
  show s.returnedKeys.mapM (namedColumn s.table) >>= _ = _
  rw [htexts]
  rfl

namespace Query

open Change

variable {σ : Type} {q q' : Query} {s s' : Session σ} {t : RecordType} {rows : List Row}
  {o : DataOptions}

/-! ## Runs -/

/-- Records can be made of rows if one can be made of each. -/
theorem exists_recordsOf {source : Source}
    (h : ∀ row ∈ rows, ∃ r, Record.ofRow t source row = .ok r) (s : Session σ) :
    ∃ vs s', recordsOf t source rows s = (.ok vs, s') := by
  induction rows generalizing s with
  | nil => exact ⟨[], s, rfl⟩
  | cons row rows ih =>
    obtain ⟨⟨r, hrow⟩, hrest⟩ := List.forall_mem_cons.mp h
    let s₁ : Session σ := { s with next := s.next + 1, records := s.records.put s.next r }
    have hvalue := recordValue_eq (s := s₁) (Numbered.lookup_put_self s.records s.next r)
    obtain ⟨vs, s', hvs⟩ := ih hrest { s₁ with records := s₁.records.put s.next r }
    refine ⟨r.toValue s.next :: vs, s', ?_⟩
    rw [recordsOf, hrow]
    have hadd : (App.addRecord r : App σ Nat) s = (.ok s.next, s₁) := rfl
    rw [bind_of_ok _ (ofExcept_apply (.ok r) s), bind_of_ok _ hadd, bind_of_ok _ hvalue,
      bind_of_ok _ hvs]
    rfl

variable [Backend σ]

/-- The rows that a query is given when it is run, before they are given a shape. -/
def fetch : On Query σ (List Row) := do
  Change.ofExcept (← On.object).checkRunnable
  close
  let q ← On.object
  let statement ← On.beside (q.statement false false 0)
  let outcome : Outcome ← On.beside
    (App.checkout q.conn q.pool false fun c ↦ App.execute c statement.text statement.values)
  .ok outcome.rows

/-- The query with rows that it was given when it was run. -/
def holding (q : Query) (vs : List Value) : Query :=
  { q with select := { q.select with rows := vs, loaded := true } }

theorem close_fst (u : Query × Session σ) :
    (close u : Except Failure Unit × _).2.1 = { u.1 with stream := none } := by
  obtain ⟨⟨t, select, stream, conn, pool⟩, s⟩ := u
  rcases stream with _ | id
  · rfl
  · rfl

theorem isStreaming_of_close {r : Except Failure Unit} {u : Query × Session σ}
    (h : close (q, s) = (r, u)) : u.1.isStreaming = q.isStreaming := by
  have hu : u.1 = { q with stream := none } := by
    rw [← close_fst (q, s), h]
  rw [hu]
  rfl

theorem eq_of_fetch {u : Query × Session σ} (h : fetch (q, s) = (.ok rows, u)) :
    u.1 = { q with stream := none } := by
  rw [fetch, On.object, gets_bind] at h
  obtain ⟨⟨⟩, -, h⟩ := ofExcept_bind_eq_ok.mp h
  obtain ⟨⟨⟩, ⟨q₁, s₁⟩, hclose, h⟩ := bind_eq_ok.mp h
  rw [gets_bind] at h
  obtain ⟨statement, u₁, hstatement, h⟩ := bind_eq_ok.mp h
  obtain ⟨outcome, u₂, hcheckout, h⟩ := bind_eq_ok.mp h
  obtain ⟨s₂, rfl, -⟩ := On.beside_eq_ok hstatement
  obtain ⟨s₃, rfl, -⟩ := On.beside_eq_ok hcheckout
  obtain ⟨-, rfl⟩ := Prod.mk.inj h
  rw [← close_fst (q, s), hclose]

/-- What a run that is not streamed puts in the place of the rows. -/
def fetchShaped (given : Source) : On Query σ (List Value) := do
  let rows ← fetch
  let q ← On.object
  On.beside (q.shapeRows (given.orElse (.ofParts q.conn q.pool)) rows)

/-- **A run** that is not streamed fetches rows, gives them their shape, and holds them then. -/
theorem run_of_buffered (given : Source) (hbuffered : q.isStreaming = false) (s : Session σ) :
    run given (q, s) = (do
      let vs ← fetchShaped given
      On.own (Change.modify (·.holding vs))) (q, s) := by
  rw [run, fetchShaped, fetch]
  simp only [bind_assoc, On.object, gets_bind]
  refine bind_congr_at fun _ u hcheck ↦ bind_congr_at fun _ u' hclose ↦ ?_
  obtain ⟨-, rfl⟩ := Prod.mk.inj hcheck
  obtain ⟨q', s'⟩ := u'
  have hnot : q'.isStreaming = false := (isStreaming_of_close hclose).trans hbuffered
  rw [gets_bind, gets_bind]
  refine bind_congr_at fun statement u hstatement ↦ ?_
  obtain ⟨s₁, rfl, -⟩ := On.beside_eq_ok hstatement
  rw [hnot, if_neg Bool.false_ne_true]
  refine bind_congr_at fun outcome u hcheckout ↦ ?_
  obtain ⟨s₂, rfl, -⟩ := On.beside_eq_ok hcheckout
  rfl

theorem run_of_fetch {given : Source} (hbuffered : q.isStreaming = false) {u : Query × Session σ}
    (h : fetch (q, s) = (.ok rows, u)) {vs : List Value} {s' : Session σ}
    (hshape : q.shapeRows (given.orElse (.ofParts q.conn q.pool)) rows u.2 = (.ok vs, s')) :
    run given (q, s) = (.ok (), ({ q with stream := none } : Query).holding vs, s') := by
  obtain ⟨q₀, s₀⟩ := u
  obtain rfl := eq_of_fetch h
  have hbeside : (On.beside (shapeRows { q with stream := none }
      (given.orElse (.ofParts q.conn q.pool)) rows) : On Query σ (List Value))
        ({ q with stream := none }, s₀) = (.ok vs, { q with stream := none }, s') := by
    have hsame : shapeRows { q with stream := none } (given.orElse (.ofParts q.conn q.pool))
        rows s₀ = (.ok vs, s') := hshape
    show (_, _, _) = _
    rw [hsame]
  rw [run_of_buffered given hbuffered, fetchShaped, bind_assoc, bind_of_ok _ h, bind_assoc,
    On.object, gets_bind]
  exact bind_of_ok _ hbeside

/-! ## Data -/

omit [Backend σ]

/-- A shape of several values takes options that pick fields. -/
theorem checkDataOptions_eq_ok {chosen : List String} (hbuffered : q.isStreaming = false)
    (hshape : q.select.output ≠ .value) (ho : t.Picks o chosen) :
    q.checkDataOptions o = .ok () := by
  rw [checkDataOptions, hbuffered, if_neg Bool.false_ne_true, if_neg fun h ↦ hshape h.1,
    ho.onlyDirty, ho.onlySet, if_neg fun h ↦ Bool.false_ne_true h.2]

theorem data_of_records (ht : t.Makes) {chosen : List String} (ho : t.Picks o chosen)
    {source : Source} {parts : Option Connection × Option Pool}
    (hsource : source.split = .ok parts) (hrows : ∀ row ∈ rows, t.IsCarriedBy row)
    (hshape : q.select.output = .record) (hbuffered : q.isStreaming = false) {vs : List Value}
    (hvs : recordsOf t source rows s = (.ok vs, s')) :
    (q.holding vs).data s'.records o = .ok (rows.map fun row ↦
      .pairs (.ofEntries (t.picked o chosen row))) := by
  obtain ⟨-, -, hheld⟩ := holds_recordsOf hvs
  have hcheck : (q.holding vs).checkDataOptions o = .ok () :=
    checkDataOptions_eq_ok hbuffered (by rw [holding, hshape]; exact nofun) ho
  have hrecord : (q.holding vs).select.output = .record := hshape
  rw [data, hcheck, hrecord]
  refine Except.mapM_of_forall₂ ?_
  rw [List.forall₂_map_right_iff]
  refine (List.forall₂_and_left _ _ |>.mpr ⟨hrows, hheld⟩).flip.imp fun held row hrow ↦ ?_
  obtain ⟨hcarried, id, _, _, _, r, rfl, hr, hmade⟩ := hrow
  obtain ⟨r', hmade', rfl, hvalues⟩ := Record.exists_ofRow ht hsource hcarried
  obtain rfl := Except.ok.inj (hmade'.symm.trans hmade)
  rw [recordData, hr]
  exact congrArg (RowData.pairs <$> ·) (Record.data_of_graph ho hvalues)

/-! ### Maps -/

theorem isAmong_text (vs : List Value) (key : String) :
    isAmong vs (.text key) = vs.any (·.asText? == some key) := by
  rw [isAmong]
  refine List.any_congr rfl fun v ↦ ?_
  rw [Bool.eq_iff_iff, beq_iff_eq]
  exact ⟨Value.asText?_eq_of_matchesElement, fun h ↦ Value.matchesElement_of_asText? h rfl⟩

theorem isAmong_texts (chosen : List String) (key : String) :
    isAmong (chosen.map .text) (.text key) = chosen.contains key := by
  rw [isAmong_text, List.any_map, List.contains_eq_any_beq]
  refine List.any_congr rfl fun other ↦ ?_
  rw [Function.comp, Value.asText?, Bool.eq_iff_iff, beq_iff_eq, beq_iff_eq]
  constructor
  · exact fun h ↦ (Option.some.inj h).symm
  · rintro rfl
    rfl

/-- **What is let through of maps** are the fields that were chosen and are shown. -/
theorem exists_allowedKeys {chosen : List String} (ho : t.Picks o chosen) :
    ∃ allowed, allowedKeys t o = .ok allowed ∧ ∀ key ∈ t.keys,
      allowed.all (isAmong · (.text key)) = (chosen.contains key && t.shows o key) := by
  have hset : setOf (chosen.map .text) = .ok (chosen.map .text) := by
    rw [setOf, if_pos]
    rw [List.all_map, List.all_eq_true]
    exact fun _ _ ↦ rfl
  have hhidden : setOf t.privateFields = .ok t.privateFields := by
    rw [setOf, if_pos (List.all_eq_true.mpr ho.hashable)]
  rcases hprivate : o.includePrivate with _ | _
  · -- the private fields are taken out of those that were chosen
    refine ⟨some ((chosen.map .text).filter (!isAmong t.privateFields ·)), ?_, fun key _ ↦ ?_⟩
    · rw [allowedKeys, hprivate, Bool.and_false, if_neg Bool.false_ne_true, ho.fields]
      show setOf (chosen.map .text) >>= _ = _
      rw [hset]
      show setOf t.privateFields >>= _ = _
      rw [hhidden]
      rfl
    · have hshown (other : String) :
          (!isAmong t.privateFields (.text other)) = t.shows o other := by
        rw [isAmong_text, RecordType.shows, hprivate, Bool.false_or]
        rfl
      rw [Option.all_some, List.filter_map, isAmong_texts, Bool.eq_iff_iff, List.contains_iff_mem,
        List.mem_filter, Bool.and_eq_true, List.contains_iff_mem]
      exact and_congr_right fun _ ↦ Bool.eq_iff_iff.mp (hshown key)
  · rcases hfields : o.fields with _ | fields
    · -- nothing is asked, so nothing is kept back
      refine ⟨none, ?_, fun key hkey ↦ ?_⟩
      · rw [allowedKeys, hfields, hprivate]
        rfl
      · have hall := ho.fields
        rw [Record.chosenKeys, hfields] at hall
        have hchosen : t.keys = chosen :=
          List.map_injective_iff.mpr (fun _ _ h ↦ Value.text.inj h) (Except.ok.inj hall)
        rw [← hchosen, List.contains_iff_mem.mpr hkey, RecordType.shows, hprivate]
        rfl
    · refine ⟨some (chosen.map .text), ?_, fun key _ ↦ ?_⟩
      · rw [allowedKeys, hfields, ho.fields, hprivate]
        show setOf (chosen.map .text) >>= _ = _
        rw [hset]
        rfl
      · rw [Option.all_some, isAmong_texts, RecordType.shows, hprivate, Bool.true_or, Bool.and_true]

/-- No default takes the place of what is no null, or has none. -/
theorem orDefault_eq_self {row : Row} {key : String} (h : ¬t.FillsIn o row key) :
    orDefault t o key (t.cell row key) = t.cell row key := by
  rw [orDefault]
  split
  next hasked =>
    obtain ⟨hdefaults, hcell⟩ := Bool.and_eq_true_iff.mp hasked
    have hdefault : (t.default key).isNull = true := by
      by_contra hnot
      exact h ⟨hdefaults, Bool.not_eq_true _ ▸ hnot, hcell⟩
    rw [Value.eq_null_of_isNull hdefault, Value.eq_null_of_isNull hcell]
  next => rfl

def letThrough (allowed : Option (List Value)) (ps : Pairs) : Pairs :=
  match allowed with
  | some keys => ps.filter fun p ↦ isAmong keys p.1
  | none => ps

theorem letThrough_graph {allowed : Option (List Value)} {p : String → Bool} {keys : List String}
    (hpasses : ∀ key ∈ keys, allowed.all (isAmong · (.text key)) = p key) (f : String → Value) :
    letThrough allowed (.ofEntries (.graph f keys)) = .ofEntries (.graph f (keys.filter p)) := by
  rcases allowed with _ | among
  · rw [List.filter_eq_self.mpr fun key hkey ↦ (hpasses key hkey).symm]
    rfl
  · exact Pairs.filter_ofEntries_graph f fun key hkey _ ↦ hpasses key hkey

theorem objectData_of_graph {allowed : Option (List Value)} {p : String → Bool}
    {keys : List String} (hpasses : ∀ key ∈ keys, allowed.all (isAmong · (.text key)) = p key)
    (f : String → Value) : q.objectData o allowed (.map (Entries.graph f keys)) =
      .ok (.ofEntries (.graph (fun key ↦ orDefault q.type o key (f key)) (keys.filter p))) := by
  show Except.ok (List.map _ (letThrough allowed (.ofEntries (.graph f keys)))) = _
  rw [letThrough_graph hpasses, Pairs.ofEntries, Pairs.ofEntries, Entries.graph, Entries.graph,
    List.map_map, List.map_map, List.map_map]
  rfl

theorem data_of_maps (hkeys : q.type.keys.Nodup) {chosen : List String}
    (ho : q.type.Picks o chosen) (hshape : q.select.output = .object)
    (hbuffered : q.isStreaming = false) (records : Numbered Record) :
    (q.holding ((rows.map q.type.byKeys).map .map)).data records o = .ok (rows.map fun row ↦
      .pairs (.ofEntries (.graph (fun key ↦ orDefault q.type o key (q.type.cell row key))
        (q.type.keys.filter fun key ↦ chosen.contains key && q.type.shows o key)))) := by
  obtain ⟨allowed, hallowed, hpasses⟩ := exists_allowedKeys ho
  generalize hvs : (rows.map q.type.byKeys).map Value.map = vs
  have hcheck : (q.holding vs).checkDataOptions o = .ok () :=
    checkDataOptions_eq_ok hbuffered (by rw [holding, hshape]; exact nofun) ho
  have hobject : (q.holding vs).select.output = .object := hshape
  have htype : (q.holding vs).type = q.type := rfl
  have hrows : (q.holding vs).rows = vs := rfl
  rw [data, hcheck, hobject, htype, hallowed]
  refine Except.mapM_of_forall₂ ?_
  rw [hrows, ← hvs, List.map_map, List.forall₂_map_right_iff, List.forall₂_map_left_iff]
  refine List.forall₂_same.mpr fun row _ ↦ ?_
  show RowData.pairs <$> (q.holding vs).objectData o allowed (.map (q.type.byKeys row)) = _
  rw [q.type.byKeys_eq hkeys, objectData_of_graph hpasses]
  rfl

theorem alikeBut_of_row (hkeys : t.keys.Nodup) {chosen : List String} (ho : t.Picks o chosen)
    (row : Row) : Entries.AlikeBut (t.FillsIn o row) (t.picked o chosen row)
      (.graph (fun key ↦ orDefault t o key (t.cell row key))
        (t.keys.filter fun key ↦ chosen.contains key && t.shows o key)) := by
  have hnodup := (Entries.nodup_firsts chosen).filter (t.shows o)
  refine .of_graph ?_ hnodup fun key hkey ↦ orDefault_eq_self hkey
  refine (List.perm_ext_iff_of_nodup hnodup (hkeys.filter _)).mpr fun key ↦ ?_
  rw [List.mem_filter, List.mem_filter, Entries.mem_firsts, Bool.and_eq_true,
    List.contains_iff_mem]
  constructor
  · rintro ⟨hchosen, hshown⟩
    exact ⟨Table.mem_keys_of_declares (ho.declared key hchosen), hchosen, hshown⟩
  · rintro ⟨-, hpicked⟩
    exact hpicked

/-! ## Both shapes -/

/-- **Records and maps of the same rows give the same data.** Of a type of which records can be made
let one query be given whole rows, and another one the same rows with their columns under the keys
of the fields, which is what its statement asks for. Then both runs succeed, and the data that the
second query gives of each row as a map has the same keys as that which the first one gives of it as
a record, and the same values, but for defaults that were asked for in the place of null. -/
theorem records_and_maps_agree {σ σ' : Type} [Backend σ] [Backend σ'] (given given' : Source)
    (ht : t.Makes) {chosen : List String} (ho : t.Picks o chosen)
    (hrows : ∀ row ∈ rows, t.IsCarriedBy row)
    (htype : q.type = t) (hshape : q.select.output = .record) (hbuffered : q.isStreaming = false)
    (htype' : q'.type = t) (htable' : q'.select.table = t.table)
    (hshape' : q'.select.output = .object) (hreturns' : q'.select.returns = .everything)
    (hbuffered' : q'.isStreaming = false)
    {parts : Option Connection × Option Pool}
    (hsource : (given.orElse (.ofParts q.conn q.pool)).split = .ok parts) {s : Session σ}
    {s' : Session σ'} {u : Query × Session σ} {u' : Query × Session σ'}
    (hfetch : fetch (q, s) = (.ok rows, u))
    (hfetch' : fetch (q', s') = (.ok (rows.map t.byKeys), u')) :
    q.select.columnList = .ok "*" ∧
    q'.select.columnList = .ok (", ".intercalate t.aliasTexts) ∧
    ∃ q₁ s₁ q₁' s₁', run given (q, s) = (.ok (), q₁, s₁) ∧
      run given' (q', s') = (.ok (), q₁', s₁') ∧
      ∃ shown : Row → Entries,
        q₁.data s₁.records o =
          .ok (rows.map fun row ↦ .pairs (.ofEntries (t.picked o chosen row))) ∧
        q₁'.data s₁'.records o = .ok (rows.map fun row ↦ .pairs (.ofEntries (shown row))) ∧
        ∀ row ∈ rows, Entries.AlikeBut (t.FillsIn o row) (t.picked o chosen row) (shown row) := by
  subst htype
  obtain ⟨vs, s₁, hvs⟩ := exists_recordsOf
    (fun row hrow ↦ (Record.exists_ofRow ht hsource (hrows row hrow)).imp fun _ h ↦ h.1) u.2
  have hrun := run_of_fetch hbuffered hfetch (by rw [shapeRows, hshape]; exact hvs)
  have hrun' : run given' (q', s') =
      (.ok (), Query.holding { q' with stream := none } ((rows.map q.type.byKeys).map .map),
        u'.2) :=
    run_of_fetch hbuffered' hfetch' (by rw [shapeRows, hshape']; rfl)
  refine ⟨?_, Select.columnList_of_everything hshape' hreturns' htable' ht.keys,
    _, _, _, _, hrun, hrun', _, data_of_records ht ho hsource hrows hshape hbuffered hvs, ?_,
    fun row _ ↦ alikeBut_of_row ht.keys ho row⟩
  · rw [Select.columnList, hshape]
  · rw [← htype'] at ht ho ⊢
    exact @data_of_maps { q' with stream := none } rows o ht.keys chosen ho hshape' hbuffered' _

def defaulted : RecordType := ⟨.letters, [("b", .text "z")], [], []⟩

def keyless : RecordType := ⟨{ Table.letters with primaryKey := [] }, [], [], []⟩

/-- A letter without a text. -/
def textless : Row := [("a", .int 1), ("b", .null)]

def shaped (t : RecordType) (output : OutputType) : Query where
  type := t
  select := { table := t.table, output }
  conn := some ⟨"c"⟩

/-- How a run of it ends that is given the letter. -/
def shapedRun (t : RecordType) (output : OutputType) :
    Except Failure Unit × Query × Session Scripted :=
  run .absent (shaped t output, givingBack textless)

/-- The data that it gives then, with defaults. -/
def shapedData (t : RecordType) (output : OutputType) : Except Failure (List RowData) :=
  (shapedRun t output).2.1.data (shapedRun t output).2.2.records { includeDefaults := true }

theorem isCarriedBy_textless : defaulted.IsCarriedBy textless := by
  intro e he
  rcases List.mem_pair.mp he with rfl | rfl
  · exact ⟨.int 1, rfl, nofun⟩
  · exact ⟨.null, rfl, nofun⟩

theorem records_and_maps_agree_defaulted : ∃ shown : Row → Entries,
    shapedData defaulted .object = .ok [.pairs (.ofEntries (shown textless))] ∧
    Entries.AlikeBut (defaulted.FillsIn { includeDefaults := true } textless)
      textless (shown textless) := by
  have hmakes : defaulted.Makes :=
    { keepsState := ⟨rfl, rfl⟩, concrete := rfl, displaces := rfl, keyed := nofun
      parts := fun key hkey ↦ ⟨"a", by rw [List.mem_singleton.mp hkey]; rfl, rfl⟩
      keys := by decide }
  have hpicks : defaulted.Picks { includeDefaults := true } ["a", "b"] :=
    { fields := rfl, declared := by decide, hashable := nofun, onlyDirty := rfl, onlySet := rfl }
  have hrows : ∀ row ∈ [textless], defaulted.IsCarriedBy row :=
    List.forall_mem_singleton.mpr isCarriedBy_textless
  have hfetch : (fetch (shaped defaulted .record, givingBack textless)).1 = .ok [textless] := rfl
  have hfetch' : (fetch (shaped defaulted .object, givingBack textless)).1 = .ok [textless] := rfl
  obtain ⟨-, -, _, _, q₁', s₁', -, hrun', shown, -, hdata', halike⟩ :=
    records_and_maps_agree .absent .absent hmakes hpicks hrows
      rfl rfl rfl rfl rfl rfl rfl rfl rfl (Prod.ext hfetch rfl) (Prod.ext hfetch' rfl)
  refine ⟨shown, ?_, halike textless (List.mem_singleton_self _)⟩
  have hend : (shapedRun defaulted .object).2 = (q₁', s₁') := congrArg Prod.snd hrun'
  rw [shapedData, hend]
  exact hdata'

/-- **Records and maps can differ.** A default that is asked for takes the place of null in a map
alone, and there are no records of a type without a primary key. -/
theorem records_and_maps_differ :
    defaulted.IsCarriedBy textless ∧ defaulted.byKeys textless = textless ∧
    shapedData defaulted .record = .ok [.pairs [(.text "a", .int 1), (.text "b", .null)]] ∧
    shapedData defaulted .object = .ok [.pairs [(.text "a", .int 1), (.text "b", .text "z")]] ∧
    (shapedRun keyless .record).1 = .error (.fault (.noPrimaryKey "Letter")) ∧
    shapedData keyless .object = .ok [.pairs [(.text "a", .int 1), (.text "b", .null)]] :=
  ⟨isCarriedBy_textless, rfl, rfl, rfl, rfl, rfl⟩

end Query

end Rowmap
