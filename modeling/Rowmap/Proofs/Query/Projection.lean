import Rowmap.Proofs.Query.Shapes

/-!
# What data tells of rows

A query that holds what it was given, in the shape that it has and under the key that it returns,
gives data that projects its rows: whatever stands there under a key is what the row has in the
column of that key, unless it is null or a default, and the columns of private fields are not told
of unless these are asked for. All that can go wrong then is a fault of the library.
-/

namespace Rowmap

/-- Whether something ends in a fault of the library, or in a result with some property. -/
def FaultsOr {α : Type} (P : α → Prop) : Except Failure α → Prop
  | .ok a => P a
  | .error e => ∃ f, e = .fault f

namespace FaultsOr

variable {α β : Type} {P : α → Prop} {Q : β → Prop} {x : Except Failure α}

theorem bind {f : α → Except Failure β} (hx : FaultsOr P x) (hf : ∀ a, P a → FaultsOr Q (f a)) :
    FaultsOr Q (x >>= f) := by
  rcases x with e | a
  · exact hx
  · exact hf a hx

theorem map {f : α → β} (hx : FaultsOr P x) (hf : ∀ a, P a → Q (f a)) : FaultsOr Q (f <$> x) := by
  rcases x with e | a
  · exact hx
  · exact hf a hx

/-- What is done with several things, one after the other. -/
theorem mapM {γ : Type} {R : γ → β → Prop} {f : α → Except Failure β} {cs : List γ} {as : List α}
    (h : List.Forall₂ (fun c a ↦ FaultsOr (R c) (f a)) cs as) :
    FaultsOr (List.Forall₂ R cs) (as.mapM f) := by
  induction h with
  | nil => exact List.Forall₂.nil
  | cons hfirst _ ih =>
    rw [List.mapM_cons]
    refine hfirst.bind fun b hb ↦ ih.bind fun bs hbs ↦ ?_
    exact List.Forall₂.cons hb hbs

end FaultsOr

theorem Value.hashable_of_asText? {v : Value} {name : String} (h : v.asText? = some name) :
    v.hashable = true := by
  rcases v <;> first | rfl | exact nomatch h

theorem Failure.unknownField_of_text {key : Value} {name : String} (h : key.asText? = some name)
    (record : String) (available : List String) :
    ∃ f, unknownField key record available = .fault f := by
  have hword : ∃ word, Fault.wordOf key = .ok word := by
    have hkeys : key.iterate = .ok (Value.characters name) := by
      rw [Value.iterate.eq_def, h]
    have hall : (Value.characters name).all Value.hashable = true := by
      rw [Value.characters, List.all_map, List.all_eq_true]
      exact fun _ _ ↦ rfl
    refine ⟨(Value.characters name).map Fault.character?, ?_⟩
    rw [Fault.wordOf, hkeys]
    exact if_pos hall
  have hpositions : Fault.withoutPositions? key = none := by
    rcases key <;> first | rfl | exact nomatch h
  have htexts : (available.map Value.text).all (·.asText?.isSome) = true := by
    rw [List.all_map, List.all_eq_true]
    exact fun _ _ ↦ rfl
  obtain ⟨word, hword⟩ := hword
  have hsuggestions : Fault.suggestions Fault.suggestionCutoff key (available.map .text) =
      .ok (Text.closeMatches Value.label (Fault.reaches Fault.suggestionCutoff)
        Fault.suggestionCount word (available.map .text)) := by
    rw [Fault.suggestions, hword, hpositions]
    exact if_pos htexts
  rw [unknownField, if_pos (Value.hashable_of_asText? h), Fault.unknownAmong, hsuggestions]
  exact ⟨_, rfl⟩

namespace RecordType

variable {t : RecordType} {o : DataOptions}

/-- Options of the right types: the fields are given by their keys, and private fields by what can
be a key. -/
structure Reads (t : RecordType) (o : DataOptions) : Prop where
  fields : ∀ v, o.fields = some v →
    ∃ keys, v.iterate = .ok keys ∧ ∀ key ∈ keys, ∃ name, key.asText? = some name
  hidden : ∀ v ∈ t.privateFields, v.hashable = true

/-- Whether a value is told of a row, in a column and under a key: it is what the row has there, if
the key is shown, or null, or a default that was asked for. -/
def Tells (t : RecordType) (o : DataOptions) (row : Row) (column key : String) (v : Value) : Prop :=
  (t.shows o key = true ∧ (column, v) ∈ row) ∨ v = .null ∨
    (o.includeDefaults = true ∧ ∃ other, v = t.default other)

theorem Reads.chosenKeys (h : t.Reads o) : ∃ keys, Record.chosenKeys t o = .ok keys ∧
    ∀ key ∈ keys, ∃ name, key.asText? = some name := by
  rw [Record.chosenKeys]
  rcases hfields : o.fields with _ | v
  · refine ⟨_, rfl, fun key hkey ↦ ?_⟩
    obtain ⟨name, -, rfl⟩ := List.mem_map.mp hkey
    exact ⟨name, rfl⟩
  · exact h.fields v hfields

end RecordType

theorem Entries.mem_of_lookup {es : Entries} {key : String} {v : Value}
    (h : es.lookup key = some v) : (key, v) ∈ es := by
  obtain ⟨before, after, rfl, -⟩ := List.lookup_eq_some_iff.mp h
  exact List.mem_append_right _ List.mem_cons_self

/-! ## Records -/

namespace Record

variable {t : RecordType} {r : Record} {row : Row} {o : DataOptions}

/-- Whether all that a record holds stands in a row, in the column of the field. -/
def Mirrors (r : Record) (row : Row) : Prop :=
  ∀ key v, r.values.lookup key = some v →
    ∃ field, (key, field) ∈ r.type.table.fields ∧ (field.column key, v) ∈ row

theorem Mirrors.takeCell (ht : t.KeepsState) (htype : r.type = t) (h : r.Mirrors row)
    {e : String × Field} (he : e ∈ t.table.fields) :
    (r.takeCell e.1 (row.lookup (e.2.column e.1))).Mirrors row := by
  rw [takeCell.eq_def]
  split
  · exact h
  · exact h
  next v _ hcell =>
    intro key w hw
    rw [type_put, htype]
    rw [put_eq ht htype, Entries.lookup_put] at hw
    split at hw
    next hkey =>
      obtain rfl := Option.some.inj hw
      exact ⟨e.2, hkey ▸ he, hkey ▸ Entries.mem_of_lookup hcell⟩
    next => exact htype ▸ h key w hw

theorem Mirrors.takeRow (ht : t.KeepsState) (htype : r.type = t) (h : r.Mirrors row) :
    (r.takeRow row).Mirrors row := by
  have hfields : ∀ e ∈ r.type.table.fields, e ∈ t.table.fields := fun _ he ↦ htype ▸ he
  rw [takeRow_eq]
  generalize r.type.table.fields = fields at hfields
  induction fields generalizing r with
  | nil => exact h
  | cons e fields ih =>
    obtain ⟨he, hrest⟩ := List.forall_mem_cons.mp hfields
    exact ih ((type_takeCell r _ _).trans htype) (h.takeCell ht htype he) hrest

/-- **A record of a row** holds nothing but what the row has. -/
theorem mirrors_of_ofRow (ht : t.KeepsState) {source : Source} (h : ofRow t source row = .ok r) :
    r.type = t ∧ r.Mirrors row := by
  obtain ⟨htype, r₀, htype₀, hvalues₀, hvalues⟩ := of_ofRow ht h
  refine ⟨htype, fun key v hv ↦ ?_⟩
  have hnothing : r₀.Mirrors row := by
    intro key v hv
    rw [hvalues₀] at hv
    exact nomatch hv
  have htaken := hnothing.takeRow ht htype₀
  have htype' : (r₀.takeRow row).type = r.type :=
    ((puts_takeRow rfl row).type.trans htype₀).trans htype.symm
  rw [← htype']
  exact htaken key v (hvalues ▸ hv)

theorem exists_field_of_declares {key : String} (h : t.declares key = true) :
    ∃ field, (key, field) ∈ t.table.fields := by
  obtain ⟨e, he, rfl⟩ := List.mem_map.mp (Table.mem_keys_of_declares h)
  exact ⟨e.2, he⟩

/-- Whether a value stands under a key for what a row has in the column of the field. -/
def StandsFor (t : RecordType) (o : DataOptions) (row : Row) (key : String) (v : Value) : Prop :=
  ∃ field, (key, field) ∈ t.table.fields ∧ ((field.column key, v) ∈ row ∨ v = .null ∨
    (o.includeDefaults = true ∧ ∃ other, v = t.default other))

theorem contribution_standsFor (hmirrors : r.Mirrors row) (key : String) :
    FaultsOr (fun found : Option Value ↦ ∀ v, found = some v → StandsFor r.type o row key v)
      (r.contribution o key) := by
  have hnothing : FaultsOr (fun found : Option Value ↦
      ∀ v, found = some v → StandsFor r.type o row key v) (.ok none) := by
    intro v hv
    contradiction
  rw [contribution]
  split
  · exact hnothing
  split
  · exact hnothing
  rw [get]
  split
  next hdeclares =>
    rintro v hv
    obtain rfl := Option.some.inj hv
    split
    next hdefault =>
      obtain ⟨-, hasked⟩ := Bool.and_eq_true_iff.mp hdefault
      obtain ⟨field, hfield⟩ := exists_field_of_declares hdeclares
      exact ⟨field, hfield, .inr (.inr ⟨(Bool.and_eq_true_iff.mp hasked).1, key, rfl⟩)⟩
    next =>
      rw [Entries.valueAt]
      rcases hlookup : r.values.lookup key with _ | w
      · obtain ⟨field, hfield⟩ := exists_field_of_declares hdeclares
        exact ⟨field, hfield, .inr (.inl rfl)⟩
      · obtain ⟨field, hfield, hrow⟩ := hmirrors key w hlookup
        exact ⟨field, hfield, .inl hrow⟩
  next =>
    exact @Failure.unknownField_of_text (.text key) key rfl _ _

theorem foldlM_standsFor (hmirrors : r.Mirrors row) {keys : List Value}
    (hkeys : ∀ key ∈ keys, ∃ name, key.asText? = some name) {ps : Pairs}
    (hps : ∀ p ∈ ps, ∃ name, p.1.asText? = some name ∧ StandsFor r.type o row name p.2) :
    FaultsOr (fun qs : Pairs ↦ ∀ p ∈ qs, ∃ name, p.1.asText? = some name ∧
      StandsFor r.type o row name p.2) (keys.foldlM (r.contribute o) ps) := by
  induction keys generalizing ps with
  | nil => exact hps
  | cons key keys ih =>
    obtain ⟨⟨name, hname⟩, hrest⟩ := List.forall_mem_cons.mp hkeys
    rw [List.foldlM_cons]
    refine FaultsOr.bind (P := fun qs : Pairs ↦ ∀ p ∈ qs, ∃ name, p.1.asText? = some name ∧
      StandsFor r.type o row name p.2) ?_ fun qs hqs ↦ ih hrest hqs
    rw [contribute_eq, contributionBy_of_text hname]
    refine (contribution_standsFor hmirrors name).map fun found hfound ↦ ?_
    rcases found with _ | v
    · exact hps
    · exact Pairs.forall_mem_put
        (Q := fun text v ↦ ∃ name, text = some name ∧ StandsFor r.type o row name v) hps
        ⟨name, hname, hfound v rfl⟩

/-- **The data of a record of a row** projects the row. -/
theorem data_tells (ho : r.type.Reads o) (hmirrors : r.Mirrors row) :
    FaultsOr (fun ps : Pairs ↦ ∀ p ∈ ps, ∃ key field, p.1.asText? = some key ∧
      (key, field) ∈ r.type.table.fields ∧ r.type.Tells o row (field.column key) key p.2)
      (r.data o) := by
  obtain ⟨keys, hchosen, hkeys⟩ := ho.chosenKeys
  rw [data, hchosen]
  refine (foldlM_standsFor hmirrors hkeys (List.forall_mem_nil _)).bind fun ps hps ↦ ?_
  have htells {p : Value × Value} (hp : p ∈ ps)
      (hshown : ∀ key, p.1.asText? = some key → r.type.shows o key = true) :
      ∃ key field, p.1.asText? = some key ∧ (key, field) ∈ r.type.table.fields ∧
        r.type.Tells o row (field.column key) key p.2 := by
    obtain ⟨key, hkey, field, hfield, htold⟩ := hps p hp
    exact ⟨key, field, hkey, hfield, htold.imp_left fun hrow ↦ ⟨hshown key hkey, hrow⟩⟩
  rcases hprivate : o.includePrivate with _ | _
  · rw [if_neg Bool.false_ne_true, withoutPrivate_eq, if_pos (List.all_eq_true.mpr ho.hidden)]
    intro p hp
    obtain ⟨hmem, hstays⟩ := List.mem_filter.mp hp
    refine htells hmem fun key hkey ↦ ?_
    rw [RecordType.shows, hprivate, Bool.false_or, RecordType.hides, ← Pairs.stays_eq hkey]
    exact hstays
  · rw [if_pos rfl]
    intro p hp
    refine htells hp fun key _ ↦ ?_
    rw [RecordType.shows, hprivate, Bool.true_or]

end Record

namespace Query

variable {q ran : Query} {t : RecordType} {o : DataOptions} {row : Row}
  {records : Numbered Record}

/-- Whether the data of a row projects it under the labels of the query that ran: a value under the
key that was returned, or pairs under keys of the row or of the fields of its record. -/
def Projects (ran : Query) (o : DataOptions) (row : Row) : RowData → Prop
  | .value v => ran.select.output = .value ∧
    ∃ key, (returnsValue ran.select.returns).asText? = some key ∧ ran.type.Tells o row key key v
  | .pairs ps => match ran.select.output with
    | .record => ∀ p ∈ ps, ∃ key field, p.1.asText? = some key ∧
      (key, field) ∈ ran.type.table.fields ∧ ran.type.Tells o row (field.column key) key p.2
    | .object => ∀ p ∈ ps, ∃ key, p.1 = .text key ∧ ran.type.Tells o row key key p.2
    | .value => False

/-- Whether a query labels its rows as another one: it has the same shape, and returns single values
under the same key. -/
structure LabelsLike (q ran : Query) : Prop where
  output : q.select.output = ran.select.output
  key : q.select.output = .value →
    (returnsValue q.select.returns).asText? = (returnsValue ran.select.returns).asText?

/-- Options of the right types let keys through that are shown. -/
theorem shows_of_allowedKeys (ho : t.Reads o) : ∃ allowed, allowedKeys t o = .ok allowed ∧
    ∀ (v : Value) (key : String), v.asText? = some key → allowed.all (isAmong · v) = true →
      t.shows o key = true := by
  obtain ⟨keys, hchosen, hkeys⟩ := ho.chosenKeys
  have hset : setOf keys = .ok keys := by
    refine if_pos (List.all_eq_true.mpr fun key hkey ↦ ?_)
    obtain ⟨name, hname⟩ := hkeys key hkey
    exact Value.hashable_of_asText? hname
  have hhidden : setOf t.privateFields = .ok t.privateFields :=
    if_pos (List.all_eq_true.mpr ho.hidden)
  have hsuccess : ∃ allowed, allowedKeys t o = .ok allowed := by
    rw [allowedKeys, hchosen]
    split
    · exact ⟨none, rfl⟩
    · show ∃ allowed, setOf keys >>= _ = .ok allowed
      rw [hset]
      show ∃ allowed, (if o.includePrivate then _ else setOf t.privateFields >>= _) = .ok allowed
      rw [hhidden]
      split
      · exact ⟨_, rfl⟩
      · exact ⟨_, rfl⟩
  obtain ⟨allowed, hallowed⟩ := hsuccess
  refine ⟨allowed, hallowed, fun v key hv hpasses ↦ ?_⟩
  rcases hprivate : o.includePrivate with _ | _
  · obtain ⟨among, rfl, hnot⟩ := isAmong_of_hides hprivate hallowed
    rw [RecordType.shows, hprivate, Bool.false_or, Bool.not_eq_true', Bool.eq_false_iff]
    intro hhides
    rw [Option.all_some, hnot v key hv hhides] at hpasses
    exact Bool.false_ne_true hpasses
  · rw [RecordType.shows, hprivate, Bool.true_or]

theorem orDefault_eq_or (t : RecordType) (o : DataOptions) (label : String) (v : Value) :
    orDefault t o label v = v ∨
      (o.includeDefaults = true ∧ ∃ other, orDefault t o label v = t.default other) := by
  rw [orDefault]
  split
  next hasked => exact .inr ⟨(Bool.and_eq_true_iff.mp hasked).1, label, rfl⟩
  next => exact .inl rfl

theorem tells_orDefault {v : Value} {column key label : String}
    (h : (t.shows o key = true ∧ (column, v) ∈ row) ∨ v = .null) :
    t.Tells o row column key (orDefault t o label v) := by
  rcases orDefault_eq_or t o label v with hsame | hdefault
  · rw [hsame]
    exact h.imp_right .inl
  · exact .inr (.inr hdefault)

theorem mem_letThrough {allowed : Option (List Value)} {ps : Pairs} {p : Value × Value} :
    p ∈ letThrough allowed ps ↔ p ∈ ps ∧ allowed.all (isAmong · p.1) = true := by
  rcases allowed with _ | keys
  · simp [letThrough]
  · exact List.mem_filter

theorem objectData_tells {allowed : Option (List Value)}
    (hshows : ∀ (v : Value) (key : String), v.asText? = some key →
      allowed.all (isAmong · v) = true → q.type.shows o key = true) (row : Row) :
    FaultsOr (fun ps : Pairs ↦ ∀ p ∈ ps, ∃ key, p.1 = .text key ∧ q.type.Tells o row key key p.2)
      (q.objectData o allowed (.map row)) := by
  show ∀ p ∈ List.map _ (letThrough allowed (.ofEntries row)), _
  intro p hp
  obtain ⟨p', hp', rfl⟩ := List.mem_map.mp hp
  obtain ⟨hrow, hpasses⟩ := mem_letThrough.mp hp'
  obtain ⟨⟨key, v⟩, he, rfl⟩ := List.mem_map.mp hrow
  exact ⟨key, rfl, tells_orDefault (.inl ⟨hshows (.text key) key rfl hpasses, he⟩)⟩

/-- A row of single values is blanked unless its key is let through. -/
theorem valueData_of_text {allowed : Option (List Value)} {key : String}
    (hkey : (returnsValue q.select.returns).asText? = some key) (v : Value) :
    q.valueData o allowed v = .ok (orDefault q.type o (returnsValue q.select.returns).inline
      (if allowed.all (isAmong · (returnsValue q.select.returns)) then v else .null)) := by
  rcases allowed with _ | keys
  · rfl
  · rw [valueData, if_pos (Value.hashable_of_asText? hkey)]
    rfl

theorem valueData_tells {allowed : Option (List Value)}
    (hshows : ∀ (v : Value) (key : String), v.asText? = some key →
      allowed.all (isAmong · v) = true → q.type.shows o key = true) {key : String}
    (hkey : (returnsValue q.select.returns).asText? = some key) {v : Value} (hv : (key, v) ∈ row) :
    FaultsOr (q.type.Tells o row key key) (q.valueData o allowed v) := by
  rw [valueData_of_text hkey]
  refine tells_orDefault ?_
  split
  next hpasses => exact .inl ⟨hshows _ key hkey hpasses, hv⟩
  next => exact .inr rfl

/-! ## Queries -/

theorem faultsOr_checkDataOptions (q : Query) (o : DataOptions) :
    FaultsOr (fun _ ↦ True) (q.checkDataOptions o) := by
  rw [checkDataOptions]
  split
  · exact ⟨_, rfl⟩
  split
  · exact ⟨_, rfl⟩
  split
  · exact ⟨_, rfl⟩
  · trivial

section

variable {held : Value} {allowed : Option (List Value)}

theorem recordData_projects (ho : ran.type.Reads o) (ht : ran.type.KeepsState)
    (hran : ran.select.output = .record) (h : ran.Holds records row held) :
    FaultsOr (ran.Projects o row) (.pairs <$> recordData records o held) := by
  rw [Holds, hran] at h
  obtain ⟨id, _, _, _, r, source, rfl, hr, hmade⟩ := h
  obtain ⟨htype, hmirrors⟩ := Record.mirrors_of_ofRow ht hmade
  rw [recordData, hr]
  refine (Record.data_tells (htype ▸ ho) hmirrors).map fun ps hps ↦ ?_
  rw [Projects, hran, ← htype]
  exact hps

theorem objectData_projects (htype : q.type = ran.type) (hran : ran.select.output = .object)
    (hshows : ∀ (v : Value) (key : String), v.asText? = some key →
      allowed.all (isAmong · v) = true → q.type.shows o key = true)
    (h : ran.Holds records row held) :
    FaultsOr (ran.Projects o row) (.pairs <$> q.objectData o allowed held) := by
  rw [Holds, hran] at h
  rw [h]
  refine (objectData_tells hshows row).map fun ps hps ↦ ?_
  rw [Projects, hran, ← htype]
  exact hps

theorem valueData_projects (htype : q.type = ran.type) (hran : ran.select.output = .value)
    (hsame : (returnsValue q.select.returns).asText? = (returnsValue ran.select.returns).asText?)
    (hshows : ∀ (v : Value) (key : String), v.asText? = some key →
      allowed.all (isAmong · v) = true → q.type.shows o key = true)
    (h : ran.Holds records row held) :
    FaultsOr (ran.Projects o row) (.value <$> q.valueData o allowed held) := by
  rw [Holds, hran, cell] at h
  rcases hkey : (returnsValue ran.select.returns).asText? with _ | key
  · rw [hkey] at h
    contradiction
  rw [hkey, Option.bind_some] at h
  rcases hlookup : row.lookup key with _ | v
  · rw [hlookup] at h
    contradiction
  rw [hlookup] at h
  obtain rfl := Except.ok.inj h
  refine (valueData_tells hshows (hsame.trans hkey) (Entries.mem_of_lookup hlookup)).map
    fun v hv ↦ ?_
  exact ⟨hran, key, hkey, htype ▸ hv⟩

end

/-- **Data projects the rows** that a query holds under its labels, or there is a fault. -/
theorem data_projects (htype : q.type = ran.type) (hlabels : q.LabelsLike ran)
    (ho : ran.type.Reads o) (ht : ran.select.output = .record → ran.type.KeepsState)
    {rows : List Row} (hheld : List.Forall₂ (ran.Holds records) rows q.rows) :
    FaultsOr (List.Forall₂ (ran.Projects o) rows) (q.data records o) := by
  obtain ⟨allowed, hallowed, hshows⟩ := shows_of_allowedKeys ho
  rw [← htype] at hallowed hshows
  rw [data]
  refine (faultsOr_checkDataOptions q o).bind fun _ _ ↦ ?_
  rcases hshape : q.select.output with _ | _ | _
  · have hran : ran.select.output = .record := hlabels.output ▸ hshape
    exact FaultsOr.mapM (hheld.imp fun _ _ ↦ recordData_projects ho (ht hran) hran)
  · have hran : ran.select.output = .object := hlabels.output ▸ hshape
    rw [hallowed]
    exact FaultsOr.mapM (hheld.imp fun _ _ ↦ objectData_projects htype hran hshows)
  · have hran : ran.select.output = .value := hlabels.output ▸ hshape
    rw [hallowed]
    exact FaultsOr.mapM
      (hheld.imp fun _ _ ↦ valueData_projects htype hran (hlabels.key hshape) hshows)

end Query

end Rowmap
