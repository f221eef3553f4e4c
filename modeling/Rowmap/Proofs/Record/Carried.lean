import Rowmap.Proofs.Record.Private

/-!
# Records of whole rows

A row with a value in the column of every field makes a record, if its type is one of which records
can be made. The record holds for each field what the row has for it, so its data is told by the row
and by the options alone: the fields that were chosen, each once, without the private ones unless
these are asked for. No default ever stands in, because every field was given a value.
-/

namespace Rowmap

/-! ## Pairs of entries -/

namespace Pairs

theorem put_ofEntries (es : Entries) (key : String) (v : Value) :
    (ofEntries es).put (.text key) v = ofEntries (es.put key v) := by
  induction es with
  | nil => rfl
  | cons e es ih =>
    obtain ⟨k, w⟩ := e
    show (if (Value.text k).matchesElement (.text key) then _ else _) =
      ofEntries (Entries.put _ _ _)
    have hmatch : (Value.text k).matchesElement (.text key) = (k == key) := by
      rw [Bool.eq_iff_iff, Value.matchesElement_iff rfl rfl, beq_iff_eq]
    rw [hmatch, Entries.put]
    split
    · rfl
    · exact congrArg _ ih

theorem filter_ofEntries_graph (f : String → Value) {p : Value × Value → Bool}
    {q : String → Bool} {keys : List String} (hp : ∀ key ∈ keys, ∀ v, p (.text key, v) = q key) :
    (ofEntries (.graph f keys)).filter p = ofEntries (.graph f (keys.filter q)) := by
  rw [ofEntries, ofEntries, Entries.graph, Entries.graph, List.map_map, List.map_map,
    List.filter_map]
  exact congrArg _ (List.filter_congr fun key hkey ↦ hp key hkey (f key))

end Pairs

theorem Table.field?_of_mem {α : Type} {t : Table α} (hkeys : t.keys.Nodup) {e : String × Field}
    (he : e ∈ t.fields) : t.field? e.1 = some e.2 := by
  rw [field?]
  rw [keys] at hkeys
  generalize t.fields = fields at hkeys he
  induction fields with
  | nil => exact absurd he List.not_mem_nil
  | cons f fields ih =>
    rw [List.map_cons, List.nodup_cons] at hkeys
    rw [List.lookup_cons]
    rcases List.mem_cons.mp he with rfl | hmem
    · rw [beq_self_eq_true]
    · have hne : e.1 ≠ f.1 := fun heq ↦ hkeys.1 (heq ▸ List.mem_map_of_mem hmem)
      rw [beq_eq_false_iff_ne.mpr hne]
      exact ih hkeys.2 hmem

namespace RecordType

def cell (t : RecordType) (row : Row) (key : String) : Value :=
  ((t.table.field? key).map fun f ↦ Entries.valueAt row (f.column key)).getD .null

/-- A record type of which a record is made from every row with a value for every field. -/
structure Makes (t : RecordType) : Prop where
  keepsState : t.KeepsState
  concrete : t.hasAccessor Record.abstractName = false
  displaces : Record.displacement? t = none
  keyed : t.table.primaryKey ≠ []
  parts : ∀ key ∈ t.table.primaryKey, ∃ name, key.asText? = some name ∧ t.declares name = true
  keys : t.keys.Nodup

/-- Options that choose fields of a type, and do not ask which of them were changed or given. -/
structure Picks (t : RecordType) (o : DataOptions) (chosen : List String) : Prop where
  fields : Record.chosenKeys t o = .ok (chosen.map .text)
  declared : ∀ key ∈ chosen, t.declares key = true
  hashable : ∀ v ∈ t.privateFields, v.hashable = true
  onlyDirty : o.onlyDirty = false
  onlySet : o.onlySet = false

/-- Whether a field is shown if it is chosen. -/
def shows (t : RecordType) (o : DataOptions) (key : String) : Bool :=
  o.includePrivate || !t.hides key

end RecordType

namespace Record

variable {t : RecordType} {r : Record} {row : Row}

/-! ## Taking a row over -/

theorem lookup_column (hkeys : t.keys.Nodup) (hrow : t.IsCarriedBy row) {e : String × Field}
    (he : e ∈ t.table.fields) :
    row.lookup (e.2.column e.1) = some (t.cell row e.1) ∧ t.cell row e.1 ≠ .unset := by
  obtain ⟨v, hv, hset⟩ := hrow e he
  have hcell : t.cell row e.1 = v := by
    rw [RecordType.cell, Table.field?_of_mem hkeys he]
    exact congrArg (·.getD .null) hv
  rw [hcell]
  exact ⟨hv, hset⟩

theorem values_foldl_takeCell (ht : t.KeepsState) (htype : r.type = t) (hkeys : t.keys.Nodup)
    (hrow : t.IsCarriedBy row) {fields : List (String × Field)}
    (hfields : ∀ e ∈ fields, e ∈ t.table.fields) :
    (fields.foldl (fun r e ↦ r.takeCell e.1 (row.lookup (e.2.column e.1))) r).values =
      r.values.override (.graph (t.cell row) (fields.map (·.1))) := by
  induction fields generalizing r with
  | nil => rfl
  | cons e fields ih =>
    obtain ⟨he, hrest⟩ := List.forall_mem_cons.mp hfields
    obtain ⟨hlookup, hset⟩ := lookup_column hkeys hrow he
    have hcell : r.takeCell e.1 (row.lookup (e.2.column e.1)) = r.put e.1 (t.cell row e.1) := by
      rw [hlookup, takeCell.eq_def]
      split
      · contradiction
      · next h => exact absurd (Option.some.inj h) hset
      · next h => rw [Option.some.inj h]
    rw [List.foldl_cons, hcell, ih ((type_put r _ _).trans htype) hrest, put_eq ht htype]
    rfl

/-- Taking over a whole row puts what it has for the fields over the values. -/
theorem values_takeRow (ht : t.KeepsState) (htype : r.type = t) (hkeys : t.keys.Nodup)
    (hrow : t.IsCarriedBy row) :
    (r.takeRow row).values = r.values.override (.graph (t.cell row) t.keys) := by
  rw [takeRow_eq, htype]
  exact values_foldl_takeCell ht htype hkeys hrow fun _ he ↦ he

theorem of_ofRow (ht : t.KeepsState) {source : Source} (h : ofRow t source row = .ok r) :
    r.type = t ∧
      ∃ r₀ : Record, r₀.type = t ∧ r₀.values = [] ∧ r.values = (r₀.takeRow row).values := by
  obtain ⟨r₀, hblank, h⟩ := Except.bind_eq_ok.mp h
  obtain ⟨conn, pool, rfl, -⟩ := of_blank hblank
  have hempty : empty t conn pool = { type := t, conn, pool } := by
    rw [empty, ht.setKeys, ht.rowKey]
    rfl
  rw [hempty] at h
  rcases hload : loadRow row { type := t, conn, pool } with ⟨x, r₁⟩
  rw [hload] at h
  obtain ⟨e, rfl, -⟩ | ⟨rfl, hloaded⟩ := of_loadRow hload
  · contradiction
  obtain rfl := Except.ok.inj h
  have htaken : (takeRow { type := t, conn, pool } row).type = t := (puts_takeRow rfl row).type
  have hmatched : (takeRow { type := t, conn, pool } row).matched = .ok r₁ := by
    rw [setLoaded, if_neg (by decide)] at hloaded
    split at hloaded
    · contradiction
    · exact hloaded
  rw [matched_eq ht htaken] at hmatched
  have hr := Except.ok.inj hmatched
  refine ⟨hr ▸ htaken, { type := t, conn, pool }, rfl, rfl, ?_⟩
  rw [← hr]

/-- **A record of a whole row** can be made, and has for each field what the row has. -/
theorem exists_ofRow (ht : t.Makes) {source : Source} {conn : Option Connection}
    {pool : Option Pool} (hsource : source.split = .ok (conn, pool)) (hrow : t.IsCarriedBy row) :
    ∃ r, ofRow t source row = .ok r ∧ r.type = t ∧ r.values = .graph (t.cell row) t.keys := by
  have hempty : empty t conn pool = { type := t, conn, pool } := by
    rw [empty, ht.keepsState.setKeys, ht.keepsState.rowKey]
    rfl
  have hblank : blank t source = .ok { type := t, conn, pool } := by
    rw [blank, ht.concrete, List.isEmpty_eq_false_iff.mpr ht.keyed, hsource, ht.displaces]
    exact congrArg Except.ok hempty
  have hdone : (loadRow row { type := t, conn, pool }).1 = .ok () :=
    loadRow_of_carried ht.keepsState ht.parts hrow
  have hmade : ofRow t source row = .ok (loadRow row { type := t, conn, pool }).2 := by
    refine Except.bind_eq_ok.mpr ⟨_, hblank, ?_⟩
    rcases hload : loadRow row { type := t, conn, pool } with ⟨x, r⟩
    rw [hload] at hdone
    obtain rfl : x = .ok () := hdone
    rfl
  obtain ⟨htype, r₀, htype₀, hvalues₀, hvalues⟩ := of_ofRow ht.keepsState hmade
  refine ⟨_, hmade, htype, ?_⟩
  rw [hvalues, values_takeRow ht.keepsState htype₀ ht.keys hrow, hvalues₀, Entries.override_nil,
    Entries.firsts_of_nodup ht.keys]

/-! ## Data -/

/-- A field that was given a value contributes it, unless only some fields are asked for. -/
theorem contribution_of_lookup {o : DataOptions} (hdirty : o.onlyDirty = false)
    (hset : o.onlySet = false) {key : String} {v : Value} (hkey : r.type.declares key = true)
    (hv : r.values.lookup key = some v) : r.contribution o key = .ok (some v) := by
  rw [contribution, hdirty, hset, get, if_pos hkey, Entries.valueAt, hv]
  rfl

theorem foldlM_contribute {o : DataOptions} (hdirty : o.onlyDirty = false)
    (hset : o.onlySet = false) {f : String → Value} (hvalues : r.values = .graph f r.type.keys)
    {chosen : List String} (hdeclared : ∀ key ∈ chosen, r.type.declares key = true) (es : Entries) :
    (chosen.map Value.text).foldlM (r.contribute o) (Pairs.ofEntries es) =
      .ok (Pairs.ofEntries (es.override (.graph f chosen))) := by
  induction chosen generalizing es with
  | nil => rfl
  | cons key chosen ih =>
    obtain ⟨hkey, hrest⟩ := List.forall_mem_cons.mp hdeclared
    have hv : r.values.lookup key = some (f key) := by
      rw [hvalues]
      exact Entries.lookup_graph f (Table.mem_keys_of_declares hkey)
    have hfirst : r.contribute o (Pairs.ofEntries es) (.text key) =
        .ok (Pairs.ofEntries (es.put key (f key))) := by
      rw [contribute_eq, contributionBy_of_text rfl, contribution_of_lookup hdirty hset hkey hv,
        ← Pairs.put_ofEntries]
      rfl
    rw [List.map_cons, List.foldlM_cons, hfirst]
    exact ih hrest (es.put key (f key))

/-- **The data of a record of a whole row**: what the row has for each field that was chosen and is
shown, once. -/
theorem data_of_graph {o : DataOptions} {chosen : List String} (ho : r.type.Picks o chosen)
    {f : String → Value} (hvalues : r.values = .graph f r.type.keys) :
    r.data o = .ok (Pairs.ofEntries
      (.graph f ((Entries.firsts chosen).filter (r.type.shows o)))) := by
  have hall := foldlM_contribute ho.onlyDirty ho.onlySet hvalues ho.declared []
  rw [Entries.override_nil] at hall
  have hdata : r.data o = if o.includePrivate
      then .ok (Pairs.ofEntries (.graph f (Entries.firsts chosen)))
      else withoutPrivate r.type.privateFields
        (Pairs.ofEntries (.graph f (Entries.firsts chosen))) := by
    rw [data, ho.fields]
    show (chosen.map Value.text).foldlM (r.contribute o) (Pairs.ofEntries []) >>= _ = _
    rw [hall]
    rfl
  rw [hdata]
  rcases hprivate : o.includePrivate with _ | _
  · have hstays (key : String) (v : Value) :
        Pairs.stays r.type.privateFields (.text key, v) = r.type.shows o key := by
      rw [Pairs.stays_eq rfl, RecordType.shows, hprivate, Bool.false_or]
      rfl
    rw [if_neg Bool.false_ne_true, withoutPrivate_eq,
      if_pos (List.all_eq_true.mpr ho.hashable),
      Pairs.filter_ofEntries_graph f fun key _ ↦ hstays key]
  · have hshows : r.type.shows o = fun _ ↦ true := by
      funext key
      rw [RecordType.shows, hprivate, Bool.true_or]
    rw [if_pos rfl, hshows, List.filter_true]

end Record

end Rowmap
