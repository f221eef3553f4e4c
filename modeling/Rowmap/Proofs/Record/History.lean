import Rowmap.Proofs.Condition.Cases
import Rowmap.Proofs.Session.Keeps
import Rowmap.Proofs.Value.Pairs
import Rowmap.Proofs.Value.Parts
import Rowmap.Record.New
import Rowmap.Record.Persistence

/-!
# What a record remembers of its row

The values that a record had when it last matched its row are kept in two places: as a whole, to
tell which fields are dirty, and those of the primary key once more, to name the row. Setting fields
and taking over rows change one, both or neither, and may fail in between. `History` follows a
record through any run of these with the values at the last match beside it, and `Tracks` says that
both places agree with them.

A field whose accessor has the name of one of the two places would be that place, so the types here
have none.
-/

namespace Rowmap

theorem Table.declares_of_mem_keys {α : Type} {t : Table α} {key : String} (h : key ∈ t.keys) :
    t.declares key = true := by
  obtain ⟨e, he, rfl⟩ := List.mem_map.mp h
  rw [declares, field?, Option.isSome_iff_ne_none]
  intro hnone
  simpa using List.lookup_eq_none_iff.mp hnone e he

namespace RecordType

def keyNames (t : RecordType) : List String := t.table.primaryKey.filterMap Value.asText?

structure KeepsState (t : RecordType) : Prop where
  setKeys : t.hasAccessor Record.setKeysName = false
  rowKey : t.hasAccessor Record.rowKeyName = false

end RecordType

namespace Record

variable {t : RecordType} {r r' : Record} {last : Option Entries}

/-! ## Histories -/

/-- The records that are made, and changed by setting fields and by taking over rows and values that
are known to match one, with the values that they had at the last match. What fails has changed some
fields at most. -/
inductive History (t : RecordType) : Record → Option Entries → Prop where
  | make {source : Source} {values : Value} {further : Entries} {r : Record}
      (h : Record.make t source values further = .ok r) : History t r none
  | set {r r' : Record} {last : Option Entries} {key v : Value} (before : History t r last)
      (h : r.setBy key v = .ok r') : History t r' last
  | load {r r' : Record} {last : Option Entries} {row : Row} (before : History t r last)
      (h : loadRow row r = (.ok (), r')) : History t r' (some r'.values)
  | loadFailed {r r' : Record} {last : Option Entries} {row : Row} {e : Failure}
      (before : History t r last) (h : loadRow row r = (.error e, r')) : History t r' last
  | restore {r r' : Record} {last : Option Entries} {es : Entries} (before : History t r last)
      (h : Record.restore es r = (.ok (), r')) : History t r' (some r'.values)
  | restoreFailed {r r' : Record} {last : Option Entries} {es : Entries} {e : Failure}
      (before : History t r last) (h : Record.restore es r = (.error e, r')) : History t r' last

/-- What a record keeps of its last match, in both places. -/
structure Tracks (t : RecordType) (r : Record) (last : Option Entries) : Prop where
  type : r.type = t
  declared : ∀ key ∈ r.values.keys, t.declares key = true
  loaded : r.loaded = last.isSome
  clean : r.clean = last.getD []
  declaredLast : ∀ key ∈ (last.getD []).keys, t.declares key = true
  keyed : t.table.primaryKey ≠ []
  rowKey : r.rowKey.Are
    (last.elim [] fun es ↦ .graph es.valueAt (Entries.firsts t.keyNames))

/-! ## Setting fields -/

/-- A record that differs from another in the values of declared fields at most. -/
structure SetsOnly (t : RecordType) (r r' : Record) : Prop where
  type : r'.type = r.type
  loaded : r'.loaded = r.loaded
  clean : r'.clean = r.clean
  rowKey : r'.rowKey = r.rowKey
  declared : (∀ key ∈ r.values.keys, t.declares key = true) →
    ∀ key ∈ r'.values.keys, t.declares key = true

theorem SetsOnly.refl (t : RecordType) (r : Record) : SetsOnly t r r := ⟨rfl, rfl, rfl, rfl, id⟩

theorem SetsOnly.trans {r'' : Record} (h : SetsOnly t r r') (h' : SetsOnly t r' r'') :
    SetsOnly t r r'' where
  type := h'.type.trans h.type
  loaded := h'.loaded.trans h.loaded
  clean := h'.clean.trans h.clean
  rowKey := h'.rowKey.trans h.rowKey
  declared hkeys := h'.declared (h.declared hkeys)

theorem Tracks.of_setsOnly (h : Tracks t r last) (hset : SetsOnly t r r') : Tracks t r' last where
  type := hset.type.trans h.type
  declared := hset.declared h.declared
  loaded := hset.loaded.trans h.loaded
  clean := hset.clean.trans h.clean
  declaredLast := h.declaredLast
  keyed := h.keyed
  rowKey := hset.rowKey ▸ h.rowKey

theorem put_of_plain (h : r.type.hasAccessor setKeysName = false) (key : String) (v : Value) :
    r.put key v = { r with
      values := r.values.put key v
      setKeys := if r.setKeys.contains key then r.setKeys else r.setKeys ++ [key] } := by
  rw [put, h, if_neg Bool.false_ne_true]

theorem put_eq (ht : t.KeepsState) (htype : r.type = t) (key : String) (v : Value) :
    r.put key v = { r with
      values := r.values.put key v
      setKeys := if r.setKeys.contains key then r.setKeys else r.setKeys ++ [key] } :=
  put_of_plain (htype.symm ▸ ht.setKeys) key v

theorem setsOnly_put (ht : t.KeepsState) (htype : r.type = t) {key : String}
    (hkey : t.declares key = true) (v : Value) : SetsOnly t r (r.put key v) := by
  rw [put_eq ht htype]
  refine ⟨rfl, rfl, rfl, rfl, fun hkeys other hother ↦ ?_⟩
  rw [Entries.keys_put, Entries.mem_addKey] at hother
  obtain hother | rfl := hother
  · exact hkeys other hother
  · exact hkey

/-! ### One field after the other -/

/-- A record that comes from another by values in declared fields, one after the other. -/
inductive Puts (t : RecordType) (r : Record) : Record → Prop where
  | refl : Puts t r r
  | put {r' : Record} {key : String} (before : Puts t r r') (hkey : t.declares key = true)
      (v : Value) : Puts t r (r'.put key v)

theorem type_put (r : Record) (key : String) (v : Value) : (r.put key v).type = r.type := by
  rw [put]
  split <;> rfl

namespace Puts

theorem type (h : Puts t r r') : r'.type = r.type := by
  induction h with
  | refl => rfl
  | put _ _ _ ih => rw [type_put, ih]

theorem trans {r'' : Record} (h : Puts t r r') (h' : Puts t r' r'') : Puts t r r'' := by
  induction h' with
  | refl => exact h
  | put _ hkey v ih => exact .put ih hkey v

theorem setsOnly (ht : t.KeepsState) (htype : r.type = t) (h : Puts t r r') :
    SetsOnly t r r' := by
  induction h with
  | refl => exact .refl t r
  | put _ hkey v ih => exact ih.trans (setsOnly_put ht (ih.type.trans htype) hkey v)

end Puts

theorem puts_of_setBy (htype : r.type = t) {key v : Value} (h : r.setBy key v = .ok r') :
    Puts t r r' := by
  rw [setBy] at h
  cases hkey : key.asText? with
  | none => simp [hkey] at h
  | some name =>
    simp only [hkey, set] at h
    split at h
    · rename_i hdeclared
      obtain rfl := Except.ok.inj h
      rw [htype] at hdeclared
      exact .put .refl hdeclared v
    · simp at h

/-- Setting several fields one after the other, which may stop at any of them. -/
theorem puts_of_setAll {ps : Pairs} {e : Except Failure Unit} {r r' : Record} (htype : r.type = t)
    (h : setAll ps r = (e, r')) : Puts t r r' := by
  induction ps generalizing r with
  | nil =>
    obtain ⟨-, rfl⟩ := Prod.mk.inj h
    exact .refl
  | cons p ps ih =>
    obtain ⟨key, v⟩ := p
    rw [setAll, List.forM_eq_forM, List.forM_cons] at h
    cases hset : r.setBy key v with
    | error e' =>
      have hstop : r = r' := by
        have hsnd := congrArg Prod.snd h
        simpa [Change.bind_apply, hset] using hsnd
      exact hstop ▸ .refl
    | ok r₁ =>
      have hfirst := puts_of_setBy htype hset
      refine hfirst.trans (ih (hfirst.type.trans htype) ?_)
      rw [← h, setAll]
      simp [Change.bind_apply, hset]

theorem puts_of_foldlM {ps : Pairs} {r : Record} (htype : r.type = t)
    (h : ps.foldlM (fun r (key, v) ↦ r.setBy key v) r = .ok r') : Puts t r r' := by
  induction ps generalizing r with
  | nil =>
    obtain rfl := Except.ok.inj h
    exact .refl
  | cons p ps ih =>
    rw [List.foldlM_cons] at h
    obtain ⟨r₁, hset, hrest⟩ := Except.bind_eq_ok.mp h
    have hfirst := puts_of_setBy htype hset
    exact hfirst.trans (ih (hfirst.type.trans htype) hrest)

theorem puts_takeRow (htype : r.type = t) (row : Row) : Puts t r (r.takeRow row) := by
  have hfields : ∀ e ∈ r.type.table.fields, t.declares e.1 = true := by
    intro e he
    rw [htype] at he
    exact Table.declares_of_mem_keys (List.mem_map_of_mem he)
  rw [takeRow]
  clear htype
  generalize r.type.table.fields = fields at hfields
  induction fields generalizing r with
  | nil => exact .refl
  | cons e fields ih =>
    obtain ⟨key, field⟩ := e
    rw [List.forall_mem_cons] at hfields
    have hrest {r' : Record} (hfirst : Puts t r r') := hfirst.trans (@ih r' hfields.2)
    refine hrest ?_
    dsimp only
    split
    · exact .refl
    · exact .refl
    · exact .put .refl hfields.1 _

/-! ## Matching a row -/

theorem are_keyWith {part : Value → Value} {f : String → Value}
    (h : ∀ key ∈ r.type.table.primaryKey, ∃ name, key.asText? = some name ∧ part key = f name) :
    (r.keyWith part).Are (.graph f (Entries.firsts r.type.keyNames)) := by
  rw [keyWith, RecordType.keyNames, ← Entries.override_nil]
  generalize r.type.table.primaryKey = keys at h
  have hfold {ps : Pairs} {es : Entries} (hps : ps.Are es) :
      (keys.foldl (fun ps key ↦ ps.put key (part key)) ps).Are
        (es.override (.graph f (keys.filterMap Value.asText?))) := by
    induction keys generalizing ps es with
    | nil => exact hps
    | cons key keys ih =>
      rw [List.forall_mem_cons] at h
      obtain ⟨⟨name, hname, hpart⟩, hrest⟩ := h
      have hput := hps.put hname (part key)
      rw [hpart] at hput
      rw [List.filterMap_cons_some hname, List.foldl_cons, hpart]
      exact ih hrest hput
  exact hfold Pairs.are_nil

theorem matched_eq (ht : t.KeepsState) (htype : r.type = t) :
    r.matched = .ok { r with
      rowKey := r.rowKey.override r.currentKey, clean := r.values, loaded := true } := by
  have hkeeping : r.keepingKey = .ok { r with rowKey := r.rowKey.override r.currentKey } := by
    rw [keepingKey, htype, ht.rowKey, if_neg Bool.false_ne_true]
  rw [matched, hkeeping]
  rfl

theorem Tracks.matched (ht : t.KeepsState) (hparts : ∀ key ∈ t.table.primaryKey,
    ∃ name, key.asText? = some name) (h : Tracks t r last) (hmatched : r.matched = .ok r') :
    Tracks t r' (some r'.values) := by
  rw [matched_eq ht h.type] at hmatched
  obtain rfl := Except.ok.inj hmatched
  have hcurrent : r.currentKey.Are (.graph r.values.valueAt (Entries.firsts t.keyNames)) := by
    rw [← h.type]
    refine are_keyWith fun key hkey ↦ ?_
    obtain ⟨name, hname⟩ := hparts key (h.type ▸ hkey)
    exact ⟨name, hname, by rw [keyPart, hname]; rfl⟩
  have hkeys := Entries.nodup_firsts t.keyNames
  refine ⟨h.type, h.declared, rfl, rfl, h.declared, h.keyed, ?_⟩
  have hover := h.rowKey.override hcurrent
  cases last with
  | none =>
    rw [Option.elim_none, Entries.override_nil, Entries.firsts_of_nodup hkeys] at hover
    exact hover
  | some es =>
    rw [Option.elim_some, Entries.override_graph_self _ _ hkeys] at hover
    exact hover

/-- Marking a record as matching its row does so, or leaves it as it is. -/
theorem Tracks.setLoaded (ht : t.KeepsState) (hparts : ∀ key ∈ t.table.primaryKey,
    ∃ name, key.asText? = some name) (h : Tracks t r last) {skipCheck : Bool}
    (hloaded : r.setLoaded true skipCheck = .ok r') : Tracks t r' (some r'.values) := by
  rw [Record.setLoaded] at hloaded
  simp only [Bool.not_true, Bool.false_eq_true, if_false] at hloaded
  split at hloaded
  · simp at hloaded
  · exact h.matched ht hparts hloaded

theorem of_replaced {f : Record → Except Failure Record} {e : Except Failure Unit}
    (h : (do Change.set (← Change.ofExcept (f (← Change.get))) : Change Record Unit) r =
      (e, r')) : (∃ e', e = .error e' ∧ r' = r) ∨ e = .ok () ∧ f r = .ok r' := by
  cases hf : f r with
  | error e' =>
    simp only [Change.bind_apply, Change.get_apply, Change.ofExcept_apply, hf] at h
    exact .inl ⟨e', (Prod.mk.inj h).1.symm, (Prod.mk.inj h).2.symm⟩
  | ok r₁ =>
    simp only [Change.bind_apply, Change.get_apply, Change.ofExcept_apply, hf,
      Change.set_apply] at h
    exact .inr ⟨(Prod.mk.inj h).1.symm, by rw [(Prod.mk.inj h).2]⟩

theorem of_loadRow {row : Row} {e : Except Failure Unit} (h : loadRow row r = (e, r')) :
    (∃ e', e = .error e' ∧ r' = r.takeRow row) ∨
      e = .ok () ∧ (r.takeRow row).setLoaded true false = .ok r' :=
  of_replaced (f := (·.setLoaded true false)) h

theorem of_restore {es : Entries} {e : Except Failure Unit} (h : Record.restore es r = (e, r')) :
    (∃ e' x, e = .error e' ∧ setAll (.ofEntries es) r = (x, r')) ∨
      e = .ok () ∧ ∃ r₁, setAll (.ofEntries es) r = (.ok (), r₁) ∧
        r₁.setLoaded true true = .ok r' := by
  rw [Record.restore, Change.bind_apply] at h
  cases hset : setAll (.ofEntries es) r with
  | mk x r₁ =>
    rw [hset] at h
    cases x with
    | error e' =>
      obtain ⟨rfl, rfl⟩ := Prod.mk.inj h
      exact .inl ⟨e', _, rfl, rfl⟩
    | ok _ =>
      obtain ⟨e', he, rfl⟩ | ⟨he, hmark⟩ := of_replaced h
      · exact .inl ⟨e', _, he, rfl⟩
      · exact .inr ⟨he, r₁, rfl, hmark⟩

/-! ## Runs -/

theorem of_blank {source : Source} (h : blank t source = .ok r) :
    ∃ conn pool, r = empty t conn pool ∧ t.table.primaryKey ≠ [] := by
  rw [blank] at h
  split at h
  · simp at h
  split at h
  · simp at h
  rename_i hkeyed
  obtain ⟨⟨conn, pool⟩, -, h⟩ := Except.bind_eq_ok.mp h
  dsimp only at h
  split at h
  · simp at h
  · exact ⟨conn, pool, (Except.ok.inj h).symm, by simpa using hkeyed⟩

theorem tracks_blank (ht : t.KeepsState) {source : Source} (h : blank t source = .ok r) :
    Tracks t r none := by
  obtain ⟨conn, pool, rfl, hkeyed⟩ := of_blank h
  rw [Record.empty, ht.setKeys, ht.rowKey, if_neg Bool.false_ne_true, if_neg Bool.false_ne_true]
  exact ⟨rfl, by simp [Entries.keys], rfl, rfl, by simp [Entries.keys], hkeyed, rfl⟩

theorem tracks_make (ht : t.KeepsState) {source : Source} {values : Value} {further : Entries}
    (h : Record.make t source values further = .ok r) : Tracks t r none := by
  obtain ⟨r₀, hblank, h⟩ := Except.bind_eq_ok.mp h
  obtain ⟨ps, -, h⟩ := Except.bind_eq_ok.mp h
  have hstart := tracks_blank ht hblank
  refine hstart.of_setsOnly ?_
  exact (puts_of_foldlM hstart.type h).setsOnly ht hstart.type

/-- **A record remembers its last match**, whatever was done to it since and whatever failed. -/
theorem History.tracks (ht : t.KeepsState) (hparts : ∀ key ∈ t.table.primaryKey,
    ∃ name, key.asText? = some name) (h : History t r last) : Tracks t r last := by
  induction h with
  | make h => exact tracks_make ht h
  | set _ h ih => exact ih.of_setsOnly ((puts_of_setBy ih.type h).setsOnly ht ih.type)
  | @load r _ _ row _ h ih =>
    obtain ⟨e, he, -⟩ | ⟨-, hmark⟩ := of_loadRow h
    · simp at he
    · have htracks := ih.of_setsOnly ((puts_takeRow ih.type row).setsOnly ht ih.type)
      exact htracks.setLoaded ht hparts hmark
  | @loadFailed _ _ _ row _ _ h ih =>
    obtain ⟨e, -, rfl⟩ | ⟨he, -⟩ := of_loadRow h
    · exact ih.of_setsOnly ((puts_takeRow ih.type row).setsOnly ht ih.type)
    · simp at he
  | restore _ h ih =>
    obtain ⟨e, x, he, -⟩ | ⟨-, r₁, hset, hmark⟩ := of_restore h
    · simp at he
    · have htracks := ih.of_setsOnly ((puts_of_setAll ih.type hset).setsOnly ht ih.type)
      exact htracks.setLoaded ht hparts hmark
  | restoreFailed _ h ih =>
    obtain ⟨e, x, -, hset⟩ | ⟨he, -⟩ := of_restore h
    · exact ih.of_setsOnly ((puts_of_setAll ih.type hset).setsOnly ht ih.type)
    · simp at he

end Record

end Rowmap
