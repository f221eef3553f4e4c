import Rowmap.Proofs.Record.Carried

/-!
# Accessors and the state of records

A field whose key is an identifier gets an accessor, unless that is a name which every record type
has already or one of two names that records keep their state under. Records keep more than those
two under names of their own, so a field may displace a part of their state.

What follows is exact. A type makes records if the accessors among these names are of declared
fields and of the two parts that a field can hold: which fields were given a value, and the key of
the row. Setting a field changes that field alone, unless a field holds which fields were given a
value.
-/

namespace Rowmap

/-! ## Accessors of declared types -/

namespace TypeDeclaration

variable {d : TypeDeclaration} {base t : RecordType}

theorem accessors_of_extend (h : d.extend base = .ok t) : t.accessors = base.accessors ++
    t.keys.filter fun key ↦ Declaration.admitsAccessor key && !base.accessors.contains key := by
  rw [extend] at h
  split at h
  · cases h
  · obtain ⟨own, -, h⟩ := Except.bind_eq_ok.mp h
    obtain ⟨primaryKey, -, h⟩ := Except.bind_eq_ok.mp h
    obtain ⟨privateFields, -, h⟩ := Except.bind_eq_ok.mp h
    cases h
    rfl

end TypeDeclaration

namespace RecordType

variable {t : RecordType}

/-- The record types that declarations make, each based on another. -/
inductive Declared : RecordType → Prop where
  | root : Declared root
  | extend {base t : RecordType} {d : TypeDeclaration} (hbase : Declared base)
      (h : d.extend base = .ok t) : Declared t

theorem Declared.admitsAccessor (h : t.Declared) :
    ∀ key ∈ t.accessors, Declaration.admitsAccessor key = true := by
  induction h with
  | root => exact List.forall_mem_nil _
  | extend _ hextend ih =>
    rw [TypeDeclaration.accessors_of_extend hextend]
    refine List.forall_mem_append.mpr ⟨ih, fun key hkey ↦ ?_⟩
    exact (Bool.and_eq_true_iff.mp (List.mem_filter.mp hkey).2).1

theorem Declared.mem_accessors {key : String} (h : t.Declared) (hkey : t.declares key = true)
    (hadmits : Declaration.admitsAccessor key = true) : key ∈ t.accessors := by
  cases h with
  | root => cases hkey
  | @extend base _ _ _ hextend =>
    rw [TypeDeclaration.accessors_of_extend hextend, List.mem_append, List.mem_filter]
    by_cases hmem : key ∈ base.accessors
    · exact .inl hmem
    · exact .inr ⟨Table.mem_keys_of_declares hkey, by simp [hadmits, hmem]⟩

theorem Declared.hasAccessor_iff {key : String} (h : t.Declared) (hkey : t.declares key = true) :
    t.hasAccessor key = true ↔ Declaration.admitsAccessor key = true := by
  rw [hasAccessor, hkey, Bool.true_and, List.contains_iff_mem]
  exact ⟨h.admitsAccessor key, h.mem_accessors hkey⟩

end RecordType

/-! ## Names of the state -/

namespace Record

/-- The names under which a new record keeps its state. -/
def storedNames : List String := displaced.map (·.1) ++ Declaration.stateNames

theorem admitsAccessor_of_mem_storedNames : ∀ name ∈ storedNames,
    (Declaration.admitsAccessor name = true ↔ name ∈ displaced.map (·.1)) := by
  decide +kernel

end Record

/-- The accessors leave a new record its state: those among its names are of declared fields, and of
the two parts that a field can hold. -/
def RecordType.HoldsState (t : RecordType) : Prop :=
  ∀ name ∈ Record.storedNames, name ∈ t.accessors →
    t.declares name = true ∧ (name = Record.setKeysName ∨ name = Record.rowKeyName)

/-- The accessors of a type spare its new records: they leave them their state, and none is the one
that forbids records of the type. -/
structure RecordType.SparesNew (t : RecordType) : Prop where
  concrete : t.hasAccessor Record.abstractName = false
  holdsState : t.HoldsState

namespace Record

variable {t : RecordType} {r : Record} {source : Source}

/-! ## Making records -/

theorem displacement?_eq_none_iff (ht : t.Declared) : displacement? t = none ↔ t.HoldsState := by
  have hheld : ∀ e ∈ displaced, e.2 = none ↔ e.1 = setKeysName ∨ e.1 = rowKeyName := by decide
  have hplace (e : String × Option Failure) (he : e ∈ displaced) :
      (if t.declares e.1 = true then e.2 else some (t.table.unknown (.text e.1))) = none ↔
        t.declares e.1 = true ∧ (e.1 = setKeysName ∨ e.1 = rowKeyName) := by
    rw [← hheld e he]
    split <;> simp [*]
  rw [displacement?, List.findSome?_eq_none_iff]
  constructor
  · intro h name hname haccessor
    have hdisplaced : name ∈ displaced.map (·.1) :=
      (admitsAccessor_of_mem_storedNames name hname).mp (ht.admitsAccessor name haccessor)
    obtain ⟨e, he, rfl⟩ := List.mem_map.mp hdisplaced
    refine (hplace e he).mp (h e (List.mem_filter.mpr ⟨he, ?_⟩))
    exact List.contains_iff_mem.mpr haccessor
  · intro h e he
    obtain ⟨hdisplaced, haccessor⟩ := List.mem_filter.mp he
    refine (hplace e hdisplaced).mpr (h e.1 ?_ (List.contains_iff_mem.mp haccessor))
    exact List.mem_append_left _ (List.mem_map_of_mem hdisplaced)

theorem blank_of_sparesNew (ht : t.Declared) {conn : Option Connection} {pool : Option Pool}
    (hsource : source.split = .ok (conn, pool)) (hkeyed : t.table.primaryKey ≠ [])
    (h : t.SparesNew) : blank t source = .ok (empty t conn pool) := by
  rw [blank, h.concrete, List.isEmpty_eq_false_iff.mpr hkeyed, hsource,
    (displacement?_eq_none_iff ht).mpr h.holdsState]
  rfl

theorem blank_of_not_sparesNew (ht : t.Declared) {conn : Option Connection} {pool : Option Pool}
    (hsource : source.split = .ok (conn, pool)) (h : ¬ t.SparesNew) :
    ∃ e, blank t source = .error e := by
  rw [blank]
  split
  · exact ⟨_, rfl⟩
  · rename_i hconcrete
    split
    · exact ⟨_, rfl⟩
    · have hholds : ¬ t.HoldsState := fun hholds ↦ h ⟨Bool.eq_false_iff.mpr hconcrete, hholds⟩
      obtain ⟨e, he⟩ := Option.ne_none_iff_exists'.mp (mt (displacement?_eq_none_iff ht).mp hholds)
      rw [hsource, he]
      exact ⟨e, rfl⟩

theorem exists_setBy (htype : r.type = t) {key : Value} {name : String}
    (hname : key.asText? = some name) (hkey : t.declares name = true) (v : Value) :
    ∃ r', r.setBy key v = .ok r' ∧ r'.type = t := by
  refine ⟨r.put name v, ?_, (type_put r name v).trans htype⟩
  rw [setBy, hname]
  exact if_pos (htype ▸ hkey)

theorem exists_setEach {ps : Pairs}
    (h : ∀ p ∈ ps, ∃ name, p.1.asText? = some name ∧ t.declares name = true)
    (htype : r.type = t) :
    ∃ r', ps.foldlM (fun r (key, v) ↦ r.setBy key v) r = .ok r' ∧ r'.type = t := by
  induction ps generalizing r with
  | nil => exact ⟨r, rfl, htype⟩
  | cons p ps ih =>
    obtain ⟨key, v⟩ := p
    obtain ⟨⟨name, hname, hkey⟩, hrest⟩ := List.forall_mem_cons.mp h
    obtain ⟨r₁, hset, htype₁⟩ := exists_setBy htype hname hkey v
    obtain ⟨r', hfold, htype'⟩ := ih hrest htype₁
    refine ⟨r', ?_, htype'⟩
    rw [List.foldlM_cons, ← hfold]
    exact congrArg (· >>= _) hset

/-! ## Setting fields -/

/-- Setting a declared field of a record gives it that value, and leaves every other field as it
was. -/
def SetsAlone (r : Record) : Prop :=
  ∀ key v, r.type.declares key = true → ∃ r', r.set key v = .ok r' ∧ r'.get key = .ok v ∧
    ∀ other, other ≠ key → r'.get other = r.get other

theorem setsAlone (h : r.type.hasAccessor setKeysName = false) : r.SetsAlone := by
  intro key v hkey
  refine ⟨r.put key v, if_pos hkey, ?_, fun other hother ↦ ?_⟩
  · rw [get, put_of_plain h, if_pos hkey, Entries.valueAt, Entries.lookup_put_self]
    rfl
  · rw [get, get, put_of_plain h]
    dsimp only
    rw [Entries.valueAt, Entries.lookup_put_of_ne _ _ hother]
    rfl

/-- A record with a field that holds which of its fields were given a value. -/
structure SharesSetKeys (r : Record) : Prop where
  accessor : r.type.hasAccessor setKeysName = true
  value : r.values.lookup setKeysName = some (setKeysValue r.setKeys)

theorem SharesSetKeys.get (h : r.SharesSetKeys) :
    r.get setKeysName = .ok (setKeysValue r.setKeys) := by
  have hkey : r.type.declares setKeysName = true := (Bool.and_eq_true_iff.mp h.accessor).1
  rw [Record.get, if_pos hkey, Entries.valueAt, h.value]
  rfl

/-- Where a field has the place for it, setting a field changes that field too. -/
theorem sharesSetKeys_put (haccessor : r.type.hasAccessor setKeysName = true) (key : String)
    (hplace : key = setKeysName ∨ (r.values.lookup setKeysName).isSome = true) (v : Value) :
    (r.put key v).SharesSetKeys := by
  refine ⟨(type_put r key v).symm ▸ haccessor, ?_⟩
  have hheld : ((r.values.put key v).lookup setKeysName).isSome = true := by
    rw [Entries.lookup_put]
    split
    · rfl
    · rename_i hne
      exact hplace.resolve_left fun heq ↦ hne heq.symm
  rw [put, haccessor, if_pos rfl, shareSetKeys, if_pos hheld, Entries.lookup_put_self]

/-- A new record has no more than the parts of its state set that fields hold. -/
theorem sharesSetKeys_empty (haccessor : t.hasAccessor setKeysName = true)
    (conn : Option Connection) (pool : Option Pool) :
    (empty t conn pool).SharesSetKeys ∧
      ∀ key ∈ (empty t conn pool).setKeys, key = setKeysName ∨ key = rowKeyName := by
  have hfirst : (({ type := t, conn, pool } : Record).put setKeysName
      (setKeysValue [])).SharesSetKeys := sharesSetKeys_put haccessor _ (.inl rfl) _
  rw [empty, haccessor, if_pos rfl]
  split
  -- the key of the row may be held by a field too, which then is set as the second one
  · refine ⟨sharesSetKeys_put hfirst.accessor _ (.inr (Option.isSome_of_eq_some hfirst.value)) _,
      fun key hkey ↦ ?_⟩
    rw [mem_setKeys_put, mem_setKeys_put] at hkey
    obtain (hkey | rfl) | rfl := hkey
    · cases hkey
    · exact .inl rfl
    · exact .inr rfl
  · refine ⟨hfirst, fun key hkey ↦ ?_⟩
    rw [mem_setKeys_put] at hkey
    obtain hkey | rfl := hkey
    · cases hkey
    · exact .inl rfl

/-- Setting a field for the first time changes the field that holds which of them were set. -/
theorem SharesSetKeys.get_put_ne (h : r.SharesSetKeys) {key : String} (hkey : key ∉ r.setKeys)
    (v : Value) : (r.put key v).get setKeysName ≠ r.get setKeysName := by
  have hput := sharesSetKeys_put h.accessor key (.inr (Option.isSome_of_eq_some h.value)) v
  have hkeys : (r.put key v).setKeys = r.setKeys ++ [key] := by
    rw [setKeys_put, Entries.addKey, if_neg hkey]
  rw [hput.get, h.get, hkeys, setKeysValue, setKeysValue]
  intro heq
  have hlength := congrArg List.length (Value.set.inj (Except.ok.inj heq)).2
  simp at hlength

/-- **Accessors spare the state of records as far as they are kept from it.** A declared field whose
key is a name of a record's state has an accessor, but for two of these names. A declared type with
a primary key makes records from all values of declared fields if its accessors spare them, and
makes none if they do not. Setting a field of a record changes that field alone, unless a field
holds which fields were given a value: then setting any other for the first time changes that
one. -/
theorem accessors_spare_state_if_kept (ht : t.Declared) :
    (∀ name ∈ storedNames, t.declares name = true →
      (t.hasAccessor name = true ↔ name ∈ displaced.map (·.1))) ∧
    (∀ {source : Source} {conn : Option Connection} {pool : Option Pool},
      source.split = .ok (conn, pool) → t.table.primaryKey ≠ [] →
      (t.SparesNew → ∀ values given further, initialValues t values = .ok given →
        (∀ p ∈ given.override (.ofEntries further),
          ∃ name, p.1.asText? = some name ∧ t.declares name = true) →
        ∃ r, make t source values further = .ok r ∧ r.type = t) ∧
      (¬ t.SparesNew → ∀ values further, ∃ e, make t source values further = .error e)) ∧
    (t.hasAccessor setKeysName = false → ∀ r : Record, r.type = t → r.SetsAlone) ∧
    (t.hasAccessor setKeysName = true → ∀ (source : Source) (r : Record),
      blank t source = .ok r →
      ∀ key, t.declares key = true → key ≠ setKeysName → key ≠ rowKeyName →
      ∀ v, ∃ r', r.set key v = .ok r' ∧ r'.get setKeysName ≠ r.get setKeysName) := by
  refine ⟨fun name hname hkey ↦ ?_, fun {source conn pool} hsource hkeyed ↦ ⟨?_, ?_⟩,
    fun hplain r htype ↦ setsAlone (htype ▸ hplain), ?_⟩
  · exact (ht.hasAccessor_iff hkey).trans (admitsAccessor_of_mem_storedNames name hname)
  · intro hspares values given further hgiven hkeys
    obtain ⟨r, hmade, htype⟩ := exists_setEach hkeys (Consistent.empty t conn pool).type
    refine ⟨r, ?_, htype⟩
    rw [make, blank_of_sparesNew ht hsource hkeyed hspares, ← hmade]
    show (initialValues t values >>= _) = _
    rw [hgiven]
    rfl
  · intro hspares values further
    obtain ⟨e, he⟩ := blank_of_not_sparesNew ht hsource hspares
    exact ⟨e, by rw [make, he]; rfl⟩
  · intro haccessor source r hblank key hkey hsetKeys hrowKey v
    obtain ⟨conn, pool, rfl, -⟩ := of_blank hblank
    obtain ⟨hshares, hset⟩ := sharesSetKeys_empty haccessor conn pool
    have htype : (empty t conn pool).type = t := (Consistent.empty t conn pool).type
    refine ⟨_, if_pos (htype.symm ▸ hkey), hshares.get_put_ne (fun hmem ↦ ?_) v⟩
    exact (hset key hmem).elim hsetKeys hrowKey

/-- A declaration of a number, its key, and of a text under a given key. -/
def noteWith (key : String) : TypeDeclaration where
  name := "Note"
  table := some (.text "notes")
  fields := some (.map [
    ("a", .map [("type", .text "integer"), ("primary_key", .bool true)]),
    (key, .map [("type", .text "text")])])

/-- The type that this declares, with its accessors. -/
def noteType (key : String) (accessors : List String) : RecordType where
  table := {
    recordName := "Note"
    name := .text "notes"
    fields := [("a", ⟨.integer, none, true, true⟩), (key, ⟨.text, none, false, true⟩)]
    primaryKey := [.text "a"] }
  defaults := [("a", .null), (key, .null)]
  privateFields := []
  accessors

theorem declared_noteType {key : String} {accessors : List String}
    (h : ["a", key].filter Declaration.admitsAccessor = accessors) :
    (noteType key accessors).Declared := by
  have hname : (noteWith key).name.contains '\x00' = false := by cbv
  have hown : ["a", key].filter (Declaration.admitsAccessor · && true) = accessors :=
    (List.filter_congr fun _ _ ↦ Bool.and_true _).trans h
  refine .extend (d := noteWith key) .root ?_
  rw [TypeDeclaration.extend, hname, if_neg Bool.false_ne_true, ← hown]
  rfl

theorem accessors_spare_state_if_kept_warnings :
    (noteType "warnings" ["a"]).Declared ∧ (noteType "warnings" ["a"]).SparesNew ∧
    (∃ r, make (noteType "warnings" ["a"]) .absent
      (.map [("a", .int 1), ("warnings", .text "x")]) [] = .ok r ∧ r.SetsAlone) ∧
    (noteType "warnings" ["a"]).hasAccessor "warnings" = false := by
  have hdeclared : (noteType "warnings" ["a"]).Declared := declared_noteType (by decide +kernel)
  have hspares : (noteType "warnings" ["a"]).SparesNew := by
    refine ⟨by decide, fun name hname haccessor ↦ ?_⟩
    obtain rfl := List.mem_singleton.mp haccessor
    exact absurd hname (by decide)
  obtain ⟨haccessors, hmakes, hsets, -⟩ := accessors_spare_state_if_kept hdeclared
  obtain ⟨r, hr, htype⟩ := (@hmakes .absent none none rfl (List.cons_ne_nil _ _)).1 hspares
    (.map [("a", .int 1), ("warnings", .text "x")]) _ [] rfl (by decide)
  refine ⟨hdeclared, hspares, ⟨r, hr, hsets rfl r htype⟩, Bool.eq_false_iff.mpr fun h ↦ ?_⟩
  exact absurd ((haccessors "warnings" (by decide) (by decide)).mp h) (by decide)

theorem blank_of_connectionField :
    (noteType "_conn" ["a", "_conn"]).Declared ∧ "_conn" ∈ storedNames ∧
    (noteType "_conn" ["a", "_conn"]).hasAccessor "_conn" = true ∧
    (noteType "_conn" ["a", "_conn"]).table.primaryKey ≠ [] ∧
    make (noteType "_conn" ["a", "_conn"]) .absent .null [] = .error .missingPart := by
  refine ⟨declared_noteType (by decide +kernel), by decide, by decide, List.cons_ne_nil _ _, rfl⟩

end Record

end Rowmap
