import Rowmap.Proofs.Record.Update

/-!
# Dirty fields

A record is given values one by one, from a row, or from a mapping that is known to match one, and
is marked as matching its row or as matching none. Each of these may fail, some of them half-way,
and the record goes on from where it was left. `Step` is one of them, and `follow` a run of them
with the values at the last load point beside the record.

What a step can do is said once: it puts values into declared fields, and then it may be a load
point or the end of one. From that follow the two invariants. `Consistent` holds of the records of
every type: the fields that were given a value are those that have one. `Remembers` says what a
record keeps of its last load point, for types none of whose fields stands in the place of its
state.
-/

namespace Rowmap

/-- What entries have for a part of a primary key; null for one that is no text. -/
def Entries.part (es : Entries) (key : Value) : Value := (key.asText?.map es.valueAt).getD .null

theorem Value.equal_unset_iff {v : Value} : v.equal .unset = true ↔ v = .unset := by
  cases v <;> simp [Value.equal, Value.compare?, Value.compareScalar?, Value.number?,
    Value.equalPlain, Value.asText?, Value.identity?]

namespace Record

variable {t : RecordType} {r r' : Record}

/-! ## Set fields -/

theorem keys_shareSetKeys (keys : List String) (es : Entries) :
    (shareSetKeys keys es).keys = es.keys := by
  rw [shareSetKeys]
  split
  · obtain ⟨v, hv⟩ := Option.isSome_iff_exists.mp ‹_›
    rw [Entries.keys_put, Entries.addKey, if_pos (Entries.mem_keys_of_lookup hv)]
  · rfl

theorem keys_values_put (r : Record) (key : String) (v : Value) :
    (r.put key v).values.keys = Entries.addKey r.values.keys key := by
  rw [put]
  split
  · rw [← Entries.keys_put r.values key v]
    exact keys_shareSetKeys _ _
  · exact Entries.keys_put _ _ _

theorem setKeys_put (r : Record) (key : String) (v : Value) :
    (r.put key v).setKeys = Entries.addKey r.setKeys key := by
  rw [put, Entries.addKey]
  split <;> simp

theorem mem_setKeys_put {key other : String} (v : Value) :
    other ∈ (r.put key v).setKeys ↔ other ∈ r.setKeys ∨ other = key := by
  rw [setKeys_put, Entries.mem_addKey]

theorem clean_put (h : r.clean = []) (key : String) (v : Value) : (r.put key v).clean = [] := by
  rw [put]
  split
  · rw [h]
    rfl
  · exact h

theorem loaded_put (r : Record) (key : String) (v : Value) :
    (r.put key v).loaded = r.loaded := by
  rw [put]
  split <;> rfl

/-- What holds of the records of a type, whatever was done to them: the set fields are declared and
have a value, and no others have one, and nothing is clean without a row. -/
structure Consistent (t : RecordType) (r : Record) : Prop where
  type : r.type = t
  sets : ∀ key, key ∈ r.setKeys ↔ key ∈ r.values.keys
  declared : ∀ key ∈ r.values.keys, t.declares key = true
  clean : r.loaded = false → r.clean = []

namespace Consistent

theorem put (h : Consistent t r) {key : String} (hkey : t.declares key = true) (v : Value) :
    Consistent t (r.put key v) where
  type := (type_put r key v).trans h.type
  sets other := by rw [mem_setKeys_put, keys_values_put, Entries.mem_addKey, h.sets]
  declared other hother := by
    rw [keys_values_put, Entries.mem_addKey] at hother
    obtain hother | rfl := hother
    · exact h.declared other hother
    · exact hkey
  clean hloaded := clean_put (h.clean (loaded_put r key v ▸ hloaded)) key v

theorem of_puts (h : Consistent t r) (hputs : Puts t r r') : Consistent t r' := by
  induction hputs with
  | refl => exact h
  | put _ hkey v ih => exact ih.put hkey v

theorem unmatched (h : Consistent t r) : Consistent t r.unmatched :=
  ⟨h.type, h.sets, h.declared, fun _ ↦ rfl⟩

theorem of_values (h : Consistent t r) {values : Entries} (hkeys : values.keys = r.values.keys)
    (rowKey : Pairs) : Consistent t { r with values, rowKey } where
  type := h.type
  sets key := by
    rw [hkeys]
    exact h.sets key
  declared key hkey := by
    rw [hkeys] at hkey
    exact h.declared key hkey
  clean := h.clean

/-- Keeping the key of the row changes at most a value that a field has already. -/
theorem keepingKey (h : Consistent t r) (hkeeping : r.keepingKey = .ok r') : Consistent t r' := by
  rw [Record.keepingKey] at hkeeping
  split at hkeeping
  · split at hkeeping
    · rename_i es hes
      obtain rfl := Except.ok.inj hkeeping
      have hmem : rowKeyName ∈ r.values.keys := by
        by_contra hmem
        rw [Entries.valueAt, Entries.lookup_eq_none hmem] at hes
        simp at hes
      have hkeys (v : Value) : (r.values.put rowKeyName v).keys = r.values.keys := by
        rw [Entries.keys_put, Entries.addKey, if_pos hmem]
      exact h.of_values (hkeys _) _
    · simp at hkeeping
  · obtain rfl := Except.ok.inj hkeeping
    exact ⟨h.type, h.sets, h.declared, h.clean⟩

theorem matched (h : Consistent t r) (hmatched : r.matched = .ok r') : Consistent t r' := by
  obtain ⟨r₁, hkeeping, hmatched⟩ := Except.bind_eq_ok.mp hmatched
  obtain rfl := Except.ok.inj hmatched
  have h₁ := h.keepingKey hkeeping
  exact ⟨h₁.type, h₁.sets, h₁.declared, fun hloaded ↦ absurd hloaded.symm Bool.false_ne_true⟩

theorem empty (t : RecordType) (conn : Option Connection) (pool : Option Pool) :
    Consistent t (Record.empty t conn pool) := by
  have hplace {r : Record} {key : String} (h : Consistent t r) (v : Value) :
      Consistent t (if t.hasAccessor key then r.put key v else r) := by
    split
    · rename_i hkey
      rw [RecordType.hasAccessor, Bool.and_eq_true] at hkey
      exact h.put hkey.1 v
    · exact h
  have hstart : Consistent t { type := t, conn, pool } :=
    ⟨rfl, fun _ ↦ Iff.rfl, fun _ hkey ↦ absurd hkey List.not_mem_nil, fun _ ↦ rfl⟩
  exact hplace (hplace hstart _) _

end Consistent

theorem consistent_make {source : Source} {values : Value} {further : Entries}
    (h : Record.make t source values further = .ok r) : Consistent t r := by
  obtain ⟨r₀, hblank, h⟩ := Except.bind_eq_ok.mp h
  obtain ⟨ps, -, h⟩ := Except.bind_eq_ok.mp h
  obtain ⟨conn, pool, rfl, -⟩ := of_blank hblank
  have hempty := Consistent.empty t conn pool
  exact hempty.of_puts (puts_of_foldlM hempty.type h)

/-! ## Steps -/

/-- What is done to a record without asking its row. -/
inductive Step where
  | set (key v : Value)
  | restore (es : Entries)
  | load (row : Row)
  | mark (loaded skipCheck : Bool)

namespace Step

def take : Step → Change Record Unit
  | .set key v => do Change.set (← Change.ofExcept ((← Change.get).setBy key v))
  | .restore es => Record.restore es
  | .load row => loadRow row
  | .mark loaded skipCheck => do
    Change.set (← Change.ofExcept ((← Change.get).setLoaded loaded skipCheck))

/-- The values at the last load point after a step that ended in some way. A load point counts when
it succeeds, and until the record is marked as matching no row. -/
def lastAfter (last : Option Entries) : Step → Except Failure Unit × Record → Option Entries
  | .mark false _, (.ok _, _) => none
  | .restore _, (.ok _, r) | .load _, (.ok _, r) | .mark true _, (.ok _, r) => some r.values
  | _, _ => last

/-- What a step can do to a record of a type, with the values at the last load point. -/
inductive Outcome (t : RecordType) (r : Record) (last : Option Entries) :
    Record → Option Entries → Prop where
  | sets {r' : Record} (hputs : Puts t r r') : Outcome t r last r' last
  | loads {r₁ r' : Record} (hputs : Puts t r r₁) (hmatched : r₁.matched = .ok r') :
      Outcome t r last r' (some r'.values)
  | unloads : Outcome t r last r.unmatched none

theorem matched_of_setLoaded {skipCheck : Bool} (h : r.setLoaded true skipCheck = .ok r') :
    r.matched = .ok r' := by
  rw [setLoaded] at h
  simp only [Bool.not_true, Bool.false_eq_true, if_false] at h
  split at h
  · simp at h
  · exact h

/-- **One step**, whether it succeeds or fails. -/
theorem outcome_take (htype : r.type = t) (step : Step) (last : Option Entries) :
    Outcome t r last (step.take r).2 (step.lastAfter last (step.take r)) := by
  cases hstep : step.take r with
  | mk x r' =>
    cases step with
    | set key v =>
      obtain ⟨e, rfl, rfl⟩ | ⟨rfl, hset⟩ := of_replaced (f := (·.setBy key v)) hstep
      · exact .sets .refl
      · exact .sets (puts_of_setBy htype hset)
    | restore es =>
      obtain ⟨e, y, rfl, hset⟩ | ⟨rfl, r₁, hset, hmark⟩ := of_restore hstep
      · exact .sets (puts_of_setAll htype hset)
      · exact .loads (puts_of_setAll htype hset) (matched_of_setLoaded hmark)
    | load row =>
      obtain ⟨e, rfl, rfl⟩ | ⟨rfl, hmark⟩ := of_loadRow hstep
      · exact .sets (puts_takeRow htype row)
      · exact .loads (puts_takeRow htype row) (matched_of_setLoaded hmark)
    | mark loaded skipCheck =>
      obtain ⟨e, rfl, rfl⟩ | ⟨rfl, hmark⟩ :=
        of_replaced (f := (·.setLoaded loaded skipCheck)) hstep
      · cases loaded <;> exact .sets .refl
      · cases loaded with
        | true => exact .loads .refl (matched_of_setLoaded hmark)
        | false =>
          obtain rfl : r.unmatched = r' := Except.ok.inj hmark
          exact .unloads

end Step

theorem Consistent.of_outcome {last last' : Option Entries} (h : Consistent t r)
    (houtcome : Step.Outcome t r last r' last') : Consistent t r' := by
  cases houtcome with
  | sets hputs => exact h.of_puts hputs
  | loads hputs hmatched => exact (h.of_puts hputs).matched hmatched
  | unloads => exact h.unmatched

/-! ## The last load point -/

/-- What a record keeps of its last load point, with what its key was at an earlier one. -/
structure Remembers (t : RecordType) (r : Record) (last : Option Entries) : Prop where
  consistent : Consistent t r
  loaded : r.loaded = last.isSome
  clean : r.clean = last.getD []
  nulls : ∀ p ∈ r.rowKey, p.1.asText? = none → p.2 = .null
  rowKey : ∀ es, last = some es → ∀ key ∈ t.table.primaryKey, r.rowKey.valueAt key = es.part key

theorem forall_mem_keyWith {Q : Option String → Value → Prop} {part : Value → Value}
    (h : ∀ key ∈ r.type.table.primaryKey, Q key.asText? (part key)) :
    ∀ p ∈ r.keyWith part, Q p.1.asText? p.2 := by
  rw [keyWith]
  generalize r.type.table.primaryKey = keys at h
  have hfold {ps : Pairs} (hps : ∀ p ∈ ps, Q p.1.asText? p.2) :
      ∀ p ∈ keys.foldl (fun ps key ↦ ps.put key (part key)) ps, Q p.1.asText? p.2 := by
    induction keys generalizing ps with
    | nil => exact hps
    | cons key keys ih =>
      rw [List.forall_mem_cons] at h
      exact ih h.2 (Pairs.forall_mem_put hps h.1)
  exact hfold fun _ hp ↦ absurd hp List.not_mem_nil

theorem part_of_mem_currentKey (r : Record) : ∀ p ∈ r.currentKey, p.2 = r.values.part p.1 :=
  forall_mem_keyWith (Q := fun text v ↦ v = (text.map r.values.valueAt).getD .null) fun _ _ ↦ rfl

theorem valueAt_override_currentKey {kept : Pairs}
    (hnulls : ∀ p ∈ kept, p.1.asText? = none → p.2 = .null) {key : Value}
    (hkey : key ∈ r.type.table.primaryKey) :
    (kept.override r.currentKey).valueAt key = r.values.part key := by
  have hparts := r.part_of_mem_currentKey
  cases htext : key.asText? with
  | some name =>
    have hvalue (p : Value × Value) (hp : p ∈ r.currentKey) (hname : p.1.asText? = some name) :
        p.2 = r.values.part key := by
      rw [hparts p hp, Entries.part, Entries.part, hname, htext]
    have hmem : ∃ p ∈ r.currentKey, p.1.asText? = some name := by
      obtain ⟨p, hp, hsame⟩ := r.exists_mem_keyWith r.keyPart key hkey
      refine ⟨p, hp, ?_⟩
      obtain rfl | hsame := hsame
      · exact htext
      · rw [Value.asText?_eq_of_matchesElement hsame, htext]
    rw [Pairs.valueAt, Pairs.find_override htext hvalue, if_pos hmem, Option.getD_some]
  | none =>
    have hcurrent : ∀ p ∈ r.currentKey, p.1.asText? = none → p.2 = .null := by
      intro p hp hnone
      rw [hparts p hp, Entries.part, hnone]
      rfl
    have hall := Pairs.forall_mem_override
      (Q := fun text v ↦ text = none → v = .null) hnulls hcurrent
    rw [Pairs.valueAt_eq_null hall htext, Entries.part, htext]
    rfl

namespace Remembers

variable {last last' : Option Entries}

theorem of_puts (ht : t.KeepsState) (h : Remembers t r last) (hputs : Puts t r r') :
    Remembers t r' last := by
  have hsets := hputs.setsOnly ht h.consistent.type
  refine ⟨h.consistent.of_puts hputs, hsets.loaded.trans h.loaded, hsets.clean.trans h.clean, ?_,
    ?_⟩
  · exact hsets.rowKey ▸ h.nulls
  · exact hsets.rowKey ▸ h.rowKey

theorem matched (ht : t.KeepsState) (h : Remembers t r last) (hmatched : r.matched = .ok r') :
    Remembers t r' (some r'.values) := by
  have htype := h.consistent.type
  have hconsistent := h.consistent.matched hmatched
  rw [matched_eq ht htype] at hmatched
  obtain rfl := Except.ok.inj hmatched
  refine ⟨hconsistent, rfl, rfl, ?_, fun es hes key hkey ↦ ?_⟩
  · refine Pairs.forall_mem_override (Q := fun text v ↦ text = none → v = .null) h.nulls ?_
    intro p hp hnone
    rw [r.part_of_mem_currentKey p hp, Entries.part, hnone]
    rfl
  · obtain rfl := Option.some.inj hes
    exact valueAt_override_currentKey h.nulls (htype ▸ hkey)

theorem unmatched (h : Remembers t r last) : Remembers t r.unmatched none :=
  ⟨h.consistent.unmatched, rfl, rfl, h.nulls, fun _ hes ↦ absurd hes (Option.some_ne_none _).symm⟩

theorem of_outcome (ht : t.KeepsState) (h : Remembers t r last)
    (houtcome : Step.Outcome t r last r' last') : Remembers t r' last' := by
  cases houtcome with
  | sets hputs => exact h.of_puts ht hputs
  | loads hputs hmatched => exact (h.of_puts ht hputs).matched ht hmatched
  | unloads => exact h.unmatched

theorem of_make (ht : t.KeepsState) {source : Source} {values : Value} {further : Entries}
    (h : Record.make t source values further = .ok r) : Remembers t r none := by
  have htracks := tracks_make ht h
  have hrow : r.rowKey = [] := by
    have hare : r.rowKey.Are [] := htracks.rowKey
    cases hrow : r.rowKey with
    | nil => rfl
    | cons p ps =>
      rw [hrow] at hare
      obtain ⟨_, _, -, hnil, -⟩ := hare.of_cons
      simp at hnil
  refine ⟨consistent_make h, htracks.loaded, htracks.clean, ?_, ?_⟩
  · rw [hrow]
    exact fun _ hp ↦ absurd hp List.not_mem_nil
  · exact fun _ hes ↦ absurd hes (Option.some_ne_none _).symm

end Remembers

/-! ## Runs -/

/-- A record after a run of steps, each taken whether or not those before it failed, with the values
at the last load point. -/
def follow : List Step → Record × Option Entries → Record × Option Entries
  | [], now => now
  | step :: steps, (r, last) =>
    follow steps ((step.take r).2, step.lastAfter last (step.take r))

theorem Remembers.of_follow (ht : t.KeepsState) {steps : List Step} {last last' : Option Entries}
    (h : Remembers t r last) (hrun : follow steps (r, last) = (r', last')) :
    Remembers t r' last' := by
  induction steps generalizing r last with
  | nil =>
    obtain ⟨rfl, rfl⟩ := Prod.mk.inj hrun
    exact h
  | cons step steps ih =>
    exact ih (h.of_outcome ht (Step.outcome_take h.consistent.type step last)) hrun

theorem isSet_iff (h : Consistent t r) (key : String) :
    r.isSet key = true ↔ (r.values.lookup key).isSome = true := by
  rw [isSet, List.contains_iff_mem, h.sets, Entries.mem_keys_iff]

theorem isFieldDirty_of_unloaded (h : Consistent t r) (hloaded : r.loaded = false) (key : String) :
    r.isFieldDirty key = true ↔ r.values.valueOrUnset key ≠ .unset := by
  rw [isFieldDirty, h.clean hloaded, Bool.not_eq_true', ← Bool.not_eq_true]
  exact not_congr Value.equal_unset_iff

/-- The key of the row with what the values at the last load point have for it. -/
theorem Remembers.lastKey_eq {copy : Entries} (ht : t.KeepsState)
    (h : Remembers t r (some copy)) : r.lastKey = .ok (r.keyWith copy.part) := by
  have hkept : r.lastKey = .ok (r.keyWith r.rowKey.valueAt) := by
    rw [lastKey, keptKey, h.consistent.type, ht.rowKey, if_neg Bool.false_ne_true]
    rfl
  have hparts : r.keyWith r.rowKey.valueAt = r.keyWith copy.part := by
    refine List.foldl_ext _ _ _ fun ps key hkey ↦ ?_
    rw [h.rowKey copy rfl key (h.consistent.type ▸ hkey)]
  rw [hkept, hparts]

/-- **A record knows which of its fields are dirty** after any run of steps, whatever of it failed.
-/
theorem dirty_after_run (ht : t.KeepsState) {source : Source} {values : Value} {further : Entries}
    {made r : Record} {steps : List Step} {last : Option Entries}
    (hmake : Record.make t source values further = .ok made)
    (hrun : follow steps (made, none) = (r, last)) :
    (∀ key, (r.isSet key = true ↔ (r.values.lookup key).isSome = true) ∧
      (r.isSet key = true → t.declares key = true)) ∧
    (r.loaded = false → r.clean = [] ∧
      ∀ key, r.isFieldDirty key = true ↔ r.values.valueOrUnset key ≠ .unset) ∧
    (r.loaded = true → ∃ copy, last = some copy ∧ r.clean = copy ∧
      r.lastKey = .ok (r.keyWith copy.part) ∧
      (∀ key, r.isFieldDirty key =
        !(r.values.valueOrUnset key).equal (copy.valueOrUnset key)) ∧
      ∀ key v, t.declares key = true → v.equal (copy.valueOrUnset key) = true →
        ∃ r', r.set key v = .ok r' ∧ r'.isFieldDirty key = false) := by
  have h := (Remembers.of_make ht hmake).of_follow ht hrun
  have hconsistent := h.consistent
  refine ⟨fun key ↦ ⟨isSet_iff hconsistent key, fun hset ↦ ?_⟩, fun hloaded ↦ ?_,
    fun hloaded ↦ ?_⟩
  · rw [isSet, List.contains_iff_mem, hconsistent.sets] at hset
    exact hconsistent.declared key hset
  · exact ⟨hconsistent.clean hloaded, isFieldDirty_of_unloaded hconsistent hloaded⟩
  · rw [h.loaded] at hloaded
    obtain ⟨copy, hlast⟩ := Option.isSome_iff_exists.mp hloaded
    have hclean : r.clean = copy := by rw [h.clean, hlast, Option.getD_some]
    refine ⟨copy, hlast, hclean, ?_, fun key ↦ by rw [isFieldDirty, hclean], ?_⟩
    · subst hlast
      exact h.lastKey_eq ht
    · intro key v hkey hequal
      have hset : r.set key v = .ok (r.put key v) := by
        rw [set, hconsistent.type, if_pos hkey]
      refine ⟨_, hset, ?_⟩
      rw [isFieldDirty, put_eq ht hconsistent.type, hclean, Entries.valueOrUnset,
        Entries.lookup_put_self, Option.getD_some, hequal]
      rfl

def unwritten : Record := { type := letter.type, conn := some ⟨"c"⟩ }

/-- A letter after it was loaded, another text was set by a mapping with a key that is not declared,
and a number and the text of the row were set. -/
def rewoven : Record where
  type := letter.type
  values := [("a", .int 2), ("b", .text "x")]
  clean := [("a", .int 1), ("b", .text "x")]
  setKeys := ["a", "b"]
  rowKey := [(.text "b", .text "x")]
  loaded := true
  conn := some ⟨"c"⟩

theorem dirty_after_run_rewoven :
    letter.type.KeepsState ∧
    Record.make letter.type (.connection ⟨"c"⟩) .null [] = .ok unwritten ∧
    follow [.load [("a", .int 1), ("b", .text "x")],
      .restore [("b", .text "y"), ("c", .null)], .set (.text "a") (.int 2),
      .set (.text "b") (.text "x")] (unwritten, none) = (rewoven, some rewoven.clean) ∧
    rewoven.isFieldDirty "a" = true ∧ rewoven.isFieldDirty "b" = false := by
  have ht : letter.type.KeepsState := ⟨rfl, rfl⟩
  have hmake : Record.make letter.type (.connection ⟨"c"⟩) .null [] = .ok unwritten := rfl
  have hrun : follow [.load [("a", .int 1), ("b", .text "x")],
      .restore [("b", .text "y"), ("c", .null)], .set (.text "a") (.int 2),
      .set (.text "b") (.text "x")] (unwritten, none) = (rewoven, some rewoven.clean) := rfl
  obtain ⟨-, -, hloaded⟩ := dirty_after_run ht hmake hrun
  obtain ⟨copy, hcopy, -, -, hdirty, -⟩ := hloaded rfl
  obtain rfl := Option.some.inj hcopy
  refine ⟨ht, hmake, hrun, ?_, ?_⟩
  · rw [hdirty]
    decide +kernel
  · rw [hdirty]
    decide +kernel

/-- **A field in the place of the key of the row** takes another key for it than that of the clean
copy. -/
theorem lastKey_of_keyHolding :
    Record.make keyHolder (.connection ⟨"c"⟩) .null [] =
      .ok (empty keyHolder (some ⟨"c"⟩) none) ∧
    follow [.load [("id", .text "y")], .set (.text rowKeyName) (.map [("id", .text "x")])]
      (empty keyHolder (some ⟨"c"⟩) none, none) = (keyHolding, some keyHolding.clean) ∧
    keyHolding.loaded = true ∧ keyHolding.clean.part (.text "id") = .text "y" ∧
    keyHolding.lastKey = .ok [(.text "id", .text "x")] :=
  ⟨rfl, rfl, rfl, rfl, rfl⟩

end Record

end Rowmap
