import Rowmap.Proofs.Condition.Succeeds
import Rowmap.Proofs.Record.History
import Rowmap.Proofs.Record.Writes
import Rowmap.Proofs.Select.Plain
import Rowmap.Proofs.Session.Logs

/-!
# Updates of rows

The statement that saves a record which matches a row, in full: the columns of the dirty fields with
what is assigned to them, and the tests that name the row by the values that its primary key had at
the last match. The assignments and the tests are numbered by different parts of the library, the
second from where the first stopped.
-/

namespace Rowmap

/-! ## Scalars -/

namespace Value

variable {v : Value}

theorem refreshWith_of_isScalar (hv : v.isScalar = true)
    (current : Nat → Option (Except Failure Value)) : v.refreshWith current = .ok v := by
  cases v <;> first | rfl | exact absurd hv Bool.false_ne_true

theorem lookup_of_isScalar {es : Entries} {key : String} (h : (es.valueAt key).isScalar = true) :
    ∃ v, es.lookup key = some v := by
  rw [Entries.valueAt] at h
  cases hlookup : es.lookup key with
  | some v => exact ⟨v, rfl⟩
  | none =>
    rw [hlookup] at h
    exact absurd h Bool.false_ne_true

end Value

/-! ## Conditions on columns -/

namespace RecordType

variable {t : RecordType}

def columnOf (t : RecordType) (key : String) : String :=
  (t.table.field? key).elim "" (·.column key)

/-- Tests of columns for equality, with the placeholders after so many others. -/
def keyTests (t : RecordType) : Nat → List String → List String
  | _, [] => []
  | b, key :: keys =>
    (Sql.quoteIdentifier (t.columnOf key) ++ " = " ++ Sql.placeholder (b + 1)) ::
      keyTests t (b + 1) keys

theorem ne_empty_of_mem_keyTests {b : Nat} {keys : List String} :
    ∀ text ∈ t.keyTests b keys, text ≠ "" := by
  induction keys generalizing b with
  | nil => exact fun _ h ↦ absurd h List.not_mem_nil
  | cons key keys ih =>
    rw [keyTests, List.forall_mem_cons]
    exact ⟨by simp [Condition.quoteIdentifier_ne_empty], ih⟩

theorem columnOf_eq {key : String} {field : Field} (h : t.table.field? key = some field) :
    t.columnOf key = field.column key := by
  rw [columnOf, h]
  rfl

theorem column_of_declares {key : String} (h : t.declares key = true) {v : Value}
    (hv : v.asText? = some key) : t.table.column v = .ok (t.columnOf key) := by
  obtain ⟨field, hfield⟩ := Option.isSome_iff_exists.mp h
  rw [Table.column, hv, columnOf_eq hfield]
  simp [hfield]

end RecordType

namespace Condition

variable {t : RecordType}

theorem ofField_of_isScalar {key : String} {v : Value} (hkey : t.declares key = true)
    (hv : v.isScalar = true) (b : Int) :
    ofField ⟨t.table, .standard, false⟩ key v none b =
      .ok (.atom (Sql.quoteIdentifier (t.columnOf key) ++ " = " ++ Sql.placeholder (b + 1))
        [v]) := by
  obtain ⟨field, hfield⟩ := Option.isSome_iff_exists.mp hkey
  have hgroup : ∀ id groupKind items own, v ≠ .group id groupKind items own := by
    rintro id groupKind items own rfl
    exact Bool.false_ne_true hv
  have hmap : ∀ entries, v ≠ .map entries := by
    rintro entries rfl
    exact Bool.false_ne_true hv
  have hunset : v.isUnset = false := by
    cases v <;> first | rfl | exact absurd hv Bool.false_ne_true
  have hresolve : LeafRules.standard.resolve v
      (leafContext ⟨t.table, .standard, false⟩ key field v none b) =
        .ok (Leaf.bindOne b .equal v) := by
    cases v <;> first | rfl | exact absurd hv Bool.false_ne_true
  have hplaceholders : Sql.placeholders b 1 = Sql.placeholder (b + 1) := by
    simp [Sql.placeholders]
  have hleft : leftOf field key (Leaf.bindOne b .equal v) =
      Sql.quoteIdentifier (field.column key) := by
    simp [leftOf, Leaf.bindOne, Leaf.compare, Comparison.comparesText]
  have htext : Sql.words [leftOf field key (Leaf.bindOne b .equal v), "=",
      Sql.placeholder (b + 1)] =
        Sql.quoteIdentifier (field.column key) ++ " = " ++ Sql.placeholder (b + 1) := by
    have hne : Sql.placeholder (b + 1) ≠ "" := by simp [Sql.placeholder]
    have hequal : " = " ++ Sql.placeholder (b + 1) =
        " " ++ ("= " ++ Sql.placeholder (b + 1)) := by
      rw [← String.append_assoc]
      rfl
    rw [hleft, Sql.words_cons (quoteIdentifier_ne_empty _), String.append_assoc, hequal]
    simp [hne, String.intercalate_cons_cons, String.append_assoc]
  rw [ofField_eq_ofScalar hgroup hmap, ofScalar, fieldOf_of_field? hfield, hunset]
  show (do
    let leaf ← LeafRules.standard.resolve v
      (leafContext ⟨t.table, .standard, false⟩ key field v none b)
    .ofExcept (ofLeaf field key leaf) : Logged Condition) = _
  rw [hresolve, Logged.ok_bind, t.columnOf_eq hfield, ← htext, ← hplaceholders]
  rfl

theorem ofEntries_of_isScalar {f : String → Value} {keys : List String}
    (h : ∀ key ∈ keys, t.declares key = true ∧ (f key).isScalar = true) (b : Nat) :
    ∃ parts, ofEntries ⟨t.table, .standard, false⟩ (Entries.graph f keys) none b = .ok parts ∧
      (∀ siblings, partTexts parts siblings = t.keyTests b keys) ∧
        partValues parts = keys.map f := by
  induction keys generalizing b with
  | nil => exact ⟨[], rfl, fun _ ↦ rfl, rfl⟩
  | cons key keys ih =>
    rw [List.forall_mem_cons] at h
    obtain ⟨⟨hkey, hv⟩, hrest⟩ := h
    obtain ⟨field, hfield⟩ := Option.isSome_iff_exists.mp hkey
    obtain ⟨parts, hparts, htexts, hvalues⟩ := ih hrest (b + 1)
    refine ⟨.atom (Sql.quoteIdentifier (t.columnOf key) ++ " = " ++ Sql.placeholder (b + 1))
      [f key] :: parts, ?_, fun siblings ↦ ?_, ?_⟩
    · rw [Entries.graph, List.map_cons, ofEntries, fieldOf_of_field? hfield,
        ofField_of_isScalar hkey hv]
      show (do
        let rest ← ofEntries ⟨t.table, .standard, false⟩ (Entries.graph f keys) none (b + 1)
        .ok (_ :: rest) : Logged (List Condition)) = _
      rw [← Int.natCast_succ, hparts]
      rfl
    · rw [partTexts, htexts, RecordType.keyTests]
      rfl
    · rw [partValues, hvalues]
      rfl

theorem isEmpty_intercalate {sep text : String} (h : text ≠ "") (texts : List String) :
    (sep.intercalate (text :: texts)).isEmpty = false := by
  cases texts with
  | nil => simpa using h
  | cons other texts =>
    rw [String.intercalate_cons_cons]
    simp [h]

end Condition

namespace Record

variable {t : RecordType} {r : Record}

/-- **Tests of a key** with given scalars, in full. -/
theorem keyCondition_of_isScalar {key : Pairs} {f : String → Value} {names : List String}
    (hkey : key.Are (Entries.graph f names)) (hne : names ≠ [])
    (h : ∀ name ∈ names, t.declares name = true ∧ (f name).isScalar = true) (b : Nat) :
    keyCondition t key b =
      .ok ⟨" AND ".intercalate (t.keyTests b names), names.map f⟩ := by
  obtain ⟨parts, hparts, htexts, hvalues⟩ := Condition.ofEntries_of_isScalar h b
  have hcompile : t.table.compile (.map (Entries.graph f names)) b =
      .ok ⟨" AND ".intercalate (t.keyTests b names), names.map f⟩ := by
    have hfilter : (t.keyTests b names).filter (!·.isEmpty) = t.keyTests b names := by
      rw [List.filter_eq_self]
      intro text htext
      simpa using t.ne_empty_of_mem_keyTests text htext
    have htext : Condition.orAlways (" AND ".intercalate (t.keyTests b names)) =
        " AND ".intercalate (t.keyTests b names) := by
      have hnonempty := @RecordType.ne_empty_of_mem_keyTests t b names
      obtain ⟨name, names, rfl⟩ := List.exists_cons_of_ne_nil hne
      rw [RecordType.keyTests, List.forall_mem_cons] at hnonempty
      rw [RecordType.keyTests, Condition.orAlways, Condition.isEmpty_intercalate hnonempty.1,
        if_neg Bool.false_ne_true]
    show (do
      let c ← Condition.ofNode ⟨t.table, .standard, false⟩ .and (.map (Entries.graph f names))
        none b
      .ok (c.statement 0) : Logged Statement) = _
    simp only [Condition.ofNode]
    rw [hparts]
    show Logged.ok (Condition.statement (.fields .and parts) 0) = _
    rw [Condition.statement, Condition.text, htexts, Condition.orAlways_orAlways,
      Table.joinParts_of_no_siblings, hfilter]
    show Logged.ok (Statement.mk (Condition.orAlways (" AND ".intercalate (t.keyTests b names)))
      (Condition.partValues parts)) = _
    rw [htext, hvalues]
  rw [keyCondition, hkey, hcompile]
  rfl

/-! ## Assignments -/

/-- Assignments of values to columns with the values that they bind, numbered after so many others.
A value is bound, or written as a part of the text, by its kind alone. -/
inductive Assigns (t : RecordType) : Nat → Entries → List String → List Value → Prop where
  | nil (n : Nat) : Assigns t n [] [] []
  | inlined {n : Nat} {key text : String} {v : Value} {es : Entries} {sets : List String}
      {bound : List Value} (h : inlineAssigned? v = some (.ok text))
      (rest : Assigns t n es sets bound) :
      Assigns t n ((key, v) :: es)
        ((Sql.quoteIdentifier (t.columnOf key) ++ " = " ++ text) :: sets) bound
  | bound {n : Nat} {key : String} {v : Value} {es : Entries} {sets : List String}
      {bound : List Value} (h : inlineAssigned? v = none)
      (rest : Assigns t (n + 1) es sets bound) :
      Assigns t n ((key, v) :: es)
        ((Sql.quoteIdentifier (t.columnOf key) ++ " = " ++ Sql.placeholder (n + 1)) :: sets)
        (boundAssigned v :: bound)

/-- Assignments as the program makes them, with the values that they bind, numbered after so many
others. -/
inductive Assigned (t : RecordType) : Nat → Entries → List Assignment → List Value → Prop where
  | nil (n : Nat) : Assigned t n [] [] []
  | inlined {n : Nat} {key text : String} {v : Value} {es : Entries} {assigned : List Assignment}
      {bound : List Value} (h : inlineAssigned? v = some (.ok text))
      (rest : Assigned t n es assigned bound) :
      Assigned t n ((key, v) :: es) (⟨Sql.quoteIdentifier (t.columnOf key), text⟩ :: assigned) bound
  | bound {n : Nat} {key : String} {v : Value} {es : Entries} {assigned : List Assignment}
      {bound : List Value} (h : inlineAssigned? v = none)
      (rest : Assigned t (n + 1) es assigned bound) :
      Assigned t n ((key, v) :: es)
        (⟨Sql.quoteIdentifier (t.columnOf key), Sql.placeholder (n + 1)⟩ :: assigned)
        (boundAssigned v :: bound)

namespace Assigned

variable {n : Nat} {es : Entries} {assigned : List Assignment} {bound : List Value}

theorem assigns (h : Assigned t n es assigned bound) :
    Assigns t n es (assigned.map fun a ↦ a.column ++ " = " ++ a.sql) bound := by
  induction h with
  | nil n => exact .nil n
  | inlined h _ ih => exact .inlined h ih
  | bound h _ ih => exact .bound h ih

theorem columns_eq (h : Assigned t n es assigned bound) :
    assigned.map (·.column) = es.map fun e ↦ Sql.quoteIdentifier (t.columnOf e.1) := by
  induction h with
  | nil n => rfl
  | inlined _ _ ih => exact congrArg (_ :: ·) ih
  | bound _ _ ih => exact congrArg (_ :: ·) ih

theorem isEmpty_iff {f : String → Value} {keys : List String}
    (h : Assigned t n (Entries.graph f keys) assigned bound) :
    assigned.isEmpty = true ↔ keys = [] := by
  rw [List.isEmpty_iff, ← List.map_eq_nil_iff, h.columns_eq, List.map_eq_nil_iff, Entries.graph,
    List.map_eq_nil_iff]

end Assigned

def CanAssign (v : Value) : Prop :=
  ∀ x, inlineAssigned? v = some x → ∃ text, x = .ok text

theorem exists_assigned {ps : Pairs} {es : Entries} (h : ps.Are es)
    (hes : ∀ e ∈ es, t.declares e.1 = true ∧ CanAssign e.2) (bound : List Value) :
    ∃ assigned more, assignmentsFrom t bound ps = .ok (assigned, bound ++ more) ∧
      Assigned t bound.length es assigned more := by
  induction ps generalizing es bound with
  | nil =>
    obtain rfl : [] = es := (Prod.mk.inj h).1
    exact ⟨[], [], by rw [List.append_nil]; rfl, .nil _⟩
  | cons p ps ih =>
    obtain ⟨key, v⟩ := p
    obtain ⟨name, es', hname, rfl, hps⟩ := h.of_cons
    rw [List.forall_mem_cons] at hes
    obtain ⟨⟨hkey, hv⟩, hrest⟩ := hes
    have hcolumn := RecordType.column_of_declares hkey hname
    rw [assignmentsFrom, hcolumn]
    cases hinline : inlineAssigned? v with
    | some x =>
      obtain ⟨text, rfl⟩ := hv x hinline
      obtain ⟨assigned, more, hrun, hassigned⟩ := ih hps hrest bound
      refine ⟨_, more, ?_, .inlined hinline hassigned⟩
      show (do
        let others ← assignmentsFrom t bound ps
        .ok (_ :: others.1, others.2) : Except Failure (List Assignment × List Value)) = _
      rw [hrun]
      rfl
    | none =>
      obtain ⟨assigned, more, hrun, hassigned⟩ := ih hps hrest (bound ++ [boundAssigned v])
      rw [List.length_append] at hassigned
      refine ⟨_, boundAssigned v :: more, ?_, .bound hinline hassigned⟩
      have hnumber : ((bound ++ [boundAssigned v]).length : Int) = bound.length + 1 := by simp
      show (do
        let others ← assignmentsFrom t (bound ++ [boundAssigned v]) ps
        .ok (⟨Sql.quoteIdentifier (t.columnOf name),
          Sql.placeholder (bound ++ [boundAssigned v]).length⟩ :: others.1, others.2) :
            Except Failure (List Assignment × List Value)) = _
      rw [hrun, hnumber, List.append_assoc]
      rfl

/-! ## Data -/

section

variable {o : DataOptions} {chosen : String → Bool} {f : String → Value}

/-- The fields that some options choose out of given ones, with what each contributes. -/
theorem exists_contributed {keys : List String}
    (h : ∀ key ∈ keys, r.contribution o key = .ok (if chosen key then some (f key) else none))
    {ps : Pairs} {es : Entries} (hps : ps.Are es) :
    ∃ qs : Pairs, (keys.map Value.text).foldlM (r.contribute o) ps = .ok qs ∧
      qs.Are (es.override (Entries.graph f (keys.filter chosen))) := by
  induction keys generalizing ps es with
  | nil => exact ⟨ps, rfl, hps⟩
  | cons key keys ih =>
    rw [List.forall_mem_cons] at h
    rw [List.map_cons, List.foldlM_cons]
    have hfirst : r.contribute o ps (.text key) =
        .ok (if chosen key then ps.put (.text key) (f key) else ps) := by
      rw [contribute, contributionBy]
      dsimp only [Value.asText?]
      rw [h.1]
      cases chosen key <;> rfl
    rw [hfirst]
    cases hchosen : chosen key with
    | false =>
      rw [List.filter_cons_of_neg (by simp [hchosen])]
      exact ih h.2 hps
    | true =>
      rw [List.filter_cons_of_pos hchosen]
      exact ih h.2 (hps.put rfl _)

theorem exists_data (hfields : o.fields = none) (hprivate : o.includePrivate = true)
    (hkeys : r.type.keys.Nodup)
    (h : ∀ key ∈ r.type.keys,
      r.contribution o key = .ok (if chosen key then some (f key) else none)) :
    ∃ ps : Pairs, r.data o = .ok ps ∧
      ps.Are (Entries.graph f (r.type.keys.filter chosen)) := by
  obtain ⟨ps, hps, hare⟩ := exists_contributed h Pairs.are_nil
  rw [Entries.override_nil, Entries.firsts_of_nodup (hkeys.filter _)] at hare
  refine ⟨ps, ?_, hare⟩
  have hchosen : chosenKeys r.type o = .ok (r.type.keys.map .text) := by
    rw [chosenKeys, hfields]
  rw [data, hchosen]
  show (do
    let ps ← (r.type.keys.map Value.text).foldlM (r.contribute o) []
    if o.includePrivate then .ok ps else withoutPrivate r.type.privateFields ps :
      Except Failure Pairs) = _
  rw [hps, hprivate]
  rfl

theorem exists_assignments (hfields : o.fields = none) (hprivate : o.includePrivate = true)
    (hkeys : r.type.keys.Nodup)
    (h : ∀ key ∈ r.type.keys,
      r.contribution o key = .ok (if chosen key then some (f key) else none))
    (hassign : ∀ key ∈ r.type.keys.filter chosen, CanAssign (f key)) :
    ∃ ps assigned bound, r.data o = .ok ps ∧ assignments r.type ps = .ok (assigned, bound) ∧
      Assigned r.type 0 (Entries.graph f (r.type.keys.filter chosen)) assigned bound := by
  obtain ⟨ps, hdata, hare⟩ := exists_data hfields hprivate hkeys h
  have hentries : ∀ e ∈ Entries.graph f (r.type.keys.filter chosen),
      r.type.declares e.1 = true ∧ CanAssign e.2 := by
    intro e he
    obtain ⟨key, hkey, rfl⟩ := List.mem_map.mp he
    exact ⟨Table.declares_of_mem_keys (List.mem_of_mem_filter hkey), hassign key hkey⟩
  obtain ⟨assigned, bound, hassignments, hassigned⟩ := exists_assigned hare hentries []
  exact ⟨ps, assigned, bound, hdata, hassignments, hassigned⟩

end

theorem contribution_of_dirty {key : String} (h : r.type.declares key = true) :
    r.contribution { includePrivate := true, onlyDirty := true } key =
      .ok (if r.isFieldDirty key then some (r.values.valueAt key) else none) := by
  rw [contribution]
  cases r.isFieldDirty key with
  | false => rfl
  | true =>
    have hget : r.get key = .ok (r.values.valueAt key) := by rw [get, if_pos h]
    show (do
      let v ← r.get key
      .ok (some (if (r.values.lookup key).isNone && false then r.type.default key else v)) :
        Except Failure (Option Value)) = _
    rw [hget, Bool.and_false]
    rfl

/-! ## The statement -/

/-- The fields whose values differ from earlier ones, in declaration order. One that has no value
counts as unset. -/
def changedKeys (t : RecordType) (values last : Entries) : List String :=
  t.keys.filter fun key ↦ !(values.valueOrUnset key).equal (last.valueOrUnset key)

/-- The statement that updates the row of a record: the changed fields are set, and the row is the
one whose primary key has the values that it had at the last match. -/
def UpdatesRow (t : RecordType) (values last : Entries) (skipReload : Bool) (st : Statement) :
    Prop :=
  ∃ table sets bound, Sql.quoteName t.table.name = .ok table ∧
    Assigns t 0 (Entries.graph values.valueAt (changedKeys t values last)) sets bound ∧
    st.text = "UPDATE " ++ table ++ " SET " ++ ", ".intercalate sets ++ " WHERE " ++
      " AND ".intercalate (t.keyTests bound.length (Entries.firsts t.keyNames)) ++
        returning t skipReload ∧
    st.values = bound ++ (Entries.firsts t.keyNames).map last.valueAt

/-- What is asked of a record type and the values at the last match, for a statement that names the
row: the table has a name, and each part of the primary key had a scalar. -/
structure CanName (t : RecordType) (last : Entries) : Prop where
  table : ∃ table, Sql.quoteName t.table.name = .ok table
  key : ∀ key ∈ t.table.primaryKey,
    ∃ name, key.asText? = some name ∧ (last.valueAt name).isScalar = true

namespace CanName

variable {last : Entries}

theorem isScalar (h : CanName t last) :
    ∀ name ∈ Entries.firsts t.keyNames, (last.valueAt name).isScalar = true := by
  intro name hname
  rw [Entries.mem_firsts, RecordType.keyNames] at hname
  obtain ⟨key, hkey, htext⟩ := List.mem_filterMap.mp hname
  obtain ⟨name', htext', hscalar⟩ := h.key key hkey
  obtain rfl := Option.some.inj (htext.symm.trans htext')
  exact hscalar

theorem firsts_ne_nil (h : CanName t last) (hkeyed : t.table.primaryKey ≠ []) :
    Entries.firsts t.keyNames ≠ [] := by
  obtain ⟨key, hkey⟩ := List.exists_mem_of_ne_nil _ hkeyed
  obtain ⟨name, htext, -⟩ := h.key key hkey
  exact List.ne_nil_of_mem (Entries.mem_firsts.mpr (List.mem_filterMap.mpr ⟨key, hkey, htext⟩))

/-- The values of the key that a record kept are those at the last match. -/
theorem are_lastKey (h : CanName t last) (htype : r.type = t)
    (hrow : r.rowKey.Are (Entries.graph last.valueAt (Entries.firsts t.keyNames))) :
    (r.keyWith r.rowKey.valueAt).Are (Entries.graph last.valueAt (Entries.firsts t.keyNames)) := by
  rw [← htype]
  refine are_keyWith fun key hkey ↦ ?_
  rw [htype] at hkey
  obtain ⟨name, hname, -⟩ := h.key key hkey
  have hmem : name ∈ Entries.firsts t.keyNames :=
    Entries.mem_firsts.mpr (List.mem_filterMap.mpr ⟨key, hkey, hname⟩)
  refine ⟨name, hname, ?_⟩
  rw [hrow.valueAt hname, Entries.valueAt, Entries.lookup_graph _ hmem, Option.getD_some]

end CanName

section

variable {last : Entries}

theorem keyCondition_lastKey (ht : t.KeepsState) (hname : CanName t last)
    (hkeyed : t.table.primaryKey ≠ []) (hlast : ∀ key ∈ last.keys, t.declares key = true)
    (htype : r.type = t)
    (hrow : r.rowKey.Are (Entries.graph last.valueAt (Entries.firsts t.keyNames))) :
    ∃ key, r.lastKey = .ok key ∧ ∀ b : Nat, keyCondition t key b =
      .ok ⟨" AND ".intercalate (t.keyTests b (Entries.firsts t.keyNames)),
        (Entries.firsts t.keyNames).map last.valueAt⟩ := by
  refine ⟨r.keyWith r.rowKey.valueAt, ?_, keyCondition_of_isScalar (hname.are_lastKey htype hrow)
    (hname.firsts_ne_nil hkeyed) fun name hmem ↦ ?_⟩
  · rw [lastKey, keptKey, htype, ht.rowKey, if_neg Bool.false_ne_true]
    rfl
  · have hscalar := hname.isScalar name hmem
    obtain ⟨v, hv⟩ := Value.lookup_of_isScalar hscalar
    exact ⟨hlast name (Entries.mem_keys_of_lookup hv), hscalar⟩

/-- **The statement of an update**, for a record as it is now. There is none without dirty fields.
-/
theorem changeStatement_eq (ht : t.KeepsState) (hkeys : t.keys.Nodup) (hname : CanName t last)
    (hkeyed : t.table.primaryKey ≠ []) (hlast : ∀ key ∈ last.keys, t.declares key = true)
    (htype : r.type = t) (hclean : r.clean = last)
    (hrow : r.rowKey.Are (Entries.graph last.valueAt (Entries.firsts t.keyNames)))
    (hassign : ∀ key ∈ changedKeys t r.values last, CanAssign (r.values.valueAt key))
    (skipReload : Bool) :
    if changedKeys t r.values last = [] then r.changeStatement skipReload = .ok none
    else ∃ st, r.changeStatement skipReload = .ok (some st) ∧
      UpdatesRow t r.values last skipReload st := by
  obtain ⟨key, hkey, htest⟩ := keyCondition_lastKey ht hname hkeyed hlast htype hrow
  obtain rfl := htype
  have hdirty : r.type.keys.filter r.isFieldDirty = changedKeys r.type r.values last := by
    rw [changedKeys]
    unfold isFieldDirty
    rw [hclean]
  rw [← hdirty] at hassign ⊢
  obtain ⟨ps, assigned, bound, hdata, hassignments, hassigned⟩ := exists_assignments rfl rfl hkeys
    (fun key hkey ↦ contribution_of_dirty (Table.declares_of_mem_keys hkey)) hassign
  have hstart : r.changeStatement skipReload = (do
      if assigned.isEmpty then .ok none
      else
        let test ← keyCondition r.type key bound.length
        let table ← tableName r.type
        .ok (some (updateStatement r.type table assigned bound test skipReload))) := by
    rw [changeStatement, hdata]
    show (do
      let changes ← .ofExcept (assignments r.type ps)
      if changes.1.isEmpty then .ok none
      else
        let key ← .ofExcept r.lastKey
        let test ← keyCondition r.type key changes.2.length
        let table ← tableName r.type
        .ok (some (updateStatement r.type table changes.1 changes.2 test skipReload)) :
          Logged (Option Statement)) = _
    rw [hassignments, hkey]
    rfl
  rw [hstart]
  split
  · rw [if_pos (hassigned.isEmpty_iff.mpr ‹_›)]
  · rw [if_neg (mt hassigned.isEmpty_iff.mp ‹_›)]
    obtain ⟨table, htable⟩ := hname.table
    rw [htest, tableName, htable]
    exact ⟨_, rfl, table, _, bound, htable, hdirty ▸ hassigned.assigns, rfl, rfl⟩

end

/-! ## Placeholders -/

theorem numbers_columnOf (ht : t.table.Plain) (key : String) :
    Sql.numbers (Sql.quoteIdentifier (t.columnOf key)) = [] := by
  rw [Sql.numbers_quoteIdentifier, RecordType.columnOf]
  cases hfield : t.table.field? key with
  | none => rfl
  | some field => exact (ht.of_field? hfield).2

/-- A column in front of what it is compared with, or of what is assigned to it. -/
theorem opens_column (ht : t.table.Plain) (key : String) :
    Sql.Opens (Sql.quoteIdentifier (t.columnOf key) ++ " = ") := by
  have hequal : Sql.Separates " = " := .of_toList rfl (by decide) (by decide)
  exact hequal.opens_behind (numbers_columnOf ht key)

theorem numbers_keyTests (ht : t.table.Plain) (b : Nat) (keys : List String) :
    (t.keyTests b keys).flatMap Sql.numbers = List.range' (b + 1) keys.length := by
  induction keys generalizing b with
  | nil => rfl
  | cons key keys ih =>
    rw [RecordType.keyTests, List.flatMap_cons, opens_column ht, ih, ← Int.natCast_succ,
      Sql.numbers_placeholder, List.length_cons, List.range'_succ]
    rfl

theorem Assigns.numbers (ht : t.table.Plain) {n : Nat} {es : Entries} {sets : List String}
    {bound : List Value} (h : Assigns t n es sets bound)
    (hinlined : ∀ e ∈ es, ∀ text, inlineAssigned? e.2 = some (.ok text) → Sql.numbers text = []) :
    sets.flatMap Sql.numbers = List.range' (n + 1) bound.length := by
  induction h with
  | nil => rfl
  | inlined h _ ih =>
    rw [List.forall_mem_cons] at hinlined
    rw [List.flatMap_cons, opens_column ht, hinlined.1 _ h, ih hinlined.2]
    rfl
  | bound _ _ ih =>
    rw [List.forall_mem_cons] at hinlined
    rw [List.flatMap_cons, opens_column ht, ih hinlined.2, ← Int.natCast_succ,
      Sql.numbers_placeholder, List.length_cons, List.range'_succ]
    rfl

theorem closes_returning (ht : t.table.Plain) (skipReload : Bool) :
    Sql.Closes (returning t skipReload) := by
  have hword : Sql.Separates " RETURNING " := .of_toList rfl (by decide) (by decide)
  have hcast : Sql.Closes "::text" :=
    Sql.closes_of_start (Sql.numbers_of_no_dollar (by decide)) (by decide)
  cases skipReload with
  | true => exact Sql.closes_empty
  | false =>
    refine hword.closes_before ?_
    rw [RecordType.columnList, Sql.Separates.comma.numbers_intercalate, List.flatMap_map,
      List.flatMap_eq_nil_iff]
    intro e he
    have hcolumn := (Sql.numbers_quoteIdentifier (e.2.column e.1)).trans (ht.fields e.1 e.2 he).2
    dsimp only
    split
    · rw [hcast, hcolumn]
    · rw [String.append_empty, hcolumn]

/-- **The placeholders of an update** run from one through both of its parts, with as many values.
-/
theorem UpdatesRow.numbers (ht : t.table.Plain) {values last : Entries} {skipReload : Bool}
    {st : Statement} (h : UpdatesRow t values last skipReload st)
    (hinlined : ∀ key ∈ changedKeys t values last, ∀ text,
      inlineAssigned? (values.valueAt key) = some (.ok text) → Sql.numbers text = []) :
    Sql.numbers st.text = List.range' 1 st.values.length := by
  obtain ⟨table, sets, bound, htable, hassigns, htext, hvalues⟩ := h
  have hset : Sql.Separates " SET " := .of_toList rfl (by decide) (by decide)
  have hwhere : Sql.Separates " WHERE " := .of_toList rfl (by decide) (by decide)
  have hand : Sql.Separates " AND " := .connective .and
  have hupdate : Sql.Opens "UPDATE " := Sql.opens_of_no_dollar (by decide)
  have hopens : Sql.Opens ("UPDATE " ++ table ++ " SET ") :=
    hset.opens_behind ((hupdate table).trans (ht.of_quoteName htable))
  have hassigned := hassigns.numbers ht fun e he text hinline ↦ by
    obtain ⟨key, hkey, rfl⟩ := List.mem_map.mp he
    exact hinlined key hkey text hinline
  rw [htext, hvalues, closes_returning ht, String.append_assoc, hwhere.numbers_between, hopens,
    Sql.Separates.comma.numbers_intercalate, hassigned, hand.numbers_intercalate,
    numbers_keyTests ht, List.length_append, List.length_map, Nat.zero_add,
    ← List.range'_append_1, Nat.add_comm 1]

/-! ## Saving -/

variable {σ : Type} {s : Session σ}

theorem refreshPairs_of_isScalar {ps : Pairs} (h : ∀ p ∈ ps, p.2.isScalar = true) :
    App.refreshPairs ps s = (.ok ps, s) := by
  induction ps with
  | nil => rfl
  | cons p ps ih =>
    rw [List.forall_mem_cons] at h
    have hvalue : App.refresh p.2 s = (.ok p.2, s) := by
      show (p.2.refreshWith (s.current s.depth), s) = _
      rw [Value.refreshWith_of_isScalar h.1]
    have hfirst : (do .ok (p.1, ← App.refresh p.2) : App σ (Value × Value)) s = (.ok p, s) :=
      Change.bind_of_ok _ hvalue
    rw [App.refreshPairs, List.mapM_cons]
    refine (Change.bind_of_ok _ hfirst).trans ?_
    refine (Change.bind_of_ok _ (ih h.2)).trans ?_
    rfl

theorem Are.isScalar {ps : Pairs} {f : String → Value} {names : List String}
    (h : ps.Are (Entries.graph f names)) (hf : ∀ name ∈ names, (f name).isScalar = true) :
    ∀ p ∈ ps, p.2.isScalar = true := by
  induction ps generalizing names with
  | nil => exact fun _ hp ↦ absurd hp List.not_mem_nil
  | cons p ps ih =>
    obtain ⟨name, es', -, hes, hps⟩ := h.of_cons
    cases names with
    | nil => simp [Entries.graph] at hes
    | cons name' names =>
      rw [List.forall_mem_cons] at hf ⊢
      rw [Entries.graph, List.map_cons] at hes
      obtain ⟨hhead, rfl⟩ := List.cons.inj hes
      exact ⟨(Prod.mk.inj hhead).2 ▸ hf.1, ih hps hf.2⟩

/-- Bringing a record up to date changes its values alone, when its key was scalars. -/
theorem refreshed_eq {last : Entries} (h : Tracks t r (some last)) (hname : CanName t last)
    {r' : Record} (hr : (r.refreshed s).1 = .ok r') :
    r.refreshed s = (.ok r', s) ∧ r' = { r with values := r'.values } := by
  have hrun : r.refreshed s = (.ok r', s) := Prod.ext hr (r.keeps_refreshed s)
  refine ⟨hrun, ?_⟩
  obtain ⟨values, s₁, hvalues, hrest⟩ := Change.bind_eq_ok.mp hrun
  obtain ⟨rowKey, s₂, hpairs, hrest⟩ := Change.bind_eq_ok.mp hrest
  rw [refreshPairs_of_isScalar (Are.isScalar h.rowKey hname.isScalar)] at hpairs
  obtain ⟨hpairs, -⟩ := Prod.mk.inj hpairs
  obtain rfl := Except.ok.inj hpairs
  obtain ⟨hrest, -⟩ := Prod.mk.inj hrest
  rw [← Except.ok.inj hrest]

section

variable {r' : Record} {skipReload ignoreConflict : Bool}

theorem beside_refreshed (hrun : r.refreshed s = (.ok r', s)) :
    (On.beside r.refreshed : On Record σ Record) (r, s) = (.ok r', r, s) := by
  rw [On.beside, Change.onSecond_apply, hrun]

theorem beside_saveStatement {found : Option Statement}
    (hfound : (r'.saveStatement skipReload ignoreConflict).result = .ok found) :
    (On.beside (App.logged (r'.saveStatement skipReload ignoreConflict)) :
      On Record σ (Option Statement)) (r, s) = (.ok found, r,
        { s with log := s.log ++ (r'.saveStatement skipReload ignoreConflict).log }) := by
  rw [On.beside, Change.onSecond_apply, App.logged]
  exact congrArg (·, r, _) hfound

variable [Backend σ]

/-- Saving does nothing where no statement saves the record. -/
theorem save_of_no_statement (hrun : r.refreshed s = (.ok r', s))
    (hnone : r'.saveStatement skipReload ignoreConflict = .ok none) :
    save skipReload ignoreConflict (r, s) = (.ok false, r, s) := by
  have hobject : (On.object : On Record σ Record) (r, s) = (.ok r, r, s) := rfl
  rw [save, Change.bind_of_ok _ hobject, Change.bind_of_ok _ (beside_refreshed hrun),
    Change.bind_of_ok _ (beside_saveStatement (congrArg Logged.result hnone)), hnone]
  exact congrArg (fun log ↦ (Except.ok false, r, { s with log })) (List.append_nil s.log)

theorem sends_save {st : Statement} (hrun : r.refreshed s = (.ok r', s))
    (hfound : (r'.saveStatement skipReload ignoreConflict).result = .ok (some st))
    (hconn : App.HasConnection r'.conn r'.pool s) :
    Change.Sends (fun u : Record × Session σ ↦ u.2) [st] (save skipReload ignoreConflict)
      (r, s) := by
  have hobject : (On.object : On Record σ Record) (r, s) = (.ok r, r, s) := rfl
  have hbeside := beside_refreshed hrun
  have hlogged := beside_saveStatement (r := r) (s := s) hfound
  rw [save]
  -- Nothing is sent before the statement is made, nor after it was sent.
  refine Change.Sends.silent_bind (.of_onlySends (.of_events (by rw [hobject]))) hobject ?_
  refine Change.Sends.silent_bind (.of_onlySends (.of_events (by rw [hbeside]))) hbeside ?_
  refine Change.Sends.silent_bind (.of_onlySends (.of_events (by rw [hlogged]))) hlogged ?_
  exact ((r'.sends_send st (hconn.with_log _)).onSecond r).bind_silent fun outcome u _ ↦
    Change.Sends.of_onlySends (onlySends_takeWritten skipReload outcome.rows u)

end

/-- **Saving a record that was matched to a row.** Nothing is sent when no field differs from its
value at the last match. Otherwise one statement is, which sets the fields that differ in the row
that the key had named then. -/
theorem save_of_history [Backend σ] {last : Entries} (h : History t r (some last))
    (ht : t.KeepsState) (hkeys : t.keys.Nodup) (hname : CanName t last) {r' : Record}
    (hr : (r.refreshed s).1 = .ok r')
    (hassign : ∀ key ∈ changedKeys t r'.values last, CanAssign (r'.values.valueAt key))
    (hconn : App.HasConnection r.conn r.pool s) (skipReload ignoreConflict : Bool) :
    (changedKeys t r'.values last = [] →
      save skipReload ignoreConflict (r, s) = (.ok false, r, s)) ∧
    (changedKeys t r'.values last ≠ [] →
      ∃ st, UpdatesRow t r'.values last skipReload st ∧
        (t.table.Plain → (∀ key ∈ changedKeys t r'.values last, ∀ text,
          inlineAssigned? (r'.values.valueAt key) = some (.ok text) → Sql.numbers text = []) →
            Sql.numbers st.text = List.range' 1 st.values.length) ∧
        Change.Sends (fun u : Record × Session σ ↦ u.2) [st] (save skipReload ignoreConflict)
          (r, s)) := by
  have htracks := h.tracks ht fun key hkey ↦ (hname.key key hkey).imp fun _ hkey ↦ hkey.1
  obtain ⟨hrun, hr'⟩ := refreshed_eq htracks hname hr
  have hloaded : r'.loaded = true := (loaded_of_refreshed hr).trans htracks.loaded
  have hsame : r'.type = r.type ∧ r'.clean = r.clean ∧ r'.rowKey = r.rowKey ∧
      r'.conn = r.conn ∧ r'.pool = r.pool := by
    rw [hr']
    exact ⟨rfl, rfl, rfl, rfl, rfl⟩
  obtain ⟨htype, hclean, hrow, hsameConn, hsamePool⟩ := hsame
  have hstatement := changeStatement_eq ht hkeys hname htracks.keyed htracks.declaredLast
    (htype.trans htracks.type) (hclean.trans htracks.clean) (hrow ▸ htracks.rowKey) hassign
    skipReload
  have hsave : r'.saveStatement skipReload ignoreConflict = r'.changeStatement skipReload := by
    rw [saveStatement, if_pos hloaded]
  rw [← hsave] at hstatement
  constructor
  · intro hsame
    rw [if_pos hsame] at hstatement
    exact save_of_no_statement hrun hstatement
  · intro hchanged
    rw [if_neg hchanged] at hstatement
    obtain ⟨st, hst, hupdates⟩ := hstatement
    exact ⟨st, hupdates, fun hplain ↦ hupdates.numbers hplain,
      sends_save hrun (congrArg Logged.result hst) (hsameConn ▸ hsamePool ▸ hconn)⟩

/-- A letter with a connection, which was loaded and given another text since. -/
def rewritten : Record := { letter with conn := some ⟨"c"⟩ }

theorem history_rewritten : History letter.type rewritten (some [("b", .text "y")]) := by
  have hmake : History letter.type { type := letter.type, conn := some ⟨"c"⟩ } none :=
    @History.make _ (.connection ⟨"c"⟩) .null [] _ rfl
  have hload : History letter.type { rewritten with values := [("b", .text "y")] }
      (some [("b", .text "y")]) := @History.load _ _ _ _ [("b", .text "y")] hmake rfl
  exact @History.set _ _ _ _ (.text "b") (.text "x") hload rfl

theorem save_of_history_rewritten :
    History letter.type rewritten (some [("b", .text "y")]) ∧ letter.type.KeepsState ∧
    changedKeys letter.type rewritten.values [("b", .text "y")] = ["b"] ∧
    ∃ st, UpdatesRow letter.type rewritten.values [("b", .text "y")] true st ∧
      Sql.numbers st.text = List.range' 1 st.values.length ∧
      Change.Sends (fun u : Record × Session Scripted ↦ u.2) [st] (save true false)
        (rewritten, { db := ({} : Scripted) }) := by
  have ht : letter.type.KeepsState := ⟨rfl, rfl⟩
  have hname : CanName letter.type [("b", .text "y")] := by
    refine ⟨⟨_, rfl⟩, fun key hkey ↦ ?_⟩
    obtain rfl := List.mem_singleton.mp hkey
    exact ⟨"b", rfl, rfl⟩
  have hplain : letter.type.table.Plain := by
    refine ⟨fun s hs ↦ ?_, fun key field hfield ↦ ?_⟩
    · obtain rfl := Option.some.inj hs
      rfl
    · obtain h | h := List.mem_pair.mp hfield <;> cases h <;> exact ⟨rfl, rfl⟩
  have hchanged : changedKeys letter.type rewritten.values [("b", .text "y")] = ["b"] := by rfl
  have hrefreshed : (rewritten.refreshed { db := ({} : Scripted) }).1 = .ok rewritten := rfl
  have hbound : ∀ key ∈ changedKeys letter.type rewritten.values [("b", .text "y")],
      inlineAssigned? (rewritten.values.valueAt key) = none := by
    rw [hchanged, List.forall_mem_singleton]
    rfl
  have hassign : ∀ key ∈ changedKeys letter.type rewritten.values [("b", .text "y")],
      CanAssign (rewritten.values.valueAt key) := fun key hkey x hx ↦ by
    simp [hbound key hkey] at hx
  obtain ⟨-, hsaved⟩ := save_of_history history_rewritten ht (by decide) hname hrefreshed hassign
    (.inl rfl) true false
  obtain ⟨st, hupdates, hnumbers, hsends⟩ := hsaved (hchanged ▸ List.cons_ne_nil _ _)
  refine ⟨history_rewritten, ht, hchanged, st, hupdates, hnumbers hplain ?_, hsends⟩
  intro key hkey text htext
  simp [hbound key hkey] at htext

/-- A record type with a field where a record keeps the key of its row. -/
def keyHolder : RecordType where
  table := {
    recordName := "T", name := .text "t"
    fields := [(rowKeyName, ⟨.json, none, false, true⟩), ("id", ⟨.text, none, true, false⟩)]
    primaryKey := [.text "id"] }
  defaults := []
  privateFields := []
  accessors := [rowKeyName, "id"]

/-- A record with such a field, which was loaded, and given another key in that field since. -/
def keyHolding : Record where
  type := keyHolder
  values := [(rowKeyName, .map [("id", .text "x")]), ("id", .text "y")]
  clean := [(rowKeyName, .map [("id", .text "y")]), ("id", .text "y")]
  setKeys := [rowKeyName, "id"]
  loaded := true
  conn := some ⟨"c"⟩

theorem history_keyHolding : History keyHolder keyHolding (some keyHolding.clean) := by
  have hmake : History keyHolder (empty keyHolder (some ⟨"c"⟩) none) none :=
    @History.make _ (.connection ⟨"c"⟩) .null [] _ rfl
  have hload : History keyHolder { keyHolding with values := keyHolding.clean }
      (some keyHolding.clean) := @History.load _ _ _ _ [("id", .text "y")] hmake rfl
  exact @History.set _ _ _ _ (.text rowKeyName) (.map [("id", .text "x")]) hload rfl

/-- **A field in the place of the key of the row.** Giving it a value changes the row that is
updated. -/
theorem save_of_keyHolding :
    History keyHolder keyHolding (some keyHolding.clean) ∧
    keyHolding.clean.valueAt "id" = .text "y" ∧
    (keyHolding.saveStatement true false).result = .ok (some
      ⟨"UPDATE \"t\" SET \"_primary_key_internal\" = $1 WHERE \"id\" = $2",
        [.map [("id", .text "x")], .text "x"]⟩) :=
  ⟨history_keyHolding, rfl, rfl⟩

end Record

end Rowmap
