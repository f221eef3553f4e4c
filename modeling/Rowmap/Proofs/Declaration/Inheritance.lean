import Rowmap.Declaration.Description
import Rowmap.Proofs.Record.Accessors
import Rowmap.Proofs.Record.Naming

/-!
# What a record type inherits

A declaration that says nothing of fields, primary key and private fields makes a type with those of
its base, whichever declarations the base has them from. With the primary key there is an exception.
A declared key goes before the flags of the fields only in the declaration that it stands in. In a
type based on that, the flags go before the inherited key. So the key is kept along any number of
such declarations, unless the base declares a key itself that differs from its flagged fields; then
it is lost at once, for the flagged fields.

A key that is kept leaves no difference to the base but for the names of the type and of its table,
and the name of a type is in no update and no deletion.
-/

namespace Rowmap

/-- A declaration of no fields, no primary key and no private fields. -/
structure TypeDeclaration.IsBare (d : TypeDeclaration) : Prop where
  fields : d.fields = none
  primaryKey : d.primaryKey = none
  privateFields : d.privateFields = none

namespace RecordType

/-- The fields that are flagged as primary key. -/
def flagged (t : RecordType) : List Value :=
  (t.table.fields.filter (·.2.primaryKey)).map (Value.text ·.1)

/-- The primary key of a type based on this one that declares none. -/
def heirKey (t : RecordType) : List Value :=
  if t.flagged.isEmpty then t.table.primaryKey else t.flagged

/-- The type that a bare declaration of a name and a table makes of its base. -/
def heir (t : RecordType) (recordName : String) (table : Value) : RecordType :=
  { t with table := { t.table with recordName, name := table, primaryKey := t.heirKey } }

variable {base t : RecordType}

theorem heirKey_eq_iff :
    t.heirKey = t.table.primaryKey ↔ t.flagged = [] ∨ t.table.primaryKey = t.flagged := by
  rw [heirKey]
  split
  · rename_i h
    exact iff_of_true rfl (.inl (List.isEmpty_iff.mp h))
  · rename_i h
    rw [List.isEmpty_iff] at h
    rw [or_iff_right h, eq_comm]

theorem heirKey_heir (t : RecordType) (recordName : String) (table : Value) :
    (t.heir recordName table).heirKey = t.heirKey := by
  have hflagged : (t.heir recordName table).flagged = t.flagged := rfl
  have hkey : (t.heir recordName table).table.primaryKey = t.heirKey := rfl
  rw [heirKey, hflagged, hkey, heirKey]
  split <;> rfl

theorem heir_of_kept (h : t.heirKey = t.table.primaryKey) (recordName : String) (table : Value) :
    t.heir recordName table = t.named recordName table := by
  rw [heir, h]
  rfl

end RecordType

/-! ## Bare declarations -/

namespace TypeDeclaration

variable {d : TypeDeclaration} {base t : RecordType}

theorem extend_of_isBare (hbase : base.Declared) (hd : d.IsBare) : d.extend base =
    if d.name.contains '\x00' then .error .badValue
    else .ok (base.heir d.name (d.table.getD base.table.name)) := by
  -- every field that admits an accessor has one already
  have hadded : (base.table.fields.map (·.1)).filter (fun key ↦
      Declaration.admitsAccessor key && !base.accessors.contains key) = [] := by
    rw [List.filter_eq_nil_iff]
    intro key hkey hadmits
    obtain ⟨hadmits, hnew⟩ := Bool.and_eq_true_iff.mp hadmits
    have hmem := hbase.mem_accessors (Table.declares_of_mem_keys hkey) hadmits
    simp [hmem] at hnew
  have hkey : primaryKeyOf none base.flagged base.table.primaryKey = .ok base.heirKey := by
    rw [primaryKeyOf, RecordType.heirKey, Option.any_none, Bool.or_false]
    split <;> rfl
  rw [extend, hd.fields, hd.primaryKey, hd.privateFields]
  split
  · rfl
  · show (primaryKeyOf none base.flagged base.table.primaryKey >>= _) = _
    rw [hkey]
    show Except.ok _ = _
    rw [hadded, List.append_nil]
    rfl

theorem primaryKeyOf_of_extend (h : d.extend base = .ok t) :
    primaryKeyOf d.primaryKey t.flagged base.table.primaryKey = .ok t.table.primaryKey := by
  rw [extend] at h
  split at h
  · cases h
  · obtain ⟨own, -, h⟩ := Except.bind_eq_ok.mp h
    obtain ⟨primaryKey, hkey, h⟩ := Except.bind_eq_ok.mp h
    obtain ⟨privateFields, -, h⟩ := Except.bind_eq_ok.mp h
    cases h
    exact hkey

theorem declares_key_of_lost (h : d.extend base = .ok t)
    (hlost : t.heirKey ≠ t.table.primaryKey) : d.primaryKey.any Value.truthy = true := by
  rw [ne_eq, RecordType.heirKey_eq_iff, not_or] at hlost
  obtain ⟨hflagged, hdiffers⟩ := hlost
  by_contra hdeclared
  rw [Bool.not_eq_true] at hdeclared
  have hkey := primaryKeyOf_of_extend h
  rw [primaryKeyOf, hdeclared, Bool.or_false, if_neg (by simpa using hflagged)] at hkey
  exact hdiffers (Except.ok.inj hkey).symm

end TypeDeclaration

/-! ## Heirs -/

namespace RecordType

/-- The types that bare declarations make of a base, one after the other. -/
inductive Heir (base : RecordType) : RecordType → Prop where
  | direct {t : RecordType} {d : TypeDeclaration} (hd : d.IsBare) (h : d.extend base = .ok t) :
      Heir base t
  | further {s t : RecordType} {d : TypeDeclaration} (hs : Heir base s) (hd : d.IsBare)
      (h : d.extend s = .ok t) : Heir base t

variable {base t : RecordType}

theorem Heir.declared (h : Heir base t) (hbase : base.Declared) : t.Declared := by
  induction h with
  | direct _ hextend => exact .extend hbase hextend
  | further _ _ hextend ih => exact .extend ih hextend

theorem eq_heir_of_extend {d : TypeDeclaration} (hbase : base.Declared) (hd : d.IsBare)
    (h : d.extend base = .ok t) : t = base.heir t.name t.table.name := by
  rw [TypeDeclaration.extend_of_isBare hbase hd] at h
  split at h
  · cases h
  · obtain rfl := Except.ok.inj h
    rfl

theorem Heir.eq_heir (h : Heir base t) (hbase : base.Declared) :
    t = base.heir t.name t.table.name := by
  induction h with
  | direct hd hextend => exact eq_heir_of_extend hbase hd hextend
  | @further s t _ hs hd hextend ih =>
    have ht := eq_heir_of_extend (hs.declared hbase) hd hextend
    have hkey : s.heirKey = base.heirKey := by rw [ih, heirKey_heir]
    calc t = s.heir t.name t.table.name := ht
      _ = base.heir t.name t.table.name := by
        rw [heir, hkey, ih]
        rfl

theorem Heir.writesAs (h : Heir base t) (hbase : base.Declared)
    (hkept : base.heirKey = base.table.primaryKey) {r : Record} (htype : r.type = t) :
    r.WritesAs { r with type := base.named base.name t.table.name } := by
  have ht := h.eq_heir hbase
  rw [heir_of_kept hkept] at ht
  have hcalled : Record.called { r with type := base.named base.name t.table.name } t.name = r := by
    obtain ⟨⟩ := r
    obtain rfl := htype
    rw [Record.called, Record.mk.injEq]
    exact ⟨ht.symm, rfl, rfl, rfl, rfl, rfl, rfl, rfl, rfl, rfl⟩
  exact hcalled ▸ Record.writesAs_called _ t.name

/-- **A type that declares no fields, key and private fields has those of its base**, over any
number of such declarations, but for the primary key, which is kept exactly if the base has no
flagged fields or those as its key. The flagged fields become the key otherwise, and this only
happens to a base that declares a key itself. Where the key is kept, the records make the updates
and the deletions that they would make as records of the base on the same table. -/
theorem heirs_inherit_all_unless_key_declared {base : RecordType} (hbase : base.Declared) :
    (∀ s, s = base ∨ Heir base s → ∀ d : TypeDeclaration, d.IsBare →
      d.name.contains '\x00' = false → ∃ t, d.extend s = .ok t ∧ Heir base t) ∧
    ∀ t, Heir base t →
      t.table.fields = base.table.fields ∧ t.columns = base.columns ∧
      t.defaults = base.defaults ∧ t.privateFields = base.privateFields ∧
      (t.table.primaryKey = base.table.primaryKey ↔
        base.flagged = [] ∨ base.table.primaryKey = base.flagged) ∧
      (t.table.primaryKey ≠ base.table.primaryKey → t.table.primaryKey = base.flagged ∧
        ∀ (d : TypeDeclaration) (base' : RecordType), d.extend base' = .ok base →
          d.primaryKey.any Value.truthy = true) ∧
      (t.table.primaryKey = base.table.primaryKey → ∀ r : Record, r.type = t →
        r.WritesAs { r with type := base.named base.name t.table.name }) := by
  refine ⟨fun s hs d hd hname ↦ ?_, fun t ht ↦ ?_⟩
  · have hextend {s : RecordType} (hs : s.Declared) := TypeDeclaration.extend_of_isBare hs hd
    simp only [hname, Bool.false_eq_true, if_false] at hextend
    obtain rfl | hs := hs
    · exact ⟨_, hextend hbase, .direct hd (hextend hbase)⟩
    · have hdeclared := hs.declared hbase
      exact ⟨_, hextend hdeclared, .further hs hd (hextend hdeclared)⟩
  · have hwrites := ht.writesAs hbase
    obtain ⟨recordName, table, rfl⟩ : ∃ recordName table, t = base.heir recordName table :=
      ⟨_, _, ht.eq_heir hbase⟩
    refine ⟨rfl, rfl, rfl, rfl, heirKey_eq_iff, fun hlost ↦ ⟨?_, fun d base' h ↦ ?_⟩,
      fun hkept r htype ↦ hwrites hkept htype⟩
    · have hflagged : base.flagged ≠ [] := fun h ↦ hlost (heirKey_eq_iff.mpr (.inl h))
      exact if_neg (by simpa using hflagged)
    · exact TypeDeclaration.declares_key_of_lost h hlost

/-- A declaration of a name, and of a table if one is given. -/
def bareDeclaration (name : String) (table : Option Value) : TypeDeclaration := { name, table }

theorem isBare_bareDeclaration (name : String) (table : Option Value) :
    (bareDeclaration name table).IsBare := ⟨rfl, rfl, rfl⟩

theorem extend_bareDeclaration {base : RecordType} (hbase : base.Declared) {name : String}
    (hname : name.contains '\x00' = false) (table : Option Value) :
    (bareDeclaration name table).extend base =
      .ok (base.heir name (table.getD base.table.name)) := by
  rw [TypeDeclaration.extend_of_isBare hbase (isBare_bareDeclaration name table)]
  exact if_neg (by rw [bareDeclaration, hname]; exact Bool.false_ne_true)

/-- Reminders, two declarations away from notes, with a table of their own in between. -/
def reminderType : RecordType :=
  (Record.noteType "title" ["a", "title"]).named "Reminder" (.text "memos")

def reminder : Record := { type := reminderType, values := [("a", .int 1)], setKeys := ["a"] }

theorem heirs_inherit_all_unless_key_declared_reminder :
    (Record.noteType "title" ["a", "title"]).Declared ∧
    Heir (Record.noteType "title" ["a", "title"]) reminderType ∧
    reminderType.table.primaryKey = [.text "a"] ∧
    reminder.WritesAs { reminder with
      type := (Record.noteType "title" ["a", "title"]).named "Note" (.text "memos") } ∧
    reminder.removalStatement.result =
      .ok ⟨"DELETE FROM \"memos\" WHERE \"a\" = $1", [.int 1]⟩ := by
  have hnotes : (Record.noteType "title" ["a", "title"]).Declared :=
    Record.declared_noteType (by decide +kernel)
  have hheir : Heir (Record.noteType "title" ["a", "title"]) reminderType := by
    have hmemo : "Memo".contains '\x00' = false := by cbv
    have hreminder : "Reminder".contains '\x00' = false := by cbv
    have hmemos := Heir.direct (isBare_bareDeclaration "Memo" _)
      (extend_bareDeclaration hnotes hmemo (some (.text "memos")))
    exact .further hmemos (isBare_bareDeclaration "Reminder" none)
      (extend_bareDeclaration (hmemos.declared hnotes) hreminder none)
  obtain ⟨-, -, -, -, hkept, -, hwrites⟩ :=
    (heirs_inherit_all_unless_key_declared hnotes).2 _ hheir
  have hkey := hkept.mpr (.inr rfl)
  exact ⟨hnotes, hheir, hkey, hwrites hkey reminder rfl, rfl⟩

/-- Accounts of tenants, with a flagged number and a key of the tenant and that number. -/
def accountDeclaration : TypeDeclaration where
  name := "Account"
  table := some (.text "accounts")
  fields := some (.map [
    ("id", .map [("type", .text "integer"), ("primary_key", .bool true)]),
    ("tenant", .map [("type", .text "text")])])
  primaryKey := some (.list [.text "tenant", .text "id"])

/-- The type that this declares, or that a bare declaration makes of it. -/
def accountType (recordName : String) (primaryKey : List Value) : RecordType where
  table := {
    recordName
    name := .text "accounts"
    fields := [("id", ⟨.integer, none, true, true⟩), ("tenant", ⟨.text, none, false, true⟩)]
    primaryKey }
  defaults := [("id", .null), ("tenant", .null)]
  privateFields := []
  accessors := ["id", "tenant"]

theorem extend_accountDeclaration : accountDeclaration.extend root =
    .ok (accountType "Account" [.text "tenant", .text "id"]) := by
  have hname : accountDeclaration.name.contains '\x00' = false := by cbv
  have haccessors : ["id", "tenant"].filter
      (fun key ↦ Declaration.admitsAccessor key && !root.accessors.contains key) =
      ["id", "tenant"] := by decide +kernel
  rw [TypeDeclaration.extend, hname, if_neg Bool.false_ne_true]
  show Except.ok _ = _
  rw [accountType, ← haccessors]
  rfl

/-- **A declared key beside a flagged field** is lost in a type that declares nothing, and with it
the tenant of the row that is deleted. -/
theorem removal_of_heir_without_tenant :
    accountDeclaration.extend root = .ok (accountType "Account" [.text "tenant", .text "id"]) ∧
    (bareDeclaration "Deposit" none).extend (accountType "Account" [.text "tenant", .text "id"]) =
      .ok (accountType "Deposit" [.text "id"]) ∧
    ({ type := accountType "Account" [.text "tenant", .text "id"]
       values := [("id", .int 1), ("tenant", .text "x")] } : Record).removalStatement.result =
      .ok ⟨"DELETE FROM \"accounts\" WHERE \"tenant\" = $1 AND \"id\" = $2",
        [.text "x", .int 1]⟩ ∧
    ({ type := accountType "Deposit" [.text "id"]
       values := [("id", .int 1), ("tenant", .text "x")] } : Record).removalStatement.result =
      .ok ⟨"DELETE FROM \"accounts\" WHERE \"id\" = $1", [.int 1]⟩ :=
  ⟨extend_accountDeclaration,
    extend_bareDeclaration (.extend .root extend_accountDeclaration) (by cbv) none, rfl, rfl⟩

end RecordType

end Rowmap
