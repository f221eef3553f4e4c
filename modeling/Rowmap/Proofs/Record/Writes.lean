import Rowmap.Database.Scripted
import Rowmap.Proofs.Condition.Columns
import Rowmap.Proofs.Session.Keeps
import Rowmap.Proofs.Session.Sends
import Rowmap.Proofs.Value.Equality

/-!
# The rows that a record writes to

An update and a deletion name their row by a primary key, whose values go through the compiler like
any other condition. Most values become one condition on the column of their part of the key. Those
that do not are known exactly: a value that was never given becomes nothing at all, a list without
elements becomes a constant, and a group becomes as many conditions as it has leaves.

Deleting looks only for null in the key. So a record whose key was never given a value is deleted by
a condition that is always true.
-/

namespace Rowmap

/-! ## Keys -/

namespace Pairs

theorem exists_mem_put_self (ps : Pairs) (key v : Value) :
    ∃ e ∈ ps.put key v, e.1 = key ∨ e.1.matchesElement key = true := by
  induction ps with
  | nil => exact ⟨(key, v), List.mem_cons_self, .inl rfl⟩
  | cons p ps ih =>
    rw [put]
    split
    · exact ⟨(p.1, v), List.mem_cons_self, .inr ‹_›⟩
    · obtain ⟨e, he, hkey⟩ := ih
      exact ⟨e, List.mem_cons_of_mem _ he, hkey⟩

theorem exists_mem_put_of_mem {ps : Pairs} {e : Value × Value} (h : e ∈ ps) (key v : Value) :
    ∃ e' ∈ ps.put key v, e'.1 = e.1 := by
  induction ps with
  | nil => exact absurd h List.not_mem_nil
  | cons p ps ih =>
    rw [put]
    obtain rfl | h := List.mem_cons.mp h
    · split
      · exact ⟨(e.1, v), List.mem_cons_self, rfl⟩
      · exact ⟨e, List.mem_cons_self, rfl⟩
    · split
      · exact ⟨e, List.mem_cons_of_mem _ h, rfl⟩
      · obtain ⟨e', he', hkey⟩ := ih h
        exact ⟨e', List.mem_cons_of_mem _ he', hkey⟩

theorem forall₂_split {ps : Pairs} (h : ps.split.2 = none) :
    List.Forall₂ (fun p e ↦ p.1.asText? = some e.1 ∧ p.2 = e.2) ps ps.split.1 := by
  induction ps with
  | nil => exact .nil
  | cons p ps ih =>
    rw [split.eq_def] at h ⊢
    dsimp only at h ⊢
    split at h
    · rename_i name hname
      exact .cons ⟨hname, rfl⟩ (ih h)
    · simp at h

theorem exists_asText?_of_mem {ps : Pairs} (h : ps.split.2 = none) {p : Value × Value}
    (hp : p ∈ ps) : ∃ name, p.1.asText? = some name := by
  have hall := forall₂_split h
  clear h
  generalize ps.split.1 = es at hall
  induction hall with
  | nil => exact absurd hp List.not_mem_nil
  | cons head _ ih =>
    obtain rfl | hp := List.mem_cons.mp hp
    · exact ⟨_, head.1⟩
    · exact ih hp

end Pairs

theorem Record.exists_mem_keyWith (r : Record) (part : Value → Value) :
    ∀ key ∈ r.type.table.primaryKey,
      ∃ e ∈ r.keyWith part, e.1 = key ∨ e.1.matchesElement key = true := by
  rw [keyWith]
  generalize r.type.table.primaryKey = keys
  -- a part that has been put stays in its place, whatever is put after it
  have hfold (ps : Pairs) (key : Value)
      (h : key ∈ keys ∨ ∃ e ∈ ps, e.1 = key ∨ e.1.matchesElement key = true) :
      ∃ e ∈ keys.foldl (fun ps key ↦ ps.put key (part key)) ps,
        e.1 = key ∨ e.1.matchesElement key = true := by
    induction keys generalizing ps with
    | nil => exact h.resolve_left List.not_mem_nil
    | cons k keys ih =>
      refine ih _ ?_
      obtain h | ⟨e, he, hkey⟩ := h
      · obtain rfl | h := List.mem_cons.mp h
        · exact .inr (Pairs.exists_mem_put_self ps key _)
        · exact .inl h
      · obtain ⟨e', he', heq⟩ := Pairs.exists_mem_put_of_mem he k (part k)
        exact .inr ⟨e', he', heq ▸ hkey⟩
  exact fun key hkey ↦ hfold [] key (.inl hkey)

/-! ## Conditions on keys -/

/-- Whether a value under a key becomes exactly one condition on its column. -/
def Value.pins (key : String) (v : Value) : Bool :=
  match v.fieldLeaves false key none with
  | [p] => !p.isConstant
  | _ => false

/-- What the text of a condition says of the parts of a key, when each is written as some texts. -/
structure Table.Keyed (t : Table Value) (key : Pairs) (texts : List (List String))
    (where_ : String) : Prop where
  /-- Exactly the values that pin their column are written as one condition on it. -/
  pinned : List.Forall₂ (fun e own ↦ ∃ name, e.1.asText? = some name ∧
    ((∃ text, own = [text] ∧ t.IsOn name text) ↔ e.2.pins name = true)) key texts
  /-- There is nothing in the text besides. -/
  spelled : ∃ tokens, Token.written tokens = where_ ∧ tokens.filterMap Token.atom? = texts.flatten
  /-- Parts that are written as one text each, or not at all, are joined. -/
  joined : (∀ own ∈ texts, own.length ≤ 1) →
    where_ = Condition.orAlways (" AND ".intercalate texts.flatten)

namespace Place

variable {t : Table Value} {key : String}

theorem exists_isOn_iff_pins {v : Value} {texts : List String}
    (h : List.Forall₂ (Place.Describes t key) (v.fieldLeaves false key none) texts) :
    (∃ text, texts = [text] ∧ t.IsOn key text) ↔ v.pins key = true := by
  rw [Value.pins]
  constructor
  · rintro ⟨text, rfl, hon⟩
    obtain ⟨p, ps, hp, hps, hleaves⟩ := List.forall₂_cons_right_iff.mp h
    obtain rfl := List.forall₂_nil_right_iff.mp hps
    rw [hleaves]
    rw [Describes] at hp
    split at hp
    · exact absurd hon (Table.not_isOn_of_mem_constantTexts hp)
    · rename_i hconstant
      simpa using hconstant
  · intro hpins
    split at hpins
    · rename_i p hleaves
      rw [hleaves] at h
      obtain ⟨text, rest, hp, hrest, rfl⟩ := List.forall₂_cons_left_iff.mp h
      obtain rfl := List.forall₂_nil_left_iff.mp hrest
      rw [Describes, if_neg (by simpa using hpins)] at hp
      exact ⟨text, rfl, hp⟩
    · exact absurd hpins Bool.false_ne_true

end Place

namespace Table

variable {t : Table Value}

theorem describes_of_ofField {name : String} {v : Value} {b : Int} {part : Condition}
    (h : (Condition.ofField ⟨t, .standard, false⟩ name v none b).result = .ok part) :
    List.Forall₂ (Place.Describes t name) (v.fieldLeaves false name none) part.atoms := by
  have hatoms := ((Condition.agreesEverywhere _ v).field h).atoms
  refine List.Forall₂.imp ?_ ((List.forall₂_and_left _ _).mpr
    ⟨Condition.key_of_mem_fieldLeaves name v none, hatoms⟩)
  exact fun p text hp ↦ Condition.describes_of_writtenAs hp.1 hp.2

theorem pinned_of_describes {key : Pairs} {parts : List Condition} (hkey : key.split.2 = none)
    (h : List.Forall₂ (fun e part ↦ List.Forall₂ (Place.Describes t e.1)
      (e.2.fieldLeaves false e.1 none) part.atoms) key.split.1 parts) :
    List.Forall₂ (fun e own ↦ ∃ name, e.1.asText? = some name ∧
      ((∃ text, own = [text] ∧ t.IsOn name text) ↔ e.2.pins name = true))
      key (parts.map Condition.atoms) := by
  rw [List.forall₂_map_right_iff]
  have hsplit := Pairs.forall₂_split hkey
  clear hkey
  generalize key.split.1 = es at h hsplit
  induction hsplit generalizing parts with
  | nil =>
    obtain rfl := List.forall₂_nil_left_iff.mp h
    exact .nil
  | @cons p e _ _ hp _ ih =>
    obtain ⟨part, rest, hpart, hrest, rfl⟩ := List.forall₂_cons_left_iff.mp h
    refine .cons ⟨e.1, hp.1, ?_⟩ (ih hrest)
    rw [hp.2]
    exact Place.exists_isOn_iff_pins hpart

theorem flatten_map_atoms (parts : List Condition) :
    (parts.map Condition.atoms).flatten = Condition.partAtoms parts := by
  induction parts with
  | nil => rfl
  | cons part parts ih => rw [List.map_cons, List.flatten_cons, ih, Condition.partAtoms]

theorem joinParts_of_no_siblings (parts : List String) (connective : String) :
    Sql.joinParts parts connective 0 =
      (" " ++ connective ++ " ").intercalate (parts.filter (!·.isEmpty)) := by
  rw [Sql.joinParts, if_neg (by simp)]

/-- **Conditions on keys.** -/
theorem keyed_of_compile {key : Pairs} {bound : Int} {where_ : Statement}
    (h : (t.compile (.map key.split.1) bound).result = .ok where_) (hkey : key.split.2 = none) :
    ∃ texts, t.Keyed key texts where_.text := by
  obtain ⟨c, hc, hst⟩ := Logged.bind_eq_ok.mp h
  obtain rfl : c.statement 0 = where_ := Except.ok.inj hst
  have hne := Condition.ne_empty_of_mem_atoms ((Condition.agreesEverywhere _ _).node hc).atoms
  cases Condition.NodeCase.of_ofNode hc with
  | rows _ _ hv _ => exact absurd hv Bool.false_ne_true
  | @map _ parts hentries =>
    have hparts := hentries.forall₂ fun e _ b part h ↦ describes_of_ofField h.2
    refine ⟨parts.map Condition.atoms, pinned_of_describes hkey hparts, ?_, ?_⟩
    · refine ⟨_, Condition.written_statement _ 0 hne, ?_⟩
      rw [Condition.filterMap_atom?_orAlwaysToken, Condition.filterMap_atom?_tokens,
        flatten_map_atoms, Condition.atoms]
    · intro hlone
      have htexts := hentries.forall_mem fun e _ b part h ↦ Condition.text_of_ofField h.2
      have hfilter (siblings : Int) := Condition.filter_partTexts hne fun part hpart ↦
        have hle := hlone _ (List.mem_map_of_mem hpart)
        ⟨hle, htexts part hpart hle siblings⟩
      show Condition.orAlways (Condition.orAlways (Sql.joinParts _ _ 0)) = _
      rw [Condition.orAlways_orAlways, joinParts_of_no_siblings, hfilter, flatten_map_atoms]
      rfl

end Table

/-- Whether each value of a key becomes exactly one condition on the column of its part. -/
def Pairs.Pinned (key : Pairs) : Prop :=
  ∀ e ∈ key, ∃ name, e.1.asText? = some name ∧ e.2.pins name = true

namespace Table.Keyed

variable {t : Table Value} {key : Pairs} {texts : List (List String)} {where_ : String}

theorem exists_conditions (h : t.Keyed key texts where_) (hkey : key.Pinned) :
    ∃ conditions, texts = conditions.map ([·]) ∧
      List.Forall₂ (fun e text ↦ ∃ name, e.1.asText? = some name ∧ t.IsOn name text)
        key conditions := by
  have hpinned := h.pinned
  clear h
  induction hpinned with
  | nil => exact ⟨[], rfl, .nil⟩
  | @cons e own key texts howns _ ih =>
    rw [Pairs.Pinned, List.forall_mem_cons] at hkey
    obtain ⟨⟨name, hname, hpins⟩, hrest⟩ := hkey
    obtain ⟨name', hname', hiff⟩ := howns
    obtain rfl : name = name' := Option.some.inj (hname.symm.trans hname')
    obtain ⟨text, rfl, hon⟩ := hiff.mpr hpins
    obtain ⟨conditions, rfl, hall⟩ := ih hrest
    exact ⟨text :: conditions, rfl, .cons ⟨name, hname, hon⟩ hall⟩

theorem toList_intercalate {name text : String} (h : t.IsOn name text) (conditions : List String) :
    ∃ rest, (" AND ".intercalate (text :: conditions)).toList = '"' :: rest := by
  obtain ⟨rest, hrest⟩ := Table.toList_of_isOn h
  cases conditions with
  | nil => exact ⟨rest, by simp [hrest]⟩
  | cons other conditions => simp [String.intercalate_cons_cons, hrest]

/-- A key whose values are all pinned is named by a conjunction of conditions, one for each of its
columns, and so by no constant. -/
theorem exists_conjunction (h : t.Keyed key texts where_) (hkey : key.Pinned) (hne : key ≠ []) :
    (∃ conditions, where_ = " AND ".intercalate conditions ∧
      List.Forall₂ (fun e text ↦ ∃ name, e.1.asText? = some name ∧ t.IsOn name text)
        key conditions) ∧ ∃ rest, where_.toList = '"' :: rest := by
  obtain ⟨conditions, htexts, hall⟩ := h.exists_conditions hkey
  have hflatten : texts.flatten = conditions := by
    rw [htexts, ← List.flatMap_def, List.flatMap_singleton']
  have hjoined := h.joined fun own hown ↦ by
    obtain ⟨text, -, rfl⟩ := List.mem_map.mp (htexts ▸ hown)
    exact Nat.le_refl 1
  obtain ⟨e, key, rfl⟩ := List.exists_cons_of_ne_nil hne
  obtain ⟨text, rest, ⟨name, -, hon⟩, -, rfl⟩ := List.forall₂_cons_left_iff.mp hall
  obtain ⟨tail, htail⟩ := toList_intercalate hon rest
  -- the text starts with a quoted column, so it is neither empty nor a constant
  have hempty : (" AND ".intercalate (text :: rest)).isEmpty = false := by
    rw [Bool.eq_false_iff]
    intro h
    rw [String.isEmpty_iff.mp h] at htail
    exact List.cons_ne_nil _ _ htail.symm
  rw [hflatten, Condition.orAlways, hempty, if_neg Bool.false_ne_true] at hjoined
  exact ⟨⟨_, hjoined, hall⟩, tail, hjoined ▸ htail⟩

end Table.Keyed

/-! ## Writing records -/

/-- Whether a text is the condition by which a record type names its rows by a key. -/
structure RecordType.Names (t : RecordType) (key : Pairs) (where_ : String) : Prop where
  /-- Every part of the primary key is a part of the key. -/
  complete : ∀ part ∈ t.table.primaryKey,
    ∃ e ∈ key, ∃ name, e.1.asText? = some name ∧ part.asText? = some name
  /-- The text is made of what the values of the key become. -/
  keyed : ∃ texts, t.table.Keyed key texts where_
  /-- Where the values are pinned, there is one condition on the column of each. -/
  conjunction : t.table.primaryKey ≠ [] → key.Pinned →
    (∃ conditions, where_ = " AND ".intercalate conditions ∧
      List.Forall₂ (fun e text ↦ ∃ name, e.1.asText? = some name ∧ t.table.IsOn name text)
        key conditions) ∧ where_ ≠ "true" ∧ where_ ≠ "true = true"

namespace Record

theorem names_of_keyCondition {r : Record} {part : Value → Value} {bound : Int}
    {where_ : Statement}
    (h : (keyCondition r.type (r.keyWith part) bound).result = .ok where_) :
    r.type.Names (r.keyWith part) where_.text := by
  obtain ⟨condition, hcondition, h⟩ := Logged.bind_eq_ok.mp h
  cases hsplit : (r.keyWith part).split.2 with
  | some strange => simp [hsplit] at h
  | none =>
    rw [hsplit] at h
    obtain rfl : condition = where_ := Except.ok.inj h
    have hkeyed := Table.keyed_of_compile hcondition hsplit
    have hcomplete : ∀ key ∈ r.type.table.primaryKey, ∃ e ∈ r.keyWith part, ∃ name,
        e.1.asText? = some name ∧ key.asText? = some name := by
      intro key hkey
      obtain ⟨e, he, hsame⟩ := r.exists_mem_keyWith part key hkey
      obtain ⟨name, hname⟩ := Pairs.exists_asText?_of_mem hsplit he
      refine ⟨e, he, name, hname, ?_⟩
      -- a part may have been put under an earlier one that it matches, which is the same text
      obtain rfl | hsame := hsame
      · exact hname
      · exact (Value.asText?_eq_of_matchesElement hsame).symm.trans hname
    refine ⟨hcomplete, hkeyed, fun hparts hpinned ↦ ?_⟩
    obtain ⟨texts, hkeyed⟩ := hkeyed
    have hne : r.keyWith part ≠ [] := by
      obtain ⟨key, hkey⟩ := List.exists_mem_of_ne_nil _ hparts
      obtain ⟨e, he, -⟩ := hcomplete key hkey
      exact List.ne_nil_of_mem he
    obtain ⟨hconjunction, rest, hrest⟩ := hkeyed.exists_conjunction hpinned hne
    refine ⟨hconjunction, ?_, ?_⟩
    · intro h
      simp [h] at hrest
    · intro h
      simp [h] at hrest

/-- A statement by which a record deletes its row: the key is the one that the record has now. -/
def Deletes (r : Record) (st : Statement) : Prop :=
  ∃ table where_, st = deleteStatement table where_ ∧ r.type.Names r.currentKey where_.text

/-- A statement by which a record updates its row: the key is the one that the row had when the
record last matched it. -/
def Updates (r : Record) (skipReload : Bool) (st : Statement) : Prop :=
  ∃ table assigned bound where_ key, r.lastKey = .ok key ∧
    st = updateStatement r.type table assigned bound where_ skipReload ∧
    r.type.Names key where_.text

theorem deletes_of_removalStatement {r : Record} {st : Statement}
    (h : r.removalStatement.result = .ok st) : r.Deletes st := by
  rw [removalStatement] at h
  split at h
  · simp at h
  · obtain ⟨where_, hwhere, h⟩ := Logged.bind_eq_ok.mp h
    obtain ⟨table, -, h⟩ := Logged.bind_eq_ok.mp h
    obtain rfl := Except.ok.inj h
    exact ⟨table, where_, rfl, names_of_keyCondition hwhere⟩

/-- The first assignment of several writes its value or binds it before the others. -/
theorem of_assignmentsFrom_cons {t : RecordType} {bound bound' : List Value} {key v : Value}
    {ps : Pairs} {assigned : List Assignment}
    (h : assignmentsFrom t bound ((key, v) :: ps) = .ok (assigned, bound')) :
    ∃ column sql rest, t.table.column key = .ok column ∧
      assigned = ⟨Sql.quoteIdentifier column, sql⟩ :: rest ∧
      (inlineAssigned? v = some (.ok sql) ∧ assignmentsFrom t bound ps = .ok (rest, bound') ∨
        inlineAssigned? v = none ∧
          sql = Sql.placeholder (bound ++ [boundAssigned v]).length ∧
          assignmentsFrom t (bound ++ [boundAssigned v]) ps = .ok (rest, bound')) := by
  rw [assignmentsFrom] at h
  obtain ⟨column, hcolumn, h⟩ := Except.bind_eq_ok.mp h
  cases hinline : inlineAssigned? v with
  | some text =>
    rw [hinline] at h
    obtain ⟨sql, hsql, h⟩ := Except.bind_eq_ok.mp h
    obtain ⟨⟨rest, bound''⟩, hrest, h⟩ := Except.bind_eq_ok.mp h
    obtain ⟨rfl, rfl⟩ := Prod.mk.inj (Except.ok.inj h)
    exact ⟨column, sql, rest, hcolumn, rfl, .inl ⟨congrArg some hsql, hrest⟩⟩
  | none =>
    rw [hinline] at h
    obtain ⟨⟨rest, bound''⟩, hrest, h⟩ := Except.bind_eq_ok.mp h
    obtain ⟨rfl, rfl⟩ := Prod.mk.inj (Except.ok.inj h)
    exact ⟨column, _, rest, hcolumn, rfl, .inr ⟨rfl, rfl, hrest⟩⟩

theorem of_changeStatement {r : Record} {skipReload : Bool} {st : Statement}
    (h : (r.changeStatement skipReload).result = .ok (some st)) :
    ∃ ps assigned bound key where_ table,
      r.data { includePrivate := true, onlyDirty := true } = .ok ps ∧
      assignments r.type ps = .ok (assigned, bound) ∧ r.lastKey = .ok key ∧
      (keyCondition r.type key bound.length).result = .ok where_ ∧
      st = updateStatement r.type table assigned bound where_ skipReload := by
  obtain ⟨ps, hdata, h⟩ := Logged.bind_eq_ok.mp h
  obtain ⟨⟨assigned, bound⟩, hassigned, h⟩ := Logged.bind_eq_ok.mp h
  dsimp only at h
  split at h
  · cases h
  · obtain ⟨key, hkey, h⟩ := Logged.bind_eq_ok.mp h
    obtain ⟨where_, hwhere, h⟩ := Logged.bind_eq_ok.mp h
    obtain ⟨table, -, h⟩ := Logged.bind_eq_ok.mp h
    obtain rfl := Option.some.inj (Except.ok.inj h)
    exact ⟨ps, assigned, bound, key, where_, table, hdata, hassigned, hkey, hwhere, rfl⟩

theorem of_additionStatement {r : Record} {skipReload ignoreConflict : Bool} {st : Statement}
    (h : (r.additionStatement skipReload ignoreConflict).result = .ok st) :
    ∃ ps assigned bound table,
      r.data { includeDefaults := true, includePrivate := true, onlyDirty := true } = .ok ps ∧
      assignments r.type ps = .ok (assigned, bound) ∧
      st = insertStatement r.type table assigned bound skipReload ignoreConflict := by
  obtain ⟨ps, hdata, h⟩ := Logged.bind_eq_ok.mp h
  obtain ⟨⟨assigned, bound⟩, hassigned, h⟩ := Logged.bind_eq_ok.mp h
  obtain ⟨table, -, h⟩ := Logged.bind_eq_ok.mp h
  exact ⟨ps, assigned, bound, table, hdata, hassigned, (Except.ok.inj h).symm⟩

theorem of_saveStatement {r : Record} {skipReload ignoreConflict : Bool} {st : Statement}
    (h : (r.saveStatement skipReload ignoreConflict).result = .ok (some st)) :
    r.loaded = true ∧ (r.changeStatement skipReload).result = .ok (some st) ∨
      r.loaded = false ∧ (r.additionStatement skipReload ignoreConflict).result = .ok st := by
  rw [saveStatement] at h
  split at h
  next hloaded => exact .inl ⟨hloaded, h⟩
  next hloaded =>
    obtain ⟨st', hst, hsome⟩ := Logged.map_eq_ok.mp h
    obtain rfl := Option.some.inj hsome
    exact .inr ⟨Bool.eq_false_iff.mpr hloaded, hst⟩

theorem updates_of_changeStatement {r : Record} {skipReload : Bool} {st : Statement}
    (h : (r.changeStatement skipReload).result = .ok (some st)) : r.Updates skipReload st := by
  obtain ⟨ps, assigned, bound, key, where_, table, -, -, hkey, hwhere, rfl⟩ := of_changeStatement h
  obtain ⟨kept, -, hlast⟩ := Except.bind_eq_ok.mp hkey
  obtain rfl := Except.ok.inj hlast
  exact ⟨table, assigned, bound, where_, _, hkey, rfl, names_of_keyCondition hwhere⟩

variable {σ : Type}

/-- Bringing a record up to date only looks at the session. -/
theorem keeps_refreshed (r : Record) : Change.Keeps id (r.refreshed : App σ Record) :=
  (App.keeps_refreshEntries _).bind fun _ ↦ (App.keeps_refreshPairs _).bind fun _ ↦ .ok _

theorem of_refreshed {r r' : Record} {s : Session σ} (h : (r.refreshed s).1 = .ok r') :
    r.refreshed s = (.ok r', s) ∧
      Value.refreshEntries (s.current s.depth) r.values = .ok r'.values ∧
      r' = { r with values := r'.values, rowKey := r'.rowKey } := by
  have hrun : r.refreshed s = (.ok r', s) := Prod.ext h (r.keeps_refreshed s)
  obtain ⟨values, s₁, hvalues, hrest⟩ := Change.bind_eq_ok.mp hrun
  obtain ⟨rowKey, s₂, -, hrest⟩ := Change.bind_eq_ok.mp hrest
  obtain rfl := Except.ok.inj (Prod.mk.inj hrest).1
  exact ⟨hrun, (Prod.mk.inj hvalues).1, rfl⟩

theorem loaded_of_refreshed {r r' : Record} {s : Session σ} (h : (r.refreshed s).1 = .ok r') :
    r'.loaded = r.loaded := by
  rw [(of_refreshed h).2.2]

/-- Bringing a record up to date leaves its connection and its pool. -/
theorem source_of_refreshed {r r' : Record} {s : Session σ} (h : (r.refreshed s).1 = .ok r') :
    r'.conn = r.conn ∧ r'.pool = r.pool := by
  rw [(of_refreshed h).2.2]
  exact ⟨rfl, rfl⟩

/-- What is brought up to date before a statement is made and sent. -/
theorem onlySends_refreshed {α : Type} {p : Statement → Prop} {x : Record → On Record σ α}
    {r : Record} {s : Session σ}
    (h : ∀ r', (r.refreshed s).1 = .ok r' →
      Change.OnlySends (fun u : Record × Session σ ↦ u.2) p (x r') (r, s)) :
    Change.OnlySends (fun u : Record × Session σ ↦ u.2) p
      (do x (← On.beside (refreshed (← On.object)))) (r, s) := by
  have hkept : (r.refreshed s).2 = s := r.keeps_refreshed s
  refine (Change.OnlySends.of_events rfl).bind fun _ _ hobject ↦ ?_
  obtain ⟨h₁, rfl⟩ := Prod.mk.inj hobject
  obtain rfl := Except.ok.inj h₁
  refine (Change.OnlySends.of_events (congrArg Session.events hkept)).bind fun r' s' hrun ↦ ?_
  obtain ⟨h₁, rfl⟩ := Prod.mk.inj hrun
  dsimp only at hkept ⊢
  rw [hkept]
  exact h r' h₁

theorem onlySends_takeWritten {p : Statement → Prop} (skipReload : Bool) (rows : List Row)
    (u : Record × Session σ) :
    Change.OnlySends (fun u : Record × Session σ ↦ u.2) p (takeWritten skipReload rows) u := by
  cases skipReload with
  | true => exact .ok true
  | false =>
    cases rows with
    | nil => exact .ok false
    | cons row rows => exact (Change.OnlySends.onFirst _ _ _).bind fun _ _ _ ↦ .ok true

/-- **Deleting and updating** send only statements that name their rows by the primary key of the
record, with its values brought up to date. -/
theorem sends_keyed_statements [Backend σ] (r : Record) (s : Session σ) :
    Change.OnlySends (fun u : Record × Session σ ↦ u.2)
      (fun st ↦ ∃ r' : Record, (r.refreshed s).1 = .ok r' ∧ r'.Deletes st) delete (r, s) ∧
    (r.loaded = true → ∀ skipReload ignoreConflict,
      Change.OnlySends (fun u : Record × Session σ ↦ u.2)
        (fun st ↦ ∃ r' : Record, (r.refreshed s).1 = .ok r' ∧ r'.Updates skipReload st)
        (save skipReload ignoreConflict) (r, s)) := by
  constructor
  · refine onlySends_refreshed fun r' hr' ↦ ?_
    refine (Change.OnlySends.of_events rfl).bind fun st u hst ↦ ?_
    have hdeletes := deletes_of_removalStatement (Prod.mk.inj hst).1
    refine (Change.OnlySends.onSecond (r'.onlySends_send ⟨r', hr', hdeletes⟩ _) _).bind ?_
    intro outcome u _
    split
    · exact (Change.OnlySends.onFirst _ _ _).bind fun _ _ _ ↦ .ok true
    · exact .ok false
  · intro hloaded skipReload ignoreConflict
    refine onlySends_refreshed fun r' hr' ↦ ?_
    refine (Change.OnlySends.of_events rfl).bind fun found u hst ↦ ?_
    have hsave : (r'.saveStatement skipReload ignoreConflict).result = .ok found :=
      (Prod.mk.inj hst).1
    -- bringing the record up to date does not unload it, so what is saved is an update
    have hloaded' : r'.loaded = true := (loaded_of_refreshed hr').trans hloaded
    rw [saveStatement, if_pos hloaded'] at hsave
    cases found with
    | none => exact .ok false
    | some st =>
      have hupdates := updates_of_changeStatement hsave
      refine (Change.OnlySends.onSecond (r'.onlySends_send ⟨r', hr', hupdates⟩ _) _).bind ?_
      exact fun outcome u _ ↦ onlySends_takeWritten skipReload outcome.rows u

/-- A loaded letter, with its text as its key, that was given another text since. -/
def letter : Record where
  type := ⟨{ Table.letters with primaryKey := [.text "b"] }, [], [], ["a", "b"]⟩
  values := [("b", .text "x")]
  clean := [("b", .text "y")]
  setKeys := ["b"]
  rowKey := [(.text "b", .text "y")]
  loaded := true

theorem sends_keyed_statements_of_letter :
    letter.loaded = true ∧ letter.type.table.primaryKey ≠ [] ∧ letter.currentKey.Pinned ∧
    letter.removalStatement.result =
      .ok ⟨"DELETE FROM \"letters\" WHERE \"b\" = $1", [.text "x"]⟩ ∧
    (letter.saveStatement true false).result = .ok (some
      ⟨"UPDATE \"letters\" SET \"b\" = $1 WHERE \"b\" = $2", [.text "x", .text "y"]⟩) ∧
    Change.OnlySends (fun u : Record × Session Scripted ↦ u.2)
      (fun st ↦ ∃ r' : Record,
        (letter.refreshed { db := ({} : Scripted) }).1 = .ok r' ∧ r'.Updates true st)
      (save true false) (letter, { db := ({} : Scripted) }) := by
  refine ⟨rfl, by decide, ?_, rfl, rfl, ?_⟩
  · rintro e he
    obtain rfl := List.mem_singleton.mp he
    exact ⟨"b", rfl, rfl⟩
  · exact (sends_keyed_statements letter _).2 rfl true false

/-- **A key that was never given a value** names every row. -/
theorem removal_of_unset_letter :
    { letter with values := [("b", .unset)] : Record }.removalStatement.result =
      .ok ⟨"DELETE FROM \"letters\" WHERE true", []⟩ := by
  rfl

end Record

end Rowmap
