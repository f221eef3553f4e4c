import Rowmap.Proofs.Record.Unchanged

/-!
# Private fields of records

What a record gives as plain data without its private fields is the same whatever these hold: two
records that are alike but for them give the same. The data is put together key by key, for the
private keys as well, which are taken out at the end. So on the way it is what the pairs under other
keys are that counts, and a private key changes nothing of that.

Rows that differ in the columns of private fields alone make records that are alike but for them.
-/

namespace Rowmap

/-! ## Pairs without some keys -/

/-- What goes through a list in two ways, step by step the same in one view, is the same in it at
the end. -/
theorem Except.map_foldlM_congr {ε α β γ : Type} (view : β → γ) {f f' : β → α → Except ε β}
    {as : List α} (hstep : ∀ a ∈ as, ∀ b b', view b' = view b →
      view <$> f' b' a = view <$> f b a) {b b' : β} (h : view b' = view b) :
    view <$> as.foldlM f' b' = view <$> as.foldlM f b := by
  induction as generalizing b b' with
  | nil => exact congrArg Except.ok h
  | cons a as ih =>
    obtain ⟨ha, has⟩ := List.forall_mem_cons.mp hstep
    have hfirst := ha b b' h
    rw [List.foldlM_cons, List.foldlM_cons]
    cases hf : f b a with
    | error e =>
      cases hf' : f' b' a with
      | error e' =>
        rw [hf, hf'] at hfirst
        obtain rfl := Except.error.inj hfirst
        rfl
      | ok c' => exact nomatch (hf ▸ hf' ▸ hfirst :)
    | ok c =>
      cases hf' : f' b' a with
      | error e' => exact nomatch (hf ▸ hf' ▸ hfirst :)
      | ok c' =>
        rw [hf, hf'] at hfirst
        exact ih has (Except.ok.inj hfirst)

namespace Pairs

/-- Whether a pair stays when some keys are taken out. -/
def stays (hidden : List Value) (p : Value × Value) : Bool := !hidden.any (p.1.matchesElement ·)

theorem foldl_without (hidden : List Value) (ps : Pairs) :
    hidden.foldl without ps = ps.filter (stays hidden) := by
  induction hidden generalizing ps with
  | nil => exact (List.filter_true ps).symm
  | cons key hidden ih =>
    rw [List.foldl_cons, ih, without, List.filter_filter]
    refine List.filter_congr fun p _ ↦ ?_
    simp [stays, Bool.and_comm]

theorem stays_eq {hidden : List Value} {key v : Value} {name : String}
    (hkey : key.asText? = some name) :
    stays hidden (key, v) = !hidden.any (·.asText? == some name) := by
  rw [stays]
  congr 1
  refine List.any_congr rfl fun p ↦ ?_
  cases hp : p.asText? with
  | none =>
    rw [Bool.eq_iff_iff]
    refine ⟨fun h ↦ ?_, nofun⟩
    have htexts := Value.asText?_eq_of_matchesElement h
    rw [hkey, hp] at htexts
    exact nomatch htexts
  | some other =>
    rw [Bool.eq_iff_iff, Value.matchesElement_iff hkey hp, beq_iff_eq]
    exact ⟨fun h ↦ congrArg some h.symm, fun h ↦ (Option.some.inj h).symm⟩

theorem stays_of_matches {hidden : List Value} {key k v w : Value} {name : String}
    (hkey : key.asText? = some name) (h : k.matchesElement key = true) :
    stays hidden (k, w) = stays hidden (key, v) := by
  have hk : k.asText? = some name := (Value.asText?_eq_of_matchesElement h).trans hkey
  rw [stays_eq hkey, stays_eq hk]

theorem filter_put_of_goes {hidden : List Value} {key v : Value} {name : String}
    (hkey : key.asText? = some name) (h : stays hidden (key, v) = false) (ps : Pairs) :
    (ps.put key v).filter (stays hidden) = ps.filter (stays hidden) := by
  induction ps with
  | nil => simp [put, h]
  | cons p ps ih =>
    obtain ⟨k, w⟩ := p
    rw [put]
    split
    next hmatch =>
      have hgoes (u : Value) : stays hidden (k, u) = false :=
        (stays_of_matches hkey hmatch).trans h
      simp [hgoes]
    next => rw [List.filter_cons, List.filter_cons, ih]

theorem filter_put_of_stays {hidden : List Value} {key v : Value} {name : String}
    (hkey : key.asText? = some name) (h : stays hidden (key, v) = true) (ps : Pairs) :
    (ps.put key v).filter (stays hidden) = put (ps.filter (stays hidden)) key v := by
  induction ps with
  | nil => simp [put, h]
  | cons p ps ih =>
    obtain ⟨k, w⟩ := p
    rw [put]
    split
    next hmatch =>
      have hstays (u : Value) : stays hidden (k, u) = true :=
        (stays_of_matches hkey hmatch).trans h
      rw [List.filter_cons_of_pos (hstays v), List.filter_cons_of_pos (hstays w), put,
        if_pos hmatch]
    next hmatch =>
      rw [List.filter_cons, List.filter_cons, ih]
      split
      · rw [put, if_neg hmatch]
      · rfl

def putFound (ps : Pairs) (key : Value) : Option Value → Pairs
  | some v => ps.put key v
  | none => ps

theorem filter_putFound_of_goes {hidden : List Value} {key : Value} {name : String}
    (hkey : key.asText? = some name) (h : ∀ v, stays hidden (key, v) = false) (ps : Pairs)
    (found : Option Value) :
    (ps.putFound key found).filter (stays hidden) = ps.filter (stays hidden) := by
  cases found with
  | none => rfl
  | some v => exact filter_put_of_goes hkey (h v) ps

theorem filter_putFound_of_stays {hidden : List Value} {key : Value} {name : String}
    (hkey : key.asText? = some name) {found : Option Value}
    (h : ∀ v, found = some v → stays hidden (key, v) = true) (ps : Pairs) :
    (ps.putFound key found).filter (stays hidden) =
      putFound (ps.filter (stays hidden)) key found := by
  cases found with
  | none => rfl
  | some v => exact filter_put_of_stays hkey (h v rfl) ps

end Pairs

def RecordType.hides (t : RecordType) (key : String) : Bool :=
  t.privateFields.any (·.asText? == some key)

def RecordType.isPrivate (t : RecordType) (key : String) : Bool := t.declares key && t.hides key

/-- Rows that are alike but for the columns of private fields. -/
def RecordType.AgreeInPublic (t : RecordType) (row row' : Row) : Prop :=
  ∀ e ∈ t.table.fields, t.isPrivate e.1 = false →
    row'.lookup (e.2.column e.1) = row.lookup (e.2.column e.1)

namespace Record

variable {r r' : Record} {o : DataOptions}

/-- Records of one type that are alike but for their private fields: the values of these, what they
were when the record last matched its row, and whether they were given one. -/
structure PubliclyAlike (r r' : Record) : Prop where
  type : r'.type = r.type
  values : ∀ key, r.type.isPrivate key = false → r'.values.lookup key = r.values.lookup key
  clean : ∀ key, r.type.isPrivate key = false → r'.clean.lookup key = r.clean.lookup key
  isSet : ∀ key, r.type.isPrivate key = false → r'.isSet key = r.isSet key

/-! ## Data -/

theorem PubliclyAlike.contribution (h : PubliclyAlike r r') {key : String}
    (hkey : r.type.isPrivate key = false) : r'.contribution o key = r.contribution o key := by
  simp only [Record.contribution, isFieldDirty, Entries.valueOrUnset, get, unknown,
    Entries.valueAt, h.type, h.values key hkey, h.clean key hkey, h.isSet key hkey]
  rfl

/-- A declared field contributes something or nothing, and never fails. -/
theorem contribution_of_declares (o : DataOptions) {key : String}
    (hkey : r.type.declares key = true) : ∃ found, r.contribution o key = .ok found := by
  rw [contribution, get, if_pos hkey]
  split
  · exact ⟨none, rfl⟩
  split
  · exact ⟨none, rfl⟩
  · exact ⟨_, rfl⟩

theorem declares_of_contribution {key : String} {v : Value}
    (h : r.contribution o key = .ok (some v)) : r.type.declares key = true := by
  by_contra hkey
  rw [contribution, get, if_neg hkey] at h
  split at h
  · cases h
  split at h <;> cases h

theorem contribute_eq (r : Record) (o : DataOptions) (ps : Pairs) (key : Value) :
    r.contribute o ps key = ps.putFound key <$> r.contributionBy o key := by
  rw [contribute]
  cases r.contributionBy o key with
  | error e => rfl
  | ok found => cases found <;> rfl

theorem contributionBy_of_text {key : Value} {name : String} (hname : key.asText? = some name)
    (r : Record) : r.contributionBy o key = r.contribution o name := by
  rw [contributionBy, hname]

theorem PubliclyAlike.contribute (h : PubliclyAlike r r') {ps ps' : Pairs} (key : Value)
    (hps : ps'.filter (Pairs.stays r.type.privateFields) =
      ps.filter (Pairs.stays r.type.privateFields)) :
    List.filter (Pairs.stays r.type.privateFields) <$> r'.contribute o ps' key =
      List.filter (Pairs.stays r.type.privateFields) <$> r.contribute o ps key := by
  rw [contribute_eq, contribute_eq]
  cases hname : key.asText? with
  | none =>
    -- nothing is put under a key that is no text
    have hby (s : Record) (hs : s.type = r.type) : s.contributionBy o key =
        if key.hashable && (o.onlyDirty || o.onlySet) then .ok none
        else .error (r.unknown key) := by
      rw [contributionBy, hname, unknown, hs]
      rfl
    rw [hby r rfl, hby r' h.type]
    split
    · exact congrArg Except.ok hps
    · rfl
  | some name =>
    rw [contributionBy_of_text hname, contributionBy_of_text hname]
    cases hprivate : r.type.isPrivate name with
    | true =>
      -- a private key is taken out, whatever was put under it
      obtain ⟨hdeclares, hhidden⟩ := Bool.and_eq_true_iff.mp hprivate
      have hgoes (v : Value) : Pairs.stays r.type.privateFields (key, v) = false := by
        rw [Pairs.stays_eq hname, ← RecordType.hides, hhidden, Bool.not_true]
      obtain ⟨found, hfound⟩ := contribution_of_declares o hdeclares
      obtain ⟨found', hfound'⟩ : ∃ found', r'.contribution o name = .ok found' :=
        contribution_of_declares o (h.type ▸ hdeclares)
      rw [hfound, hfound']
      refine congrArg Except.ok ?_
      rw [Pairs.filter_putFound_of_goes hname hgoes, Pairs.filter_putFound_of_goes hname hgoes, hps]
    | false =>
      rw [h.contribution hprivate]
      cases hfound : r.contribution o name with
      | error e => rfl
      | ok found =>
        have hstays (v : Value) (hv : found = some v) :
            Pairs.stays r.type.privateFields (key, v) = true := by
          rw [RecordType.isPrivate, declares_of_contribution (hv ▸ hfound), Bool.true_and] at hprivate
          rw [Pairs.stays_eq hname, ← RecordType.hides, hprivate, Bool.not_false]
        refine congrArg Except.ok ?_
        rw [Pairs.filter_putFound_of_stays hname hstays, Pairs.filter_putFound_of_stays hname hstays,
          hps]

theorem withoutPrivate_eq (keys : List Value) (ps : Pairs) :
    withoutPrivate keys ps =
      if keys.all Value.hashable then .ok (ps.filter (Pairs.stays keys))
      else .error (.wrongType none) := by
  rw [withoutPrivate, Pairs.foldl_without]

/-- **Data without private fields** is the same of records that are alike but for these, be it
values or a failure. -/
theorem PubliclyAlike.data_eq (h : PubliclyAlike r r') (ho : o.includePrivate = false) :
    r'.data o = r.data o := by
  have hdata (s : Record) (htype : s.type = r.type) : s.data o =
      chosenKeys r.type o >>= fun keys ↦
        List.filter (Pairs.stays r.type.privateFields) <$> keys.foldlM (s.contribute o) [] >>=
          fun ps ↦ if r.type.privateFields.all Value.hashable then .ok ps
            else .error (.wrongType none) := by
    rw [data, htype]
    refine bind_congr fun keys ↦ ?_
    cases keys.foldlM (s.contribute o) [] with
    | error e => rfl
    | ok ps =>
      show (if o.includePrivate then _ else _) = _
      rw [if_neg (by simp [ho]), withoutPrivate_eq]
      rfl
  rw [hdata r rfl, hdata r' h.type]
  refine bind_congr fun keys ↦ ?_
  rw [Except.map_foldlM_congr _ (fun key _ ps ps' hps ↦ h.contribute key hps) rfl]

/-! ## Records of rows -/

namespace PubliclyAlike

theorem refl (r : Record) : PubliclyAlike r r :=
  ⟨rfl, fun _ _ ↦ rfl, fun _ _ ↦ rfl, fun _ _ ↦ rfl⟩

theorem symm (h : PubliclyAlike r r') : PubliclyAlike r' r where
  type := h.type.symm
  values key hkey := (h.values key (h.type ▸ hkey)).symm
  clean key hkey := (h.clean key (h.type ▸ hkey)).symm
  isSet key hkey := (h.isSet key (h.type ▸ hkey)).symm

theorem trans {r'' : Record} (h : PubliclyAlike r r') (h' : PubliclyAlike r' r'') :
    PubliclyAlike r r'' where
  type := h'.type.trans h.type
  values key hkey := (h'.values key (h.type ▸ hkey)).trans (h.values key hkey)
  clean key hkey := (h'.clean key (h.type ▸ hkey)).trans (h.clean key hkey)
  isSet key hkey := (h'.isSet key (h.type ▸ hkey)).trans (h.isSet key hkey)

variable {t : RecordType}

theorem isSet_put (ht : t.KeepsState) (htype : r.type = t) (key other : String) (v : Value) :
    (r.put key v).isSet other = (r.isSet other || other == key) := by
  rw [put_eq ht htype, Record.isSet, Record.isSet, Bool.eq_iff_iff]
  dsimp only
  split
  next hmem =>
    simp only [List.contains_iff_mem, Bool.or_eq_true, beq_iff_eq] at hmem ⊢
    exact ⟨.inl, fun h ↦ h.elim id fun h ↦ h ▸ hmem⟩
  next => simp

theorem put_private (ht : t.KeepsState) (htype : r.type = t) {key : String}
    (hkey : t.isPrivate key = true) (v : Value) : PubliclyAlike r (r.put key v) := by
  have hne {other : String} (hother : r.type.isPrivate other = false) : other ≠ key := by
    rintro rfl
    rw [htype, hkey] at hother
    exact Bool.noConfusion hother
  refine ⟨type_put r key v, fun other hother ↦ ?_, fun other _ ↦ ?_, fun other hother ↦ ?_⟩
  · rw [put_eq ht htype]
    exact Entries.lookup_put_of_ne _ v (hne hother)
  · rw [put_eq ht htype]
  · rw [isSet_put ht htype, beq_false_of_ne (hne hother), Bool.or_false]

theorem put (ht : t.KeepsState) (htype : r.type = t) (h : PubliclyAlike r r') (key : String)
    (v : Value) : PubliclyAlike (r.put key v) (r'.put key v) := by
  have htype' : r'.type = t := h.type.trans htype
  refine ⟨?_, fun other hother ↦ ?_, fun other hother ↦ ?_, fun other hother ↦ ?_⟩
  · rw [type_put, type_put, h.type]
  all_goals rw [type_put] at hother
  · rw [put_eq ht htype, put_eq ht htype']
    dsimp only
    rw [Entries.lookup_put, Entries.lookup_put, h.values other hother]
  · rw [put_eq ht htype, put_eq ht htype']
    exact h.clean other hother
  · rw [isSet_put ht htype, isSet_put ht htype', h.isSet other hother]

end PubliclyAlike

/-- The record with what a row has for a field. -/
def takeCell (r : Record) (key : String) : Option Value → Record
  | none | some .unset => r
  | some v => r.put key v

theorem type_takeCell (r : Record) (key : String) (found : Option Value) :
    (r.takeCell key found).type = r.type := by
  rw [takeCell.eq_def]
  split
  · rfl
  · rfl
  · exact type_put r key _

theorem takeCell_eq (r : Record) (key : String) (found : Option Value) :
    r.takeCell key found = r ∨ ∃ v, r.takeCell key found = r.put key v := by
  rw [takeCell.eq_def]
  split
  · exact .inl rfl
  · exact .inl rfl
  · exact .inr ⟨_, rfl⟩

theorem takeRow_eq (r : Record) (row : Row) : r.takeRow row =
    r.type.table.fields.foldl (fun r e ↦ r.takeCell e.1 (row.lookup (e.2.column e.1))) r := rfl

namespace PubliclyAlike

variable {t : RecordType}

/-- One field after the other: what a public one is given is the same, and what a private one is
given does not matter. -/
theorem takeCell (ht : t.KeepsState) (htype : r.type = t) (h : PubliclyAlike r r') (key : String)
    {found found' : Option Value} (hfound : t.isPrivate key = false → found' = found) :
    PubliclyAlike (r.takeCell key found) (r'.takeCell key found') := by
  cases hprivate : t.isPrivate key with
  | true =>
    have hcell {s : Record} (hs : s.type = t) (found : Option Value) :
        PubliclyAlike s (s.takeCell key found) := by
      obtain hkept | ⟨v, hput⟩ := s.takeCell_eq key found
      · rw [hkept]
        exact refl s
      · rw [hput]
        exact put_private ht hs hprivate v
    exact ((hcell htype found).symm.trans h).trans (hcell (h.type.trans htype) found')
  | false =>
    rw [hfound hprivate, Record.takeCell.eq_def, Record.takeCell.eq_def]
    split
    · exact h
    · exact h
    · exact h.put ht htype key _

theorem takeRow (ht : t.KeepsState) (htype : r.type = t) (h : PubliclyAlike r r') {row row' : Row}
    (hrows : t.AgreeInPublic row row') : PubliclyAlike (r.takeRow row) (r'.takeRow row') := by
  have hdeclared : ∀ e ∈ r.type.table.fields, e ∈ t.table.fields := fun e he ↦ htype ▸ he
  rw [takeRow_eq, takeRow_eq, h.type]
  generalize r.type.table.fields = fields at hdeclared
  induction fields generalizing r r' with
  | nil => exact h
  | cons e fields ih =>
    obtain ⟨he, hrest⟩ := List.forall_mem_cons.mp hdeclared
    have htype' := (r.type_takeCell e.1 (row.lookup (e.2.column e.1))).trans htype
    exact ih htype' (h.takeCell ht htype e.1 (hrows e he)) hrest

/-- **Records of rows** that are alike but for the columns of private fields are alike but for
these, whatever else is different about how they are made. -/
theorem of_ofRow (ht : t.KeepsState) {source source' : Source} {row row' : Row}
    (hrows : t.AgreeInPublic row row') (hr : ofRow t source row = .ok r)
    (hr' : ofRow t source' row' = .ok r') : PubliclyAlike r r' := by
  have hmade {source : Source} {row : Row} {r : Record} (hr : ofRow t source row = .ok r) :
      ∃ conn pool, ((empty t conn pool).takeRow row).matched = .ok r := by
    obtain ⟨r₀, hblank, hr⟩ := Except.bind_eq_ok.mp hr
    obtain ⟨conn, pool, rfl, -⟩ := of_blank hblank
    refine ⟨conn, pool, ?_⟩
    cases hload : loadRow row (empty t conn pool) with
    | mk result r₁ =>
      rw [hload] at hr
      obtain ⟨e, rfl, -⟩ | ⟨rfl, hloaded⟩ := of_loadRow hload
      · cases hr
      obtain rfl := Except.ok.inj hr
      rw [setLoaded, if_neg (by decide)] at hloaded
      split at hloaded
      · cases hloaded
      · exact hloaded
  have hempty (conn : Option Connection) (pool : Option Pool) :
      empty t conn pool = { type := t, conn, pool } := by
    rw [empty, ht.setKeys, ht.rowKey]
    rfl
  obtain ⟨conn, pool, hr⟩ := hmade hr
  obtain ⟨conn', pool', hr'⟩ := hmade hr'
  rw [hempty] at hr hr'
  have hstart :
      PubliclyAlike { type := t, conn, pool } { type := t, conn := conn', pool := pool' } :=
    ⟨rfl, fun _ _ ↦ rfl, fun _ _ ↦ rfl, fun _ _ ↦ rfl⟩
  have htaken := hstart.takeRow ht rfl hrows
  have htype (s : Record) (row : Row) (hs : s.type = t) : (s.takeRow row).type = t :=
    (puts_takeRow hs row).type.trans hs
  rw [matched_eq ht (htype _ _ rfl)] at hr hr'
  obtain rfl := Except.ok.inj hr
  obtain rfl := Except.ok.inj hr'
  exact ⟨htaken.type, htaken.values, htaken.values, htaken.isSet⟩

end PubliclyAlike

end Record

end Rowmap
