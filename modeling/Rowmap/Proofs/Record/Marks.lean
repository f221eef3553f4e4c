import Rowmap.Proofs.Condition.Marks
import Rowmap.Proofs.Record.Writes

/-!
# Marks among the values of saved records

Saving a record sends the values assigned to its fields, without their wrappers, and then those of
the key that names its row. A marker is written where it is assigned, as is what a wrapper does not
bind; every other mark is bound like data.
-/

namespace Rowmap

/-- Whether a value hands over a mark where it is assigned to a field. -/
def Value.assignsMark : Value → Bool
  | .marker _ => false
  | .wrapped inner bind _ _ => bind && inner.carriesMark
  | v => v.carriesMark

namespace Record

open Change

variable {σ : Type} {t : RecordType} {r : Record} {s : Session σ}

def boundBy (ps : Pairs) : List Value :=
  (ps.filter fun p ↦ (inlineAssigned? p.2).isNone).map fun p ↦ boundAssigned p.2

/-- **Marks among assigned values** are those that a value hands over. -/
theorem exists_boundBy_iff (ps : Pairs) :
    (∃ v ∈ boundBy ps, v.carriesMark = true) ↔ ∃ p ∈ ps, p.2.assignsMark = true := by
  have hassigns (v : Value) : v.assignsMark = true ↔
      inlineAssigned? v = none ∧ (boundAssigned v).carriesMark = true := by
    cases v with
    | wrapped inner bind own quote =>
      cases bind <;> simp [Value.assignsMark, inlineAssigned?, boundAssigned]
    | _ => simp [Value.assignsMark, inlineAssigned?, boundAssigned]
  constructor
  · rintro ⟨v, hv, hmark⟩
    obtain ⟨p, hp, rfl⟩ := List.mem_map.mp hv
    obtain ⟨hp, hbound⟩ := List.mem_filter.mp hp
    exact ⟨p, hp, (hassigns p.2).mpr ⟨Option.isNone_iff_eq_none.mp hbound, hmark⟩⟩
  · rintro ⟨p, hp, hmark⟩
    obtain ⟨hbound, hmark⟩ := (hassigns p.2).mp hmark
    refine ⟨_, List.mem_map_of_mem (List.mem_filter.mpr ⟨hp, ?_⟩), hmark⟩
    exact Option.isNone_iff_eq_none.mpr hbound

theorem of_assignmentsFrom {bound bound' : List Value} {ps : Pairs} {assigned : List Assignment}
    (h : assignmentsFrom t bound ps = .ok (assigned, bound')) :
    bound' = bound ++ boundBy ps ∧
      List.Forall₂ (fun p a ↦ ∀ m, p.2 = .marker m → a.sql = m.label) ps assigned := by
  induction ps generalizing bound assigned with
  | nil =>
    obtain ⟨rfl, rfl⟩ := Prod.mk.inj (Except.ok.inj h)
    exact ⟨(List.append_nil _).symm, .nil⟩
  | cons p ps ih =>
    obtain ⟨key, v⟩ := p
    obtain ⟨column, sql, rest, -, rfl, ⟨hinline, hrest⟩ | ⟨hinline, -, hrest⟩⟩ :=
      of_assignmentsFrom_cons h
    · obtain ⟨rfl, hforall⟩ := ih hrest
      refine ⟨by simp [boundBy, hinline], .cons ?_ hforall⟩
      rintro m rfl
      exact (Except.ok.inj (Option.some.inj hinline)).symm
    · obtain ⟨rfl, hforall⟩ := ih hrest
      refine ⟨by simp [boundBy, hinline], .cons ?_ hforall⟩
      rintro m rfl
      cases hinline

def keyLeaves (key : Pairs) : List Place := Value.entriesLeaves true key.split.1 none

theorem values_of_keyCondition {key : Pairs} {bound : Int} {where_ : Statement}
    (h : (keyCondition t key bound).result = .ok where_) :
    where_.values = Place.bindFrom (keyLeaves key) bound := by
  obtain ⟨condition, hcondition, h⟩ := Logged.bind_eq_ok.mp h
  obtain ⟨c, hc, hst⟩ := Logged.bind_eq_ok.mp hcondition
  obtain rfl := Except.ok.inj hst
  have hvalues := Scope.values_of_condition hc
  split at h
  · obtain rfl := Except.ok.inj h
    exact hvalues
  · cases h

/-- The statement by which a record is saved that assigns pairs, to the row with a key if it is
loaded. -/
structure SavesBy (r : Record) (ps key : Pairs) (st : Statement) : Prop where
  assigned : r.data { includeDefaults := !r.loaded, includePrivate := true, onlyDirty := true } =
    .ok ps
  named : if r.loaded then r.lastKey = .ok key else key = []
  values : st.values = boundBy ps ++ Place.bindFrom (keyLeaves key) (boundBy ps).length
  texts : ∃ assigned : List Assignment,
    List.Forall₂ (fun p a ↦ ∀ m, p.2 = .marker m → a.sql = m.label) ps assigned ∧
      ((∃ table where_ skipReload,
        st = updateStatement r.type table assigned (boundBy ps) where_ skipReload) ∨
      ∃ table skipReload ignoreConflict,
        st = insertStatement r.type table assigned (boundBy ps) skipReload ignoreConflict)

theorem exists_savesBy {skipReload ignoreConflict : Bool} {st : Statement}
    (h : (r.saveStatement skipReload ignoreConflict).result = .ok (some st)) :
    ∃ ps key, r.SavesBy ps key st := by
  obtain ⟨hloaded, hchange⟩ | ⟨hloaded, hadd⟩ := of_saveStatement h
  · obtain ⟨ps, assigned, bound, key, where_, table, hdata, hassigned, hkey, hwhere, rfl⟩ :=
      of_changeStatement hchange
    obtain ⟨rfl, hmarkers⟩ := of_assignmentsFrom hassigned
    refine ⟨ps, key, ?_, ?_, ?_, assigned, hmarkers, .inl ⟨table, where_, skipReload, rfl⟩⟩
    · rw [hloaded]
      exact hdata
    · rw [if_pos hloaded]
      exact hkey
    · exact congrArg (boundBy ps ++ ·) (values_of_keyCondition hwhere)
  · obtain ⟨ps, assigned, bound, table, hdata, hassigned, rfl⟩ := of_additionStatement hadd
    obtain ⟨rfl, hmarkers⟩ := of_assignmentsFrom hassigned
    refine ⟨ps, [], ?_, ?_, ?_, assigned, hmarkers,
      .inr ⟨table, skipReload, ignoreConflict, rfl⟩⟩
    · rw [hloaded]
      exact hdata
    · rw [hloaded, if_neg Bool.false_ne_true]
    · exact (List.append_nil _).symm

/-- **Marks among the values of a saved record** are those that its values hand over, and those of
the key of its row. -/
theorem SavesBy.marks_iff {ps key : Pairs} {st : Statement} (h : r.SavesBy ps key st) :
    (∃ v ∈ st.values, v.carriesMark = true) ↔
      (∃ p ∈ ps, p.2.assignsMark = true) ∨ ∃ before p after,
        keyLeaves key = before ++ p :: after ∧ p.handsOverMark
          ((boundBy ps).length + (Place.bindFrom before (boundBy ps).length).length) = true := by
  rw [h.values, ← exists_boundBy_iff, ← Place.exists_bindFrom_iff]
  simp only [List.mem_append, or_and_right, exists_or]

variable [Backend σ]

/-- Saving a record sends only statements by which it is saved, with its values brought up to date.
-/
theorem onlySends_save (skipReload ignoreConflict : Bool) :
    OnlySends (fun u : Record × Session σ ↦ u.2)
      (fun st ↦ ∃ r', (r.refreshed s).1 = .ok r' ∧ ∃ ps key, r'.SavesBy ps key st)
      (save skipReload ignoreConflict) (r, s) := by
  refine onlySends_refreshed fun r' hr' ↦ ?_
  refine (OnlySends.of_events rfl).bind fun found u hst ↦ ?_
  have hsave : (r'.saveStatement skipReload ignoreConflict).result = .ok found :=
    (Prod.mk.inj hst).1
  cases found with
  | none => exact .ok false
  | some st =>
    refine (OnlySends.onSecond (r'.onlySends_send ⟨r', hr', exists_savesBy hsave⟩ _) _).bind ?_
    exact fun outcome u _ ↦ onlySends_takeWritten skipReload outcome.rows u

end Record

/-- **Which marks are bound.** A tree binds the values of its leaves, and a mark is among them
exactly where a leaf hands one over: a list with a mark in it, a mark other than a marker that a
wrapper binds, and a sub-query of the caller's own with a mark among its values. Markers that are
leaves themselves, wrapped or not, are tests for null or write their own text, and what was never
given is no leaf. A record that is saved binds the values that are assigned, and a mark is among
them exactly where a value hands one over, wherever the key of the row does not; markers that are
assigned are written. -/
theorem marks_of_bound_values {σ : Type} [Backend σ] {t : Table Value} {isFar : Bool} :
    (∀ (tree : Value) (o : CompileOptions) (st : Statement),
      (Scope.compile ⟨t, .standard, isFar⟩ tree o).result = .ok st →
        st.values = Place.bindFrom (tree.treeLeaves true o) o.bound ∧
        ((∃ v ∈ st.values, v.carriesMark = true) ↔ ∃ before p after,
          tree.treeLeaves true o = before ++ p :: after ∧
            p.handsOverMark (o.bound + (Place.bindFrom before o.bound).length) = true) ∧
        ∃ c : Condition, st = c.statement o.siblings ∧
          List.Forall₂ (Place.WritesMarker t) (tree.treeLeaves false o) c.atoms) ∧
    ∀ (r : Record) (s : Session σ) (skipReload ignoreConflict : Bool),
      Change.OnlySends (fun u : Record × Session σ ↦ u.2)
        (fun st ↦ ∃ r', (r.refreshed s).1 = .ok r' ∧ ∃ ps key, r'.SavesBy ps key st ∧
          ((∃ v ∈ st.values, v.carriesMark = true) ↔
            (∃ p ∈ ps, p.2.assignsMark = true) ∨ ∃ before p after,
              Record.keyLeaves key = before ++ p :: after ∧
                p.handsOverMark ((Record.boundBy ps).length +
                  (Place.bindFrom before (Record.boundBy ps).length).length) = true))
        (Record.save skipReload ignoreConflict) (r, s) := by
  constructor
  · intro tree o st h
    obtain ⟨c, hc, hst⟩ := Logged.bind_eq_ok.mp h
    obtain rfl := Except.ok.inj hst
    have hvalues : (c.statement o.siblings).values =
        Place.bindFrom (tree.treeLeaves true o) o.bound := Scope.values_of_condition hc
    refine ⟨hvalues, ?_, c, rfl, Scope.atoms_of_condition hc⟩
    rw [hvalues]
    exact Place.exists_bindFrom_iff _ _
  · intro r s skipReload ignoreConflict
    obtain ⟨added, hadded, hsent⟩ :=
      Record.onlySends_save (r := r) (s := s) skipReload ignoreConflict
    refine ⟨added, hadded, fun st hst ↦ ?_⟩
    obtain ⟨r', hr', ps, key, hsaves⟩ := hsent st hst
    exact ⟨r', hr', ps, key, hsaves, hsaves.marks_iff⟩

/-- A marker by itself, a value that was never given, and a marker in a list. -/
def Value.markedTree : Value :=
  .map [("a", .group 0 .all [.marker .now, .unset, .list [.int 1, .marker .now]] none)]

/-- What the tree above compiles to. -/
def Statement.markedTree : Statement where
  text := "\"a\" = NOW() AND \"a\" IN ($1, $2)"
  values := [.int 1, .marker .now]

theorem marks_of_bound_values_markedTree :
    (Scope.compile ⟨.letters, .standard, false⟩ .markedTree {}).result = .ok .markedTree ∧
    ∃ v ∈ Statement.markedTree.values, v.carriesMark = true := by
  have hcompile :
      (Scope.compile ⟨.letters, .standard, false⟩ .markedTree {}).result = .ok .markedTree := rfl
  obtain ⟨-, hmarks, -⟩ :=
    (marks_of_bound_values (σ := Scripted)).1 .markedTree {} .markedTree hcompile
  refine ⟨hcompile, hmarks.mpr ⟨[⟨some "a", .marker .now, none⟩],
    ⟨some "a", .list [.int 1, .marker .now], none⟩, [], rfl, rfl⟩⟩

/-- **A marker in a list** is bound like the other elements. -/
theorem compile_marker_in_list :
    (Scope.compile ⟨.letters, .standard, false⟩ (.map [("a", .list [.int 1, .marker .now])])
      {}).result = .ok ⟨"\"a\" IN ($1, $2)", [.int 1, .marker .now]⟩ ∧
    (Value.marker .now).isMark = true :=
  ⟨rfl, rfl⟩

end Rowmap
