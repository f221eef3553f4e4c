import Rowmap.Proofs.Condition.Naming
import Rowmap.Record.Persistence

/-!
# Statements of records and the name of their type

The name of a record type is in no statement. A record makes the same updates and deletions as it
would as one of a type that differs in its name alone; where one of the two cannot make the
statement, neither can the other, though the messages differ.
-/

namespace Rowmap

def RecordType.named (t : RecordType) (recordName : String) (table : Value) : RecordType :=
  { t with table := { t.table with recordName, name := table } }

theorem Except.Agrees.foldlM {ε α β : Type} {f g : β → α → Except ε β}
    (h : ∀ b a, Except.Agrees (· = ·) (f b a) (g b a)) (as : List α) (b : β) :
    Except.Agrees (· = ·) (as.foldlM f b) (as.foldlM g b) := by
  induction as generalizing b with
  | nil => exact rfl
  | cons a as ih =>
    rw [List.foldlM_cons, List.foldlM_cons]
    exact (h b a).bind_eq ih

namespace Record

def called (r : Record) (name : String) : Record :=
  { r with type := r.type.named name r.type.table.name }

variable (r : Record) (name : String)

theorem get_called (key : String) :
    Except.Agrees (· = ·) ((r.called name).get key) (r.get key) := by
  have hdeclares : (r.called name).type.declares key = r.type.declares key := rfl
  rw [get, get, hdeclares]
  split
  · exact rfl
  · trivial

theorem contribution_called (o : DataOptions) (key : String) :
    Except.Agrees (· = ·) ((r.called name).contribution o key) (r.contribution o key) := by
  have hdefault : (r.called name).type.default key = r.type.default key := rfl
  have hdirty : (r.called name).isFieldDirty key = r.isFieldDirty key := rfl
  have hset : (r.called name).isSet key = r.isSet key := rfl
  rw [contribution, contribution, hdefault, hdirty, hset]
  split
  · exact rfl
  · split
    · exact rfl
    · exact (r.get_called name key).bind_eq fun v ↦ rfl

theorem contribute_called (o : DataOptions) (ps : Pairs) (key : Value) :
    Except.Agrees (· = ·) ((r.called name).contribute o ps key) (r.contribute o ps key) := by
  have hby : Except.Agrees (· = ·) ((r.called name).contributionBy o key)
      (r.contributionBy o key) := by
    rw [contributionBy, contributionBy]
    split
    · exact r.contribution_called name o _
    · split
      · exact rfl
      · trivial
  exact hby.bind_eq fun found ↦ .same fun _ _ ↦ rfl

theorem data_called (o : DataOptions) :
    Except.Agrees (· = ·) ((r.called name).data o) (r.data o) := by
  have hkeys : chosenKeys (r.called name).type o = chosenKeys r.type o := rfl
  rw [data, data, hkeys]
  refine Except.Agrees.bind_same fun keys _ ↦ ?_
  exact (Except.Agrees.foldlM (r.contribute_called name o) keys []).bind_eq fun ps ↦
    .same fun _ _ ↦ rfl

theorem column_named (t : RecordType) (key : Value) : Except.Agrees (· = ·)
    ((t.named name t.table.name).table.column key) (t.table.column key) := by
  have hfield (k : String) : (t.named name t.table.name).table.field? k = t.table.field? k := rfl
  rw [Table.column, Table.column]
  simp only [hfield]
  split
  · exact rfl
  · trivial

theorem assignmentsFrom_named (t : RecordType) (bound : List Value) (ps : Pairs) :
    Except.Agrees (· = ·) (assignmentsFrom (t.named name t.table.name) bound ps)
      (assignmentsFrom t bound ps) := by
  induction ps generalizing bound with
  | nil => exact rfl
  | cons p ps ih =>
    rw [assignmentsFrom, assignmentsFrom]
    refine (column_named name t p.1).bind_eq fun column ↦ ?_
    dsimp only
    split
    · exact Except.Agrees.bind_same fun sql _ ↦ (ih bound).bind_eq fun rest ↦ rfl
    · exact (ih _).bind_eq fun rest ↦ rfl

theorem keyCondition_named (t : RecordType) (key : Pairs) (bound : Int) :
    Except.Agrees (· = ·) (keyCondition (t.named name t.table.name) key bound).result
      (keyCondition t key bound).result := by
  rw [keyCondition, keyCondition, Logged.result_bind, Logged.result_bind]
  have hfields : (t.named name t.table.name).table.fields = t.table.fields := rfl
  refine (Table.compile_of_same_fields hfields _ bound).bind_eq fun where_ ↦ ?_
  split
  · exact rfl
  · trivial

/-- **The deletion** of a record does not name its type. -/
theorem removalStatement_called :
    Except.Agrees (· = ·) (r.called name).removalStatement.result r.removalStatement.result := by
  have hnull : (r.called name).nullKey? = r.nullKey? := rfl
  rw [removalStatement, removalStatement, hnull]
  split
  · trivial
  · rw [Logged.result_bind, Logged.result_bind]
    exact (keyCondition_named name r.type _ 0).bind_eq fun where_ ↦ .same fun _ _ ↦ rfl

/-- **The update** of a record does not name its type. -/
theorem changeStatement_called (skipReload : Bool) :
    Except.Agrees (· = ·) ((r.called name).changeStatement skipReload).result
      (r.changeStatement skipReload).result := by
  have hlast : (r.called name).lastKey = r.lastKey := rfl
  rw [changeStatement, changeStatement, Logged.result_bind, Logged.result_bind, hlast]
  refine (r.data_called name _).bind_eq fun ps ↦ ?_
  rw [Logged.result_bind, Logged.result_bind]
  refine (assignmentsFrom_named name r.type [] ps).bind_eq fun (assigned, bound) ↦ ?_
  dsimp only
  split
  · exact rfl
  · rw [Logged.result_bind, Logged.result_bind]
    refine Except.Agrees.bind_same fun key _ ↦ ?_
    rw [Logged.result_bind, Logged.result_bind]
    exact (keyCondition_named name r.type key _).bind_eq fun where_ ↦ .same fun _ _ ↦ rfl

/-- The updates and the deletion of a record are those of another; where there is none of one, there
is none of the other. -/
structure WritesAs (r r' : Record) : Prop where
  removal : Except.Agrees (· = ·) r.removalStatement.result r'.removalStatement.result
  change : ∀ skipReload, Except.Agrees (· = ·) (r.changeStatement skipReload).result
    (r'.changeStatement skipReload).result

theorem writesAs_called : (r.called name).WritesAs r :=
  ⟨r.removalStatement_called name, r.changeStatement_called name⟩

end Record

end Rowmap
