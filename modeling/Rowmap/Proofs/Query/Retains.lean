import Rowmap.Proofs.Query.Agreement
import Rowmap.Proofs.Session.Retains

/-!
# Live records under queries

Whatever is done to a query leaves the live records alone. A run and a pass over its stream make new
ones for their rows, and those that rows of an earlier run were made into are still there, even
though the query may hold them no more.
-/

namespace Rowmap.Query

open Change

variable {σ : Type}

theorem retains_statement (q : Query) (count isSubquery : Bool) (bound : Int) :
    Retains id (q.statement count isSubquery bound : App σ Statement) :=
  Retains.bind (.bind (.of_eq fun _ ↦ rfl) fun _ ↦ .bind (.ofExcept _) fun _ ↦ .ok _) fun _ _ ↦
    .of_records (Nat.le_refl _) rfl

theorem retains_recordsOf (t : RecordType) (source : Source) (rows : List Row) :
    Retains id (recordsOf t source rows : App σ (List Value)) := by
  induction rows with
  | nil => exact .ok []
  | cons row rows ih =>
    exact Retains.bind (.ofExcept _) fun r ↦ (App.retains_addRecord r).bind fun id ↦
      (App.retains_recordValue id).bind fun _ ↦ ih.bind fun _ ↦ .ok _

theorem retains_shapeRows (q : Query) (source : Source) (rows : List Row) :
    Retains id (q.shapeRows source rows : App σ (List Value)) := by
  rw [shapeRows]
  rcases q.select.output with _ | _ | _
  · exact retains_recordsOf q.type source rows
  · exact .ok _
  · exact .ofExcept _

variable [Backend σ]

/-! ## Runs -/

theorem retains_close : Retains (·.2) (close : On Query σ Unit) := by
  refine .object fun q ↦ ?_
  rcases q.stream with _ | id
  · exact .ok ()
  · exact (Retains.own _).bind fun _ ↦
      .beside (App.retains_withStream id (RowStream.retains_close false))

theorem retains_openStream (statement : Statement) (source : Source) :
    Retains (·.2) (openStream statement source : On Query σ Unit) := by
  rw [openStream_eq]
  refine .object fun q ↦ Retains.bind ?_ fun c ↦ ?_
  · rw [connection]
    rcases q.conn with _ | c
    · exact .beside (.of_keeps ((App.keeps_poolOrDefault q.pool).bind fun p ↦
        App.keeps_usableConnection p App.defaultAttempts))
    · exact .ok c
  · exact (Retains.beside (App.retains_addStream _)).bind fun id ↦
      (Retains.beside (App.retains_withStream id RowStream.retains_open)).bind fun _ ↦ .own _

theorem retains_run (given : Source) : Retains (·.2) (run given : On Query σ Unit) := by
  refine .object fun q ↦ (Retains.ofExcept _).bind fun _ ↦ retains_close.bind fun _ ↦
    .object fun q ↦ (Retains.beside (retains_statement q _ _ _)).bind fun statement ↦ ?_
  dsimp only
  split
  · exact (retains_openStream _ _).bind fun _ ↦ .own _
  · refine (Retains.beside (.of_keeps (App.keeps_checkout fun c ↦
      App.keeps_execute c _ _))).bind fun _ ↦ ?_
    exact (Retains.beside (retains_shapeRows q _ _)).bind fun _ ↦ (Retains.own _).bind fun _ ↦
      .own _

theorem retains_setConnection (conn : Option Connection) (releaseOld : Bool) :
    Retains (·.2) (setConnection conn releaseOld : On Query σ Unit) := by
  refine .object fun q ↦ (Retains.own _).bind fun _ ↦ ?_
  rcases q.conn with _ | c
  · exact .ok ()
  · dsimp only
    split
    · exact .beside (.of_keeps (App.keeps_release c false))
    · exact .ok ()

/-- Passing over a stream makes records of its rows, and keeps those there are. -/
theorem retains_advance (pass : Pass) :
    Retains (·.2) (advance pass : On Query σ (Option (Value × Pass))) := by
  have hpull (id : Nat) : Retains (·.2) (pullFrom id : On Query σ (Option Value)) := by
    refine (Retains.beside (App.retains_withStream id RowStream.retains_pull)).attempt.bind
      fun r ↦ ?_
    rcases r with e | v
    · refine (Retains.beside (App.retains_withStream id (RowStream.retains_close false))).bind
        fun _ ↦ ?_
      split
      · exact .ok none
      · exact .fail _
    · exact .ok _
  have hheld : Retains (·.2) (heldStream : On Query σ Nat) := by
    refine .object fun q ↦ ?_
    rcases q.stream with _ | id
    · exact .fail _
    · exact .ok id
  have hstream : Retains (·.2) (streamOfPass : On Query σ Nat) := by
    refine .object fun q ↦ ?_
    split
    · exact (retains_run _).bind fun _ ↦ hheld
    · exact hheld
  rcases pass with _ | id | _
  · exact hstream.bind fun id ↦ (hpull id).bind fun _ ↦ .ok _
  · exact (hpull id).bind fun _ ↦ .ok _
  · exact .ok none

/-! ## Operations -/

/-- **Every operation** on a query retains the live records. -/
theorem Operation.retains_perform (o : Operation) :
    Retains (·.2) (o.perform : On Query σ (List Pass)) := by
  rcases o with c | loaded | ⟨pool, releaseOld⟩ | releaseOld | given | _ | _ | pass | pass
  · exact (Retains.own _).bind fun _ ↦ .ok _
  · exact (Retains.own _).bind fun _ ↦ .ok _
  · exact Retains.bind ((Retains.own _).bind fun _ ↦ retains_setConnection none releaseOld)
      fun _ ↦ .ok _
  · exact (retains_setConnection none releaseOld).bind fun _ ↦ .ok _
  · exact (retains_run given).bind fun _ ↦ .ok _
  · exact retains_close.bind fun _ ↦ .ok _
  · exact .object fun q ↦ (Retains.ofExcept _).bind fun _ ↦ .ok _
  · exact (retains_advance pass).bind fun _ ↦ .ok _
  · refine (Retains.beside ?_).bind fun _ ↦ .ok _
    rcases pass with _ | id | _
    · exact .ok ()
    · exact App.retains_withStream id (RowStream.retains_close false)
    · exact .ok ()

end Rowmap.Query
