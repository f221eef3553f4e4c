import Rowmap.Proofs.Session.Keeps
import Rowmap.Query.Run

/-!
# What operations leave of a query

Apart from the setters, operations leave the type of a query and its selection alone. A run takes
rows over and marks them as loaded, and all that it is asked for stays. The steps of a run that open
the stream have names here, so that what a run keeps is said of one step after the other.
-/

namespace Rowmap.Query

open Change

variable {σ α : Type}

/-- What operations that are no setters leave of a query. -/
def core (u : Query × Session σ) : RecordType × Select Value := (u.1.type, u.1.select)

/-- What a query asks for: what runs leave of it. -/
def asked (u : Query × Session σ) : RecordType × Select Value :=
  (u.1.type, { u.1.select with rows := [], loaded := false })

theorem keeps_asked {x : On Query σ α} (hx : Keeps core x) : Keeps asked x :=
  hx.of_comp fun c : RecordType × Select Value ↦ (c.1, { c.2 with rows := [], loaded := false })

theorem keeps_core_beside (x : App σ α) : Keeps core (On.beside x : On Query σ α) := fun _ ↦ rfl

theorem keeps_asked_setLoaded (loaded : Bool) :
    Keeps asked (On.own (setLoaded loaded) : On Query σ Unit) := fun _ ↦ rfl

def heldStream : On Query σ Nat := do
  match (← On.object).stream with
  | some n => .ok n
  | none => .fail .missingPart

theorem keeps_core_heldStream : Keeps core (heldStream : On Query σ Nat) := by
  refine (Keeps.gets _).bind fun q ↦ ?_
  cases q.stream with
  | some id => exact .ok id
  | none => exact fun _ ↦ rfl

variable [Backend σ]

theorem keeps_core_close : Keeps core (close : On Query σ Unit) := by
  refine (Keeps.gets _).bind fun q ↦ ?_
  cases q.stream with
  | none => exact .ok ()
  | some id => exact Keeps.bind (fun _ ↦ rfl) fun _ ↦ keeps_core_beside _

/-! ## Streams -/

def connection (q : Query) : On Query σ Connection :=
  match q.conn with
  | some c => .ok c
  | none => On.beside (do App.usableConnection (← App.poolOrDefault q.pool))

def openOn (q : Query) (c : Connection) (statement : Statement) (source : Source) :
    On Query σ Unit := do
  let id ← On.beside (App.addStream (q.streamOn c statement source))
  On.beside (App.withStream id RowStream.open_)
  On.own (Change.modify fun q ↦ { q with stream := some id })

theorem openStream_eq (statement : Statement) (source : Source) :
    openStream statement source = (do
      let q ← On.object
      let c ← q.connection
      q.openOn c statement source : On Query σ Unit) := by
  funext ⟨q, s⟩
  rw [openStream, On.object, gets_bind, gets_bind, connection]
  rcases q.conn with _ | c
  · rfl
  · rfl

theorem connection_fst (q : Query) (u : Query × Session σ) :
    (q.connection u : Except Failure Connection × _).2.1 = u.1 := by
  rw [connection]
  rcases q.conn with _ | c
  · rfl
  · rfl

theorem keeps_core_openStream (statement : Statement) (source : Source) :
    Keeps core (openStream statement source : On Query σ Unit) := by
  rw [openStream_eq]
  refine (Keeps.gets _).bind fun q ↦ Keeps.bind (fun u ↦ ?_) fun c ↦ ?_
  · rw [core, core, connection_fst]
  · exact (keeps_core_beside _).bind fun id ↦ (keeps_core_beside _).bind fun _ _ ↦ rfl

theorem keeps_core_pullFrom (id : Nat) : Keeps core (pullFrom id : On Query σ (Option Value)) := by
  refine Keeps.bind (fun _ ↦ rfl) fun r ↦ ?_
  rcases r with e | v
  · refine (keeps_core_beside _).bind fun _ ↦ ?_
    split
    · exact .ok none
    · exact fun _ ↦ rfl
  · exact .ok _

/-! ## Connections and runs -/

theorem keeps_core_setConnection (conn : Option Connection) (releaseOld : Bool) :
    Keeps core (setConnection conn releaseOld : On Query σ Unit) := by
  refine (Keeps.gets _).bind fun q ↦ Keeps.bind (fun _ ↦ rfl) fun _ ↦ ?_
  rcases q.conn with _ | c
  · exact .ok ()
  · dsimp only
    split
    · exact keeps_core_beside _
    · exact .ok ()

theorem keeps_core_setPool (pool : Option Pool) (releaseOld : Bool) :
    Keeps core (setPool pool releaseOld : On Query σ Unit) :=
  Keeps.bind (fun _ ↦ rfl) fun _ ↦ keeps_core_setConnection none releaseOld

/-- **A run** leaves what the query asks for, whether or not it fails. -/
theorem keeps_asked_run (given : Source) : Keeps asked (run given : On Query σ Unit) := by
  refine (Keeps.gets _).bind fun q ↦ (Keeps.ofExcept _).bind fun _ ↦
    (keeps_asked keeps_core_close).bind fun _ ↦ (Keeps.gets _).bind fun q ↦
      (keeps_asked (keeps_core_beside _)).bind fun statement ↦ ?_
  dsimp only
  split
  · exact (keeps_asked (keeps_core_openStream _ _)).bind fun _ ↦ keeps_asked_setLoaded true
  · exact (keeps_asked (keeps_core_beside _)).bind fun _ ↦
      (keeps_asked (keeps_core_beside _)).bind fun _ ↦
        Keeps.bind (fun _ ↦ rfl) fun _ ↦ keeps_asked_setLoaded true

/-- **A pass** leaves what the query asks for, even where it makes another run. -/
theorem keeps_asked_advance (pass : Pass) :
    Keeps asked (advance pass : On Query σ (Option (Value × Pass))) := by
  have hpull (id : Nat) := keeps_asked (keeps_core_pullFrom (σ := σ) id)
  have hstream : Keeps asked (streamOfPass : On Query σ Nat) := by
    refine (Keeps.gets _).bind fun q ↦ ?_
    split
    · exact (keeps_asked_run _).bind fun _ ↦ keeps_asked keeps_core_heldStream
    · exact keeps_asked keeps_core_heldStream
  rcases pass with _ | id | _
  · exact hstream.bind fun id ↦ (hpull id).bind fun _ ↦ .ok _
  · exact (hpull id).bind fun _ ↦ .ok _
  · exact .ok none

end Rowmap.Query
