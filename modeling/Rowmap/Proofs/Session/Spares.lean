import Rowmap.Proofs.Condition.Spares
import Rowmap.Query.Run

/-!
# Runs spare the complaint about the output

After the output type of a query was checked, nothing on the way from its statement to its rows
complains of it again: bringing the conditions up to date, taking a connection from a pool and
giving it back, opening and closing streams, and making records of rows all fail in other ways. Of
the database it is assumed that the complaint is not one of its own.
-/

namespace Rowmap

/-- A database among whose own failures is not the complaint that an output type does not agree with
what is returned. -/
def Backend.Spares (σ : Type) [Backend σ] : Prop :=
  ∀ (call : Call) (s : σ), Rowmap.Spares (Backend.perform call s).1

/-! ## Bringing values up to date -/

namespace Value

variable {current : Nat → Option (Except Failure Value)}

mutual

theorem spares_refreshWith (h : ∀ id r, current id = some r → Spares r) :
    ∀ v : Value, Spares (v.refreshWith current)
  | .list xs => (spares_refreshItems h xs).bind fun _ ↦ .ok _
  | .tuple xs => (spares_refreshItems h xs).bind fun _ ↦ .ok _
  | .set _ xs => (spares_refreshItems h xs).bind fun _ ↦ .ok _
  | .map es => (spares_refreshEntries h es).bind fun _ ↦ .ok _
  | .wrapped v _ _ _ => (spares_refreshWith h v).bind fun _ ↦ .ok _
  | .group _ _ items _ => (spares_refreshItems h items).bind fun _ ↦ .ok _
  | .rawSql _ _ values _ => (spares_refreshItems h values).bind fun _ ↦ .ok _
  | .rendered _ values _ => (spares_refreshItems h values).bind fun _ ↦ .ok _
  | .query id select => by
    show Spares ((current id).getD _)
    cases hid : current id with
    | none => exact .ok _
    | some r => exact h id r hid
  | .object id typeName face attributes => by
    show Spares ((current id).getD _)
    cases hid : current id with
    | none => exact .ok _
    | some r => exact h id r hid
  | .renderable _ _ => .ok _
  | .null | .bool _ | .int _ | .float _ | .decimal _ | .text _ | .bytes _ | .date _ | .time _
  | .moment _ | .uuid _ | .unset | .marker _ | .comparison _ | .direction _ | .output _ | .type _
  | .recordType _ _ => .ok _
termination_by structural v => v

theorem spares_refreshItems (h : ∀ id r, current id = some r → Spares r) :
    ∀ xs : List Value, Spares (refreshItems current xs)
  | [] => .ok _
  | x :: xs => (spares_refreshWith h x).bind fun _ ↦ (spares_refreshItems h xs).bind fun _ ↦ .ok _
termination_by structural xs => xs

theorem spares_refreshEntries (h : ∀ id r, current id = some r → Spares r) :
    ∀ es : List (String × Value), Spares (refreshEntries current es)
  | [] => .ok _
  | (_, x) :: es =>
    (spares_refreshWith h x).bind fun _ ↦ (spares_refreshEntries h es).bind fun _ ↦ .ok _
termination_by structural es => es

end

end Value

variable {σ α : Type} {s : Session σ}

theorem Session.spares_current (s : Session σ) (n id : Nat) {r : Except Failure Value}
    (h : s.current n id = some r) : Spares r := by
  induction n generalizing id r with
  | zero =>
    rw [current] at h
    obtain rfl := Option.some.inj h
    exact .error rfl
  | succ n ih =>
    rw [current] at h
    split at h
    · obtain rfl := Option.some.inj h
      exact (Value.spares_refreshItems (fun id _ ↦ ih id) _).bind fun _ ↦ .ok _
    · obtain rfl := Option.some.inj h
      exact (Value.spares_refreshEntries (fun id _ ↦ ih id) _).bind fun _ ↦ .ok _
    · cases h

/-! ## Records of rows -/

theorem Source.spares_split (source : Source) : Spares source.split := by
  cases source <;> first | exact .ok _ | exact .error rfl

namespace Record

theorem spares_blank (t : RecordType) (source : Source) : Spares (blank t source) := by
  have hdisplaced (e : Failure) (h : displacement? t = some e) : e.isMismatch = false := by
    obtain ⟨⟨name, failure⟩, hmem, h⟩ := List.exists_of_findSome?_eq_some h
    have hfailures : ∀ entry ∈ displaced, ∀ e ∈ entry.2, e.isMismatch = false := by
      simp [displaced, Failure.isMismatch]
    dsimp only at h
    split at h
    · exact hfailures _ (List.mem_of_mem_filter hmem) e h
    · obtain rfl := Option.some.inj h
      exact Failure.isMismatch_unknownField _ _ _
  rw [blank]
  split
  · exact .error rfl
  split
  · exact .error rfl
  refine source.spares_split.bind fun ⟨conn, pool⟩ ↦ ?_
  dsimp only
  cases he : displacement? t with
  | some e => exact .error (hdisplaced e he)
  | none => exact .ok _

theorem spares_setLoaded (r : Record) (loaded skipCheck : Bool) :
    Spares (r.setLoaded loaded skipCheck) := by
  have hkeeping : Spares r.keepingKey := by
    rw [keepingKey]
    split
    · split
      · exact .ok _
      · exact .error rfl
    · exact .ok _
  rw [setLoaded]
  split
  · exact .ok _
  split
  · exact .error rfl
  · exact hkeeping.bind fun _ ↦ .ok _

theorem spares_ofRow (t : RecordType) (source : Source) (row : Row) :
    Spares (ofRow t source row) := by
  refine (spares_blank t source).bind fun r ↦ ?_
  have hload : (loadRow row).Spares :=
    (Change.Spares.modify _).bind fun _ ↦ Change.Spares.bind (fun _ ↦ .ok _) fun r ↦
      (Change.Spares.ofExcept (r.spares_setLoaded _ _)).bind fun _ ↦ fun _ ↦ .ok _
  have hrun := hload r
  cases hrow : loadRow row r with
  | mk result r' =>
    rw [hrow] at hrun
    cases result with
    | ok _ => exact .ok _
    | error e => exact .error (hrun e rfl)

end Record

/-! ## Connections -/

namespace App

theorem spares_poolOrDefault (pool : Option Pool) : (poolOrDefault pool : App σ Pool).Spares := by
  cases pool with
  | some p => exact .ok p
  | none =>
    refine Change.Spares.bind (fun _ ↦ .ok _) fun registry ↦ .ofExcept ?_
    rw [PoolRegistry.find, PoolRegistry.keyOf]
    refine Rowmap.Spares.bind (.ok _) fun name ↦ ?_
    split
    · exact .ok _
    · exact .error rfl

variable [Backend σ]

theorem spares_call (hdb : Backend.Spares σ) (c : Call) : (call c : App σ c.Reply).Spares :=
  fun s ↦ hdb c s.db

theorem stepwise_spares (hdb : Backend.Spares σ) : Stepwise (σ := σ) fun _ ↦ Change.Spares where
  ok := .ok
  bind := .bind
  attempt_bind hx hf := hx.attempt_bind fun r hr ↦ hf r (.ofExcept hr)
  recast := .recast
  tell _ := .modify _
  call _ := spares_call hdb _
  noneUsable _ := .fail rfl

theorem spares_release (hdb : Backend.Spares σ) (c : Connection) (destroy : Bool) :
    (release c destroy : App σ Unit).Spares :=
  (stepwise_spares hdb).release c destroy

theorem spares_usableConnection (hdb : Backend.Spares σ) (p : Pool) :
    (usableConnection p : App σ Connection).Spares :=
  (stepwise_spares hdb).usableConnection p (.ok 100)

theorem spares_checkout (hdb : Backend.Spares σ) (conn : Option Connection) (pool : Option Pool)
    (destroy : Bool) {body : Connection → App σ α} (hbody : ∀ c, (body c).Spares) :
    (checkout conn pool destroy body).Spares :=
  (stepwise_spares hdb).checkout (spares_poolOrDefault pool) hbody

theorem spares_execute (hdb : Backend.Spares σ) (c : Connection) (sql : String)
    (values : List Value) : (execute c sql values : App σ Outcome).Spares :=
  (Change.Spares.modify _).bind fun _ ↦ spares_call hdb (.exec c sql values)

omit [Backend σ] in
theorem spares_withStream (id : Nat) {x : On RowStream σ α} (hx : x.Spares) :
    (withStream id x).Spares := by
  intro s
  rw [withStream]
  cases s.streams.lookup id with
  | none => exact .error rfl
  | some stream => exact hx (stream, s)

end App

/-! ## Streams -/

namespace RowStream

variable [Backend σ]

theorem spares_close (hdb : Backend.Spares σ) (failed : Bool) :
    (close failed : On RowStream σ Unit).Spares := by
  have hannounce : (announce failed : On RowStream σ Unit).Spares := by
    refine (Change.Spares.gets _).bind fun s ↦ ?_
    cases s.onClose with
    | nothing => exact .ok ()
    | release => exact (App.spares_release hdb s.conn failed).onSecond
    | notify => exact (Change.Spares.modify _).onSecond
  have hfinish : (finishTransaction failed : On RowStream σ Unit).Spares := by
    refine (Change.Spares.gets _).bind fun s ↦ ?_
    cases s.ownsTransaction with
    | false => exact .ok ()
    | true =>
      cases failed with
      | true => exact (App.spares_call hdb (.rollbackTransaction s.conn)).onSecond
      | false => exact (App.spares_call hdb (.commitTransaction s.conn)).onSecond
  refine (Change.Spares.gets _).bind fun s ↦ ?_
  cases s.closed with
  | true => exact .ok ()
  | false =>
    exact (Change.Spares.modify _).onFirst.bind fun _ ↦ hfinish.finally_ fun _ ↦
      (Change.Spares.modify _).onFirst.bind fun _ ↦ hannounce

theorem spares_guarded (hdb : Backend.Spares σ) {x : On RowStream σ α} (hx : x.Spares) :
    (guarded x).Spares := by
  refine hx.recast.attempt_bind fun r hr ↦ ?_
  cases r with
  | ok a => exact .ok a
  | error e => exact (spares_close hdb true).bind fun _ ↦ .fail (hr e rfl)

theorem spares_open (hdb : Backend.Spares σ) : (open_ : On RowStream σ Unit).Spares := by
  have hstart : (startTransaction : On RowStream σ Unit).Spares := by
    refine (Change.Spares.gets _).bind fun s ↦
      (App.spares_call hdb (.driver s.conn)).onSecond.bind fun present ↦ ?_
    cases (present : Bool) with
    | false => exact .fail rfl
    | true =>
      refine (App.spares_call hdb (.driverInTransaction s.conn)).onSecond.bind fun busy ↦ ?_
      cases (busy : Bool) with
      | true => exact .ok ()
      | false =>
        exact (Change.Spares.modify _).onFirst.bind fun _ ↦
          (App.spares_call hdb (.startTransaction s.conn)).onSecond
  refine (Change.Spares.gets _).bind fun s ↦ (Change.Spares.modify _).onSecond.bind fun _ ↦
    spares_guarded hdb (hstart.bind fun _ ↦ ?_)
  exact (App.spares_call hdb (.openCursor s.conn s.sql s.values)).onSecond.bind fun _ ↦
    (Change.Spares.modify _).onFirst

end RowStream

end Rowmap
