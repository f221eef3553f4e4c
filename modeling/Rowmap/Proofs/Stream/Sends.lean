import Rowmap.Proofs.Session.Sends
import Rowmap.Proofs.Stream.Passage

/-!
# The statements of streams

A stream sends its statement once, when it is opened: starting a transaction, fetching and closing
send none. The cursor is opened last, so the rows ahead of it are those of the database by then, and
what a stream with nothing to hand out does first is to fetch from it.
-/

namespace Rowmap

namespace RowStream

open Change

variable {σ α : Type} [Backend σ] {a b : RowStream} {s t : Session σ} {p : Statement → Prop}

theorem onlySends_close (p : Statement → Prop) (failed : Bool) (u : RowStream × Session σ) :
    OnlySends (·.2) p (close failed : On RowStream σ Unit) u := by
  have hrelease (destroy : Bool) (s : RowStream) (u : RowStream × Session σ) :
      OnlySends (·.2) p (On.beside (App.release s.conn destroy) : On RowStream σ Unit) u :=
    (App.onlySends_release p s.conn destroy u.2).onSecond u.1
  have hcall {c : Call} (hc : ∀ reply, (Event.called c reply).statement? = none)
      (u : RowStream × Session σ) :
      OnlySends (·.2) p (On.beside (App.call c) : On RowStream σ c.Reply) u :=
    (App.onlySends_silent hc).onSecond u.1
  have hannounce (u : RowStream × Session σ) :
      OnlySends (·.2) p (announce failed : On RowStream σ Unit) u := by
    refine OnlySends.bind (.of_events rfl) fun s u' _ ↦ ?_
    cases s.onClose with
    | nothing => exact .ok ()
    | release => exact hrelease failed s u'
    | notify => exact ⟨[.streamClosed failed], rfl, fun _ h ↦ nomatch h⟩
  have hfinish (u : RowStream × Session σ) :
      OnlySends (·.2) p (finishTransaction failed : On RowStream σ Unit) u := by
    refine OnlySends.bind (.of_events rfl) fun s u' _ ↦ ?_
    cases s.ownsTransaction with
    | false => exact .ok ()
    | true =>
      cases failed with
      | true => exact hcall (fun _ ↦ rfl) u'
      | false => exact hcall (fun _ ↦ rfl) u'
  refine OnlySends.bind (.of_events rfl) fun s u' _ ↦ ?_
  cases s.closed with
  | true => exact .ok ()
  | false =>
    refine OnlySends.bind (.of_events rfl) fun _ u'' _ ↦ (hfinish u'').finally_ fun _ u ↦ ?_
    exact OnlySends.bind (.of_events rfl) fun _ u' _ ↦ hannounce u'

variable (p) in
theorem onlySends_startTransaction (u : RowStream × Session σ) :
    OnlySends (·.2) p (startTransaction : On RowStream σ Unit) u := by
  refine (OnlySends.of_events rfl).bind fun a u _ ↦ ?_
  refine ((App.onlySends_silent fun _ ↦ rfl).onSecond _).bind fun present u _ ↦ ?_
  rcases (present : Bool) with _ | _
  · exact .fail _
  refine ((App.onlySends_silent fun _ ↦ rfl).onSecond _).bind fun busy u _ ↦ ?_
  rcases (busy : Bool) with _ | _
  · refine (OnlySends.of_events rfl).bind fun _ u _ ↦ ?_
    exact (App.onlySends_silent fun _ ↦ rfl).onSecond _
  · exact .ok ()

/-- **Opening** a stream sends its statement alone, and opens the cursor last. -/
theorem opens_of_open (h : open_ (a, s) = (.ok (), b, t)) :
    Sends (·.2) [⟨a.sql, a.values⟩] (open_ : On RowStream σ Unit) (a, s) ∧
      ∃ db, Backend.perform (.openCursor a.conn a.sql a.values) db = (.ok (), t.db) := by
  let s₀ : Session σ := { s with log := s.log ++ [.streaming a.sql a.values] }
  have hopen : (do
      startTransaction
      On.beside (App.call (.openCursor a.conn a.sql a.values))
      On.own (Change.modify fun a ↦ { a with hasCursor := true }) : On RowStream σ Unit) (a, s₀) =
      (.ok (), b, t) := guarded_eq_ok (show guarded _ (a, s₀) = _ from h)
  obtain ⟨_, ⟨c, u⟩, hstart, hrest⟩ := bind_eq_ok.mp hopen
  obtain ⟨_, ⟨d, v⟩, hcursor, hlast⟩ := bind_eq_ok.mp hrest
  obtain rfl : v = t := congrArg (fun w ↦ w.2.2) hlast
  rcases hperform : Backend.perform (.openCursor a.conn a.sql a.values) u.db with ⟨r, db⟩
  have hcall : (On.beside (App.call (.openCursor a.conn a.sql a.values)) : On RowStream σ Unit)
      (c, u) = (r, c, { u with
        db, events := u.events ++ [.called (.openCursor a.conn a.sql a.values) r.toOption] }) := by
    show ((App.call (.openCursor a.conn a.sql a.values) u).1, c, _) = _
    rw [App.call, hperform]
  obtain ⟨rfl, hv⟩ := Prod.mk.inj (hcall.symm.trans hcursor)
  obtain ⟨-, rfl⟩ := Prod.mk.inj hv
  refine ⟨?_, u.db, hperform⟩
  obtain ⟨silent, hsilent, hnone⟩ := onlySends_startTransaction (fun _ ↦ False) (a, s₀)
  rw [hstart] at hsilent
  refine ⟨silent ++ [.called (.openCursor a.conn a.sql a.values) (some ())], ?_, ?_⟩
  · rw [h]
    show u.events ++ _ = _
    rw [show u.events = s.events ++ silent from hsilent, List.append_assoc]
    rfl
  · rw [List.filterMap_append, List.eq_nil_iff_forall_not_mem.mpr hnone]
    rfl

/-- Whether events begin with a fetch for a stream, whatever comes of it. -/
def Fetches (a : RowStream) (added : List Event) : Prop :=
  ∃ reply more, added = .called (.fetch a.conn a.batchSize) reply :: more

omit [Backend σ] in
theorem Fetches.append {added : List Event} (h : a.Fetches added) (more : List Event) :
    a.Fetches (added ++ more) := by
  obtain ⟨reply, later, rfl⟩ := h
  exact ⟨reply, later ++ more, rfl⟩

/-- **A pull that has nothing to hand out** reads the cursor before anything else. -/
theorem fetches_of_pull (hwants : a.wantsFetch = true) (hcursor : a.hasCursor = true)
    (s : Session σ) :
    (pull : On RowStream σ Value).Adds (·.2) (a, s) fun _ _ added ↦ a.Fetches added := by
  have hguarded : (guarded (On.beside (App.call (.fetch a.conn a.batchSize))) :
      On RowStream σ (List Row)).Adds (·.2) (a, s) fun _ _ added ↦ a.Fetches added := by
    have hcall := (adds_call (.fetch a.conn a.batchSize) a s).mono fun r u added h ↦
      show a.Fetches added from ⟨r.toOption, [], h.2⟩
    have hrecast : (Change.mapFailure Failure.recast
        (On.beside (App.call (.fetch a.conn a.batchSize))) : On RowStream σ (List Row)).Adds (·.2)
        (a, s) fun _ _ added ↦ a.Fetches added := Adds.mapFailure _ hcall
    refine hrecast.attempt_bind fun r u added h ↦ ?_
    rcases r with e | batch
    · have hclose := (onlySends_close (fun _ ↦ True) true u).adds
      refine hclose.bind (fun _ _ more _ ↦ .fail ?_) fun _ _ more _ ↦ h.append more
      exact h.append _
    · exact .ok (h.append [])
  have hfill : (fill : On RowStream σ Unit).Adds (·.2) (a, s) fun _ _ added ↦ a.Fetches added := by
    refine Adds.object ?_
    dsimp only
    rw [if_pos hwants, if_pos hcursor]
    refine hguarded.bind (fun batch u added h ↦ .of_events ?_ (h.append [])) fun _ _ _ h ↦ h
    rw [own_receive_apply]
    split <;> rfl
  refine hfill.bind (fun _ u added h ↦ Adds.object ?_) fun _ _ _ h ↦ h
  split
  · have hclose := (onlySends_close (fun _ ↦ True) false u).adds
    refine hclose.bind (fun _ _ more _ ↦ .fail ?_) fun _ _ more _ ↦ h.append more
    exact h.append _
  · refine Adds.modify (.of_events ?_ (h.append []))
    exact congrArg Prod.snd (keeps_shapeRow u.1.shape _ u.2)

end RowStream

theorem App.onlySends_withStream {σ α : Type} {p : Statement → Prop} {x : On RowStream σ α}
    (n : Nat) (hx : ∀ u, Change.OnlySends (·.2) p x u) (s : Session σ) :
    Change.OnlySends id p (withStream n x) s := by
  cases hstream : s.streams.lookup n with
  | none =>
    refine .of_events ?_
    rw [withStream, hstream]
  | some stream =>
    obtain ⟨added, hadded, hp⟩ := hx (stream, s)
    refine ⟨added, ?_, hp⟩
    rw [withStream, hstream]
    exact hadded

/-- A database in which a cursor that is opened has the rows of its statement ahead, as the database
is then, and is read from there in the batches of a query. -/
structure Backend.Serves (σ : Type) [Backend σ] (rowsOf : Connection → Statement → σ → List Row)
    (ahead : Connection → List Row → σ → Prop) : Prop where
  opens : ∀ c st db db', Backend.perform (.openCursor c st.text st.values) db = (.ok (), db') →
    ahead c (rowsOf c st db) db'
  feeds : ∀ c, Backend.Feeds σ c 100 (ahead c)

end Rowmap
