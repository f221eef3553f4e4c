import Rowmap.Database.Scripted
import Rowmap.Proofs.Condition.Cases
import Rowmap.Proofs.Session.Additions
import Rowmap.Proofs.Session.Keeps

/-!
# Streams close once

A stream can come to be closed when it is opened, when a row is pulled from it, and when its user
closes it, and each part of closing it can fail. However that goes, what it does is in order: it
works on its cursor, then finishes the transaction that it has of its own, if it has one, and then
tells whoever made it. `ClosedOnce` says so of all that a stream has ever done.

`Course` follows a stream from its opening through any demands, each made in any session. The
invariant along a course has two sides: `Working` for a stream that is open, `Ended` for one that is
closed, on which nothing is ever done again.
-/

namespace Rowmap

/-! ## What streams do -/

namespace Event

/-- Whether an event is work on the cursor of a stream: looking at the driver under its connection,
starting a transaction for the cursor, opening it and fetching from it. -/
def isWork (c : Connection) : Event → Bool
  | .called (.driver d) _ | .called (.driverInTransaction d) _ | .called (.startTransaction d) _
  | .called (.openCursor d _ _) _ | .called (.fetch d _) _ => d == c
  | _ => false

def isFailedFetch : Event → Bool
  | .called (.fetch _ _) none => true
  | _ => false

def isAnswered : Event → Bool
  | .called _ none => false
  | _ => true

def free (c : Connection) : Event := .called (.driverInTransaction c) (some false)

theorem isWork_free (c : Connection) : (free c).isWork c = true := beq_self_eq_true c

theorem free_ne {c : Connection} {reply : Option Bool} (h : reply ≠ some false) :
    free c ≠ .called (.driverInTransaction c) reply := by
  unfold free
  rintro ⟨⟩
  exact h rfl

end Event

namespace RowStream

def finishing (c : Connection) (failed : Bool) : Call :=
  if failed then .rollbackTransaction c else .commitTransaction c

/-- What finishing the transaction comes to that a stream has of its own, if it has one. -/
inductive Finish (c : Connection) (failed : Bool) (owns : Prop) : List Event → Prop where
  | joined (h : ¬ owns) : Finish c failed owns []
  | owned (h : owns) (reply : Option (finishing c failed).Reply) :
      Finish c failed owns [.called (finishing c failed) reply]

/-- What telling whoever made a stream comes to. -/
inductive Told (c : Connection) : OnClose → Bool → List Event → Prop where
  | nothing (failed : Bool) : Told c .nothing failed []
  | notified (failed : Bool) : Told c .notify failed [.streamClosed failed]
  | released (reply : Option Unit) : Told c .release false [.called (.close c) reply]
  | discarded (reply : Option Unit) :
      Told c .release true [.called (.invalidate c) (some ()), .called (.close c) reply]
  | kept : Told c .release true [.called (.invalidate c) none]

/-- What closing an open stream comes to: its transaction is finished, and then whoever made it is
told, once each. It succeeds if both do. -/
structure Closing (a : RowStream) (failed : Bool) (r : Except Failure Unit) (added : List Event) :
    Prop where
  parts : ∃ finish told, added = finish ++ told ∧
    Finish a.conn failed (a.ownsTransaction = true) finish ∧ Told a.conn a.onClose failed told
  answered : (∀ e ∈ added, e.isAnswered = true) → r = .ok ()

theorem Closing.not_isFailedFetch {a : RowStream} {failed : Bool} {r : Except Failure Unit}
    {added : List Event} (h : Closing a failed r added) : ∀ e ∈ added, e.isFailedFetch = false := by
  obtain ⟨finish, told, rfl, hfinish, htold⟩ := h.parts
  refine List.forall_mem_append.mpr ⟨?_, ?_⟩
  · rcases hfinish with - | ⟨-, reply⟩
    · exact List.forall_mem_nil _
    · cases failed <;> exact List.forall_mem_singleton.mpr rfl
  · generalize a.onClose = onClose at htold
    cases htold <;> simp [Event.isFailedFetch]

/-- A stream once it was closed. -/
def ended (a : RowStream) : RowStream := { a.shut with ownsTransaction := false }

open Change

/-! ## Closing -/

section

variable {σ : Type} [Backend σ] {a : RowStream} {s : Session σ}

theorem adds_call (c : Call) (a : RowStream) (s : Session σ) :
    (On.beside (App.call c) : On RowStream σ c.Reply).Adds (fun u ↦ u.2) (a, s) fun r u added ↦
      u.1 = a ∧ added = [.called c r.toOption] :=
  (App.adds_call c s).onSecond.mono fun _ _ _ h ↦ ⟨h.1, h.2.2⟩

theorem exists_of_answered {c : Call} {r : Except Failure c.Reply}
    (h : ∀ e ∈ [Event.called c r.toOption], e.isAnswered = true) : ∃ reply, r = .ok reply := by
  cases r with
  | ok reply => exact ⟨reply, rfl⟩
  | error e => exact nomatch h _ (List.mem_singleton_self _)

theorem adds_finishTransaction (failed : Bool) (a : RowStream) (s : Session σ) :
    (finishTransaction failed : On RowStream σ Unit).Adds (fun u ↦ u.2) (a, s) fun r u added ↦
      u.1 = a ∧ Finish a.conn failed (a.ownsTransaction = true) added ∧
        ((∀ e ∈ added, e.isAnswered = true) → r = .ok ()) := by
  refine Adds.object ?_
  dsimp only
  by_cases howns : a.ownsTransaction = true
  · rw [if_pos howns]
    cases failed with
    | false =>
      refine (adds_call (.commitTransaction a.conn) a s).mono fun r u added h ↦ ?_
      obtain ⟨hobject, rfl⟩ := h
      exact ⟨hobject, .owned howns _, fun hall ↦ (exists_of_answered hall).elim fun _ h ↦ h⟩
    | true =>
      refine (adds_call (.rollbackTransaction a.conn) a s).mono fun r u added h ↦ ?_
      obtain ⟨hobject, rfl⟩ := h
      exact ⟨hobject, .owned howns _, fun hall ↦ (exists_of_answered hall).elim fun _ h ↦ h⟩
  · rw [if_neg howns]
    exact .ok ⟨rfl, .joined howns, fun _ ↦ rfl⟩

/-- A connection is given back by one call, or discarded by two of them. -/
theorem adds_release (c : Connection) (failed : Bool) (s : Session σ) :
    (App.release c failed).Adds id s fun r _ added ↦
      Told c .release failed added ∧ ((∀ e ∈ added, e.isAnswered = true) → r = .ok ()) := by
  cases failed with
  | false =>
    refine (App.adds_call (.close c) s).mono fun r _ added h ↦ ?_
    obtain ⟨-, rfl⟩ := h
    exact ⟨.released _, fun hall ↦ (exists_of_answered hall).elim fun _ h ↦ h⟩
  | true =>
    refine (App.adds_call (.invalidate c) s).bind (fun _ t added h ↦ ?_) fun e _ added h ↦ ?_
    · obtain ⟨-, rfl⟩ := h
      refine (App.adds_call (.close c) t).mono fun r _ more h ↦ ?_
      obtain ⟨-, rfl⟩ := h
      refine ⟨.discarded _, fun hall ↦ ?_⟩
      exact (exists_of_answered (List.forall_mem_cons.mp hall).2).elim fun _ h ↦ h
    · obtain ⟨-, rfl⟩ := h
      exact ⟨.kept, fun hall ↦ nomatch hall _ (List.mem_singleton_self _)⟩

theorem adds_announce (failed : Bool) (a : RowStream) (s : Session σ) :
    (announce failed : On RowStream σ Unit).Adds (fun u ↦ u.2) (a, s) fun r u added ↦
      u.1 = a ∧ Told a.conn a.onClose failed added ∧
        ((∀ e ∈ added, e.isAnswered = true) → r = .ok ()) := by
  refine Adds.object ?_
  dsimp only
  cases a.onClose with
  | nothing => exact .ok ⟨rfl, .nothing failed, fun _ ↦ rfl⟩
  | release => exact (adds_release a.conn failed s).onSecond
  | notify => exact ⟨[.streamClosed failed], rfl, rfl, .notified failed, fun _ ↦ rfl⟩

/-- **Closing** an open stream does what there is to do once, and leaves it closed, even if some of
that fails. -/
theorem adds_close (failed : Bool) (hopen : a.closed = false) (s : Session σ) :
    (close failed : On RowStream σ Unit).Adds (fun u ↦ u.2) (a, s) fun r u added ↦
      u.1 = a.ended ∧ Closing a failed r added := by
  refine Adds.object ?_
  dsimp only
  rw [hopen]
  refine Adds.modify ((adds_finishTransaction failed a.shut s).finally_ fun r u finish h ↦ ?_)
  obtain ⟨b, t⟩ := u
  obtain ⟨rfl, hfinish, hanswered⟩ := h
  refine Adds.modify ((adds_announce failed a.ended t).mono fun r' v told h' ↦ ?_)
  obtain ⟨hobject, htold, hanswered'⟩ := h'
  refine ⟨hobject, ⟨finish, told, rfl, hfinish, htold⟩, fun hall ↦ ?_⟩
  obtain ⟨hall, hall'⟩ := List.forall_mem_append.mp hall
  rw [hanswered hall, hanswered' hall']
  rfl

theorem close_of_closed (failed : Bool) (hclosed : a.closed = true) (s : Session σ) :
    close failed (a, s) = (.ok (), a, s) := by
  show (if a.closed then Change.ok () else _ : On RowStream σ Unit) (a, s) = _
  rw [hclosed]
  rfl

/-! ## Pulling -/

theorem fill_of_not_wantsFetch (h : a.wantsFetch = false) (s : Session σ) :
    fill (a, s) = (.ok (), a, s) := by
  show (if a.wantsFetch then _ else _ : On RowStream σ Unit) (a, s) = _
  rw [h]
  rfl

variable {b : RowStream} {t : Session σ}

theorem pull_of_nil (hfill : fill (a, s) = (.ok (), b, t)) (hbuffer : b.buffer = []) :
    pull (a, s) = (do close false; .fail .ended : On RowStream σ Value) (b, t) := by
  rw [pull, bind_of_ok _ hfill]
  obtain ⟨conn, sql, values, shape, onClose, batchSize, buffer⟩ := b
  obtain rfl : buffer = [] := hbuffer
  rfl

/-- A pull that finds a row hands out what the stream makes of it. -/
theorem pull_of_cons {row : Row} {rest : List Row} {r : Except Failure Value} {u : Session σ}
    (hfill : fill (a, s) = (.ok (), b, t)) (hbuffer : b.buffer = row :: rest)
    (hshape : shapeRow b.shape row t = (r, u)) :
    pull (a, s) = (r, { b with buffer := rest }, u) := by
  rw [pull, bind_of_ok _ hfill]
  obtain ⟨conn, sql, values, shape, onClose, batchSize, buffer⟩ := b
  obtain rfl : buffer = row :: rest := hbuffer
  obtain ⟨rfl, rfl⟩ := Prod.mk.inj hshape
  rfl

theorem pull_of_closed (hclosed : a.closed = true) (hbuffer : a.buffer = []) (s : Session σ) :
    pull (a, s) = (.error .ended, a, s) := by
  have hwants : a.wantsFetch = false := by simp [wantsFetch, hclosed]
  rw [pull_of_nil (fill_of_not_wantsFetch hwants s) hbuffer,
    bind_of_ok _ (close_of_closed false hclosed s)]
  rfl

end

/-! ## While a stream is open -/

/-- Making something of a row does nothing in the database. -/
theorem keeps_shapeRow {σ : Type} (shape : RowShape) (row : Row) :
    Keeps (fun s : Session σ ↦ (s.db, s.events)) (shapeRow shape row) := by
  cases shape with
  | entries => exact Keeps.ok _
  | record type source =>
    refine (Keeps.ofExcept _).bind fun r ↦ Keeps.bind (fun _ ↦ rfl) fun id s ↦ ?_
    rw [App.recordValue, App.withRecord]
    split <;> rfl

variable {σ α : Type} {fresh a b : RowStream} {own : List Event} {failed : Bool}

/-- What holds of a stream that is open, as long as it is: all that it has done is work on its
cursor, and it has a transaction of its own if the driver was in none. -/
structure Working (fresh a : RowStream) (own : List Event) : Prop where
  isOpen : a.closed = false
  conn : a.conn = fresh.conn
  onClose : a.onClose = fresh.onClose
  work : ∀ e ∈ own, e.isWork fresh.conn = true
  owns : a.ownsTransaction = true ↔ Event.free fresh.conn ∈ own

/-- What a stream has done by the time it is closed: it has worked on its cursor, finished the
transaction that it had of its own if the driver was in none, and told whoever made it, in this
order and once each. -/
def ClosedOnce (fresh : RowStream) (failed : Bool) (own : List Event) : Prop :=
  ∃ work finish told, own = work ++ (finish ++ told) ∧
    (∀ e ∈ work, e.isWork fresh.conn = true) ∧
    (failed = false → ∀ e ∈ work, e.isFailedFetch = false) ∧
    Finish fresh.conn failed (Event.free fresh.conn ∈ work) finish ∧
    Told fresh.conn fresh.onClose failed told

/-- What holds of a stream from when it is closed. -/
structure Ended (fresh a : RowStream) (failed : Bool) (own : List Event) : Prop where
  closed : a.closed = true
  buffer : a.buffer = []
  once : ClosedOnce fresh failed own

namespace Working

/-- More work, without looking at the transaction of the driver. -/
theorem work_on {e : Event} (h : Working fresh a own) (hwork : e.isWork fresh.conn = true)
    (hfree : Event.free fresh.conn ≠ e) : Working fresh a (own ++ [e]) where
  isOpen := h.isOpen
  conn := h.conn
  onClose := h.onClose
  work := List.forall_mem_append.mpr ⟨h.work, List.forall_mem_singleton.mpr hwork⟩
  owns := by rw [h.owns, List.mem_append, List.mem_singleton, or_iff_left hfree]

/-- Nothing changes with the rows to hand out, and with getting a cursor. -/
theorem refilled (h : Working fresh a own) (buffer : List Row) (hasCursor exhausted : Bool) :
    Working fresh { a with buffer, hasCursor, exhausted } own :=
  ⟨h.isOpen, h.conn, h.onClose, h.work, h.owns⟩

theorem ended {r : Except Failure Unit} {added : List Event} (h : Working fresh a own)
    (hfetched : failed = false → ∀ e ∈ own, e.isFailedFetch = false)
    (hclosing : Closing a failed r added) : Ended fresh a.ended failed (own ++ added) := by
  obtain ⟨finish, told, rfl, hfinish, htold⟩ := hclosing.parts
  rw [h.conn, h.owns] at hfinish
  rw [h.conn, h.onClose] at htold
  exact ⟨rfl, rfl, own, finish, told, rfl, h.work, hfetched, hfinish, htold⟩

theorem ended_unfailed {r : Except Failure Unit} {added more : List Event}
    (h : Working fresh a (own ++ added)) (hfetched : ∀ e ∈ own ++ added, e.isFailedFetch = false)
    (hclosing : Closing a false r more) :
    Ended fresh a.ended ((added ++ more).any Event.isFailedFetch) (own ++ (added ++ more)) := by
  have hlast := (List.forall_mem_append.mp hfetched).2
  have hany : (added ++ more).any Event.isFailedFetch = false :=
    List.any_eq_false.mpr fun e he ↦ Bool.eq_false_iff.mp
      (List.forall_mem_append.mpr ⟨hlast, hclosing.not_isFailedFetch⟩ e he)
  rw [hany, ← List.append_assoc]
  exact h.ended (fun _ ↦ hfetched) hclosing

end Working

/-- What is work on the cursor of any open stream, as far as it gets, and fetches nothing in vain.
-/
def Works (fresh : RowStream) (x : On RowStream σ α) : Prop :=
  ∀ a s own, Working fresh a own → x.Adds (fun u ↦ u.2) (a, s) fun _ u added ↦
    Working fresh u.1 (own ++ added) ∧ ∀ e ∈ added, e.isFailedFetch = false

namespace Works

variable {β : Type} {x : On RowStream σ α}

theorem fail (e : Failure) : Works fresh (Change.fail e : On RowStream σ α) := by
  intro a s own h
  refine .fail ⟨?_, List.forall_mem_nil _⟩
  rwa [List.append_nil]

theorem bind {f : α → On RowStream σ β} (hx : Works fresh x) (hf : ∀ v, Works fresh (f v)) :
    Works fresh (x >>= f) := by
  intro a s own h
  refine (hx a s own h).bind (fun v u added hu ↦ ?_) fun _ _ _ hu ↦ hu
  refine (hf v u.1 u.2 (own ++ added) hu.1).mono fun _ w more hw ↦ ⟨?_, ?_⟩
  · rw [← List.append_assoc]
    exact hw.1
  · exact List.forall_mem_append.mpr ⟨hu.2, hw.2⟩

/-- What is done with the stream as it is, which keeps its connection. -/
theorem object {f : RowStream → On RowStream σ β}
    (hf : ∀ a, a.conn = fresh.conn → Works fresh (f a)) : Works fresh (On.object >>= f) :=
  fun a s own h ↦ hf a h.conn a s own h

theorem call [Backend σ] {c : Call} (h : ∀ reply, (Event.called c reply).isWork fresh.conn = true ∧
    Event.free fresh.conn ≠ .called c reply ∧ (Event.called c reply).isFailedFetch = false) :
    Works fresh (On.beside (App.call c) : On RowStream σ c.Reply) := by
  intro a s own hworking
  refine (adds_call c a s).mono fun r u added hu ↦ ?_
  obtain ⟨hobject, rfl⟩ := hu
  obtain ⟨hwork, hfree, hfetched⟩ := h r.toOption
  exact ⟨hobject ▸ hworking.work_on hwork hfree, List.forall_mem_singleton.mpr hfetched⟩

end Works

variable [Backend σ]

/-- Once the driver has told that it is in no transaction, the stream has one of its own, whether or
not it can be started. -/
theorem adds_ownTransaction (h : Working fresh a own) (s : Session σ) :
    (do On.own (Change.modify fun a : RowStream ↦ { a with ownsTransaction := true })
        On.beside (App.call (.startTransaction fresh.conn)) : On RowStream σ Unit).Adds
      (fun u ↦ u.2) (a, s) fun _ u added ↦
        Working fresh u.1 (own ++ (.free fresh.conn :: added)) ∧
          ∀ e ∈ added, e.isFailedFetch = false := by
  refine Adds.modify ((adds_call _ _ s).mono fun r u added hu ↦ ?_)
  obtain ⟨hobject, rfl⟩ := hu
  have hwork : ∀ e ∈ [Event.free fresh.conn, .called (.startTransaction fresh.conn) r.toOption],
      e.isWork fresh.conn = true :=
    List.forall_mem_cons.mpr
      ⟨Event.isWork_free _, List.forall_mem_singleton.mpr (beq_self_eq_true _)⟩
  rw [hobject]
  refine ⟨⟨h.isOpen, h.conn, h.onClose, List.forall_mem_append.mpr ⟨h.work, hwork⟩, ?_⟩, ?_⟩
  · exact iff_of_true rfl (List.mem_append_right _ List.mem_cons_self)
  · exact List.forall_mem_singleton.mpr rfl

theorem works_joinOrStart : Works fresh (do
    let busy : Bool ← On.beside (App.call (.driverInTransaction fresh.conn))
    if !busy then
      On.own (Change.modify fun a ↦ { a with ownsTransaction := true })
      On.beside (App.call (.startTransaction fresh.conn)) : On RowStream σ Unit) := by
  intro a s own h
  have hother {reply : Option Bool} (hreply : reply ≠ some false) :
      Working fresh a (own ++ [.called (.driverInTransaction fresh.conn) reply]) :=
    h.work_on (beq_self_eq_true _) (Event.free_ne hreply)
  refine (adds_call (.driverInTransaction fresh.conn) a s).bind (fun busy u added hu ↦ ?_)
    fun e u added hu ↦ ?_
  · obtain ⟨b, t⟩ := u
    obtain ⟨rfl, rfl⟩ := hu
    rcases (busy : Bool) with _ | _
    · refine (adds_ownTransaction h t).mono fun _ w more hw ↦ ⟨hw.1, ?_⟩
      exact List.forall_mem_cons.mpr ⟨rfl, hw.2⟩
    · exact .ok ⟨hother nofun, List.forall_mem_singleton.mpr rfl⟩
  · obtain ⟨hobject, rfl⟩ := hu
    exact ⟨hobject ▸ hother nofun, List.forall_mem_singleton.mpr rfl⟩

/-- **Starting a transaction** for the cursor is work on it, wherever that fails. -/
theorem works_startTransaction : Works fresh (startTransaction : On RowStream σ Unit) := by
  refine .object fun a hconn ↦ ?_
  rw [hconn]
  refine Works.bind (.call fun _ ↦ ⟨beq_self_eq_true _, nofun, rfl⟩) fun present ↦ ?_
  rcases (present : Bool) with _ | _
  · exact .fail .missingPart
  · exact works_joinOrStart

theorem guarded_of_ok {x : On RowStream σ α} {v : α} {u w : RowStream × Session σ}
    (h : x u = (.ok v, w)) : guarded x u = (.ok v, w) := by
  rw [guarded, bind_of_ok _ (attempt_apply _ _), mapFailure_apply, h]
  rfl

theorem guarded_of_error {x : On RowStream σ α} {e : Failure} {u w : RowStream × Session σ}
    (h : x u = (.error e, w)) :
    guarded x u = (do close true; .fail e.recast : On RowStream σ α) w := by
  rw [guarded, bind_of_ok _ (attempt_apply _ _), mapFailure_apply, h]
  rfl

theorem guarded_eq_ok {x : On RowStream σ α} {v : α} {u w : RowStream × Session σ}
    (h : guarded x u = (.ok v, w)) : x u = (.ok v, w) := by
  rcases hx : x u with ⟨e | v', u'⟩
  · rw [guarded_of_error hx] at h
    obtain ⟨_, _, -, hfail⟩ := bind_eq_ok.mp h
    exact nomatch hfail
  · rw [← h, guarded_of_ok hx]

/-- **Guarded** work that fails closes the stream by a failure. -/
theorem adds_guarded {x : On RowStream σ α} {s : Session σ}
    (post : Except Failure α → RowStream → List Event → Prop)
    (hx : x.Adds (fun u ↦ u.2) (a, s) fun r u added ↦
      Working fresh u.1 (own ++ added) ∧ post r u.1 added) :
    (guarded x).Adds (fun u ↦ u.2) (a, s) fun r u added ↦
      (∃ v, r = .ok v ∧ Working fresh u.1 (own ++ added) ∧ post (.ok v) u.1 added) ∨
      (∃ e, r = .error e) ∧ Ended fresh u.1 true (own ++ added) ∧
        ∃ e b worked, worked <+: added ∧ post (.error e) b worked := by
  refine (hx.mapped Failure.recast).attempt_bind fun r u added h ↦ ?_
  obtain ⟨r', rfl, hworking, hpost⟩ := h
  rcases r' with e | v
  · have hclose := adds_close true hworking.isOpen u.2
    refine hclose.bind (fun _ w more hw ↦ ?_) fun e' w more hw ↦ ?_
    · refine .fail (.inr ⟨⟨_, rfl⟩, ?_, e, u.1, added, List.prefix_append _ _, hpost⟩)
      rw [List.append_nil, ← List.append_assoc, hw.1]
      exact hworking.ended nofun hw.2
    · refine .inr ⟨⟨e', rfl⟩, ?_, e, u.1, added, List.prefix_append _ _, hpost⟩
      rw [← List.append_assoc, hw.1]
      exact hworking.ended nofun hw.2
  · exact .ok (.inl ⟨v, rfl, (List.append_nil added).symm ▸ ⟨hworking, hpost⟩⟩)

/-! ## The life of a stream -/

/-- What holds of a stream with whether it was closed, and by a failure. An open one has its cursor,
and could fetch whatever it wanted. -/
inductive Lived (fresh : RowStream) (own : List Event) : RowStream → Option Bool → Prop where
  | working {a : RowStream} (h : Working fresh a own) (hcursor : a.hasCursor = true)
      (hfetched : ∀ e ∈ own, e.isFailedFetch = false) : Lived fresh own a none
  | ended {a : RowStream} {failed : Bool} (h : Ended fresh a failed own) :
      Lived fresh own a (some failed)

/-- Whether a stream is closed once it was opened, and by a failure. -/
def afterOpening : Except Failure Unit → Option Bool
  | .ok _ => none
  | .error _ => some true

/-- **Opening** a stream that fails closes it by a failure. -/
theorem adds_open (h : Working fresh a []) (s : Session σ) :
    (open_ : On RowStream σ Unit).Adds (fun u ↦ u.2) (a, s) fun r u added ↦
      Lived fresh added u.1 (afterOpening r) := by
  have hcursor : Works fresh (do
      startTransaction
      On.beside (App.call (.openCursor fresh.conn a.sql a.values)) : On RowStream σ Unit) :=
    works_startTransaction.bind fun _ ↦ .call fun _ ↦ ⟨beq_self_eq_true _, nofun, rfl⟩
  have hopen : (do
      startTransaction
      On.beside (App.call (.openCursor a.conn a.sql a.values))
      On.own (Change.modify fun a : RowStream ↦ { a with hasCursor := true }) :
        On RowStream σ Unit).Adds (fun u ↦ u.2)
      (a, { s with log := s.log ++ [.streaming a.sql a.values] }) fun r u added ↦
        Working fresh u.1 ([] ++ added) ∧
          ((∃ v, r = .ok v) → u.1.hasCursor = true) ∧ ∀ e ∈ added, e.isFailedFetch = false := by
    rw [h.conn, ← bind_assoc]
    refine (hcursor a _ [] h).bind (fun _ u added hu ↦ .of_events rfl ?_) fun _ _ _ hu ↦ ?_
    · rw [List.append_nil]
      obtain ⟨hworking, hfetched⟩ := hu
      exact ⟨hworking.refilled _ true _, fun _ ↦ rfl, hfetched⟩
    · exact ⟨hu.1, nofun, hu.2⟩
  refine Adds.object (.tell (.mono (adds_guarded (fun r b added ↦
    ((∃ v, r = .ok v) → b.hasCursor = true) ∧ ∀ e ∈ added, e.isFailedFetch = false) hopen)
    fun r u added hu ↦ ?_))
  rcases hu with ⟨v, rfl, hworking, hpost⟩ | ⟨⟨e, rfl⟩, hended, -⟩
  · exact .working hworking (hpost.1 ⟨v, rfl⟩) hpost.2
  · exact .ended hended

omit [Backend σ] in
theorem receive_eq_ok {batch : List Row} : a.receive batch = .ok b ↔
    ∃ short, a.batchSize.exceeds batch.length = .ok short ∧
      b = { a with buffer := a.buffer ++ batch, exhausted := a.exhausted || short } := by
  rw [receive, Except.bind_eq_ok]
  simp [eq_comm]

omit [Backend σ] in
theorem own_receive_apply (batch : List Row) (a : RowStream) (s : Session σ) :
    (On.own (do Change.set (← Change.ofExcept ((← Change.get).receive batch))) :
      On RowStream σ Unit) (a, s) =
        match a.receive batch with
        | .ok b => (.ok (), b, s)
        | .error e => (.error e, a, s) := by
  show On.own (Change.ofExcept (a.receive batch) >>= Change.set) (a, s) = _
  cases a.receive batch <;> rfl

theorem adds_fetch (h : Working fresh a own) (s : Session σ) :
    (guarded (On.beside (App.call (.fetch a.conn a.batchSize))) :
      On RowStream σ (List Row)).Adds (fun u ↦ u.2) (a, s) fun r u added ↦
        (∃ batch, r = .ok batch ∧ u.1 = a ∧ Working fresh a (own ++ added) ∧
          ∀ e ∈ added, e.isFailedFetch = false) ∨
        (∃ e, r = .error e) ∧ Ended fresh u.1 true (own ++ added) ∧
          ∃ e ∈ added, e.isFailedFetch = true := by
  have hcall : (On.beside (App.call (.fetch a.conn a.batchSize)) :
      On RowStream σ (List Row)).Adds (fun u ↦ u.2) (a, s) fun r u added ↦
        Working fresh u.1 (own ++ added) ∧
          u.1 = a ∧ added = [.called (.fetch a.conn a.batchSize) r.toOption] := by
    refine (adds_call (.fetch a.conn a.batchSize) a s).mono fun r u added hu ↦ ?_
    obtain ⟨hobject, rfl⟩ := hu
    have hwork : Working fresh a (own ++ [.called (.fetch a.conn a.batchSize) r.toOption]) :=
      h.work_on (h.conn ▸ beq_self_eq_true _) nofun
    exact ⟨hobject ▸ hwork, hobject, rfl⟩
  refine (adds_guarded
    (fun r b added ↦ b = a ∧ added = [.called (.fetch a.conn a.batchSize) r.toOption])
    hcall).mono fun r u added hu ↦ ?_
  rcases hu with ⟨batch, rfl, hworking, hobject, rfl⟩ | ⟨hfailed, hended, _, _, _, hprefix, -, rfl⟩
  · exact .inl ⟨batch, rfl, hobject, hobject ▸ hworking, List.forall_mem_singleton.mpr rfl⟩
  · exact .inr ⟨hfailed, hended, _, hprefix.mem (List.mem_singleton_self _), rfl⟩

/-- **Filling** the rows to hand out leaves a stream open, unless fetching them fails. -/
theorem adds_fill (h : Working fresh a own) (hcursor : a.hasCursor = true)
    (hfetched : ∀ e ∈ own, e.isFailedFetch = false) (s : Session σ) :
    (fill : On RowStream σ Unit).Adds (fun u ↦ u.2) (a, s) fun r u added ↦
      (Lived fresh (own ++ added) u.1 none ∧ ∀ e ∈ added, e.isFailedFetch = false) ∨
      (∃ e, r = .error e) ∧ Ended fresh u.1 true (own ++ added) ∧
        ∃ e ∈ added, e.isFailedFetch = true := by
  refine Adds.object ?_
  dsimp only
  by_cases hwants : a.wantsFetch = true
  · rw [if_pos hwants, if_pos hcursor]
    refine (adds_fetch h s).bind (fun batch u added hu ↦ ?_) fun e u added hu ↦ ?_
    · rcases hu with ⟨_, -, hobject, hworking, hlast⟩ | ⟨⟨e, hfailed⟩, -⟩
      · obtain ⟨b, t⟩ := u
        obtain rfl : b = a := hobject
        have hall := List.forall_mem_append.mpr ⟨hfetched, hlast⟩
        refine .of_events ?_ ?_ <;> rw [own_receive_apply]
        · split <;> rfl
        · rw [List.append_nil]
          refine .inl ⟨?_, hlast⟩
          rcases hreceive : b.receive batch with e | c
          · exact .working hworking hcursor hall
          · obtain ⟨short, -, rfl⟩ := receive_eq_ok.mp hreceive
            exact .working (hworking.refilled _ _ _) hcursor hall
      · exact nomatch hfailed
    · rcases hu with ⟨_, hok, -⟩ | ⟨-, hended, hlast⟩
      · exact nomatch hok
      · exact .inr ⟨⟨e, rfl⟩, hended, hlast⟩
  · rw [if_neg hwants]
    refine .ok (.inl ⟨?_, List.forall_mem_nil _⟩)
    rw [List.append_nil]
    exact .working h hcursor hfetched

/-! ## Courses of streams -/

/-- What the user of a stream asks of it: the next row, or to be closed, by a failure if the user
left it by one. -/
inductive Demand where
  | pull
  | close (failed : Bool)

namespace Demand

def change : Demand → On RowStream σ Unit
  | .pull => do let _ ← RowStream.pull; .ok ()
  | .close failed => RowStream.close failed

/-- Whether a demand failed that did such things: a batch could not be fetched, or the user left the
stream by a failure. -/
def fails : Demand → List Event → Bool
  | .pull, added => added.any Event.isFailedFetch
  | .close failed, _ => failed

end Demand

/-- A stream after it was opened and any demands were made, each in any session and whether or not
they failed, with whether it was closed, and by a failure, and with all that it has done. -/
inductive Course (σ : Type) [Backend σ] (fresh : RowStream) :
    RowStream → Option Bool → List Event → Prop where
  | opened (s : Session σ) {added : List Event}
      (hadded : (open_ (fresh, s)).2.2.events = s.events ++ added) :
      Course σ fresh (open_ (fresh, s)).2.1 (afterOpening (open_ (fresh, s)).1) added
  | asked {a : RowStream} {closing : Option Bool} {own : List Event}
      (h : Course σ fresh a closing own) (d : Demand) (s : Session σ) {added : List Event}
      (hadded : (d.change (a, s)).2.2.events = s.events ++ added) :
      Course σ fresh (d.change (a, s)).2.1
        (closing <|> if (d.change (a, s)).2.1.closed then some (d.fails added) else none)
        (own ++ added)

/-- **A pull** leaves the stream open, or closes it, by a failure if a batch cannot be fetched. -/
theorem adds_pull (h : Working fresh a own) (hcursor : a.hasCursor = true)
    (hfetched : ∀ e ∈ own, e.isFailedFetch = false) (s : Session σ) :
    (pull : On RowStream σ Value).Adds (fun u ↦ u.2) (a, s) fun _ u added ↦
      Lived fresh (own ++ added) u.1 none ∨
      Ended fresh u.1 (added.any Event.isFailedFetch) (own ++ added) := by
  refine (adds_fill h hcursor hfetched s).bind (fun _ u added hu ↦ ?_) fun e u added hu ↦ ?_
  · obtain ⟨b, t⟩ := u
    rcases hu with ⟨⟨hworking, hcursor, hall⟩, hlast⟩ | ⟨⟨e, hfailed⟩, -⟩
    · refine Adds.object ?_
      dsimp only
      split
      · refine (adds_close false hworking.isOpen t).bind (fun _ v more hv ↦ .fail (.inr ?_))
          fun e v more hv ↦ .inr ?_
        · rw [hv.1, List.append_nil]
          exact hworking.ended_unfailed hall hv.2
        · rw [hv.1]
          exact hworking.ended_unfailed hall hv.2
      · rename_i row rest hbuffer
        refine Adds.modify (.of_events ?_ (.inl ?_))
        · exact congrArg Prod.snd (keeps_shapeRow b.shape row t)
        · rw [List.append_nil]
          exact .working (hworking.refilled rest _ _) hcursor hall
    · exact nomatch hfailed
  · rcases hu with ⟨hlived, -⟩ | ⟨-, hended, hlast⟩
    · exact .inl hlived
    · rw [← List.any_eq_true] at hlast
      exact .inr (hlast ▸ hended)

theorem Demand.change_of_closed (d : Demand) (hclosed : a.closed = true) (hbuffer : a.buffer = [])
    (s : Session σ) : d.change (a, s) = ((d.change (a, s)).1, a, s) := by
  rcases d with _ | failed
  · rw [Demand.change, bind_of_error _ (pull_of_closed hclosed hbuffer s)]
  · rw [Demand.change, close_of_closed failed hclosed]

theorem Lived.closed_eq {closing : Option Bool} (h : Lived fresh own a closing) :
    a.closed = closing.isSome := by
  rcases h with ⟨h, -, -⟩ | h
  · exact h.isOpen
  · exact h.closed

theorem Lived.change {closing : Option Bool} (h : Lived fresh own a closing) (d : Demand)
    (s : Session σ) : d.change.Adds (fun u ↦ u.2) (a, s) fun _ u added ↦
      Lived fresh (own ++ added) u.1
        (closing <|> if u.1.closed then some (d.fails added) else none) := by
  cases h with
  | working hworking hcursor hfetched =>
    -- an open stream stays open, or is closed by this demand
    have hlived {b : RowStream} {added : List Event} (hb : Lived fresh (own ++ added) b none ∨
        Ended fresh b (d.fails added) (own ++ added)) :
        Lived fresh (own ++ added) b (if b.closed then some (d.fails added) else none) := by
      rcases hb with hb | hb
      · rwa [hb.closed_eq]
      · rw [hb.closed]
        exact .ended hb
    rcases d with _ | failed
    · refine (adds_pull hworking hcursor hfetched s).bind (fun _ u added hu ↦ .ok ?_)
        fun _ u added hu ↦ hlived hu
      rw [List.append_nil]
      exact hlived hu
    · refine (adds_close failed hworking.isOpen s).mono fun r u added hu ↦ hlived (.inr ?_)
      rw [hu.1]
      exact hworking.ended (fun _ ↦ hfetched) hu.2
  | ended hended =>
    refine .of_events ?_ ?_ <;> rw [d.change_of_closed hended.closed hended.buffer]
    rw [List.append_nil]
    exact .ended hended

/-- A stream as it was made, with nothing done yet. -/
structure IsNew (a : RowStream) : Prop where
  buffer : a.buffer = []
  hasCursor : a.hasCursor = false
  ownsTransaction : a.ownsTransaction = false
  exhausted : a.exhausted = false
  closed : a.closed = false

theorem IsNew.working (h : fresh.IsNew) : Working fresh fresh [] where
  isOpen := h.closed
  conn := rfl
  onClose := rfl
  work := List.forall_mem_nil _
  owns := by simp [h.ownsTransaction]

theorem Course.lived {closing : Option Bool} (hnew : fresh.IsNew)
    (h : Course σ fresh a closing own) : Lived fresh own a closing := by
  induction h with
  | opened s hadded => exact (adds_open hnew.working s).of_eq rfl hadded
  | asked h d s hadded ih => exact (ih.change d s).of_eq rfl hadded

/-- **A stream closes cleanly and once.** After any demands on it, an opened stream is closed iff
opening it failed or one of them closed it. All that it has done by then is work on its cursor, and
if it is closed then after that, once each, the end of its own transaction and the word to whoever
made it, both told whether it was closed by a failure. Nothing is done to a closed stream. -/
theorem closes_once {closing : Option Bool} (hnew : fresh.IsNew)
    (h : Course σ fresh a closing own) :
    a.closed = closing.isSome ∧
    (closing = none →
      ∀ e ∈ own, e.isWork fresh.conn = true ∧ e.isFailedFetch = false) ∧
    (∀ failed, closing = some failed → ClosedOnce fresh failed own ∧ ∀ s : Session σ,
      pull (a, s) = (.error .ended, a, s) ∧ ∀ failed', close failed' (a, s) = (.ok (), a, s)) := by
  have hlived := h.lived hnew
  refine ⟨hlived.closed_eq, ?_, ?_⟩
  · rintro rfl
    obtain ⟨hworking, -, hfetched⟩ := hlived
    exact fun e he ↦ ⟨hworking.work e he, hfetched e he⟩
  · rintro failed rfl
    obtain - | hended := hlived
    exact ⟨hended.once, fun s ↦ ⟨pull_of_closed hended.closed hended.buffer s,
      fun failed' ↦ close_of_closed failed' hended.closed s⟩⟩

/-- A stream that tells when it is closed. -/
def notifying : RowStream where
  conn := ⟨"c"⟩
  sql := "SELECT 1"
  values := []
  shape := .entries
  onClose := .notify
  batchSize := defaultBatchSize

/-- A session with a driver that can neither fetch nor roll back. -/
def brokenCursor : Session Scripted where
  db := {
    connections := [("c", { driver :=
      { failures := [("fetch", Scripted.exhausted), ("tx.rollback", Scripted.exhausted)] } })] }

/-- That stream in that session once it was opened, pulled from and closed. -/
def brokenDown : RowStream × Session Scripted :=
  let opened := open_ (notifying, brokenCursor)
  let pulled := Demand.pull.change opened.2
  ((Demand.close false).change pulled.2).2

/-- What that stream has done: the fetch and the rollback both fail. -/
def breakdown : List Event :=
  let c : Connection := ⟨"c"⟩
  [.called (.driver c) (some true), .free c, .called (.startTransaction c) (some ()),
    .called (.openCursor c "SELECT 1" []) (some ()), .called (.fetch c defaultBatchSize) none,
    .called (.rollbackTransaction c) none, .streamClosed true]

theorem closes_once_brokenDown : notifying.IsNew ∧ brokenDown.2.events = breakdown ∧
    Course Scripted notifying brokenDown.1 (some true) breakdown ∧ brokenDown.1.closed = true ∧
    ClosedOnce notifying true breakdown := by
  have hnew : notifying.IsNew := ⟨rfl, rfl, rfl, rfl, rfl⟩
  have hopened : Course Scripted notifying _ none (breakdown.take 4) := .opened brokenCursor rfl
  have hpulled : Course Scripted notifying _ (some true) breakdown :=
    hopened.asked .pull (open_ (notifying, brokenCursor)).2.2 rfl
  have hclosed : Course Scripted notifying brokenDown.1 (some true) breakdown :=
    hpulled.asked (.close false) _ (List.append_nil _).symm
  obtain ⟨hisClosed, -, hended⟩ := closes_once hnew hclosed
  exact ⟨hnew, rfl, hclosed, hisClosed, (hended true rfl).1⟩

end RowStream

end Rowmap
