import Rowmap.Proofs.Database.Transaction
import Rowmap.Proofs.Stream.Closing

/-!
# Which transactions streams finish

A stream that has a transaction of its own finishes it when it is closed. It has one from when the
driver tells that it is in none, which is before the transaction is started. So as long as starting
it succeeds, only a started transaction is finished; where starting it fails, one that was never
started is rolled back, and how that goes decides what the caller is told.

`Begun` is the invariant of a course: either nothing has failed to start, and what was finished was
started before, or the opening failed at the start and nothing else has happened since.
-/

namespace Rowmap

namespace Event

def started (c : Connection) : Event := .called (.startTransaction c) (some ())

def unstarted (c : Connection) : Event := .called (.startTransaction c) none

/-- Whether an event starts a transaction for a cursor, or tries to. -/
def isStarting : Event → Bool
  | .called (.startTransaction _) _ => true
  | _ => false

/-- Whether an event finishes a transaction for a cursor, or tries to. -/
def isFinishing : Event → Bool
  | .called (.commitTransaction _) _ | .called (.rollbackTransaction _) _ => true
  | _ => false

end Event

def FinishesStarted (c : Connection) (own : List Event) : Prop :=
  ∀ before x after, own = before ++ x :: after → x.isFinishing = true → Event.started c ∈ before

theorem FinishesStarted.of_none {c : Connection} {own : List Event}
    (h : ∀ x ∈ own, x.isFinishing = false) : FinishesStarted c own := by
  rintro before x after rfl hx
  exact absurd (hx.symm.trans (h x (List.mem_append_right _ List.mem_cons_self))) Bool.noConfusion

theorem FinishesStarted.append {c : Connection} {own added : List Event}
    (h : FinishesStarted c own)
    (hadded : ∀ x ∈ added, x.isFinishing = true → Event.started c ∈ own) :
    FinishesStarted c (own ++ added) := by
  intro before x after heq hx
  rcases List.append_eq_append_iff.mp heq with ⟨more, rfl, rfl⟩ | ⟨more, rfl, hmore⟩
  · exact List.mem_append_left _ (hadded x (List.mem_append_right _ List.mem_cons_self) hx)
  · rcases more with _ | ⟨y, more⟩
    · rw [List.append_nil] at hadded
      obtain rfl : x :: after = added := hmore
      exact hadded x List.mem_cons_self hx
    · obtain ⟨rfl, -⟩ := List.cons.inj hmore
      exact h before x more rfl hx

namespace RowStream

open Change

theorem Told.plain {c : Connection} {onClose : OnClose} {failed : Bool} {told : List Event}
    (h : Told c onClose failed told) :
    ∀ x ∈ told, x.isStarting = false ∧ x.isFinishing = false := by
  cases h <;> simp [Event.isStarting, Event.isFinishing]

theorem Finish.plain {c : Connection} {failed : Bool} {owns : Prop} {finish : List Event}
    (h : Finish c failed owns finish) :
    ∀ x ∈ finish, x.isStarting = false ∧ (x.isFinishing = true → owns) := by
  rcases h with - | ⟨howns, reply⟩
  · exact List.forall_mem_nil _
  · refine List.forall_mem_singleton.mpr ⟨?_, fun _ ↦ howns⟩
    cases failed <;> rfl

theorem Closing.plain {a : RowStream} {failed : Bool} {r : Except Failure Unit}
    {added : List Event} (h : Closing a failed r added) :
    ∀ x ∈ added, x.isStarting = false ∧ (x.isFinishing = true → a.ownsTransaction = true) := by
  obtain ⟨finish, told, rfl, hfinish, htold⟩ := h.parts
  refine List.forall_mem_append.mpr ⟨hfinish.plain, fun x hx ↦ ?_⟩
  obtain ⟨hstarting, hfinishing⟩ := htold.plain x hx
  exact ⟨hstarting, fun h ↦ absurd (h.symm.trans hfinishing) Bool.noConfusion⟩

/-! ## Later demands -/

/-- What starts no transaction for a cursor, and finishes none but that which the stream has. -/
def FinishesOwn {σ α : Type} (x : On RowStream σ α) : Prop :=
  ∀ a s, x.Adds (·.2) (a, s) fun _ u added ↦
    (u.1.ownsTransaction = true → a.ownsTransaction = true) ∧
      ∀ x ∈ added, x.isStarting = false ∧ (x.isFinishing = true → a.ownsTransaction = true)

namespace FinishesOwn

variable {σ α β : Type} {x : On RowStream σ α}

theorem of_events (hevents : ∀ u, (x u).2.2.events = u.2.events)
    (howns : ∀ u, (x u).2.1.ownsTransaction = u.1.ownsTransaction) : FinishesOwn x := by
  intro a s
  refine .of_events (hevents (a, s)) ⟨fun h ↦ ?_, List.forall_mem_nil _⟩
  exact (howns (a, s)).symm.trans h

theorem ok (v : α) : FinishesOwn (Change.ok v : On RowStream σ α) :=
  of_events (fun _ ↦ rfl) fun _ ↦ rfl

theorem fail (e : Failure) : FinishesOwn (Change.fail e : On RowStream σ α) :=
  of_events (fun _ ↦ rfl) fun _ ↦ rfl

theorem bind {f : α → On RowStream σ β} (hx : FinishesOwn x) (hf : ∀ v, FinishesOwn (f v)) :
    FinishesOwn (x >>= f) := by
  intro a s
  refine (hx a s).bind (fun v u added hu ↦ ?_) fun _ _ _ hu ↦ hu
  refine (hf v u.1 u.2).mono fun _ w more hw ↦ ⟨hu.1 ∘ hw.1, ?_⟩
  refine List.forall_mem_append.mpr ⟨hu.2, fun y hy ↦ ?_⟩
  exact ⟨(hw.2 y hy).1, fun h ↦ hu.1 ((hw.2 y hy).2 h)⟩

theorem attempt (hx : FinishesOwn x) : FinishesOwn (Change.attempt x) := hx

theorem mapFailure (f : Failure → Failure) (hx : FinishesOwn x) :
    FinishesOwn (Change.mapFailure f x) := hx

theorem object {f : RowStream → On RowStream σ β} (hf : ∀ a, FinishesOwn (f a)) :
    FinishesOwn (On.object >>= f) := fun a s ↦ hf a a s

end FinishesOwn

section

variable {σ α : Type} [Backend σ]

theorem finishesOwn_call {c : Call} (h : ∀ reply, (Event.called c reply).isStarting = false ∧
    (Event.called c reply).isFinishing = false) :
    FinishesOwn (On.beside (App.call c) : On RowStream σ c.Reply) := by
  intro a s
  refine (adds_call c a s).mono fun r u added hu ↦ ?_
  obtain ⟨hobject, rfl⟩ := hu
  refine ⟨fun howns ↦ hobject ▸ howns, List.forall_mem_singleton.mpr ⟨(h _).1, fun hfinishing ↦ ?_⟩⟩
  exact absurd (hfinishing.symm.trans (h _).2) Bool.noConfusion

theorem finishesOwn_close (failed : Bool) : FinishesOwn (close failed : On RowStream σ Unit) := by
  intro a s
  rcases hclosed : a.closed with _ | _
  · refine (adds_close failed hclosed s).mono fun r u added hu ↦ ⟨fun howns ↦ ?_, hu.2.plain⟩
    rw [hu.1] at howns
    cases howns
  · refine .of_events ?_ ?_ <;> rw [close_of_closed failed hclosed]
    exact ⟨id, List.forall_mem_nil _⟩

theorem finishesOwn_guarded {x : On RowStream σ α} (hx : FinishesOwn x) :
    FinishesOwn (guarded x) := by
  refine (hx.mapFailure _).attempt.bind fun r ↦ ?_
  rcases r with e | v
  · exact (finishesOwn_close true).bind fun _ ↦ .fail e
  · exact .ok v

theorem finishesOwn_fill : FinishesOwn (fill : On RowStream σ Unit) := by
  refine .object fun a ↦ ?_
  split
  · refine (finishesOwn_guarded ?_).bind fun batch ↦ ?_
    · split
      · exact finishesOwn_call fun _ ↦ ⟨rfl, rfl⟩
      · exact .fail _
    · refine .of_events (fun u ↦ ?_) fun u ↦ ?_ <;> rw [own_receive_apply]
      · split <;> rfl
      · rcases hreceive : u.1.receive batch with e | b
        · rfl
        · obtain ⟨short, -, rfl⟩ := receive_eq_ok.mp hreceive
          rfl
  · exact .ok ()

/-- **A pull** finishes at most what the stream has of its own. -/
theorem finishesOwn_pull : FinishesOwn (pull : On RowStream σ Value) := by
  refine finishesOwn_fill.bind fun _ ↦ .object fun a ↦ ?_
  split
  · exact (finishesOwn_close false).bind fun _ ↦ .fail _
  · refine FinishesOwn.bind (.of_events (fun _ ↦ rfl) fun _ ↦ rfl) fun _ ↦ ?_
    refine .of_events (fun u ↦ ?_) fun _ ↦ rfl
    exact congrArg Prod.snd (keeps_shapeRow a.shape _ u.2)

theorem finishesOwn_change (d : Demand) : FinishesOwn (d.change : On RowStream σ Unit) := by
  cases d with
  | pull => exact finishesOwn_pull.bind fun _ ↦ .ok ()
  | close failed => exact finishesOwn_close failed

end

/-! ## Opening -/

/-- What starting a transaction for a cursor comes to, with whether the stream then has one of its
own. -/
inductive Starting (c : Connection) : Bool → Except Failure Unit → List Event → Prop where
  | noDriver (e : Failure) (reply : Option Bool) :
      Starting c false (.error e) [.called (.driver c) reply]
  | unknown (e : Failure) : Starting c false (.error e)
      [.called (.driver c) (some true), .called (.driverInTransaction c) none]
  | joined : Starting c false (.ok ())
      [.called (.driver c) (some true), .called (.driverInTransaction c) (some true)]
  | unstarted (e : Failure) : Starting c true (.error e)
      [.called (.driver c) (some true), .free c, .unstarted c]
  | started : Starting c true (.ok ())
      [.called (.driver c) (some true), .free c, .started c]

section

variable {σ : Type} [Backend σ] {fresh a b : RowStream} {s : Session σ} {own : List Event}

theorem adds_startTransaction (a : RowStream) (hnone : a.ownsTransaction = false)
    (s : Session σ) : (startTransaction : On RowStream σ Unit).Adds (·.2) (a, s) fun r u added ↦
      ∃ owns, u.1 = { a with ownsTransaction := owns } ∧ Starting a.conn owns r added := by
  have hsame : a = { a with ownsTransaction := false } := by rw [← hnone]
  refine Adds.object ((adds_call (.driver a.conn) a s).bind (fun present u added hu ↦ ?_)
    fun e u added hu ↦ ?_)
  · obtain ⟨b, t⟩ := u
    obtain ⟨rfl, rfl⟩ := hu
    rcases (present : Bool) with _ | _
    · exact .fail ⟨false, hsame, .noDriver _ _⟩
    refine (adds_call (.driverInTransaction b.conn) b t).bind (fun busy u added hu ↦ ?_)
      fun e u added hu ↦ ?_
    · obtain ⟨d, t⟩ := u
      obtain ⟨rfl, rfl⟩ := hu
      rcases (busy : Bool) with _ | _
      · refine Adds.modify ((adds_call (.startTransaction d.conn) _ t).mono fun r u added hu ↦ ?_)
        obtain ⟨hobject, rfl⟩ := hu
        refine ⟨true, hobject, ?_⟩
        rcases r with e | _
        · exact .unstarted e
        · exact .started
      · exact .ok ⟨false, hsame, .joined⟩
    · obtain ⟨hobject, rfl⟩ := hu
      exact ⟨false, hobject.trans hsame, .unknown e⟩
  · obtain ⟨hobject, rfl⟩ := hu
    exact ⟨false, hobject.trans hsame, .noDriver e none⟩

omit [Backend σ] in
theorem unstarted_not_mem {c : Connection} {added : List Event}
    (h : ∀ x ∈ added, x.isStarting = false) : Event.unstarted c ∉ added :=
  fun hmem ↦ absurd (h _ hmem) Bool.noConfusion

/-- What a stream and its history are like in which no transaction has failed to start, as far as
that matters for what is done next. -/
structure Sound (c : Connection) (a : RowStream) (own : List Event) : Prop where
  starts : Event.unstarted c ∉ own
  finishes : FinishesStarted c own
  owns : a.ownsTransaction = true → Event.started c ∈ own

omit [Backend σ] in
theorem Sound.append {c : Connection} {added : List Event} (h : Sound c a own)
    (howns : b.ownsTransaction = true → a.ownsTransaction = true)
    (hadded : ∀ x ∈ added,
      x.isStarting = false ∧ (x.isFinishing = true → a.ownsTransaction = true)) :
    Sound c b (own ++ added) where
  starts hmem := by
    rcases List.mem_append.mp hmem with hmem | hmem
    · exact h.starts hmem
    · exact unstarted_not_mem (fun x hx ↦ (hadded x hx).1) hmem
  finishes := h.finishes.append fun x hx hfinishing ↦ h.owns ((hadded x hx).2 hfinishing)
  owns hb := List.mem_append_left _ (h.owns (howns hb))

omit [Backend σ] in
theorem Starting.sound {c : Connection} {owns : Bool} {r : Except Failure Unit}
    (h : Starting c owns r own) (hr : owns = true → r = .ok ()) :
    Sound c { fresh with ownsTransaction := owns } own := by
  cases h with
  | noDriver e reply =>
    exact ⟨fun hmem ↦ (nomatch List.mem_singleton.mp hmem),
      .of_none (List.forall_mem_singleton.mpr rfl), nofun⟩
  | unstarted e => cases hr rfl
  | _ =>
    refine ⟨?_, .of_none ?_, ?_⟩ <;>
      simp [Event.unstarted, Event.started, Event.free, Event.isFinishing]

omit [Backend σ] in
theorem Starting.opened {c : Connection} {owns : Bool} (h : Starting c owns (.ok ()) own)
    {sql : String} {values : List Value} {hasCursor : Bool} (reply : Option Unit) :
    Sound c { fresh with ownsTransaction := owns, hasCursor }
      (own ++ [.called (.openCursor c sql values) reply]) :=
  have hsound : Sound c { fresh with ownsTransaction := owns } own := h.sound fun _ ↦ rfl
  hsound.append id (List.forall_mem_singleton.mpr ⟨rfl, nofun⟩)

/-- How a stream has begun, with whether it was closed, and by a failure, and with all that it has
done. -/
inductive Begun (fresh : RowStream) : RowStream → Option Bool → List Event → Prop where
  | sound {a : RowStream} {closing : Option Bool} {own : List Event}
      (h : Sound fresh.conn a own) : Begun fresh a closing own
  /-- A transaction could not be started. It was rolled back, and nothing has happened since. -/
  | unstarted {a : RowStream} {reply : Option Unit} {told : List Event} (hclosed : a.closed = true)
      (hbuffer : a.buffer = []) (htold : Told fresh.conn fresh.onClose true told) :
      Begun fresh a (some true) (.called (.driver fresh.conn) (some true) :: .free fresh.conn ::
        .unstarted fresh.conn :: .called (.rollbackTransaction fresh.conn) reply :: told)

/-- What opening a stream comes to before it may have to be closed. -/
inductive Opening (fresh : RowStream) :
    Except Failure Unit → RowStream → List Event → Prop where
  | unbegun {owns : Bool} {e : Failure} {own : List Event}
      (h : Starting fresh.conn owns (.error e) own) :
      Opening fresh (.error e) { fresh with ownsTransaction := owns } own
  | begun {owns hasCursor : Bool} {r : Except Failure Unit} {own : List Event}
      (h : Starting fresh.conn owns (.ok ()) own) (reply : Option Unit) :
      Opening fresh r { fresh with ownsTransaction := owns, hasCursor }
        (own ++ [.called (.openCursor fresh.conn fresh.sql fresh.values) reply])

theorem adds_opening (hnone : fresh.ownsTransaction = false) (s : Session σ) : (do
      startTransaction
      On.beside (App.call (.openCursor fresh.conn fresh.sql fresh.values))
      On.own (Change.modify fun a : RowStream ↦ { a with hasCursor := true }) :
        On RowStream σ Unit).Adds (·.2) (fresh, s) fun r u added ↦ Opening fresh r u.1 added := by
  refine (adds_startTransaction fresh hnone s).bind (fun _ u starting hu ↦ ?_)
    fun e u starting hu ↦ ?_
  · obtain ⟨b, t⟩ := u
    obtain ⟨owns, rfl, hstarting⟩ := hu
    refine (adds_call (.openCursor fresh.conn fresh.sql fresh.values) _ t).bind
      (fun _ u added hu ↦ ?_) fun e u added hu ↦ ?_
    · obtain ⟨b, t⟩ := u
      obtain ⟨rfl, rfl⟩ := hu
      refine .of_events rfl ?_
      rw [List.append_nil]
      exact .begun hstarting _
    · obtain ⟨hobject, rfl⟩ := hu
      rw [hobject]
      exact .begun hstarting none
  · obtain ⟨owns, hobject, hstarting⟩ := hu
    rw [hobject]
    exact .unbegun hstarting

omit [Backend σ] in
theorem Opening.closed {r : Except Failure Unit} (h : Opening fresh r a own) :
    a.closed = fresh.closed := by
  cases h <;> rfl

omit [Backend σ] in
theorem Opening.ended {r r' : Except Failure Unit} {added : List Event}
    (h : Opening fresh r a own) (hclosing : Closing a true r' added) :
    Begun fresh a.ended (some true) (own ++ added) := by
  have hended (howns : a.ended.ownsTransaction = true) : a.ownsTransaction = true := by cases howns
  cases h with
  | @unbegun owns e _ hstarting =>
    -- with a transaction of its own, it was the start that failed, and that leaves nothing to do
    rcases owns with _ | _
    · exact .sound ((hstarting.sound nofun).append hended hclosing.plain)
    · obtain ⟨finish, told, rfl, ⟨hnot⟩ | ⟨-, reply⟩, htold⟩ := hclosing.parts
      · exact absurd rfl hnot
      · cases hstarting
        exact .unstarted rfl rfl htold
  | begun hstarting reply => exact .sound ((hstarting.opened reply).append hended hclosing.plain)

/-- **Opening** a stream. -/
theorem adds_open_begun (hnew : fresh.IsNew) (s : Session σ) :
    (open_ : On RowStream σ Unit).Adds (·.2) (fresh, s) fun r u added ↦
      Begun fresh u.1 (afterOpening r) added := by
  refine Adds.object (.tell ?_)
  have hopening := adds_opening hnew.ownsTransaction
    { s with log := s.log ++ [.streaming fresh.sql fresh.values] }
  refine (hopening.mapped Failure.recast).attempt_bind fun r u added hu ↦ ?_
  obtain ⟨b, t⟩ := u
  obtain ⟨r', rfl, hbegun⟩ := hu
  rcases r' with e | _
  · refine (adds_close true (hbegun.closed.trans hnew.closed) t).bind (fun _ v more hv ↦ .fail ?_)
      fun e' v more hv ↦ ?_
    · rw [List.append_nil, hv.1]
      exact hbegun.ended hv.2
    · rw [hv.1]
      exact hbegun.ended hv.2
  · refine .ok ?_
    rw [List.append_nil]
    cases hbegun with
    | begun hstarting reply => exact .sound (hstarting.opened reply)

theorem Course.begun {closing : Option Bool} (hnew : fresh.IsNew)
    (h : Course σ fresh a closing own) : Begun fresh a closing own := by
  induction h with
  | opened s hadded => exact (adds_open_begun hnew s).of_eq rfl hadded
  | asked h d s hadded ih =>
    -- each demand keeps a sound history sound, and what follows a failed start is nothing
    cases ih with
    | sound hsound =>
      obtain ⟨howns, hplain⟩ := (finishesOwn_change d _ s).of_eq rfl hadded
      exact .sound (hsound.append howns hplain)
    | unstarted hclosed hbuffer htold =>
      rw [d.change_of_closed hclosed hbuffer] at hadded ⊢
      obtain rfl := List.self_eq_append_right.mp hadded
      rw [List.append_nil]
      exact .unstarted hclosed hbuffer htold

/-! ## What the caller is told -/

theorem beside_call {c : Call} {r : Except Failure c.Reply} {s t : Session σ}
    (h : App.call c s = (r, t)) (a : RowStream) :
    (On.beside (App.call c) : On RowStream σ c.Reply) (a, s) = (r, a, t) := by
  show ((App.call c s).1, a, (App.call c s).2) = _
  rw [h]

/-- Closing a stream by a failure rolls its own transaction back and tells whoever made it. A
failure to tell counts more than one to roll back. -/
theorem close_of_rollback {r : Except Failure Unit} {s t : Session σ} (hopen : a.closed = false)
    (howns : a.ownsTransaction = true)
    (hrollback : App.call (.rollbackTransaction a.conn) s = (r, t)) :
    close true (a, s) =
      ((announce true (a.ended, t)).1 >>= fun _ ↦ r, (announce true (a.ended, t)).2) := by
  have hfinish : finishTransaction true (a.shut, s) = (r, a.shut, t) := by
    show (if a.ownsTransaction then _ else _ : On RowStream σ Unit) (a.shut, s) = _
    rw [howns]
    exact beside_call hrollback a.shut
  have hclose : close true (a, s) = ((finishTransaction true).finally_ fun _ ↦ do
      On.own (Change.modify fun a ↦ { a with ownsTransaction := false })
      announce true : On RowStream σ Unit) (a.shut, s) := by
    show (if a.closed then _ else _ : On RowStream σ Unit) (a, s) = _
    rw [hopen]
    rfl
  rw [hclose, Change.finally_, bind_of_ok _ (attempt_apply _ _), hfinish]
  show (do announce true; Change.ofExcept r : On RowStream σ Unit) (a.ended, t) = _
  rw [bind_apply]
  rcases announce true (a.ended, t) with ⟨e | _, u⟩ <;> rfl

/-- Where starting a transaction fails, the caller is told of that only if rolling it back and
telling whoever made the stream succeed. -/
theorem open_of_unstarted {e : Failure} {r : Except Failure Unit} {s s₁ s₂ s₃ s₄ : Session σ}
    (hopen : a.closed = false)
    (hdriver : App.call (.driver a.conn) { s with log := s.log ++ [.streaming a.sql a.values] } =
      (.ok true, s₁))
    (hfree : App.call (.driverInTransaction a.conn) s₁ = (.ok false, s₂))
    (hstart : App.call (.startTransaction a.conn) s₂ = (.error e, s₃))
    (hrollback : App.call (.rollbackTransaction a.conn) s₃ = (r, s₄)) :
    open_ (a, s) = ((announce true (a.ended, s₄)).1 >>= fun _ ↦ r >>= fun _ ↦ .error e.recast,
      (announce true (a.ended, s₄)).2) := by
  let told : Session σ := { s with log := s.log ++ [.streaming a.sql a.values] }
  let owner : RowStream := { a with ownsTransaction := true }
  let opening : On RowStream σ Unit := do
    startTransaction
    On.beside (App.call (.openCursor a.conn a.sql a.values))
    On.own (Change.modify fun a : RowStream ↦ { a with hasCursor := true })
  have hopening : opening (a, told) = (.error e, owner, s₃) := by
    refine bind_of_error _ ?_
    refine (bind_of_ok _ (beside_call hdriver a)).trans ?_
    refine (bind_of_ok _ (beside_call hfree a)).trans ?_
    exact beside_call hstart owner
  have hguarded : open_ (a, s) =
      (do close true; .fail e.recast : On RowStream σ Unit) (owner, s₃) :=
    guarded_of_error hopening
  have hclose : close true (owner, s₃) = ((announce true (a.ended, s₄)).1 >>= fun _ ↦ r,
      (announce true (a.ended, s₄)).2) := close_of_rollback (a := owner) hopen rfl hrollback
  rw [hguarded, bind_apply, hclose]
  rcases announce true (a.ended, s₄) with ⟨f | _, u⟩
  · rfl
  · rcases r with f | _ <;> rfl

/-- **Only a started transaction is finished, unless starting it fails.** After any course of a
stream, each commit and each rollback came after its transaction was started exactly if none failed
to start. If one did, then all the same it was rolled back, whoever made the stream was told, and
nothing else was ever done. What the caller is told then is why the transaction could not be
started, as callers see it, if that rollback and telling whoever made the stream succeed, and
otherwise why these failed. -/
theorem finishes_started_unless_start_fails (hnew : fresh.IsNew) :
    (∀ {a : RowStream} {closing : Option Bool} {own : List Event},
      Course σ fresh a closing own →
      (FinishesStarted fresh.conn own ↔ Event.unstarted fresh.conn ∉ own) ∧
      (Event.unstarted fresh.conn ∈ own → closing = some true ∧ a.closed = true ∧
        ∃ reply told, Told fresh.conn fresh.onClose true told ∧
          own = .called (.driver fresh.conn) (some true) :: .free fresh.conn ::
            .unstarted fresh.conn :: .called (.rollbackTransaction fresh.conn) reply :: told)) ∧
    ∀ {e : Failure} {r : Except Failure Unit} {s s₁ s₂ s₃ s₄ : Session σ},
      App.call (.driver fresh.conn)
        { s with log := s.log ++ [.streaming fresh.sql fresh.values] } = (.ok true, s₁) →
      App.call (.driverInTransaction fresh.conn) s₁ = (.ok false, s₂) →
      App.call (.startTransaction fresh.conn) s₂ = (.error e, s₃) →
      App.call (.rollbackTransaction fresh.conn) s₃ = (r, s₄) →
      open_ (fresh, s) =
        ((announce true (fresh.ended, s₄)).1 >>= fun _ ↦ r >>= fun _ ↦ .error e.recast,
          (announce true (fresh.ended, s₄)).2) := by
  refine ⟨fun {a closing own} h ↦ ?_, open_of_unstarted hnew.closed⟩
  cases h.begun hnew with
  | sound hsound =>
    exact ⟨iff_of_true hsound.finishes hsound.starts, fun hmem ↦ absurd hmem hsound.starts⟩
  | @unstarted reply told hclosed hbuffer htold =>
    have hunfinished : ¬ FinishesStarted fresh.conn (.called (.driver fresh.conn) (some true) ::
        .free fresh.conn :: .unstarted fresh.conn ::
        .called (.rollbackTransaction fresh.conn) reply :: told) := fun h ↦ by
      simpa [Event.started, Event.free, Event.unstarted] using
        h [.called (.driver fresh.conn) (some true), .free fresh.conn, .unstarted fresh.conn]
          (.called (.rollbackTransaction fresh.conn) reply) told rfl rfl
    refine ⟨iff_of_false hunfinished (not_not_intro ?_), fun _ ↦ ?_⟩
    · exact .tail _ (.tail _ (.head _))
    · exact ⟨rfl, hclosed, reply, told, htold, rfl⟩

end

/-- A session with a driver that runs out of time when it is to start a transaction, and on which
further calls may fail. -/
def slowStart (failures : List (String × Failure)) : Session Scripted where
  db := {
    connections := [("c", { driver :=
      { failures := ("tx.start", .raised App.wrappedTimeout) :: failures } })] }

def unopened : RowStream × Session Scripted := (open_ (notifying, slowStart [])).2

/-- What that stream has done. -/
def unopening : List Event :=
  [.called (.driver ⟨"c"⟩) (some true), .free ⟨"c"⟩, .unstarted ⟨"c"⟩,
    .called (.rollbackTransaction ⟨"c"⟩) (some ()), .streamClosed true]

theorem finishes_started_unless_start_fails_timedOut : notifying.IsNew ∧
    Course Scripted notifying unopened.1 (some true) unopening ∧
    ¬ FinishesStarted ⟨"c"⟩ unopening ∧ unopened.1.closed = true ∧
    (open_ (notifying, slowStart [])).1 = .error (Failure.recast (.raised App.wrappedTimeout)) ∧
    Course Scripted notifying brokenDown.1 (some true) breakdown ∧
    FinishesStarted ⟨"c"⟩ breakdown := by
  have hnew : notifying.IsNew := ⟨rfl, rfl, rfl, rfl, rfl⟩
  obtain ⟨hcourse, hopen⟩ := finishes_started_unless_start_fails (σ := Scripted) hnew
  have hunopened : Course Scripted notifying unopened.1 (some true) unopening :=
    .opened (slowStart []) rfl
  have hopened : Course Scripted notifying _ none (breakdown.take 4) := .opened brokenCursor rfl
  have hpulled : Course Scripted notifying _ (some true) breakdown :=
    hopened.asked .pull (open_ (notifying, brokenCursor)).2.2 rfl
  have hbroken : Course Scripted notifying brokenDown.1 (some true) breakdown :=
    hpulled.asked (.close false) _ (List.append_nil _).symm
  have hunstarted : Event.unstarted ⟨"c"⟩ ∈ unopening := .tail _ (.tail _ (.head _))
  have hstarted : Event.unstarted ⟨"c"⟩ ∉ breakdown := by
    simp [breakdown, Event.unstarted, Event.free]
  refine ⟨hnew, hunopened, fun h ↦ (hcourse hunopened).1.mp h hunstarted,
    ((hcourse hunopened).2 hunstarted).2.1, ?_, hbroken, (hcourse hbroken).1.mpr hstarted⟩
  exact congrArg Prod.fst (hopen (s := slowStart []) rfl rfl rfl rfl)

/-- What the driver says of a transaction that is rolled back but was not started. -/
def notYetStarted : Failure :=
  .raised { kind := .other "InterfaceError", message := "the transaction is not yet started"
            graph := [], node := 0 }

/-- The transaction that could not be started is rolled back, and the caller is told only that this
is impossible. -/
theorem open_of_unstarted_unfinishable :
    (open_ (notifying, slowStart [("tx.rollback", notYetStarted)])).1 = .error notYetStarted ∧
    notYetStarted ≠ Failure.recast (.raised App.wrappedTimeout) ∧
    (open_ (notifying, slowStart [("tx.rollback", notYetStarted)])).2.2.events =
      [.called (.driver ⟨"c"⟩) (some true), .free ⟨"c"⟩, .unstarted ⟨"c"⟩,
        .called (.rollbackTransaction ⟨"c"⟩) none, .streamClosed true] := by
  refine ⟨rfl, fun h ↦ ?_, rfl⟩
  have hshown := Failure.shown_recast (.raised App.wrappedTimeout)
  rw [← h] at hshown
  cases hshown

end RowStream

end Rowmap
