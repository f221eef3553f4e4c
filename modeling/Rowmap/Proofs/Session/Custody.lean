import Rowmap.Database.Checkout
import Rowmap.Proofs.Session.Keeps

/-!
# Custody of connections

Whoever uses connections one at a time holds one from the call that takes it from a pool to the call
that gives it back. `Event.custody` follows the held connection from event to event, and has no
answer once a second connection is taken while one is held, or one is given back that is not held.
So where custody has an answer, no connection was given back more often than it was taken, and all
that were taken have been given back but the one that is held.

`Passes` says of a change that custody passes over the events that it adds, and `Settles` that it
leaves the streams alone besides. Both are put together step by step, through failures as well: a
failure ends a change, but not the custody of what it has taken.
-/

namespace Rowmap

/-! ## Ledgers -/

namespace Event

def taken? : Event → Option Connection
  | .called (.connect _) reply => reply
  | _ => none

def returned? : Event → Option Connection
  | .called (.close c) (some _) => some c
  | _ => none

/-- The connection held after an event, unless the event breaks the custody of the one held before.
-/
def custody (held : Option Connection) (e : Event) : Option (Option Connection) :=
  match e.taken?, e.returned? with
  | none, none => some held
  | some c, none => if held = none then some (some c) else none
  | _, some c => if held = some c then some none else none

theorem returned?_of_taken? {e : Event} {c : Connection} (h : e.taken? = some c) :
    e.returned? = none := by
  cases e with
  | called call reply =>
    cases call with
    | close c' => exact nomatch h
    | _ => rfl
  | entered => rfl
  | streamClosed => rfl

end Event

namespace Custody

def taken (events : List Event) : List Connection := events.filterMap Event.taken?

def returned (events : List Event) : List Connection := events.filterMap Event.returned?

/-- The connection held after events, unless they break custody. -/
def after (held : Option Connection) (events : List Event) : Option (Option Connection) :=
  events.foldlM Event.custody held

variable {held held' : Option Connection}

theorem after_append {events more : List Event} {mid : Option Connection}
    (h : after held events = some mid) (hmore : after mid more = some held') :
    after held (events ++ more) = some held' := by
  rw [after, List.foldlM_append]
  exact (congrArg (· >>= fun h ↦ after h more) h).trans hmore

theorem after_singleton (held : Option Connection) (e : Event) :
    after held [e] = e.custody held := bind_pure _

theorem after_silent {events : List Event}
    (h : ∀ e ∈ events, e.taken? = none ∧ e.returned? = none) : after held events = some held := by
  induction events with
  | nil => rfl
  | cons e events ih =>
    rw [List.forall_mem_cons] at h
    have he : e.custody held = some held := by rw [Event.custody, h.1.1, h.1.2]
    rw [after, List.foldlM_cons, he]
    exact ih h.2

theorem perm_of_custody {e : Event} (h : e.custody held = some held') :
    (held.toList ++ e.taken?.toList).Perm (e.returned?.toList ++ held'.toList) := by
  rw [Event.custody] at h
  cases htaken : e.taken? with
  | some c =>
    have hnone := Event.returned?_of_taken? htaken
    rw [htaken, hnone] at h
    simp only [Option.ite_none_right_eq_some, Option.some.injEq] at h
    obtain ⟨rfl, rfl⟩ := h
    rw [hnone]
  | none =>
    cases hreturned : e.returned? with
    | none =>
      rw [htaken, hreturned] at h
      obtain rfl := Option.some.inj h
      rw [Option.toList_none, List.append_nil, List.nil_append]
    | some c =>
      rw [htaken, hreturned] at h
      simp only [Option.ite_none_right_eq_some, Option.some.injEq] at h
      obtain ⟨rfl, rfl⟩ := h
      exact .refl _

/-- **The balance of a ledger.** What is held at first and what is taken is, each as often, what is
given back and what is held at the end. -/
theorem perm_of_after {events : List Event} (h : after held events = some held') :
    (held.toList ++ taken events).Perm (returned events ++ held'.toList) := by
  induction events generalizing held with
  | nil =>
    obtain rfl := Option.some.inj h
    rw [taken, returned, List.filterMap_nil, List.filterMap_nil, List.append_nil]
    rfl
  | cons e events ih =>
    rw [after, List.foldlM_cons] at h
    obtain ⟨mid, he, hrest⟩ := Option.bind_eq_some_iff.mp h
    have hcons {α : Type} (f : Event → Option α) :
        (e :: events).filterMap f = (f e).toList ++ events.filterMap f := by
      rw [List.filterMap_cons]
      cases f e <;> rfl
    rw [taken, returned, hcons, hcons, ← List.append_assoc, List.append_assoc _ _ held'.toList]
    refine ((perm_of_custody he).append_right _).trans ?_
    rw [List.append_assoc]
    exact (ih hrest).append_left _

end Custody

/-! ## Changes -/

/-- A change over whose events custody passes, from the connection held before it to what a
condition says of its result, of the state behind it and of the connection held then. -/
def Change.Passes {τ σ α : Type} (session : τ → Session σ) (x : Change τ α) (s : τ)
    (held : Option Connection)
    (post : Except Failure α → τ → Option Connection → Prop) : Prop :=
  ∃ added held', (session (x s).2).events = (session s).events ++ added ∧
    Custody.after held added = some held' ∧ post (x s).1 (x s).2 held'

namespace Change.Passes

variable {τ ρ σ α β : Type} {session : τ → Session σ} {x : Change τ α} {s : τ}
  {held : Option Connection} {mid post : Except Failure α → τ → Option Connection → Prop}

theorem mono (hx : x.Passes session s held mid) (h : ∀ r t k, mid r t k → post r t k) :
    x.Passes session s held post := by
  obtain ⟨added, held', hadded, hafter, hmid⟩ := hx
  exact ⟨added, held', hadded, hafter, h _ _ _ hmid⟩

/-- A change that adds no events leaves custody as it was. -/
theorem of_events (h : (session (x s).2).events = (session s).events)
    (hpost : post (x s).1 (x s).2 held) : x.Passes session s held post :=
  ⟨[], held, by rw [h, List.append_nil], rfl, hpost⟩

/-- **Sequences.** The second change starts with what is held after the first one, and if that
fails, so does the sequence, with what is held then. -/
theorem bind {f : α → Change τ β} {post : Except Failure β → τ → Option Connection → Prop}
    (hx : x.Passes session s held mid)
    (hok : ∀ a t k, mid (.ok a) t k → (f a).Passes session t k post)
    (herror : ∀ e t k, mid (.error e) t k → post (.error e) t k) :
    (x >>= f).Passes session s held post := by
  obtain ⟨added, held', hadded, hafter, hmid⟩ := hx
  obtain ⟨a, t, hrun, hthen⟩ | ⟨e, t, hrun, hthen⟩ := bind_cases x f s <;>
    rw [hrun] at hadded hmid
  · obtain ⟨more, held'', hmore, hafter', hpost⟩ := hok a t held' hmid
    refine ⟨added ++ more, held'', ?_, Custody.after_append hafter hafter', ?_⟩ <;> rw [hthen]
    · rw [hmore, hadded, List.append_assoc]
    · exact hpost
  · refine ⟨added, held', ?_, hafter, ?_⟩ <;> rw [hthen]
    · exact hadded
    · exact herror e t held' hmid

theorem attempt_bind {f : Except Failure α → Change τ β}
    {post : Except Failure β → τ → Option Connection → Prop} (hx : x.Passes session s held mid)
    (hf : ∀ r t k, mid r t k → (f r).Passes session t k post) :
    (Change.attempt x >>= f).Passes session s held post := by
  have hattempt : (Change.attempt x).Passes session s held fun r t k ↦
      ∃ a, r = .ok a ∧ mid a t k := by
    obtain ⟨added, held', hadded, hafter, hmid⟩ := hx
    exact ⟨added, held', hadded, hafter, (x s).1, rfl, hmid⟩
  refine hattempt.bind (fun r t k hk ↦ ?_) fun e t k hk ↦ ?_
  · obtain ⟨a, ha, hmid⟩ := hk
    exact hf r t k (Except.ok.inj ha ▸ hmid)
  · obtain ⟨a, ha, -⟩ := hk
    simp at ha

theorem onSecond {x : Change (Session σ) α} {s : Session σ} {object : ρ}
    {post : Except Failure α → Session σ → Option Connection → Prop}
    (hx : x.Passes id s held post) :
    (Change.onSecond x).Passes (fun u : ρ × Session σ ↦ u.2) (object, s) held
      fun r u k ↦ u.1 = object ∧ post r u.2 k := by
  obtain ⟨added, held', hadded, hafter, hpost⟩ := hx
  exact ⟨added, held', hadded, hafter, rfl, hpost⟩

theorem object {f : ρ → On ρ σ β} {session : ρ × Session σ → Session σ} {u : ρ × Session σ}
    {post : Except Failure β → ρ × Session σ → Option Connection → Prop}
    (h : (f u.1).Passes session u held post) : (On.object >>= f).Passes session u held post := h

theorem modify {f : ρ → ρ} {g : Unit → On ρ σ β} {object : ρ} {s : Session σ}
    {post : Except Failure β → ρ × Session σ → Option Connection → Prop}
    (h : (g ()).Passes (fun u ↦ u.2) (f object, s) held post) :
    (On.own (Change.modify f) >>= g).Passes (fun u ↦ u.2) (object, s) held post := h

end Change.Passes

/-- A session that has grown out of another, with the same streams. -/
structure Session.Grows {σ : Type} (s s' : Session σ) : Prop where
  streams : s'.streams = s.streams
  next : s.next ≤ s'.next

namespace Session.Grows

variable {σ : Type} {s s' s'' : Session σ}

theorem refl (s : Session σ) : s.Grows s := ⟨rfl, Nat.le_refl _⟩

theorem trans (h : s.Grows s') (h' : s'.Grows s'') : s.Grows s'' :=
  ⟨h'.streams.trans h.streams, Nat.le_trans h.next h'.next⟩

end Session.Grows

/-- A change over whose events custody passes, and that leaves the streams of its session alone. -/
def Change.Settles {τ σ α : Type} (session : τ → Session σ) (x : Change τ α) (s : τ)
    (held : Option Connection)
    (post : Except Failure α → τ → Option Connection → Prop) : Prop :=
  x.Passes session s held fun r t k ↦ (session s).Grows (session t) ∧ post r t k

/-- A change that neither takes nor gives back a connection, whoever holds one, and that leaves the
streams of its session alone. -/
def Change.Quiet {τ σ α : Type} (session : τ → Session σ) (x : Change τ α) : Prop :=
  ∀ s held, x.Settles session s held fun _ _ k ↦ k = held

namespace Change.Settles

variable {τ ρ σ α β : Type} {session : τ → Session σ} {x : Change τ α} {s : τ}
  {held : Option Connection} {mid post : Except Failure α → τ → Option Connection → Prop}

theorem mono (hx : x.Settles session s held mid) (h : ∀ r t k, mid r t k → post r t k) :
    x.Settles session s held post :=
  Passes.mono hx fun r t k hmid ↦ ⟨hmid.1, h r t k hmid.2⟩

theorem of_events (h : (session (x s).2).events = (session s).events)
    (hgrows : (session s).Grows (session (x s).2)) (hpost : post (x s).1 (x s).2 held) :
    x.Settles session s held post :=
  Passes.of_events h ⟨hgrows, hpost⟩

theorem ofExcept {r : Except Failure α} (h : post r s held) :
    (Change.ofExcept r).Settles session s held post :=
  of_events rfl (.refl _) h

theorem ok {a : α} (h : post (.ok a) s held) : (Change.ok a).Settles session s held post :=
  ofExcept h

theorem fail {e : Failure} (h : post (.error e) s held) :
    (Change.fail e : Change τ α).Settles session s held post :=
  ofExcept h

theorem bind {f : α → Change τ β} {post : Except Failure β → τ → Option Connection → Prop}
    (hx : x.Settles session s held mid)
    (hok : ∀ a t k, mid (.ok a) t k → (f a).Settles session t k post)
    (herror : ∀ e t k, mid (.error e) t k → post (.error e) t k) :
    (x >>= f).Settles session s held post := by
  refine Passes.bind hx (fun a t k hmid ↦ ?_) fun e t k hmid ↦ ⟨hmid.1, herror e t k hmid.2⟩
  exact Passes.mono (hok a t k hmid.2) fun r u l hpost ↦ ⟨hmid.1.trans hpost.1, hpost.2⟩

theorem attempt_bind {f : Except Failure α → Change τ β}
    {post : Except Failure β → τ → Option Connection → Prop} (hx : x.Settles session s held mid)
    (hf : ∀ r t k, mid r t k → (f r).Settles session t k post) :
    (Change.attempt x >>= f).Settles session s held post := by
  refine Passes.attempt_bind hx fun r t k hmid ↦ ?_
  exact Passes.mono (hf r t k hmid.2) fun _ u l hpost ↦ ⟨hmid.1.trans hpost.1, hpost.2⟩

/-- **Cleaning up** settles what a change has left, however that ended. -/
theorem finally_ {cleanUp : Except Failure α → Change τ Unit}
    {settled : τ → Option Connection → Prop} (hx : x.Settles session s held mid)
    (hclean : ∀ r t k, mid r t k → (cleanUp r).Settles session t k fun _ u l ↦ settled u l) :
    (x.finally_ cleanUp).Settles session s held fun _ u l ↦ settled u l :=
  hx.attempt_bind fun r t k hmid ↦
    (hclean r t k hmid).bind (fun _ _ _ hsettled ↦ ofExcept hsettled) fun _ _ _ ↦ id

theorem onSecond {x : Change (Session σ) α} {s : Session σ} {object : ρ}
    {post : Except Failure α → Session σ → Option Connection → Prop}
    (hx : x.Settles id s held post) :
    (Change.onSecond x).Settles (fun u : ρ × Session σ ↦ u.2) (object, s) held
      fun r u k ↦ u.1 = object ∧ post r u.2 k :=
  (Passes.onSecond hx).mono fun _ _ _ h ↦ ⟨h.2.1, h.1, h.2.2⟩

theorem object {f : ρ → On ρ σ β} {session : ρ × Session σ → Session σ} {u : ρ × Session σ}
    {post : Except Failure β → ρ × Session σ → Option Connection → Prop}
    (h : (f u.1).Settles session u held post) : (On.object >>= f).Settles session u held post := h

theorem modify {f : ρ → ρ} {g : Unit → On ρ σ β} {object : ρ} {s : Session σ}
    {post : Except Failure β → ρ × Session σ → Option Connection → Prop}
    (h : (g ()).Settles (fun u ↦ u.2) (f object, s) held post) :
    (On.own (Change.modify f) >>= g).Settles (fun u ↦ u.2) (object, s) held post := h

end Change.Settles

namespace Change.Quiet

variable {τ ρ σ α β : Type} {session : τ → Session σ} {x : Change τ α}

theorem of_events (h : ∀ s, (session (x s).2).events = (session s).events)
    (hgrows : ∀ s, (session s).Grows (session (x s).2)) : Quiet session x :=
  fun s _ ↦ .of_events (h s) (hgrows s) rfl

theorem ofExcept (r : Except Failure α) : Quiet session (Change.ofExcept r) :=
  fun _ _ ↦ .ofExcept rfl

theorem ok (a : α) : Quiet session (Change.ok a) := ofExcept _

theorem bind {f : α → Change τ β} (hx : Quiet session x) (hf : ∀ a, Quiet session (f a)) :
    Quiet session (x >>= f) := by
  intro s held
  refine (hx s held).bind (fun a t k hk ↦ ?_) fun _ _ _ hk ↦ hk
  subst hk
  exact hf a t _

theorem mapFailure (f : Failure → Failure) (hx : Quiet session x) :
    Quiet session (Change.mapFailure f x) := hx

end Change.Quiet

/-! ## Connections -/

/-- A database that gives back every connection that it is asked to. Everything else may fail, but
only with ordinary failures. -/
structure Backend.Releases (σ : Type) [Backend σ] : Prop where
  ordinary : ∀ (call : Call) (s : σ) (e : Failure),
    (Backend.perform call s).1 = .error e → e.isOrdinary = true
  invalidates : ∀ (c : Connection) (s : σ), (Backend.perform (.invalidate c) s).1 = .ok ()
  closes : ∀ (c : Connection) (s : σ), (Backend.perform (.close c) s).1 = .ok ()

namespace App

open Change

variable {σ α : Type} [Backend σ] {s : Session σ} {held : Option Connection}

theorem settles_call {c : Call}
    (h : ∀ reply, (Event.called c reply).taken? = none ∧ (Event.called c reply).returned? = none) :
    (call c).Settles id s held fun r _ k ↦ r = (Backend.perform c s.db).1 ∧ k = held := by
  refine ⟨[.called c (Backend.perform c s.db).1.toOption], held, rfl, ?_, ⟨rfl, Nat.le_refl _⟩,
    rfl, rfl⟩
  refine Custody.after_silent fun e he ↦ ?_
  rw [List.mem_singleton.mp he]
  exact h _

theorem quiet_call {c : Call}
    (h : ∀ reply, (Event.called c reply).taken? = none ∧ (Event.called c reply).returned? = none) :
    Quiet id (call c : App σ c.Reply) :=
  fun _ _ ↦ (settles_call h).mono fun _ _ _ hk ↦ hk.2

theorem settles_connect (p : Pool) (s : Session σ) :
    (call (.connect p)).Settles id s none fun r _ k ↦ k = r.toOption := by
  refine ⟨[.called (.connect p) (Backend.perform (.connect p) s.db).1.toOption], _, rfl, ?_,
    ⟨rfl, Nat.le_refl _⟩, rfl⟩
  show Custody.after none [.called (.connect p) (Backend.perform (.connect p) s.db).1.toOption] =
    some (Backend.perform (.connect p) s.db).1.toOption
  cases (Backend.perform (.connect p) s.db).1 <;> rfl

theorem settles_close (hdb : Backend.Releases σ) (c : Connection) (s : Session σ) :
    (call (.close c)).Settles id s (some c) fun _ _ k ↦ k = none := by
  refine ⟨[.called (.close c) (Backend.perform (.close c) s.db).1.toOption], none, rfl, ?_,
    ⟨rfl, Nat.le_refl _⟩, rfl⟩
  rw [hdb.closes, Custody.after_singleton]
  exact if_pos rfl

/-- **Releasing** gives back the connection that is held. -/
theorem settles_release (hdb : Backend.Releases σ) (c : Connection) (destroy : Bool)
    (s : Session σ) : (release c destroy).Settles id s (some c) fun _ _ k ↦ k = none := by
  cases destroy with
  | false => exact settles_close hdb c s
  | true =>
    refine (settles_call fun _ ↦ ⟨rfl, rfl⟩).bind (fun _ t k hk ↦ ?_) fun e t k hk ↦ ?_
    · rw [hk.2]
      exact settles_close hdb c t
    · exact absurd (hk.1.trans (hdb.invalidates c s.db)) (by simp)

/-- A result that is no failure, unless an ordinary one. -/
def Ordinarily (r : Except Failure α) : Prop :=
  match r with
  | .ok _ => True
  | .error e => e.isOrdinary = true

theorem settles_look (hdb : Backend.Releases σ) {c : Call}
    (h : ∀ reply, (Event.called c reply).taken? = none ∧ (Event.called c reply).returned? = none) :
    (call c).Settles id s held fun r _ k ↦ Ordinarily r ∧ k = held := by
  refine (settles_call h).mono fun r _ k hk ↦ ⟨?_, hk.2⟩
  cases r with
  | ok _ => trivial
  | error e => exact hdb.ordinary c s.db e hk.1.symm

theorem settles_unusableReason (hdb : Backend.Releases σ) (c : Connection) :
    (unusableReason c).Settles id s held fun r _ k ↦ Ordinarily r ∧ k = held := by
  have hopen (closed : Bool) (s : Session σ) : Settles id
      (if closed then .ok (some "connection is closed")
        else do
          let busy : Bool ← call (.driverInTransaction c)
          .ok (if busy then some "connection was checked out with an open transaction" else none) :
        App σ (Option String)) s held fun r _ k ↦ Ordinarily r ∧ k = held := by
    cases closed with
    | true => exact .ok ⟨trivial, rfl⟩
    | false =>
      exact (settles_look hdb fun _ ↦ ⟨rfl, rfl⟩).bind (fun _ _ _ hk ↦ .ok ⟨trivial, hk.2⟩)
        fun _ _ _ hk ↦ hk
  refine (settles_look hdb fun _ ↦ ⟨rfl, rfl⟩).bind (fun present t k hk ↦ ?_) fun _ _ _ hk ↦ hk
  obtain ⟨-, rfl⟩ := hk
  cases (present : Bool) with
  | true =>
    refine (settles_look hdb fun _ ↦ ⟨rfl, rfl⟩).bind (fun closed u l hl ↦ ?_) fun _ _ _ hl ↦ hl
    obtain ⟨-, rfl⟩ := hl
    exact hopen closed u
  | false => exact hopen true t

/-- **Looking at a connection** never fails: an ordinary failure counts as a reason. -/
theorem settles_probe (hdb : Backend.Releases σ) (c : Connection) :
    (probe c).Settles id s held fun r _ k ↦ (∃ reason, r = .ok reason) ∧ k = held := by
  refine (settles_unusableReason hdb c).attempt_bind fun r t k hk ↦ ?_
  obtain ⟨hordinary, rfl⟩ := hk
  cases r with
  | ok reason => exact .ok ⟨⟨reason, rfl⟩, rfl⟩
  | error e =>
    have he : e.isOrdinary = true := hordinary
    dsimp only
    rw [if_pos he]
    exact .ok ⟨⟨some e.reason, rfl⟩, rfl⟩

omit [Backend σ] in
theorem settles_tell (e : LogEvent) :
    (tell e : App σ Unit).Settles id s held fun r _ k ↦ r = .ok () ∧ k = held :=
  .of_events rfl ⟨rfl, Nat.le_refl _⟩ ⟨rfl, rfl⟩

/-- **A usable connection** is held if there is one, and nothing is held if there is none. -/
theorem settles_usableAmong (hdb : Backend.Releases σ) (p : Pool) (attempts : Value) (limit : Int)
    (n : Nat) (s : Session σ) :
    (usableAmong p attempts limit n).Settles id s none fun r _ k ↦ k = r.toOption := by
  induction n generalizing s with
  | zero => exact .fail rfl
  | succ n ih =>
    refine (settles_connect p s).bind (fun c t k hk ↦ ?_) fun e t k hk ↦ hk
    subst hk
    refine (settles_probe hdb c).bind (fun reason u l hl ↦ ?_) fun e u l hl ↦ nomatch hl.1
    obtain ⟨-, rfl⟩ := hl
    cases reason with
    | none => exact .ok rfl
    | some reason =>
      -- a connection that cannot be used is given back before the next one is taken
      refine (settles_tell _).bind (fun _ v m hm ↦ ?_) fun e v m hm ↦ nomatch hm.1
      obtain ⟨-, rfl⟩ := hm
      refine (settles_release hdb c true v).bind (fun _ w n hn ↦ ?_) fun e w n hn ↦ hn
      subst hn
      exact ih w

theorem settles_usableConnection (hdb : Backend.Releases σ) (p : Pool) (attempts : Value)
    (s : Session σ) :
    (usableConnection p attempts).Settles id s none fun r _ k ↦ k = r.toOption := by
  have hlimit : Quiet id (Change.ofExcept (Sequence.position attempts) : App σ Int) := .ofExcept _
  refine (hlimit s none).bind (fun limit t k hk ↦ ?_) fun _ _ _ hk ↦ hk
  subst hk
  exact settles_usableAmong hdb p attempts limit limit.toNat t

omit [Backend σ] in
theorem quiet_poolOrDefault (pool : Option Pool) : Quiet id (poolOrDefault pool : App σ Pool) := by
  cases pool with
  | some pool => exact .ok pool
  | none => exact .of_events (fun _ ↦ rfl) fun s ↦ .refl s

theorem settles_connection (hdb : Backend.Releases σ) (pool : Option Pool) (s : Session σ) :
    (do usableConnection (← poolOrDefault pool) : App σ Connection).Settles id s none
      fun r _ k ↦ k = r.toOption := by
  refine (quiet_poolOrDefault pool s none).bind (fun p t k hk ↦ ?_) fun _ _ _ hk ↦ hk
  subst hk
  exact settles_usableConnection hdb p defaultAttempts t

omit [Backend σ] in
theorem quiet_addRecord (r : Record) : Quiet id (addRecord r : App σ Nat) :=
  .of_events (fun _ ↦ rfl) fun _ ↦ ⟨rfl, Nat.le_succ _⟩

omit [Backend σ] in
theorem quiet_recordValue (id : Nat) : Quiet (fun s ↦ s) (recordValue id : App σ Value) := by
  refine .of_events (fun s ↦ ?_) fun s ↦ ?_
  · rw [recordValue, withRecord]
    cases s.records.lookup id <;> rfl
  · rw [recordValue, withRecord]
    cases s.records.lookup id <;> exact ⟨rfl, Nat.le_refl _⟩

theorem quiet_execute (c : Connection) (sql : String) (values : List Value) :
    Quiet id (execute c sql values : App σ Outcome) :=
  Quiet.bind (.of_events (fun _ ↦ rfl) fun _ ↦ ⟨rfl, Nat.le_refl _⟩) fun _ ↦
    quiet_call fun _ ↦ ⟨rfl, rfl⟩

theorem quiet_committed {c : Connection} {body : Connection → App σ α} (h : Quiet id (body c)) :
    Quiet id (committed c body) := by
  refine h.bind fun a ↦ (quiet_call fun _ ↦ ⟨rfl, rfl⟩).bind fun open_ ↦ ?_
  cases open_ with
  | true => exact (quiet_call fun _ ↦ ⟨rfl, rfl⟩).bind fun _ ↦ .ok a
  | false => exact .ok a

/-- **Checking out** a connection of a pool for a use gives it back, however the use ends. -/
theorem settles_checkout (hdb : Backend.Releases σ) (pool : Option Pool) (destroy : Bool)
    {body : Connection → App σ α} (hbody : ∀ c, Quiet id (body c)) (s : Session σ) :
    (checkout none pool destroy body).Settles id s none fun _ _ k ↦ k = none := by
  refine (quiet_poolOrDefault pool s none).bind (fun p t k hk ↦ ?_) fun _ _ _ hk ↦ hk
  subst hk
  refine (settles_usableConnection hdb p defaultAttempts t).bind (fun c u l hl ↦ ?_)
    fun _ _ _ hl ↦ hl
  subst hl
  have huse := ((quiet_committed (hbody c)).mapFailure Failure.recast) u (some c)
  refine Settles.finally_ huse fun r v m hm ↦ ?_
  subst hm
  exact settles_release hdb c _ v

end App

end Rowmap
