import Rowmap.Proofs.Session.Keeps

/-!
# Deeds

What is done in a session, one deed after the other: a call to the database with its reply, or a use
of a connection by a caller with its result. A path goes from a session through its deeds to another
session, and every session on the way is the start of a path of its own. So what holds at every
moment of an operation is what holds after every first part of its deeds. Where all deeds are calls,
the state of the database at each moment follows from them (`Deed.after`), and so do the replies
(`Deed.Answered`); there is one list of calls between two sessions.

`Does` says of a change what deeds it comes to, together with its result. It is put together step by
step, through failures as well: a failure ends a change, but its deeds are done.
-/

namespace Rowmap

/-- Something done in a session: a call to the database, or a use of a connection by a caller. -/
inductive Deed (α : Type) where
  | called (call : Call) (reply : Except Failure call.Reply)
  | used (conn : Connection) (result : Except Failure α)

/-- The way from a session through deeds to another session, where `use` is what the caller does
with a connection. Nothing but the log changes between two deeds. -/
inductive Session.Path {σ α : Type} [Backend σ] (use : Connection → App σ α) :
    Session σ → List (Deed α) → Session σ → Prop where
  | done (s : Session σ) : Path use s [] s
  | call {s s' : Session σ} {deeds : List (Deed α)} (c : Call)
      (rest : Path use (App.call c s).2 deeds s') :
      Path use s (.called c (App.call c s).1 :: deeds) s'
  | use {s s' : Session σ} {deeds : List (Deed α)} (c : Connection)
      (rest : Path use (use c s).2 deeds s') : Path use s (.used c (use c s).1 :: deeds) s'
  | tell {s s' : Session σ} {deeds : List (Deed α)} (e : LogEvent)
      (rest : Path use (App.tell e s).2 deeds s') : Path use s deeds s'

namespace Session.Path

variable {σ α : Type} [Backend σ] {use : Connection → App σ α} {s m s' : Session σ}
  {deeds more : List (Deed α)}

theorem append (h : s.Path use deeds m) (h' : m.Path use more s') :
    s.Path use (deeds ++ more) s' := by
  induction h with
  | done s => exact h'
  | call c _ ih => exact .call c (ih h')
  | use c _ ih => exact .use c (ih h')
  | tell e _ ih => exact .tell e (ih h')

/-- Log entries are no deeds. -/
theorem of_log (events : List LogEvent) (s : Session σ) :
    s.Path use [] { s with log := s.log ++ events } := by
  induction events generalizing s with
  | nil =>
    rw [List.append_nil]
    exact .done s
  | cons e events ih =>
    refine .tell e ?_
    rw [← List.singleton_append, ← List.append_assoc]
    exact ih _

end Session.Path

/-! ## What databases answer -/

namespace Deed

variable {σ α : Type} [Backend σ]

def IsCall : Deed α → Prop
  | .called .. => True
  | .used .. => False

/-- The state of a database after calls. -/
def after (db : σ) : List (Deed α) → σ
  | [] => db
  | .called c _ :: deeds => after (Backend.perform c db).2 deeds
  | .used .. :: deeds => after db deeds

/-- Calls with the replies that a database gives to them, one after the other. -/
def Answered (db : σ) : List (Deed α) → Prop
  | [] => True
  | .called c reply :: deeds =>
    (Backend.perform c db).1 = reply ∧ Answered (Backend.perform c db).2 deeds
  | .used .. :: _ => False

theorem after_append (db : σ) (deeds more : List (Deed α)) :
    after db (deeds ++ more) = after (after db deeds) more := by
  induction deeds generalizing db with
  | nil => rfl
  | cons d deeds ih =>
    cases d with
    | called c reply => exact ih _
    | used c result => exact ih _

theorem answered_append {db : σ} {deeds more : List (Deed α)} :
    Answered db (deeds ++ more) ↔ Answered db deeds ∧ Answered (after db deeds) more := by
  induction deeds generalizing db with
  | nil => exact (iff_of_eq (true_and _)).symm
  | cons d deeds ih =>
    cases d with
    | called c reply => exact (and_congr_right fun _ ↦ ih).trans and_assoc.symm
    | used c result => exact (iff_of_eq (false_and _)).symm

def event? : Deed α → Option Event
  | .called c reply => some (.called c reply.toOption)
  | .used .. => none

/-- A database gives each call one reply. -/
theorem Answered.unique {db : σ} {deeds more : List (Deed α)} (h : Answered db deeds)
    (h' : Answered db more) (hevents : deeds.map event? = more.map event?) : deeds = more := by
  induction deeds generalizing db more with
  | nil => exact (List.map_eq_nil_iff.mp hevents.symm).symm
  | cons d deeds ih =>
    obtain ⟨d', more, rfl⟩ : ∃ d' more', more = d' :: more' := by
      cases more with
      | nil => exact nomatch hevents
      | cons d' more => exact ⟨d', more, rfl⟩
    cases d with
    | used c r => exact h.elim
    | called c reply =>
      cases d' with
      | used c r => exact h'.elim
      | called c' reply' =>
        obtain ⟨hevent, hrest⟩ := List.cons.inj hevents
        obtain rfl : c = c' := (Event.called.inj (Option.some.inj hevent)).1
        obtain ⟨rfl, hdeeds⟩ := h
        obtain ⟨rfl, hmore⟩ := h'
        rw [ih hdeeds hmore hrest]

end Deed

namespace Session.Path

variable {σ α : Type} [Backend σ] {use : Connection → App σ α} {s s' : Session σ}
  {deeds : List (Deed α)}

theorem answered (h : s.Path use deeds s') (hcalls : ∀ d ∈ deeds, d.IsCall) :
    Deed.Answered s.db deeds ∧ Deed.after s.db deeds = s'.db := by
  induction h with
  | done s => exact ⟨trivial, rfl⟩
  | call c _ ih =>
    obtain ⟨hanswered, hafter⟩ := ih (List.forall_mem_cons.mp hcalls).2
    exact ⟨⟨rfl, hanswered⟩, hafter⟩
  | use c _ _ => exact ((List.forall_mem_cons.mp hcalls).1).elim
  | tell e _ ih => exact ih hcalls

/-- A session notes the calls on the way. -/
theorem events_eq (h : s.Path use deeds s') (hcalls : ∀ d ∈ deeds, d.IsCall) :
    s'.events.map some = s.events.map some ++ deeds.map Deed.event? := by
  induction h with
  | done s => exact (List.append_nil _).symm
  | call c _ ih =>
    rw [ih (List.forall_mem_cons.mp hcalls).2]
    show List.map some (_ ++ [_]) ++ _ = _
    rw [List.map_append, List.append_assoc]
    rfl
  | use c _ _ => exact ((List.forall_mem_cons.mp hcalls).1).elim
  | tell e _ ih => exact ih hcalls

end Session.Path

/-- The calls between two sessions, with their replies. -/
structure Session.Calls {σ : Type} [Backend σ] (s : Session σ) (deeds : List (Deed Empty))
    (s' : Session σ) : Prop where
  isCall : ∀ d ∈ deeds, d.IsCall
  path : s.Path (fun _ ↦ .fail .missingPart) deeds s'

theorem Session.Calls.unique {σ : Type} [Backend σ] {s s' : Session σ}
    {deeds more : List (Deed Empty)} (h : s.Calls deeds s') (h' : s.Calls more s') :
    deeds = more := by
  refine (h.path.answered h.isCall).1.unique (h'.path.answered h'.isCall).1 ?_
  refine (List.append_right_inj (s.events.map some)).mp ?_
  rw [← h.path.events_eq h.isCall, h'.path.events_eq h'.isCall]

/-! ## What changes do -/

/-- A change whose way through the session in its state has deeds that meet a condition, together
with its result. -/
def Change.Does {τ σ α β : Type} [Backend σ] (session : τ → Session σ) (use : Connection → App σ α)
    (x : Change τ β) (s : τ) (post : Except Failure β → List (Deed α) → Prop) : Prop :=
  ∃ deeds, (session s).Path use deeds (session (x s).2) ∧ post (x s).1 deeds

namespace Change.Does

variable {τ ρ σ α β γ : Type} [Backend σ] {session : τ → Session σ} {use : Connection → App σ α}
  {x : Change τ β} {s : τ} {mid post : Except Failure β → List (Deed α) → Prop}

theorem mono (hx : x.Does session use s mid) (h : ∀ r deeds, mid r deeds → post r deeds) :
    x.Does session use s post := by
  obtain ⟨deeds, hpath, hmid⟩ := hx
  exact ⟨deeds, hpath, h _ _ hmid⟩

/-- A change that leaves the session as it is does nothing. -/
theorem of_keeps (h : session (x s).2 = session s) (hpost : post (x s).1 []) :
    x.Does session use s post :=
  ⟨[], h ▸ .done _, hpost⟩

theorem ofExcept {r : Except Failure β} (h : post r []) :
    (Change.ofExcept r).Does session use s post :=
  of_keeps rfl h

theorem ok {b : β} (h : post (.ok b) []) : (Change.ok b).Does session use s post := ofExcept h

theorem fail {e : Failure} (h : post (.error e) []) :
    (Change.fail e : Change τ β).Does session use s post :=
  ofExcept h

/-- **Sequences.** The deeds of the second change follow those of the first one, unless that fails.
-/
theorem bind {f : β → Change τ γ} {post : Except Failure γ → List (Deed α) → Prop}
    (hx : x.Does session use s mid)
    (hok : ∀ b t deeds, mid (.ok b) deeds →
      (f b).Does session use t fun r more ↦ post r (deeds ++ more))
    (herror : ∀ e deeds, mid (.error e) deeds → post (.error e) deeds) :
    (x >>= f).Does session use s post := by
  obtain ⟨deeds, hpath, hmid⟩ := hx
  obtain ⟨b, t, hrun, hthen⟩ | ⟨e, t, hrun, hthen⟩ := bind_cases x f s <;>
    rw [hrun] at hpath hmid
  · obtain ⟨more, hmore, hpost⟩ := hok b t deeds hmid
    refine ⟨deeds ++ more, ?_, ?_⟩ <;> rw [hthen]
    · exact hpath.append hmore
    · exact hpost
  · refine ⟨deeds, ?_, ?_⟩ <;> rw [hthen]
    · exact hpath
    · exact herror e deeds hmid

theorem attempt_bind {f : Except Failure β → Change τ γ}
    {post : Except Failure γ → List (Deed α) → Prop} (hx : x.Does session use s mid)
    (hf : ∀ r t deeds, mid r deeds →
      (f r).Does session use t fun r' more ↦ post r' (deeds ++ more)) :
    (Change.attempt x >>= f).Does session use s post := by
  have hattempt : (Change.attempt x).Does session use s fun r deeds ↦
      ∃ b, r = .ok b ∧ mid b deeds := by
    obtain ⟨deeds, hpath, hmid⟩ := hx
    exact ⟨deeds, hpath, (x s).1, rfl, hmid⟩
  refine hattempt.bind (fun r t deeds hr ↦ ?_) fun e deeds hr ↦ ?_
  · obtain ⟨b, hb, hmid⟩ := hr
    exact hf r t deeds (Except.ok.inj hb ▸ hmid)
  · obtain ⟨b, hb, -⟩ := hr
    simp at hb

theorem mapFailure (f : Failure → Failure)
    (hx : x.Does session use s fun r deeds ↦ post (r.mapError f) deeds) :
    (Change.mapFailure f x).Does session use s post := hx

/-- **Cleaning up** follows a change however that ended, and counts if it fails. -/
theorem finally_ {cleanUp : Except Failure β → Change τ Unit} (hx : x.Does session use s mid)
    (hclean : ∀ r t deeds, mid r deeds → (cleanUp r).Does session use t fun r' more ↦
      match r' with
      | .ok () => post r (deeds ++ more)
      | .error e => post (.error e) (deeds ++ more)) :
    (x.finally_ cleanUp).Does session use s post := by
  refine hx.attempt_bind fun r t deeds hmid ↦ (hclean r t deeds hmid).bind (fun _ _ more h ↦ ?_) ?_
  · refine .ofExcept ?_
    rwa [List.append_nil]
  · exact fun _ _ h ↦ h

/-- What is done beside an object is what is done without it. -/
theorem onSecond {x : Change (Session σ) β} {s : Session σ} {object : ρ}
    (hx : x.Does id use s post) :
    (Change.onSecond x).Does (fun u : ρ × Session σ ↦ u.2) use (object, s) post := hx

theorem beside_bind {x : App σ β} {f : β → On ρ σ γ} {s : Session σ} {object : ρ}
    {post : Except Failure γ → List (Deed α) → Prop} (hx : x.Does id use s mid)
    (hok : ∀ b t deeds, mid (.ok b) deeds →
      (f b).Does (·.2) use (object, t) fun r more ↦ post r (deeds ++ more))
    (herror : ∀ e deeds, mid (.error e) deeds → post (.error e) deeds) :
    (On.beside x >>= f).Does (·.2) use (object, s) post := by
  obtain ⟨deeds, hpath, hmid⟩ := hx
  have hbeside : On.beside x (object, s) = ((x s).1, object, (x s).2) := rfl
  rcases hrun : x s with ⟨e | b, t⟩ <;> rw [hrun] at hpath hmid hbeside
  · refine ⟨deeds, ?_, ?_⟩ <;> rw [bind_of_error f hbeside]
    · exact hpath
    · exact herror e deeds hmid
  · obtain ⟨more, hmore, hpost⟩ := hok b t deeds hmid
    refine ⟨deeds ++ more, ?_, ?_⟩ <;> rw [bind_of_ok f hbeside]
    · exact hpath.append hmore
    · exact hpost

theorem object {f : ρ → On ρ σ γ} {session : ρ × Session σ → Session σ} {u : ρ × Session σ}
    {post : Except Failure γ → List (Deed α) → Prop} (h : (f u.1).Does session use u post) :
    (On.object >>= f).Does session use u post := h

end Change.Does

namespace App

open Change

variable {σ α : Type} [Backend σ] {use : Connection → App σ α} {s : Session σ}

theorem does_call (c : Call) : (call c).Does id use s fun r deeds ↦
    r = (Backend.perform c s.db).1 ∧ deeds = [.called c r] :=
  ⟨_, .call c (.done _), rfl, rfl⟩

theorem does_use (c : Connection) : (use c).Does id use s fun r deeds ↦
    r = (use c s).1 ∧ deeds = [.used c r] :=
  ⟨_, .use c (.done _), rfl, rfl⟩

theorem does_tell (e : LogEvent) :
    (tell e).Does id use s fun r deeds ↦ r = .ok () ∧ deeds = [] :=
  ⟨[], .tell e (.done _), rfl, rfl⟩

omit [Backend σ] in
theorem poolOrDefault_eq (pool : Option Pool) (s : Session σ) :
    poolOrDefault pool s = ((poolOrDefault pool s).1, s) := by
  cases pool with
  | some p => rfl
  | none => rfl

end App

end Rowmap
