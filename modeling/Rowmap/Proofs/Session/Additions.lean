import Rowmap.Proofs.Session.Keeps

/-!
# What changes add to the events

The events of a session are only ever added to. `Adds` says of a change what it adds, together with
its result and with the state that it leaves. It is put together step by step, through failures as
well: a failure ends a change, but the events before it stay.
-/

namespace Rowmap

/-- A change that adds events to the session in its state, which meet a condition together with its
result and the state that it leaves. -/
def Change.Adds {τ σ α : Type} (session : τ → Session σ) (x : Change τ α) (s : τ)
    (post : Except Failure α → τ → List Event → Prop) : Prop :=
  ∃ added, (session (x s).2).events = (session s).events ++ added ∧ post (x s).1 (x s).2 added

namespace Change.Adds

variable {τ ρ σ α β : Type} {session : τ → Session σ} {x : Change τ α} {s : τ}
  {mid post : Except Failure α → τ → List Event → Prop}

theorem mono (hx : x.Adds session s mid) (h : ∀ r t added, mid r t added → post r t added) :
    x.Adds session s post := by
  obtain ⟨added, hadded, hmid⟩ := hx
  exact ⟨added, hadded, h _ _ _ hmid⟩

/-- What a change that has ended has added. -/
theorem of_eq (hx : x.Adds session s post) {r : Except Failure α} {t : τ} {added : List Event}
    (h : x s = (r, t)) (hadded : (session t).events = (session s).events ++ added) :
    post r t added := by
  obtain ⟨events, hevents, hpost⟩ := hx
  rw [h] at hevents hpost
  rwa [List.append_cancel_left (hadded.symm.trans hevents)]

theorem run (hx : x.Adds session s post) :
    x.Adds session s fun r t added ↦ x s = (r, t) ∧ post r t added := by
  obtain ⟨added, hadded, hpost⟩ := hx
  exact ⟨added, hadded, rfl, hpost⟩

/-- A change that leaves the events as they are. -/
theorem of_events (h : (session (x s).2).events = (session s).events)
    (hpost : post (x s).1 (x s).2 []) : x.Adds session s post :=
  ⟨[], by rw [h, List.append_nil], hpost⟩

theorem ofExcept {r : Except Failure α} (h : post r s []) :
    (Change.ofExcept r).Adds session s post :=
  of_events rfl h

theorem ok {a : α} (h : post (.ok a) s []) : (Change.ok a).Adds session s post := ofExcept h

theorem fail {e : Failure} (h : post (.error e) s []) :
    (Change.fail e : Change τ α).Adds session s post :=
  ofExcept h

/-- **Sequences.** The events of the second change follow those of the first one, unless that fails.
-/
theorem bind {f : α → Change τ β} {post : Except Failure β → τ → List Event → Prop}
    (hx : x.Adds session s mid)
    (hok : ∀ a t added, mid (.ok a) t added →
      (f a).Adds session t fun r u more ↦ post r u (added ++ more))
    (herror : ∀ e t added, mid (.error e) t added → post (.error e) t added) :
    (x >>= f).Adds session s post := by
  obtain ⟨added, hadded, hmid⟩ := hx
  obtain ⟨a, t, hrun, hthen⟩ | ⟨e, t, hrun, hthen⟩ := bind_cases x f s <;>
    rw [hrun] at hadded hmid
  · obtain ⟨more, hmore, hpost⟩ := hok a t added hmid
    refine ⟨added ++ more, ?_, ?_⟩ <;> rw [hthen]
    · rw [hmore, hadded, List.append_assoc]
    · exact hpost
  · refine ⟨added, ?_, ?_⟩ <;> rw [hthen]
    · exact hadded
    · exact herror e t added hmid

theorem attempt_bind {f : Except Failure α → Change τ β}
    {post : Except Failure β → τ → List Event → Prop} (hx : x.Adds session s mid)
    (hf : ∀ r t added, mid r t added →
      (f r).Adds session t fun r' u more ↦ post r' u (added ++ more)) :
    (Change.attempt x >>= f).Adds session s post := by
  obtain ⟨added, hadded, hmid⟩ := hx
  have hattempt : (Change.attempt x).Adds session s fun r t events ↦
      ∃ r', r = .ok r' ∧ mid r' t events := ⟨added, hadded, _, rfl, hmid⟩
  refine hattempt.bind (fun r t events hr ↦ ?_) fun e t events hr ↦ ?_
  · obtain ⟨r', hr', hmid⟩ := hr
    exact hf r t events (Except.ok.inj hr' ▸ hmid)
  · obtain ⟨r', hr', -⟩ := hr
    exact nomatch hr'

theorem mapFailure (f : Failure → Failure)
    (hx : x.Adds session s fun r t added ↦ post (r.mapError f) t added) :
    (Change.mapFailure f x).Adds session s post := hx

theorem mapped (f : Failure → Failure) (hx : x.Adds session s post) :
    (Change.mapFailure f x).Adds session s fun r t added ↦
      ∃ r', r = r'.mapError f ∧ post r' t added :=
  mapFailure f (hx.mono fun r _ _ h ↦ ⟨r, rfl, h⟩)

/-- **Cleaning up** follows a change however that ended, and counts if it fails. -/
theorem finally_ {cleanUp : Except Failure α → Change τ Unit} (hx : x.Adds session s mid)
    (hclean : ∀ r t added, mid r t added → (cleanUp r).Adds session t fun r' u more ↦
      post (r' >>= fun _ ↦ r) u (added ++ more)) :
    (x.finally_ cleanUp).Adds session s post := by
  refine hx.attempt_bind fun r t added hmid ↦ (hclean r t added hmid).bind (fun _ u more h ↦ ?_) ?_
  · refine .ofExcept ?_
    rwa [List.append_nil]
  · exact fun _ _ _ h ↦ h

theorem onSecond {x : Change (Session σ) α} {s : Session σ} {object : ρ}
    {post : Except Failure α → Session σ → List Event → Prop} (hx : x.Adds id s post) :
    (Change.onSecond x).Adds (fun u : ρ × Session σ ↦ u.2) (object, s) fun r u added ↦
      u.1 = object ∧ post r u.2 added := by
  obtain ⟨added, hadded, hpost⟩ := hx
  exact ⟨added, hadded, rfl, hpost⟩

theorem object {f : ρ → On ρ σ β} {session : ρ × Session σ → Session σ} {u : ρ × Session σ}
    {post : Except Failure β → ρ × Session σ → List Event → Prop}
    (h : (f u.1).Adds session u post) : (On.object >>= f).Adds session u post := h

theorem modify {f : ρ → ρ} {g : Unit → On ρ σ β} {object : ρ} {s : Session σ}
    {post : Except Failure β → ρ × Session σ → List Event → Prop}
    (h : (g ()).Adds (fun u ↦ u.2) (f object, s) post) :
    (On.own (Change.modify f) >>= g).Adds (fun u ↦ u.2) (object, s) post := h

/-- What is done after an event was logged, which adds none to what happened. -/
theorem tell {e : LogEvent} {g : Unit → On ρ σ β} {object : ρ} {s : Session σ}
    {post : Except Failure β → ρ × Session σ → List Event → Prop}
    (h : (g ()).Adds (fun u ↦ u.2) (object, { s with log := s.log ++ [e] }) post) :
    (On.beside (App.tell e) >>= g).Adds (fun u ↦ u.2) (object, s) post := h

end Change.Adds

theorem App.adds_call {σ : Type} [Backend σ] (c : Call) (s : Session σ) :
    (call c).Adds id s fun r t added ↦ call c s = (r, t) ∧ added = [.called c r.toOption] :=
  ⟨_, rfl, rfl, rfl⟩

end Rowmap
