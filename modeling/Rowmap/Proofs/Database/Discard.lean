import Rowmap.Proofs.Database.Transaction

/-!
# Discarding connections

A connection of a pool is given back after its use, and then whoever takes it next gets what the use
left of it. One whose use broke down is discarded first. Whether it broke down is told from the
failure that callers see, so a timeout, which callers see as a fault of its own, does not count.
Nothing is assumed of the database here, and every call to it may fail.
-/

namespace Rowmap.App

open Change

variable {σ α : Type} [Backend σ] {c : Connection} {f : Failure}

/-- A use that ended in an error of the database, which does not tell of a timeout. -/
def BrokeDown (r : Except Failure α) : Prop :=
  ∃ e, r = .error (.raised e) ∧ e.kind = .database ∧ ¬e.TimedOut

/-- How a connection is given back, or discarded: then it is closed only after it was invalidated.
-/
inductive GivenBack (c : Connection) : Bool → List (Deed α) → Prop where
  | returned (reply : Except Failure Unit) : GivenBack c false [.called (.close c) reply]
  | discarded (reply : Except Failure Unit) :
      GivenBack c true [.called (.invalidate c) (.ok ()), .called (.close c) reply]
  /-- The connection could not be invalidated, and is not closed either. -/
  | stuck (e : Failure) : GivenBack c true [.called (.invalidate c) (.error e)]

/-- What is done in a session after a use of a connection, up to the session `s'`: the connection is
given back, and discarded exactly if it is to be or its use broke down. -/
def GivesBack (c : Connection) (destroy : Bool) (body : Connection → App σ α)
    (use : Except Failure α × Session σ) (s' : Session σ) : Prop :=
  ∃ (discard : Bool) (deeds : List (Deed α)), (discard = true ↔ destroy = true ∨ BrokeDown use.1) ∧
    GivenBack c discard deeds ∧ use.2.Path body deeds s'

/-- What callers see of a use tells whether it broke down. -/
theorem endedInDatabaseError_recast (r : Except Failure α) :
    endedInDatabaseError (r.mapError Failure.recast) = true ↔ BrokeDown r := by
  cases r with
  | ok a => exact ⟨nofun, fun ⟨_, h, _⟩ ↦ nomatch h⟩
  | error f =>
    show f.recast.isDatabase = true ↔ _
    generalize hshown : f.recast = shown
    cases hshown ▸ f.shown_recast with
    | timeout h =>
      refine ⟨nofun, fun ⟨e, he, _, hnot⟩ ↦ (hnot ?_).elim⟩
      cases he
      exact h
    | same h =>
      constructor
      · intro hdatabase
        match f with
        | .raised e => exact ⟨e, rfl, eq_of_beq hdatabase, h e rfl⟩
      · rintro ⟨e, he, hkind, -⟩
        cases he
        exact beq_iff_eq.mpr hkind

theorem does_release_givenBack {use : Connection → App σ α} {s : Session σ} (c : Connection)
    (destroy : Bool) :
    (release c destroy).Does id use s fun _ deeds ↦ GivenBack c destroy deeds := by
  have hclose (t : Session σ) : (call (.close c)).Does id use t fun _ deeds ↦
      ∃ reply, deeds = [.called (.close c) reply] :=
    (does_call _).mono fun r _ h ↦ ⟨r, h.2⟩
  cases destroy with
  | false =>
    refine (hclose s).mono fun _ deeds h ↦ ?_
    obtain ⟨reply, rfl⟩ := h
    exact .returned reply
  | true =>
    refine (does_call _).bind (fun _ t deeds h ↦ ?_) fun e deeds h ↦ ?_
    · obtain ⟨-, rfl⟩ := h
      refine (hclose t).mono fun _ more h ↦ ?_
      obtain ⟨reply, rfl⟩ := h
      exact .discarded reply
    · obtain ⟨-, rfl⟩ := h
      exact .stuck e

/-- The release that follows a use is told only what callers see of it. -/
theorem givesBack_of_finally (destroy : Bool) (body : Connection → App σ α) (use : App σ α)
    (s : Session σ) :
    GivesBack c destroy body (use s)
      ((recast use).finally_ (fun r ↦ release c (destroy || endedInDatabaseError r)) s).2 := by
  have hstate : ((recast use).finally_
      (fun r ↦ release c (destroy || endedInDatabaseError r)) s).2 =
      (release c (destroy || endedInDatabaseError ((use s).1.mapError Failure.recast))
        (use s).2).2 := by
    show (Change.bind _ _ _).2 = _
    rw [Change.bind]
    split
    next _ s' h => exact (congrArg Prod.snd h).symm
    next _ s' h => exact (congrArg Prod.snd h).symm
  obtain ⟨deeds, hpath, hdeeds⟩ : (release c (destroy || endedInDatabaseError
    ((use s).1.mapError Failure.recast))).Does id body (use s).2 _ := does_release_givenBack c _
  refine ⟨_, deeds, ?_, hdeeds, hstate ▸ hpath⟩
  rw [Bool.or_eq_true, endedInDatabaseError_recast]

/-- A use of a connection inside a transaction, where it is known whether one is open already. -/
def transactionUse (joined allowNested : Bool) (body : Connection → App σ α) (c : Connection) :
    App σ α :=
  if joined && !allowNested then .fail (.fault .nestedTransaction)
  else if joined then body c else bracketed c body

theorem recast_transactionUse (joined allowNested : Bool) (body : Connection → App σ α) :
    recast (transactionUse joined allowNested body c) =
      if joined && !allowNested then .fail (.fault .nestedTransaction)
      else recast (if joined then body c else bracketed c body) := by
  rw [transactionUse]
  split <;> rfl

/-- A callback's failure ends a use of the connection. -/
theorem committed_of_error {body : Connection → App σ α} {s s' : Session σ}
    (h : body c s = (.error f, s')) : committed c body s = (.error f, s') :=
  bind_of_error _ h

/-- A callback's failure ends a transaction in which it can be rolled back. -/
theorem bracketed_of_error (hdb : Backend.Unwinds σ) {body : Connection → App σ α}
    {s s₁ s₂ : Session σ} (hbegin : call (.begin c) s = (.ok (), s₁))
    (h : body c s₁ = (.error f, s₂)) : (bracketed c body s).1 = .error f := by
  have huse : (do let a ← body c; call (.commit c); pure a : App σ α).attempt s₁ =
      (.ok (.error f), s₂) := by
    rw [attempt_apply, bind_of_error _ h]
  have hrun : bracketed c body s = _ := (bind_of_ok _ hbegin).trans (bind_of_ok _ huse)
  obtain ⟨-, -, hr, -⟩ : Does id body _ s₂ _ := does_unwind hdb c f
  exact hrun ▸ hr

theorem givesBack_checkout {pool : Option Pool} {s s₁ : Session σ} (destroy : Bool)
    (body : Connection → App σ α) (hc : connectionFor none pool s = (.ok c, s₁)) :
    GivesBack c destroy body (committed c body s₁) (checkout none pool destroy body s).2 := by
  have hrun : checkout none pool destroy body s = ((recast (committed c body)).finally_ fun r ↦
      release c (destroy || endedInDatabaseError r)) s₁ := by
    have hbind : checkout none pool destroy body =
        connectionFor none pool >>= fun c ↦ (recast (committed c body)).finally_ fun r ↦
          release c (destroy || endedInDatabaseError r) :=
      (bind_assoc _ _ _).symm
    rw [hbind, bind_of_ok _ hc]
  exact hrun ▸ givesBack_of_finally destroy body _ s₁

theorem givesBack_transaction {pool : Option Pool} {s s₁ s₂ : Session σ} (destroy : Bool)
    {joined : Bool} (allowNested : Bool) (body : Connection → App σ α)
    (hc : connectionFor none pool s = (.ok c, s₁))
    (hjoined : call (.inTransaction c) s₁ = (.ok joined, s₂)) :
    GivesBack c destroy body (transactionUse joined allowNested body c s₂)
      (transaction none pool allowNested destroy (some body) s).2 := by
  have hrun : transaction none pool allowNested destroy (some body) s =
      ((recast (transactionUse joined allowNested body c)).finally_ fun r ↦
        release c (destroy || endedInDatabaseError r)) s₂ := by
    rw [transaction_eq, bind_of_ok _ hc, recast_transactionUse]
    exact bind_of_ok _ hjoined
  exact hrun ▸ givesBack_of_finally destroy body _ s₂

/-- **Which connections are discarded.** After a use of a connection of a pool, inside a transaction
or outside, the connection is given back and nothing else is done. It is discarded, so that it does
not go back to the pool, exactly if that was asked for or the use ended in an error of the database
that does not tell of a timeout; an error in which the callback ends is one in which the use ends.
So it is for callbacks, for statements, and for what records send. -/
theorem discarded_iff_brokeDown (pool : Option Pool) (destroy : Bool) (body : Connection → App σ α)
    {s s₁ : Session σ} (hc : connectionFor none pool s = (.ok c, s₁)) :
    GivesBack c destroy body (committed c body s₁) (checkout none pool destroy body s).2 ∧
    (∀ f s₂, body c s₁ = (.error f, s₂) → committed c body s₁ = (.error f, s₂)) ∧
    (∀ (joined allowNested : Bool) (s₂ : Session σ),
      call (.inTransaction c) s₁ = (.ok joined, s₂) →
      GivesBack c destroy body (transactionUse joined allowNested body c s₂)
        (transaction none pool allowNested destroy (some body) s).2) ∧
    (Backend.Unwinds σ → ∀ allowNested f s₂ s₃ s₄, call (.begin c) s₂ = (.ok (), s₃) →
      body c s₃ = (.error f, s₄) →
      (transactionUse false allowNested body c s₂).1 = .error f) ∧
    connected pool destroy (some body) = checkout none pool destroy body ∧
    (∀ sql values, queryRows sql values pool destroy =
      (checkout none pool destroy (sendForRows sql values) : App σ (List Row))) ∧
    ∀ (r : Record) (statement : Statement), r.send statement =
      (checkout r.conn r.pool false (Record.sending statement) : App σ Outcome) :=
  ⟨givesBack_checkout destroy body hc, fun _ _ ↦ committed_of_error,
    fun _ allowNested _ ↦ givesBack_transaction destroy allowNested body hc,
    fun hdb _ _ _ _ _ ↦ bracketed_of_error hdb, rfl, fun _ _ ↦ rfl, fun _ _ ↦ rfl⟩

/-- An error of the database that tells that the connection is lost. -/
def lostConnection : Raised where
  kind := .database
  message := "connection lost"
  graph := [⟨.text "08006", .null, none, none⟩]
  node := 0

/-- A use of a connection that ends in an error. -/
def raising (e : Raised) (_ : Connection) : App Unwinding Unit := .fail (.raised e)

theorem brokeDown_lostConnection : BrokeDown (.error (.raised lostConnection) : Except _ Unit) := by
  refine ⟨_, rfl, rfl, fun ⟨_, way, hway⟩ ↦ ?_⟩
  cases hway with
  | own he hs =>
    obtain rfl := Option.some.inj he
    exact absurd hs (by decide)
  | linked he hs _ _ =>
    obtain rfl := Option.some.inj he
    exact absurd hs (by decide)

theorem discarded_iff_brokeDown_lostConnection :
    ∃ s₁ : Session Unwinding,
      connectionFor none (some ⟨"p"⟩) oneConnection = (.ok ⟨"c"⟩, s₁) ∧
      ∃ deeds, GivenBack ⟨"c"⟩ true deeds ∧ s₁.Path (raising lostConnection) deeds
        (checkout none (some ⟨"p"⟩) false (raising lostConnection) oneConnection).2 := by
  have hc : connectionFor none (some ⟨"p"⟩) oneConnection = (.ok ⟨"c"⟩, _) := rfl
  obtain ⟨⟨discard, deeds, hdiscard, hdeeds, hpath⟩, -⟩ :=
    discarded_iff_brokeDown (some ⟨"p"⟩) false (raising lostConnection) hc
  obtain rfl : discard = true := hdiscard.mpr (.inr brokeDown_lostConnection)
  exact ⟨_, hc, deeds, hdeeds, hpath⟩

theorem timedOut_wrappedTimeout : wrappedTimeout.TimedOut :=
  ⟨nofun, _, .linked (e := ⟨.null, .null, some 1, none⟩) rfl rfl rfl (.own rfl rfl)⟩

/-- A connection on which a statement ran out of time goes back to its pool, though that is an error
of the database too. -/
theorem returned_of_timedOut :
    wrappedTimeout.kind = .database ∧
    ∃ s₁ : Session Unwinding,
      connectionFor none (some ⟨"p"⟩) oneConnection = (.ok ⟨"c"⟩, s₁) ∧
      ∃ deeds, GivenBack ⟨"c"⟩ false deeds ∧ s₁.Path (raising wrappedTimeout) deeds
        (checkout none (some ⟨"p"⟩) false (raising wrappedTimeout) oneConnection).2 := by
  have hc : connectionFor none (some ⟨"p"⟩) oneConnection = (.ok ⟨"c"⟩, _) := rfl
  obtain ⟨discard, deeds, hdiscard, hdeeds, hpath⟩ :=
    givesBack_checkout false (raising wrappedTimeout) hc
  have hreturned : discard = false := by
    refine Bool.eq_false_iff.mpr fun h ↦ ?_
    obtain h | ⟨e, he, -, hnot⟩ := hdiscard.mp h
    · exact nomatch h
    · cases he
      exact hnot timedOut_wrappedTimeout
  exact ⟨rfl, _, hc, deeds, hreturned ▸ hdeeds, hpath⟩

end Rowmap.App
