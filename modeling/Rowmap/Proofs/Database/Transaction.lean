import Rowmap.Proofs.Database.Checkout
import Rowmap.Proofs.Failure.Timeout

/-!
# Transactions around uses

A use of a connection inside a transaction has up to five parts: the beginning, the use, the commit,
the question whether the transaction is still open, and the rollback. `Bracket` holds what each part
came to where it took place, and `Bracket.IsValid` says which of them take place; so the deeds are
what the parts are, in their order, and nothing besides but the release of the connection.
-/

namespace Rowmap

/-- A database that knows of every connection whether a transaction is open on it, and that rolls
back, discards and takes back every one that it is asked to. -/
structure Backend.Unwinds (σ : Type) [Backend σ] : Prop extends Backend.Discards σ where
  answers : ∀ (c : Connection) (s : σ),
    ∃ isOpen : Bool, (Backend.perform (.inTransaction c) s).1 = .ok isOpen
  rollsBack : ∀ (c : Connection) (s : σ), (Backend.perform (.rollback c) s).1 = .ok ()

/-- What the parts of a use of a connection inside a transaction came to. -/
structure Bracket (α : Type) where
  beginning : Option (Except Failure Unit) := none
  use : Option (Except Failure α) := none
  commit : Option (Except Failure Unit) := none
  /-- Whether the connection still reports a transaction, where it was asked. -/
  isOpen : Option Bool := none

namespace Bracket

variable {α : Type}

/-- What is done to a connection, part by part. A transaction that is still open is rolled back. -/
def deeds (b : Bracket α) (c : Connection) : List (Deed α) :=
  (b.beginning.map fun reply ↦ .called (.begin c) reply).toList ++
  (b.use.map fun result ↦ .used c result).toList ++
  (b.commit.map fun reply ↦ .called (.commit c) reply).toList ++
  (b.isOpen.map fun isOpen ↦ .called (.inTransaction c) (.ok isOpen)).toList ++
  if b.isOpen = some true then [.called (.rollback c) (.ok ())] else []

/-- Which parts take place. A transaction that was joined is neither begun nor ended here, and it is
used only where joining it is allowed. -/
structure IsValid (b : Bracket α) (joined allowNested : Bool) : Prop where
  begins : b.beginning.isSome ↔ joined = false
  uses : b.use.isSome ↔
    b.beginning = some (.ok ()) ∨ joined = true ∧ allowNested = true
  commits : b.commit.isSome ↔ joined = false ∧ ∃ a, b.use = some (.ok a)
  asks : b.isOpen.isSome ↔
    joined = false ∧ ∃ e, b.use = some (.error e) ∨ b.commit = some (.error e)

/-- What the parts come to together: the failure of the part that failed, or the result of the use.
Without a use there is only the complaint about that. -/
def outcome (b : Bracket α) : Except Failure α :=
  match b.beginning, b.use, b.commit with
  | some (.error e), _, _ | _, some (.error e), _ | _, _, some (.error e) => .error e
  | _, some (.ok a), _ => .ok a
  | _, none, _ => .error (.fault .nestedTransaction)

end Bracket

namespace App

open Change

variable {σ α : Type} [Backend σ] {s : Session σ}

/-- The connection that is used: a given one, or one of a pool. -/
def connectionFor (conn : Option Connection) (pool : Option Pool) : App σ Connection :=
  match conn with
  | some c => .ok c
  | none => do usableConnection (← poolOrDefault pool)

theorem does_inTransaction (hdb : Backend.Unwinds σ) {use : Connection → App σ α} (c : Connection) :
    (call (.inTransaction c)).Does id use s fun r deeds ↦
      ∃ isOpen : Bool, r = .ok isOpen ∧ deeds = [.called (.inTransaction c) (.ok isOpen)] := by
  refine (does_call _).mono fun r deeds h ↦ ?_
  obtain ⟨isOpen, hopen⟩ := hdb.answers c s.db
  obtain rfl := h.1.trans hopen
  exact ⟨isOpen, rfl, h.2⟩

/-- A use and the commit after it, up to the first failure. -/
inductive Attempted (c : Connection) : Except Failure α → List (Deed α) → Prop where
  | committed (a : α) : Attempted c (.ok a) [.used c (.ok a), .called (.commit c) (.ok ())]
  | uncommitted (a : α) (e : Failure) :
      Attempted c (.error e) [.used c (.ok a), .called (.commit c) (.error e)]
  | raised (e : Failure) : Attempted c (.error e) [.used c (.error e)]

theorem does_useAndCommit (c : Connection) (body : Connection → App σ α) :
    (do let a ← body c; call (.commit c); pure a : App σ α).Does id body s (Attempted c) := by
  refine (does_use c).bind (fun a t deeds h ↦ ?_) fun e deeds h ↦ ?_
  · obtain ⟨-, rfl⟩ := h
    refine (does_call _).bind (fun _ u deeds h ↦ ?_) fun e deeds h ↦ ?_
    · obtain ⟨-, rfl⟩ := h
      exact .ok (.committed a)
    · obtain ⟨-, rfl⟩ := h
      exact .uncommitted a e
  · obtain ⟨-, rfl⟩ := h
    exact .raised e

theorem does_unwind (hdb : Backend.Unwinds σ) {use : Connection → App σ α} (c : Connection)
    (e : Failure) :
    (do
      let isOpen : Bool ← call (.inTransaction c)
      if isOpen then call (.rollback c)
      Change.fail e : App σ α).Does id use s fun r deeds ↦ r = .error e ∧ ∃ isOpen : Bool,
        deeds = .called (.inTransaction c) (.ok isOpen) ::
          if isOpen then [.called (.rollback c) (.ok ())] else [] := by
  refine (does_inTransaction hdb c).bind (fun isOpen t deeds h ↦ ?_) fun _ _ h ↦ ?_
  · obtain ⟨isOpen, hisOpen, rfl⟩ := h
    obtain rfl := Except.ok.inj hisOpen
    cases isOpen with
    | false => exact .fail ⟨rfl, false, rfl⟩
    | true =>
      refine (does_call _).bind (fun _ u deeds h ↦ ?_) fun e deeds h ↦ ?_
      · obtain ⟨-, rfl⟩ := h
        exact .fail ⟨rfl, true, rfl⟩
      · exact nomatch h.1.trans (hdb.rollsBack c t.db)
  · obtain ⟨_, h, -⟩ := h
    exact nomatch h

/-- **A use between the beginning of a transaction and its end** has the parts that it should have.
-/
theorem does_bracketed (hdb : Backend.Unwinds σ) (allowNested : Bool) (c : Connection)
    (body : Connection → App σ α) :
    (bracketed c body).Does id body s fun r deeds ↦
      ∃ b : Bracket α, b.IsValid false allowNested ∧ deeds = b.deeds c ∧ r = b.outcome := by
  refine (does_call _).bind (fun _ t deeds h ↦ ?_) fun e deeds h ↦ ?_
  · obtain ⟨-, rfl⟩ := h
    refine (does_useAndCommit c body).attempt_bind fun r u deeds h ↦ ?_
    cases h with
    | committed a =>
      refine .ok ⟨{ beginning := some (.ok ()), use := some (.ok a), commit := some (.ok ()) },
        ⟨?_, ?_, ?_, ?_⟩, rfl, rfl⟩ <;> simp
    | uncommitted a e =>
      refine (does_unwind hdb c e).mono fun r deeds h ↦ ?_
      obtain ⟨rfl, isOpen, rfl⟩ := h
      refine ⟨⟨some (.ok ()), some (.ok a), some (.error e), some isOpen⟩,
        ⟨?_, ?_, ?_, ?_⟩, by cases isOpen <;> rfl, rfl⟩ <;> simp
    | raised e =>
      refine (does_unwind hdb c e).mono fun r deeds h ↦ ?_
      obtain ⟨rfl, isOpen, rfl⟩ := h
      refine ⟨⟨some (.ok ()), some (.error e), none, some isOpen⟩,
        ⟨?_, ?_, ?_, ?_⟩, by cases isOpen <;> rfl, rfl⟩ <;> simp
  · obtain ⟨-, rfl⟩ := h
    refine ⟨{ beginning := some (.error e) }, ⟨?_, ?_, ?_, ?_⟩, rfl, rfl⟩ <;> simp

/-- What follows once it is known whether the connection is in a transaction already. -/
theorem does_joinedOrBracketed (hdb : Backend.Unwinds σ) (joined allowNested : Bool)
    (c : Connection) (body : Connection → App σ α) :
    (if joined && !allowNested then .fail (.fault .nestedTransaction)
      else recast (if joined then body c else bracketed c body) : App σ α).Does id body s
      fun r deeds ↦ ∃ b : Bracket α, b.IsValid joined allowNested ∧ deeds = b.deeds c ∧
        r = b.outcome.mapError Failure.recast := by
  cases joined with
  | false =>
    refine .mapFailure Failure.recast ((does_bracketed hdb allowNested c body).mono ?_)
    rintro _ deeds ⟨b, hb, hdeeds, rfl⟩
    exact ⟨b, hb, hdeeds, rfl⟩
  | true =>
    cases allowNested with
    | false => refine .fail ⟨{}, ⟨?_, ?_, ?_, ?_⟩, rfl, rfl⟩ <;> simp
    | true =>
      refine .mapFailure Failure.recast ((does_use c).mono ?_)
      rintro r _ ⟨-, rfl⟩
      refine ⟨{ use := some r }, ⟨?_, ?_, ?_, ?_⟩, rfl, ?_⟩
      all_goals cases r <;> simp [Bracket.outcome]

/-- A use inside a transaction, from the question whether there is one already to the release. -/
def transactionOn (releases allowNested destroy : Bool) (body : Connection → App σ α)
    (c : Connection) : App σ α := do
  let joined : Bool ← call (.inTransaction c)
  let use : App σ α :=
    if joined && !allowNested then .fail (.fault .nestedTransaction)
    else recast (if joined then body c else bracketed c body)
  use.finally_ fun r ↦
    if releases then release c (destroy || endedInDatabaseError r) else .ok ()

theorem transaction_eq (conn : Option Connection) (pool : Option Pool) (allowNested destroy : Bool)
    (body : Connection → App σ α) :
    transaction conn pool allowNested destroy (some body) =
      connectionFor conn pool >>=
        transactionOn (conn.isNone || destroy) allowNested destroy body := by
  cases conn with
  | none => exact (bind_assoc _ _ _).symm
  | some c => rfl

theorem does_transactionOn (hdb : Backend.Unwinds σ) (releases allowNested destroy : Bool)
    (c : Connection) (body : Connection → App σ α) :
    (transactionOn releases allowNested destroy body c).Does id body s fun r deeds ↦
      ∃ (joined : Bool) (b : Bracket α), b.IsValid joined allowNested ∧
        r = b.outcome.mapError Failure.recast ∧
        deeds = .called (.inTransaction c) (.ok joined) :: b.deeds c ++
          if releases then releasing c (destroy || endedInDatabaseError r) else [] := by
  refine (does_inTransaction hdb c).bind (fun joined t deeds h ↦ ?_) fun _ _ h ↦ ?_
  · obtain ⟨joined, hjoined, rfl⟩ := h
    obtain rfl := Except.ok.inj hjoined
    refine (does_joinedOrBracketed hdb joined allowNested c body).finally_ fun r u deeds h ↦ ?_
    obtain ⟨b, hb, rfl, rfl⟩ := h
    cases releases with
    | false =>
      refine .ok ⟨joined, b, hb, rfl, ?_⟩
      simp
    | true =>
      refine (does_release hdb.toDiscards c _).mono fun r' more hr' ↦ ?_
      obtain ⟨rfl, rfl⟩ := hr'
      exact ⟨joined, b, hb, rfl, rfl⟩
  · obtain ⟨_, h, -⟩ := h
    exact nomatch h

/-- **Transactions.** A use inside a transaction begins one, commits it or rolls it back just where
it should, whatever fails, and joins one that is open already only where that is allowed. Then the
connection of a pool is given back, and a given one only if it is to be discarded. The caller sees
what the parts came to, with timeouts as such. -/
theorem transaction_is_bracketed (hdb : Backend.Unwinds σ) (conn : Option Connection)
    (pool : Option Pool) (allowNested destroy : Bool) (body : Connection → App σ α)
    (s : Session σ) :
    match connectionFor conn pool s with
    | (.error e, s₁) =>
      transaction conn pool allowNested destroy (some body) s = (.error e, s₁)
    | (.ok c, s₁) => ∃ (joined : Bool) (b : Bracket α) (r : Except Failure α) (s₂ : Session σ),
      transaction conn pool allowNested destroy (some body) s = (r, s₂) ∧
      s₁.Path body (.called (.inTransaction c) (.ok joined) :: b.deeds c ++
        if conn.isNone || destroy then releasing c (destroy || endedInDatabaseError r) else [])
        s₂ ∧
      b.IsValid joined allowNested ∧
      match b.outcome with
      | .ok a => r = .ok a
      | .error e => ∃ e', Failure.Shown e e' ∧ r = .error e' := by
  rw [transaction_eq]
  split
  next e s₁ h => rw [bind_of_error _ h]
  next c s₁ h =>
    rw [bind_of_ok _ h]
    obtain ⟨deeds, hpath, joined, b, hb, hr, rfl⟩ : (transactionOn (conn.isNone || destroy)
      allowNested destroy body c).Does id body s₁ _ := does_transactionOn hdb _ _ _ c body
    refine ⟨joined, b, _, _, (Prod.eta _).symm, hpath, hb, ?_⟩
    rw [hr]
    cases b.outcome with
    | ok a => rfl
    | error e => exact ⟨_, e.shown_recast, rfl⟩

end App

/-- A scripted database that always tells whether a transaction is open, and unwinds. -/
structure Unwinding where
  script : Scripted

namespace Unwinding

/-- The reply of the script, without the failures that a database that unwinds has not. -/
def reply : (call : Call) → Except Failure call.Reply → Except Failure call.Reply
  | .inTransaction _, r => .ok (r.toOption.getD false : Bool)
  | .rollback _, _ | .invalidate _, _ | .close _, _ => .ok ()
  | _, r => r

instance : Backend Unwinding where
  perform call s :=
    (reply call (Backend.perform call s.script).1, ⟨(Backend.perform call s.script).2⟩)

theorem unwinds : Backend.Unwinds Unwinding where
  answers _ _ := ⟨_, rfl⟩
  rollsBack _ _ := rfl
  invalidates _ _ := rfl
  closes _ _ := rfl

end Unwinding

namespace App

/-- An error of the database that wraps one of the driver, which tells of a timeout. -/
def wrappedTimeout : Raised where
  kind := .database
  message := "canceling statement due to statement timeout"
  graph := [⟨.null, .null, some 1, none⟩, ⟨.text timeoutState, .null, none, none⟩]
  node := 0

def oneConnection : Session Unwinding where
  db := ⟨{ connections := [("c", {})], pools := [("p", [⟨"c"⟩])] }⟩

/-- A use of this connection in a transaction, which the timeout ends. -/
def timedOutUse : App Unwinding Unit :=
  transaction none (some ⟨"p"⟩) false true (some fun _ ↦ .fail (.raised wrappedTimeout))

theorem transaction_is_bracketed_timedOut :
    Backend.Unwinds Unwinding ∧ wrappedTimeout.TimedOut ∧
    (timedOutUse oneConnection).1 = .error (.fault (.statementTimeout (some "DBAPIError"))) ∧
    ∃ (s₁ s₂ : Session Unwinding) (joined : Bool) (b : Bracket Unit) (r : Except Failure Unit),
      connectionFor none (some ⟨"p"⟩) oneConnection = (.ok ⟨"c"⟩, s₁) ∧
      timedOutUse oneConnection = (r, s₂) ∧
      s₁.Path (fun _ ↦ .fail (.raised wrappedTimeout))
        (.called (.inTransaction ⟨"c"⟩) (.ok joined) :: b.deeds ⟨"c"⟩ ++ releasing ⟨"c"⟩ true) s₂ ∧
      b.IsValid joined false := by
  have htimeout : wrappedTimeout.TimedOut :=
    ⟨nofun, _, .linked (e := ⟨.null, .null, some 1, none⟩) rfl rfl rfl (.own rfl rfl)⟩
  have hrecast : Failure.recast (.raised wrappedTimeout) =
      .fault (.statementTimeout (some "DBAPIError")) := by
    generalize hshown : Failure.recast (.raised wrappedTimeout) = f
    cases hshown ▸ Failure.shown_recast (.raised wrappedTimeout) with
    | timeout _ => rfl
    | same h => exact absurd htimeout (h _ rfl)
  obtain ⟨joined, b, r, s₂, hrun, hpath, hb, -⟩ := transaction_is_bracketed Unwinding.unwinds none
    (some ⟨"p"⟩) false true (fun _ ↦ .fail (.raised wrappedTimeout)) oneConnection
  exact ⟨Unwinding.unwinds, htimeout, congrArg Except.error hrecast, _, s₂, joined, b, r, rfl, hrun,
    hpath, hb⟩

end App

end Rowmap
