import Rowmap.Proofs.Query.Custody
import Rowmap.Proofs.Record.Writes
import Rowmap.Proofs.Session.Deeds

/-!
# Checking out connections

What is done for a use of a connection of a pool: connections that cannot be used are discarded, one
before the next is taken, the first that can be used is used, once, and it is given back after that.
`Acquired` and `CheckedOut` say which deeds these are, on every path.
-/

namespace Rowmap

/-- A database that discards and takes back every connection that it is asked to. -/
structure Backend.Discards (σ : Type) [Backend σ] : Prop where
  invalidates : ∀ (c : Connection) (s : σ), (Backend.perform (.invalidate c) s).1 = .ok ()
  closes : ∀ (c : Connection) (s : σ), (Backend.perform (.close c) s).1 = .ok ()

namespace Deed

variable {α : Type}

def taken? : Deed α → Option Connection
  | .called (.connect _) reply => reply.toOption
  | _ => none

def closed? : Deed α → Option Connection
  | .called (.close c) reply => reply.toOption.map fun _ ↦ c
  | _ => none

end Deed

namespace App

open Change

variable {σ α : Type} {p : Pool} {c : Connection} {noneFound : Failure} {n : Nat}
  {looks deeds : List (Deed α)}

/-! ## Looking at a connection -/

/-- A look at a connection that can be used: there is one, it is open, and no transaction is open on
it. -/
def usableLooks (c : Connection) : List (Deed α) :=
  [.called (.driver c) (.ok true), .called (.driverClosed c) (.ok false),
    .called (.driverInTransaction c) (.ok false)]

/-- A look at a connection that cannot be used. -/
inductive Unusable (c : Connection) : List (Deed α) → Prop where
  | absent : Unusable c [.called (.driver c) (.ok false)]
  | closed : Unusable c [.called (.driver c) (.ok true), .called (.driverClosed c) (.ok true)]
  | stuck : Unusable c [.called (.driver c) (.ok true), .called (.driverClosed c) (.ok false),
      .called (.driverInTransaction c) (.ok true)]
  /-- The connection looked usable up to a call that failed. -/
  | failed (before : List (Deed α)) {rest : List (Deed α)} {call : Call}
      {reply : Except Failure call.Reply} {e : Failure}
      (h : usableLooks c = before ++ .called call reply :: rest)
      (he : e.isOrdinary = true) : Unusable c (before ++ [.called call (.error e)])

/-- What a look at a connection found: a reason not to use it, or none. -/
def Looked (c : Connection) (reason : Option String) (looks : List (Deed α)) : Prop :=
  match reason with
  | none => looks = usableLooks c
  | some _ => Unusable c looks

/-! ## Acquiring a connection -/

/-- Connections of a pool that were taken and discarded, each before the next one was taken. -/
inductive Pruned (p : Pool) : List Connection → List (Deed α) → Prop where
  | nil : Pruned p [] []
  | cons {c : Connection} {cs : List Connection} {looks deeds : List (Deed α)}
      (unusable : Unusable c looks) (rest : Pruned p cs deeds) :
      Pruned p (c :: cs) (.called (.connect p) (.ok c) :: looks ++
        .called (.invalidate c) (.ok ()) :: .called (.close c) (.ok ()) :: deeds)

/-- What comes of trying a number of connections of a pool. -/
inductive Acquired (p : Pool) (noneFound : Failure) (n : Nat) :
    Except Failure Connection → List (Deed α) → Prop where
  | found (c : Connection) {cs : List Connection} {deeds : List (Deed α)}
      (pruned : Pruned p cs deeds) (hn : cs.length < n) :
      Acquired p noneFound n (.ok c) (deeds ++ .called (.connect p) (.ok c) :: usableLooks c)
  | exhausted {cs : List Connection} {deeds : List (Deed α)} (pruned : Pruned p cs deeds)
      (hn : cs.length = n) : Acquired p noneFound n (.error noneFound) deeds
  /-- The pool failed to hand out a connection. -/
  | refused (e : Failure) {cs : List Connection} {deeds : List (Deed α)}
      (pruned : Pruned p cs deeds) (hn : cs.length < n) :
      Acquired p noneFound n (.error e) (deeds ++ [.called (.connect p) (.error e)])

/-- A connection that is discarded comes before what comes of trying the next ones. -/
theorem Acquired.cons {r : Except Failure Connection} (h : Acquired p noneFound n r deeds)
    (hlooks : Unusable c looks) :
    Acquired p noneFound (n + 1) r (.called (.connect p) (.ok c) :: looks ++
      .called (.invalidate c) (.ok ()) :: .called (.close c) (.ok ()) :: deeds) := by
  cases h with
  | found d pruned hn =>
    have hfound : Acquired p noneFound (n + 1) (.ok d) _ :=
      .found d (pruned.cons hlooks) (Nat.succ_lt_succ hn)
    rwa [List.append_assoc] at hfound
  | exhausted pruned hn => exact .exhausted (pruned.cons hlooks) (congrArg Nat.succ hn)
  | refused e pruned hn =>
    have hrefused : Acquired p noneFound (n + 1) (.error e) _ :=
      .refused e (pruned.cons hlooks) (Nat.succ_lt_succ hn)
    rwa [List.append_assoc] at hrefused

variable [Backend σ] {use : Connection → App σ α} {s : Session σ}

/-- A database in which looking at a connection fails with ordinary failures only. -/
def LooksOrdinarily (σ : Type) [Backend σ] : Prop :=
  ∀ (c : Connection) (call : Call), call ∈ [.driver c, .driverClosed c, .driverInTransaction c] →
    ∀ (s : σ) (e : Failure), (Backend.perform call s).1 = .error e → e.isOrdinary = true

/-- What comes of the looks at a connection: a reason not to use it, or none, or a failure that
stands for a reason. -/
def LookedOrFailed (c : Connection) :
    Except Failure (Option String) → List (Deed α) → Prop
  | .ok reason, looks => Looked c reason looks
  | .error e, looks => e.isOrdinary = true ∧ Unusable c looks

theorem does_unusableReason (hlooks : LooksOrdinarily σ) (c : Connection) :
    (unusableReason c).Does id use s (LookedOrFailed c) := by
  have hask {call : Call} {t : Session σ}
      (hlook : call ∈ [.driver c, .driverClosed c, .driverInTransaction c]) :
      (App.call call).Does id use t fun r looks ↦ looks = [.called call r] ∧
        ∀ e, r = .error e → e.isOrdinary = true :=
    (does_call call).mono fun r _ h ↦ ⟨h.2, fun e he ↦
      hlooks c call hlook t.db e (h.1.symm.trans he)⟩
  refine (hask (by simp)).bind (fun present t looks h ↦ ?_) fun e looks h ↦ ?_
  · obtain ⟨rfl, -⟩ := h
    cases (present : Bool) with
    | false => exact .ok .absent
    | true =>
      refine (hask (by simp)).bind (fun closed u looks h ↦ ?_) fun e looks h ↦ ?_
      · obtain ⟨rfl, -⟩ := h
        cases (closed : Bool) with
        | true => exact .ok .closed
        | false =>
          refine (hask (by simp)).bind (fun busy v looks h ↦ ?_) fun e looks h ↦ ?_
          · obtain ⟨rfl, -⟩ := h
            cases (busy : Bool) with
            | true => exact .ok .stuck
            | false => exact .ok rfl
          · obtain ⟨rfl, he⟩ := h
            exact ⟨he e rfl, .failed [_, _] rfl (he e rfl)⟩
      · obtain ⟨rfl, he⟩ := h
        exact ⟨he e rfl, .failed [_] rfl (he e rfl)⟩
  · obtain ⟨rfl, he⟩ := h
    exact ⟨he e rfl, .failed [] rfl (he e rfl)⟩

/-- **Looking at a connection** comes to a verdict on it. -/
theorem does_probe (hlooks : LooksOrdinarily σ) (c : Connection) :
    (probe c).Does id use s fun r looks ↦ ∃ reason, r = .ok reason ∧ Looked c reason looks := by
  refine (does_unusableReason hlooks c).attempt_bind fun r t looks h ↦ ?_
  cases r with
  | ok reason => exact .ok ⟨reason, rfl, (List.append_nil _).symm ▸ h⟩
  | error e =>
    obtain ⟨he, hunusable⟩ := h
    dsimp only
    rw [if_pos he]
    exact .ok ⟨some e.reason, rfl, (List.append_nil _).symm ▸ hunusable⟩

/-- The deeds that give a connection back, or discard it. -/
def releasing (c : Connection) (destroy : Bool) : List (Deed α) :=
  (if destroy then [.called (.invalidate c) (.ok ())] else []) ++ [.called (.close c) (.ok ())]

/-- **Releasing** a connection closes it, once, and last. -/
theorem does_release (hdb : Backend.Discards σ) (c : Connection) (destroy : Bool) :
    (release c destroy).Does id use s fun r deeds ↦ r = .ok () ∧ deeds = releasing c destroy := by
  have hclose (t : Session σ) : (call (.close c)).Does id use t fun r deeds ↦
      r = .ok () ∧ deeds = [.called (.close c) (.ok ())] := by
    refine (does_call _).mono fun r _ h ↦ ?_
    obtain rfl := h.1.trans (hdb.closes c t.db)
    exact ⟨rfl, h.2⟩
  cases destroy with
  | false => exact hclose s
  | true =>
    have hinvalidate : (call (.invalidate c)).Does id use s fun r deeds ↦
        r = .ok () ∧ deeds = [.called (.invalidate c) (.ok ())] := by
      refine (does_call _).mono fun r _ h ↦ ?_
      obtain rfl := h.1.trans (hdb.invalidates c s.db)
      exact ⟨rfl, h.2⟩
    refine hinvalidate.bind (fun _ t deeds h ↦ ?_) fun _ _ h ↦ nomatch h.1
    rw [h.2]
    exact (hclose t).mono fun _ _ hmore ↦ ⟨hmore.1, congrArg _ hmore.2⟩

/-- **Trying connections** discards those that cannot be used up to the first that can. -/
theorem does_usableAmong (hdb : Backend.Discards σ) (hlooks : LooksOrdinarily σ) (p : Pool)
    (attempts : Value) (limit : Int) (n : Nat) (s : Session σ) :
    (usableAmong p attempts limit n).Does id use s
      (Acquired p (.fault (.noUsableConnection attempts)) n) := by
  induction n generalizing s with
  | zero => exact .fail (.exhausted .nil rfl)
  | succ n ih =>
    refine (does_call _).bind (fun c t deeds h ↦ ?_) fun e deeds h ↦ ?_
    · obtain ⟨-, rfl⟩ := h
      refine (does_probe hlooks c).bind (fun reason u looks h ↦ ?_) fun _ _ h ↦ ?_
      · obtain ⟨_, hreason, hlooked⟩ := h
        obtain rfl := Except.ok.inj hreason
        cases reason with
        | none =>
          obtain rfl : looks = usableLooks c := hlooked
          exact .ok (.found c .nil (Nat.succ_pos n))
        | some reason =>
          refine (does_tell _).bind (fun _ v _ h ↦ ?_) fun _ _ h ↦ nomatch h.1
          obtain ⟨-, rfl⟩ := h
          refine (does_release hdb c true).bind (fun _ w _ h ↦ ?_) fun _ _ h ↦ nomatch h.1
          obtain ⟨-, rfl⟩ := h
          refine (ih w).mono fun r deeds h ↦ ?_
          exact h.cons hlooked
      · obtain ⟨_, h, -⟩ := h
        exact nomatch h
    · exact h.2 ▸ .refused e .nil (Nat.succ_pos n)

/-! ## Uses -/

/-- What follows a use of a connection before that is given back, and what the use and this come to:
a commit where the use returned and the connection reports a transaction, and nothing where it did
not return. -/
inductive Settled (c : Connection) :
    Except Failure α → List (Deed α) → Except Failure α → Prop where
  | raised (e : Failure) : Settled c (.error e) [] (.error e)
  | idle (a : α) : Settled c (.ok a) [.called (.inTransaction c) (.ok false)] (.ok a)
  | committed (a : α) : Settled c (.ok a)
      [.called (.inTransaction c) (.ok true), .called (.commit c) (.ok ())] (.ok a)
  | uncommitted (a : α) (e : Failure) : Settled c (.ok a)
      [.called (.inTransaction c) (.ok true), .called (.commit c) (.error e)] (.error e)
  /-- The connection failed to report. -/
  | unasked (a : α) (e : Failure) :
      Settled c (.ok a) [.called (.inTransaction c) (.error e)] (.error e)

/-- What comes of a use of a connection of a pool. -/
inductive CheckedOut (p : Pool) (noneFound : Failure) (n : Nat) (destroy : Bool) :
    Except Failure α → List (Deed α) → Prop where
  /-- There was no connection to use. -/
  | unused {e : Failure} {deeds : List (Deed α)}
      (acquired : Acquired p noneFound n (.error e) deeds) :
      CheckedOut p noneFound n destroy (.error e) deeds
  | used {c : Connection} {before after : List (Deed α)} {r r' : Except Failure α}
      (acquired : Acquired p noneFound n (.ok c) before) (settled : Settled c r after r') :
      CheckedOut p noneFound n destroy (r'.mapError Failure.recast)
        (before ++ .used c r :: after ++
          releasing c (destroy || endedInDatabaseError (r'.mapError Failure.recast)))

/-! ### Balance -/

/-- Deeds that neither take a connection nor give one back. -/
def Keeping (deeds : List (Deed α)) : Prop := ∀ d ∈ deeds, d.taken? = none ∧ d.closed? = none

theorem Keeping.nil : Keeping ([] : List (Deed α)) := fun _ h ↦ nomatch h

theorem Keeping.cons {d : Deed α} (hd : d.taken? = none ∧ d.closed? = none) (h : Keeping deeds) :
    Keeping (d :: deeds) := List.forall_mem_cons.mpr ⟨hd, h⟩

theorem Keeping.append {more : List (Deed α)} (h : Keeping deeds) (hmore : Keeping more) :
    Keeping (deeds ++ more) := List.forall_mem_append.mpr ⟨h, hmore⟩

theorem Keeping.filterMap_append (h : Keeping deeds) (more : List (Deed α)) :
    (deeds ++ more).filterMap Deed.taken? = more.filterMap Deed.taken? ∧
      (deeds ++ more).filterMap Deed.closed? = more.filterMap Deed.closed? := by
  rw [List.filterMap_append, List.filterMap_append,
    List.filterMap_eq_nil_iff.mpr fun d hd ↦ (h d hd).1,
    List.filterMap_eq_nil_iff.mpr fun d hd ↦ (h d hd).2]
  exact ⟨rfl, rfl⟩

theorem keeping_usableLooks (c : Connection) : Keeping (usableLooks c : List (Deed α)) :=
  .cons ⟨rfl, rfl⟩ (.cons ⟨rfl, rfl⟩ (.cons ⟨rfl, rfl⟩ .nil))

theorem Unusable.keeping (h : Unusable c looks) : Keeping looks := by
  cases h with
  | absent => exact .cons ⟨rfl, rfl⟩ .nil
  | closed => exact .cons ⟨rfl, rfl⟩ (.cons ⟨rfl, rfl⟩ .nil)
  | stuck => exact .cons ⟨rfl, rfl⟩ (.cons ⟨rfl, rfl⟩ (.cons ⟨rfl, rfl⟩ .nil))
  | @failed before rest call reply e hlooks he =>
    refine .append (fun d hd ↦ ?_) (.cons ?_ .nil)
    · exact keeping_usableLooks c d (hlooks ▸ List.mem_append_left _ hd)
    · cases call <;> exact ⟨rfl, rfl⟩

theorem Settled.keeping {r r' : Except Failure α} (h : Settled c r deeds r') : Keeping deeds := by
  cases h with
  | raised e => exact .nil
  | idle a => exact .cons ⟨rfl, rfl⟩ .nil
  | committed a => exact .cons ⟨rfl, rfl⟩ (.cons ⟨rfl, rfl⟩ .nil)
  | uncommitted a e => exact .cons ⟨rfl, rfl⟩ (.cons ⟨rfl, rfl⟩ .nil)
  | unasked a e => exact .cons ⟨rfl, rfl⟩ .nil

/-- Deeds that give back the connections that they take, each once, in the order in which they were
taken. -/
def Balanced (deeds : List (Deed α)) : Prop :=
  deeds.filterMap Deed.closed? = deeds.filterMap Deed.taken?

/-- A connection that is kept for a while and then given back. -/
theorem Balanced.cons (hlooks : Keeping looks) (h : Balanced deeds) : Balanced
    (.called (.connect p) (.ok c) :: looks ++ .called (.close c) (.ok ()) :: deeds) := by
  obtain ⟨htaken, hclosed⟩ := hlooks.filterMap_append (.called (.close c) (.ok ()) :: deeds)
  have hclosed' : (.called (.close c) (.ok ()) :: deeds).filterMap Deed.closed? =
      c :: deeds.filterMap Deed.closed? := rfl
  show (looks ++ _).filterMap Deed.closed? = c :: (looks ++ _).filterMap Deed.taken?
  rw [htaken, hclosed, hclosed', h]
  rfl

theorem Pruned.balanced_append {cs : List Connection} (h : Pruned p cs deeds)
    {more : List (Deed α)} (hmore : Balanced more) : Balanced (deeds ++ more) := by
  induction h with
  | nil => exact hmore
  | @cons c cs looks deeds unusable rest ih =>
    have hkeeping : Keeping (looks ++ [.called (.invalidate c) (.ok ())]) :=
      unusable.keeping.append (.cons ⟨rfl, rfl⟩ .nil)
    have hbalanced := Balanced.cons (p := p) (c := c) hkeeping ih
    simpa using hbalanced

/-- **The balance of a use.** The connections given back are those taken, each once, in that order.
-/
theorem CheckedOut.balanced {destroy : Bool} {r : Except Failure α}
    (h : CheckedOut p noneFound n destroy r deeds) : Balanced deeds := by
  cases h with
  | unused acquired =>
    cases acquired with
    | exhausted pruned hn => simpa using pruned.balanced_append (rfl : Balanced [])
    | refused e pruned hn => exact pruned.balanced_append rfl
  | @used c _ after r r' acquired settled =>
    cases acquired with
    | found _ pruned hn =>
      have hused : Keeping (usableLooks c ++ .used c r :: after) :=
        (keeping_usableLooks c).append (.cons ⟨rfl, rfl⟩ settled.keeping)
      have hreleased (destroy : Bool) : Balanced (.called (.connect p) (.ok c) ::
          (usableLooks c ++ .used c r :: after) ++ releasing c destroy) := by
        cases destroy with
        | false => exact .cons hused (rfl : Balanced [])
        | true =>
          have hdiscarded := hused.append (.cons ⟨rfl, rfl⟩ .nil : Keeping
            [.called (.invalidate c) (.ok ())])
          simpa [releasing] using Balanced.cons (p := p) (c := c) hdiscarded (rfl : Balanced [])
      have hbalanced := pruned.balanced_append (hreleased
        (destroy || endedInDatabaseError (r'.mapError Failure.recast)))
      simpa using hbalanced

theorem does_committed (body : Connection → App σ α) (c : Connection) :
    (committed c body).Does id body s fun r' deeds ↦
      ∃ r after, deeds = .used c r :: after ∧ Settled c r after r' := by
  refine (does_use c).bind (fun a t deeds h ↦ ?_) fun e deeds h ↦ ?_
  · obtain ⟨-, rfl⟩ := h
    refine (does_call _).bind (fun open_ u deeds h ↦ ?_) fun e deeds h ↦ ?_
    · obtain ⟨-, rfl⟩ := h
      cases (open_ : Bool) with
      | false => exact .ok ⟨_, _, rfl, .idle a⟩
      | true =>
        refine (does_call _).bind (fun _ v deeds h ↦ ?_) fun e deeds h ↦ ?_
        · obtain ⟨-, rfl⟩ := h
          exact .ok ⟨_, _, rfl, .committed a⟩
        · obtain ⟨-, rfl⟩ := h
          exact ⟨_, _, rfl, .uncommitted a e⟩
    · obtain ⟨-, rfl⟩ := h
      exact ⟨_, _, rfl, .unasked a e⟩
  · obtain ⟨-, rfl⟩ := h
    exact ⟨_, _, rfl, .raised e⟩

/-- **Checking out** a connection of a pool. -/
theorem does_checkout (hdb : Backend.Discards σ) (hlooks : LooksOrdinarily σ) {pool : Option Pool}
    {p : Pool} (hp : (poolOrDefault pool s).1 = .ok p) (destroy : Bool)
    (body : Connection → App σ α) :
    (checkout none pool destroy body).Does id body s
      (CheckedOut p (.fault (.noUsableConnection defaultAttempts)) 100 destroy) := by
  have hpool : (poolOrDefault pool : App σ Pool).Does id body s fun r deeds ↦
      r = .ok p ∧ deeds = [] := by
    refine .of_keeps ?_ ⟨hp, rfl⟩
    rw [poolOrDefault_eq]
  refine hpool.bind (fun p' t deeds h ↦ ?_) fun _ _ h ↦ nomatch h.1
  obtain ⟨hp', rfl⟩ := h
  obtain rfl := Except.ok.inj hp'
  refine (does_usableAmong hdb hlooks p' defaultAttempts 100 100 t).bind (fun c u before h ↦ ?_)
    fun e deeds h ↦ .unused h
  have huse : (recast (committed c body)).Does id body u fun r deeds ↦ ∃ r₀ r' after,
      r = r'.mapError Failure.recast ∧ deeds = .used c r₀ :: after ∧ Settled c r₀ after r' := by
    refine .mapFailure Failure.recast ((does_committed body c).mono fun r' deeds h ↦ ?_)
    obtain ⟨r₀, after, hdeeds, hsettled⟩ := h
    exact ⟨r₀, r', after, rfl, hdeeds, hsettled⟩
  refine huse.finally_ fun r v deeds hr ↦ (does_release hdb c _).mono fun r' more hr' ↦ ?_
  obtain ⟨r₀, r, after, rfl, rfl, hsettled⟩ := hr
  obtain ⟨rfl, rfl⟩ := hr'
  have hused : CheckedOut p' _ 100 destroy _ _ := .used h hsettled
  rwa [List.append_assoc] at hused

/-- **Acquiring** a connection tries as many as it is told to. -/
theorem does_usableConnection (hdb : Backend.Discards σ) (hlooks : LooksOrdinarily σ) (p : Pool)
    (attempts : Value) :
    (usableConnection p attempts).Does id use s fun r deeds ↦
      match Sequence.position attempts with
      | .ok limit => Acquired p (.fault (.noUsableConnection attempts)) limit.toNat r deeds
      | .error e => r = .error e ∧ deeds = [] := by
  rw [usableConnection]
  cases Sequence.position attempts with
  | error e => exact .of_keeps rfl ⟨rfl, rfl⟩
  | ok limit => exact does_usableAmong hdb hlooks p attempts limit limit.toNat s

end App

/-! ## Records -/

namespace Record

open Change

variable {σ γ : Type} [Backend σ] {r object : Record} {p : Pool} {s : Session σ}

def sending (statement : Statement) (c : Connection) : App σ Outcome :=
  App.execute c statement.text statement.values

/-- What comes of an operation that is asked to send a statement on a connection of a pool, where
`took` is what it makes of the outcome. Without a statement nothing is done, whether there is none
to send or it could not be made. -/
inductive Sent (p : Pool) (took : Outcome → Except Failure Bool) :
    Except Failure (Option Statement) → Except Failure Bool → List (Deed Outcome) → Prop where
  | unmade (e : Failure) : Sent p took (.error e) (.error e) []
  | nothing : Sent p took (.ok none) (.ok false) []
  | failed {statement : Statement} {e : Failure} {deeds : List (Deed Outcome)}
      (used : App.CheckedOut p (.fault (.noUsableConnection App.defaultAttempts)) 100 false
        (.error e) deeds) : Sent p took (.ok (some statement)) (.error e) deeds
  | sent {statement : Statement} {outcome : Outcome} {deeds : List (Deed Outcome)}
      (used : App.CheckedOut p (.fault (.noUsableConnection App.defaultAttempts)) 100 false
        (.ok outcome) deeds) : Sent p took (.ok (some statement)) (took outcome) deeds

/-- An operation on a record that sends what it is asked to, and nothing else, on a connection of a
pool. -/
def SendsOnPool (p : Pool) (asked : Except Failure (Option Statement))
    (took : Outcome → Except Failure Bool) (x : On Record σ Bool) (u : Record × Session σ) : Prop :=
  x.Does (·.2) (sending (asked.toOption.join.getD ⟨"", []⟩)) u (Sent p took asked)

/-! ### What operations ask for -/

/-- What loading a record is asked to send: nothing without fields. -/
def askedToLoad (r : Record) (s : Session σ) (fields : Option Value) :
    Except Failure (Option Statement) := do
  let fields ← (App.refresh (fields.getD r.givenFields) s).1
  if !fields.truthy then .ok none else some <$> (loadStatement r.type fields).result

/-- What saving a record is asked to send: nothing without a dirty field if it is loaded. -/
def askedToSave (r : Record) (s : Session σ) (skipReload ignoreConflict : Bool) :
    Except Failure (Option Statement) := do
  ((← (r.refreshed s).1).saveStatement skipReload ignoreConflict).result

def askedToDelete (r : Record) (s : Session σ) : Except Failure (Option Statement) := do
  some <$> (← (r.refreshed s).1).removalStatement.result

/-! ### What operations make of an outcome -/

/-- Whether there is one row that a record takes over. -/
def tookMatch (r : Record) (o : Outcome) : Except Failure Bool :=
  match o.rows with
  | [row] => (loadRow row r).1.map fun _ ↦ true
  | _ => .ok false

/-- Whether a row was written, which a record takes over unless it is told not to. -/
def tookWritten (r : Record) (skipReload : Bool) (o : Outcome) : Except Failure Bool :=
  if skipReload then .ok true
  else
    match o.rows with
    | [] => .ok false
    | row :: _ => (loadRow row r).1.map fun _ ↦ true

/-- Whether exactly one row was deleted. -/
def tookRemoval (o : Outcome) : Except Failure Bool := .ok (o.rowCount.equal (.int 1))

/-- A change of a record with a known result that does nothing in the session. -/
def Concludes (x : On Record σ Bool) (object : Record) (result : Except Failure Bool) : Prop :=
  ∀ (use : Connection → App σ Outcome) s,
    x.Does (·.2) use (object, s) fun r deeds ↦ r = result ∧ deeds = []

theorem Concludes.ok (b : Bool) : Concludes (Change.ok b : On Record σ Bool) object (.ok b) :=
  fun _ _ ↦ .ok ⟨rfl, rfl⟩

theorem Concludes.own (x : Change Record Unit) :
    Concludes (On.own x >>= fun _ ↦ .ok true : On Record σ Bool) object
      ((x object).1.map fun _ ↦ true) := by
  intro use s
  have hown : (On.own x : On Record σ Unit).Does (·.2) use (object, s) fun r deeds ↦
      r = (x object).1 ∧ deeds = [] := .of_keeps rfl ⟨rfl, rfl⟩
  refine hown.bind (fun c v deeds h ↦ ?_) fun e deeds h ↦ ?_
  · obtain ⟨hresult, rfl⟩ := h
    rw [← hresult]
    exact .ok ⟨rfl, rfl⟩
  · obtain ⟨hresult, rfl⟩ := h
    rw [← hresult]
    exact ⟨rfl, rfl⟩

theorem concludes_takeWritten (skipReload : Bool) (o : Outcome) :
    Concludes (takeWritten skipReload o.rows : On Record σ Bool) object
      (object.tookWritten skipReload o) := by
  obtain ⟨rows, rowCount, returnsRows, scalar⟩ := o
  cases skipReload with
  | true => exact .ok true
  | false =>
    cases rows with
    | nil => exact .ok false
    | cons row rows => exact .own (loadRow row)

theorem concludes_takeMatches (fields : Value) (o : Outcome) :
    Concludes (takeMatches fields o.rows : On Record σ Bool) object (object.tookMatch o) := by
  obtain ⟨rows, rowCount, returnsRows, scalar⟩ := o
  match rows with
  | [] => exact .ok false
  | [row] => exact .own (loadRow row)
  | _ :: _ :: _ =>
    intro use s
    have hwarned (f : Record → Record) :
        (On.own (Change.modify f) : On Record σ Unit).Does (·.2) use (object, s)
          fun r deeds ↦ r = .ok () ∧ deeds = [] := .of_keeps rfl ⟨rfl, rfl⟩
    refine Does.object ((hwarned _).bind (fun _ t _ h ↦ ?_) fun _ _ h ↦ nomatch h.1)
    obtain ⟨-, rfl⟩ := h
    refine (App.does_tell _).onSecond.bind (fun _ _ _ h ↦ .ok ?_) fun _ _ h ↦ nomatch h.1
    obtain ⟨-, rfl⟩ := h
    exact ⟨rfl, rfl⟩

/-! ### Operations -/

section

variable {took : Outcome → Except Failure Bool}

theorem sendsOnPool_nothing :
    SendsOnPool p (.ok none) took (Change.ok false : On Record σ Bool) (object, s) :=
  .ok .nothing

theorem sendsOnPool_send (hdb : Backend.Discards σ) (hlooks : App.LooksOrdinarily σ)
    (hp : (App.poolOrDefault r.pool s).1 = .ok p) (hconn : r.conn = none) (statement : Statement)
    {k : Outcome → On Record σ Bool} (hk : ∀ o, Concludes (k o) object (took o)) :
    SendsOnPool p (.ok (some statement)) took (On.beside (r.send statement) >>= k) (object, s) := by
  have hsend := App.does_checkout hdb hlooks hp false (sending statement)
  rw [← hconn] at hsend
  refine Does.beside_bind hsend (fun o t deeds h ↦ ?_) fun _ _ h ↦ .failed h
  refine (hk o _ t).mono fun _ more hmore ↦ ?_
  obtain ⟨rfl, rfl⟩ := hmore
  rw [List.append_nil]
  exact .sent h

/-- What is done with something that is found out without anything being done but logging. -/
theorem sendsOnPool_bind {x : App σ γ} {k : γ → On Record σ Bool}
    {asked : γ → Except Failure (Option Statement)}
    (hx : ∀ use : Connection → App σ Outcome, s.Path use [] (x s).2)
    (hk : ∀ c t, x s = (.ok c, t) → SendsOnPool p (asked c) took (k c) (object, t)) :
    SendsOnPool p ((x s).1 >>= asked) took (On.beside x >>= k) (object, s) := by
  have hbeside : On.beside x (object, s) = ((x s).1, object, (x s).2) := rfl
  rcases hrun : x s with ⟨e | c, t⟩ <;> rw [hrun] at hbeside
  · have hpath := hx (sending ⟨"", []⟩)
    rw [hrun] at hpath
    refine ⟨[], ?_, ?_⟩ <;> rw [bind_of_error k hbeside]
    · exact hpath
    · exact .unmade e
  · obtain ⟨deeds, hrest, hsent⟩ := hk c t hrun
    have hpath := hx (sending ((asked c).toOption.join.getD ⟨"", []⟩))
    rw [hrun] at hpath
    refine ⟨deeds, ?_, ?_⟩ <;> rw [bind_of_ok k hbeside]
    · exact hpath.append hrest
    · exact hsent

/-- What is done with a statement, once it is made. -/
theorem sendsOnPool_logged {y : Logged γ} {k : γ → On Record σ Bool}
    {asked : γ → Except Failure (Option Statement)} {pool : Option Pool}
    (hp : (App.poolOrDefault pool s).1 = .ok p)
    (hk : ∀ c s', (App.poolOrDefault pool s').1 = .ok p →
      SendsOnPool p (asked c) took (k c) (object, s')) :
    SendsOnPool p (y.result >>= asked) took (On.beside (App.logged y) >>= k) (object, s) := by
  refine sendsOnPool_bind (x := App.logged y) (fun _ ↦ .of_log y.log s) fun c t hrun ↦ ?_
  obtain rfl : { s with log := s.log ++ y.log } = t := (Prod.mk.inj hrun).2
  exact hk c _ (by cases pool <;> exact hp)

/-- What is done with what is seen of a session. -/
theorem sendsOnPool_beside {x : App σ γ} {k : γ → On Record σ Bool}
    {asked : γ → Except Failure (Option Statement)} (hx : Keeps id x)
    (hk : ∀ c, (x s).1 = .ok c → SendsOnPool p (asked c) took (k c) (object, s)) :
    SendsOnPool p ((x s).1 >>= asked) took (On.beside x >>= k) (object, s) := by
  have hkept : (x s).2 = s := hx s
  refine sendsOnPool_bind (fun _ ↦ hkept.symm ▸ .done s) fun c t hrun ↦ ?_
  rw [hrun] at hkept
  obtain rfl : t = s := hkept
  exact hk c (congrArg Prod.fst hrun)

end

/-- **Loading, saving and deleting** a record send what they are asked to, on one connection. -/
theorem sendsOnPool_operation (hdb : Backend.Discards σ) (hlooks : App.LooksOrdinarily σ)
    (hp : (App.poolOrDefault r.pool s).1 = .ok p) (hconn : r.conn = none) :
    (∀ fields, SendsOnPool p (r.askedToLoad s fields) r.tookMatch (load fields) (r, s)) ∧
    (∀ skipReload ignoreConflict, SendsOnPool p (r.askedToSave s skipReload ignoreConflict)
      (r.tookWritten skipReload) (save skipReload ignoreConflict) (r, s)) ∧
    SendsOnPool p (r.askedToDelete s) tookRemoval delete (r, s) := by
  have hrefreshed {x : Record → On Record σ Bool} {took : Outcome → Except Failure Bool}
      {asked : Record → Except Failure (Option Statement)}
      (hx : ∀ r', r'.conn = none → (App.poolOrDefault r'.pool s).1 = .ok p →
        SendsOnPool p (asked r') took (x r') (r, s)) :
      SendsOnPool p ((r.refreshed s).1 >>= asked) took (On.beside r.refreshed >>= x) (r, s) := by
    refine sendsOnPool_beside r.keeps_refreshed fun r' hr' ↦ ?_
    obtain ⟨hconn', hpool'⟩ := source_of_refreshed hr'
    exact hx r' (hconn'.trans hconn) (hpool' ▸ hp)
  refine ⟨fun fields ↦ ?_, fun skipReload ignoreConflict ↦ ?_, ?_⟩
  · show SendsOnPool p ((App.refresh (fields.getD r.givenFields) s).1 >>= _) r.tookMatch
      (On.beside (App.refresh (fields.getD r.givenFields)) >>= _) (r, s)
    refine sendsOnPool_beside (Keeps.get.bind fun _ ↦ .ofExcept _) fun fields _ ↦ ?_
    split
    · exact sendsOnPool_nothing
    · refine sendsOnPool_logged hp fun statement s' hp' ↦ ?_
      exact sendsOnPool_send hdb hlooks hp' hconn statement fun o ↦ concludes_takeMatches fields o
  · refine hrefreshed fun r' hconn' hp' ↦ ?_
    rw [← bind_pure (r'.saveStatement skipReload ignoreConflict).result]
    refine sendsOnPool_logged hp' fun found s' hp' ↦ ?_
    cases found with
    | none => exact sendsOnPool_nothing
    | some statement =>
      exact sendsOnPool_send hdb hlooks hp' hconn' statement fun o ↦
        concludes_takeWritten skipReload o
  · refine hrefreshed fun r' hconn' hp' ↦ ?_
    refine sendsOnPool_logged hp' fun statement s' hp' ↦ ?_
    refine sendsOnPool_send hdb hlooks hp' hconn' statement fun o ↦ ?_
    rw [tookRemoval]
    cases o.rowCount.equal (.int 1) with
    | true => exact .own _
    | false => exact .ok false

end Record

namespace App

open Change

variable {σ : Type} [Backend σ]

def sendForRows (sql : String) (values : Value) (c : Connection) : App σ (List Row) := do
  let outcome : Outcome ← executeOver c sql (if values.truthy then values else .list [])
  .ok (if outcome.returnsRows then outcome.rows else [])

/-- **Connections of a pool are used one at a time.** The first usable one of those that are tried
is used, once, and no other; each before it is discarded before the next is taken, and it is given
back, once and last, however its use ends. Where none is usable, nothing is used. So it is for every
use of a connection of a pool: callbacks, statements, and what records send. -/
theorem first_usable_is_used (hdb : Backend.Discards σ) (hlooks : LooksOrdinarily σ) :
    (∀ {α : Type} (use : Connection → App σ α) (p : Pool) (attempts : Value) (s : Session σ),
      (usableConnection p attempts).Does id use s fun r deeds ↦
        match Sequence.position attempts with
        | .ok limit => Acquired p (.fault (.noUsableConnection attempts)) limit.toNat r deeds
        | .error e => r = .error e ∧ deeds = []) ∧
    (∀ {α : Type} (pool : Option Pool) (p : Pool) (destroy : Bool) (body : Connection → App σ α)
      (s : Session σ), (poolOrDefault pool s).1 = .ok p →
      (checkout none pool destroy body).Does id body s fun r deeds ↦ Balanced deeds ∧
        CheckedOut p (.fault (.noUsableConnection (.int 100))) 100 destroy r deeds) ∧
    (∀ {α : Type} (pool : Option Pool) (destroy : Bool) (body : Connection → App σ α),
      connected pool destroy (some body) = checkout none pool destroy body) ∧
    (∀ (sql : String) (values : Value) (pool : Option Pool) (destroy : Bool),
      queryRows sql values pool destroy =
        (checkout none pool destroy (sendForRows sql values) : App σ (List Row))) ∧
    ∀ (r : Record) (p : Pool) (s : Session σ), r.conn = none →
      (poolOrDefault r.pool s).1 = .ok p →
      (∀ fields, Record.SendsOnPool p (r.askedToLoad s fields) r.tookMatch
        (Record.load fields) (r, s)) ∧
      (∀ skipReload ignoreConflict, Record.SendsOnPool p
        (r.askedToSave s skipReload ignoreConflict) (r.tookWritten skipReload)
        (Record.save skipReload ignoreConflict) (r, s)) ∧
      Record.SendsOnPool p (r.askedToDelete s) Record.tookRemoval Record.delete (r, s) := by
  refine ⟨fun use p attempts s ↦ ?_, fun pool p destroy body s hp ↦ ?_, fun _ _ _ ↦ rfl,
    fun _ _ _ _ ↦ rfl, fun r p s hconn hp ↦ ?_⟩
  · exact does_usableConnection hdb hlooks p attempts
  · exact (does_checkout hdb hlooks hp destroy body).mono fun r deeds h ↦ ⟨h.balanced, h⟩
  · exact Record.sendsOnPool_operation hdb hlooks hp hconn

/-- A session with three connections in a pool: a closed one, one that cannot be looked at, and one
that is usable. -/
def threeConnections : Session Steady where
  db := ⟨{
    connections := [("a", { driver := { closed := true } }),
      ("b", { failures := [("raw", Scripted.exhausted)] }),
      ("c", {})]
    pools := [("p", [⟨"a"⟩, ⟨"b"⟩, ⟨"c"⟩])] }⟩

/-- A use of the first usable one of these connections. -/
def thirdUse : App Steady Outcome :=
  checkout none (some ⟨"p"⟩) false fun c ↦ execute c "SELECT 1" []

theorem first_usable_is_used_third :
    Backend.Discards Steady ∧ LooksOrdinarily Steady ∧
    (thirdUse threeConnections).1 = .ok Scripted.noRows ∧
    Custody.taken (thirdUse threeConnections).2.events = [⟨"a"⟩, ⟨"b"⟩, ⟨"c"⟩] ∧
    Custody.returned (thirdUse threeConnections).2.events = [⟨"a"⟩, ⟨"b"⟩, ⟨"c"⟩] ∧
    thirdUse.Does id (fun c ↦ execute c "SELECT 1" []) threeConnections fun r deeds ↦
      Balanced deeds ∧
        CheckedOut ⟨"p"⟩ (.fault (.noUsableConnection (.int 100))) 100 false r deeds := by
  have hdb : Backend.Discards Steady := ⟨Steady.releases.invalidates, Steady.releases.closes⟩
  have hlooks : LooksOrdinarily Steady := fun _ call _ ↦ Steady.releases.ordinary call
  refine ⟨hdb, hlooks, rfl, rfl, rfl, ?_⟩
  exact (first_usable_is_used hdb hlooks).2.1 (some ⟨"p"⟩) ⟨"p"⟩ false _ _ rfl

end App

end Rowmap
