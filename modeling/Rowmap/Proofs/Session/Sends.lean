import Rowmap.Condition.Tree
import Rowmap.Database.Checkout
import Rowmap.Proofs.Session.Additions
import Rowmap.Record.Persistence

/-!
# The statements that are sent

What is done in a session is seen by its events, which are only ever added to. `OnlySends` says of
the statements among the events that a change adds that they all have a property. It holds of a
sequence of changes when it holds of each, so what checks out a connection sends what its body
sends, however it ends.
-/

namespace Rowmap

/-- The statement that an event sends, if it sends one. -/
def Event.statement? : Event → Option Statement
  | .called (.exec _ sql values) _ => some ⟨sql, values⟩
  | .called (.openCursor _ sql values) _ => some ⟨sql, values⟩
  | .called (.driverExecute _ sql values) _ => some ⟨sql, values⟩
  | _ => none

/-- A change that adds events to the session in its state, with only such statements among them. -/
def Change.OnlySends {τ σ α : Type} (session : τ → Session σ) (p : Statement → Prop)
    (x : Change τ α) (s : τ) : Prop :=
  ∃ added, (session (x s).2).events = (session s).events ++ added ∧
    ∀ st ∈ added.filterMap Event.statement?, p st

namespace Change.OnlySends

variable {τ ρ σ α β : Type} {session : τ → Session σ} {p : Statement → Prop} {x : Change τ α}
  {s : τ}

theorem of_events (h : (session (x s).2).events = (session s).events) :
    OnlySends session p x s := ⟨[], by rw [h, List.append_nil], by simp⟩

theorem adds (h : OnlySends session p x s) :
    x.Adds session s fun _ _ added ↦ ∀ st ∈ added.filterMap Event.statement?, p st := h

theorem of_adds (h : x.Adds session s fun _ _ added ↦
    ∀ st ∈ added.filterMap Event.statement?, p st) : OnlySends session p x s := h

theorem ofExcept (r : Except Failure α) : OnlySends session p (Change.ofExcept r) s :=
  of_events rfl

theorem ok (a : α) : OnlySends session p (Change.ok a) s := of_events rfl

theorem fail (e : Failure) : OnlySends session p (Change.fail e : Change τ α) s := of_events rfl

/-- **Sequences.** The second change starts where the first one ended. -/
theorem bind {f : α → Change τ β} (hx : OnlySends session p x s)
    (hf : ∀ a s', x s = (.ok a, s') → OnlySends session p (f a) s') :
    OnlySends session p (x >>= f) s := by
  -- a change that fails has added its events all the same
  refine of_adds (hx.adds.run.bind (fun a t added hmid ↦ ?_) fun e t added hmid ↦ hmid.2)
  obtain ⟨hrun, hp⟩ := hmid
  refine (hf a t hrun).adds.mono fun r u more hp' ↦ ?_
  rw [List.filterMap_append]
  exact List.forall_mem_append.mpr ⟨hp, hp'⟩

theorem attempt (hx : OnlySends session p x s) : OnlySends session p (Change.attempt x) s := hx

theorem mapFailure (f : Failure → Failure) (hx : OnlySends session p x s) :
    OnlySends session p (Change.mapFailure f x) s := hx

theorem finally_ {cleanUp : Except Failure α → Change τ Unit} (hx : OnlySends session p x s)
    (hclean : ∀ r s', OnlySends session p (cleanUp r) s') :
    OnlySends session p (x.finally_ cleanUp) s :=
  hx.attempt.bind fun r _ _ ↦ (hclean r _).bind fun _ _ _ ↦ ofExcept r

theorem onSecond {x : Change (Session σ) α} {s : Session σ} (hx : OnlySends id p x s) (t : ρ) :
    OnlySends (fun u : ρ × Session σ ↦ u.2) p (Change.onSecond x) (t, s) := hx

theorem onFirst (x : Change ρ α) (t : ρ) (s : Session σ) :
    OnlySends (fun u : ρ × Session σ ↦ u.2) p (Change.onFirst x) (t, s) := of_events rfl

end Change.OnlySends

/-! ## Connections -/

namespace App

open Change

variable {σ α : Type} [Backend σ] {p : Statement → Prop} {s : Session σ}

theorem onlySends_call {c : Call}
    (h : ∀ reply st, (Event.called c reply).statement? = some st → p st) :
    OnlySends id p (call c : App σ c.Reply) s := by
  refine ⟨[.called c (Backend.perform c s.db).1.toOption], rfl, fun st hst ↦ ?_⟩
  obtain ⟨e, he, hst⟩ := List.mem_filterMap.mp hst
  rw [List.mem_singleton.mp he] at hst
  exact h _ st hst

theorem onlySends_silent {c : Call} (h : ∀ reply, (Event.called c reply).statement? = none) :
    OnlySends id p (call c : App σ c.Reply) s :=
  onlySends_call fun reply st hst ↦ absurd (h reply ▸ hst) (Option.some_ne_none st).symm

/-- A statement that is sent. -/
theorem onlySends_execute (c : Connection) {sql : String} {values : List Value}
    (h : p ⟨sql, values⟩) : OnlySends id p (execute c sql values : App σ Outcome) s := by
  refine (OnlySends.of_events rfl).bind fun _ s' _ ↦ onlySends_call fun reply st hst ↦ ?_
  obtain rfl : ⟨sql, values⟩ = st := Option.some.inj hst
  exact h

variable (p) in
theorem stepwise_onlySends : Stepwise (σ := σ) fun _ x ↦ ∀ s, OnlySends id p x s where
  ok a s := .ok a
  bind hx hf s := (hx s).bind fun a t _ ↦ hf a t
  attempt_bind hx hf s := (hx s).attempt.bind fun r t _ ↦ hf _ (fun _ ↦ .ofExcept _) t
  recast hx s := (hx s).mapFailure _
  tell _ _ := .of_events rfl
  call {c} hc s := onlySends_silent fun _ ↦ by
    cases c <;> first | rfl | exact nomatch hc
  noneUsable _ _ := .fail _

variable (p) in
theorem onlySends_release (c : Connection) (destroy : Bool) (s : Session σ) :
    OnlySends id p (release c destroy : App σ Unit) s :=
  (stepwise_onlySends p).release c destroy s

omit [Backend σ] in
variable (p) in
theorem onlySends_poolOrDefault (pool : Option Pool) (s : Session σ) :
    OnlySends id p (poolOrDefault pool : App σ Pool) s := by
  cases pool with
  | some pool => exact .ok pool
  | none => exact .of_events rfl

variable (p) in
theorem onlySends_usableConnection (pool : Pool) (attempts : Value) (s : Session σ) :
    OnlySends id p (usableConnection pool attempts : App σ Connection) s :=
  (stepwise_onlySends p).usableConnection pool (fun _ ↦ .ofExcept _) s

/-- **Checking out a connection** sends what its use sends. -/
theorem onlySends_checkout {conn : Option Connection} {pool : Option Pool} {destroy : Bool}
    {body : Connection → App σ α} (h : ∀ c s, OnlySends id p (body c) s) :
    OnlySends id p (checkout conn pool destroy body) s :=
  (stepwise_onlySends p).checkout (onlySends_poolOrDefault p pool) h s

end App

theorem Record.onlySends_send {σ : Type} [Backend σ] {p : Statement → Prop} (r : Record)
    {statement : Statement} (h : p statement) (s : Session σ) :
    Change.OnlySends id p (r.send statement : App σ Outcome) s :=
  App.onlySends_checkout fun c _ ↦ App.onlySends_execute c h

/-! ## Exactly these statements -/

/-- A change that adds events to the session in its state, with exactly some statements among them,
in their order. -/
def Change.Sends {τ σ α : Type} (session : τ → Session σ) (sent : List Statement) (x : Change τ α)
    (s : τ) : Prop :=
  ∃ added, (session (x s).2).events = (session s).events ++ added ∧
    added.filterMap Event.statement? = sent

namespace Change.Sends

variable {τ ρ σ α β : Type} {session : τ → Session σ} {sent : List Statement} {x : Change τ α}
  {s s' : τ}

theorem adds (h : Sends session sent x s) :
    x.Adds session s fun _ _ added ↦ added.filterMap Event.statement? = sent := h

theorem of_adds (h : x.Adds session s fun _ _ added ↦
    added.filterMap Event.statement? = sent) : Sends session sent x s := h

theorem of_onlySends (h : OnlySends session (fun _ ↦ False) x s) : Sends session [] x s := by
  obtain ⟨added, hadded, hnone⟩ := h
  exact ⟨added, hadded, List.eq_nil_iff_forall_not_mem.mpr hnone⟩

theorem bind_silent {f : α → Change τ β} (hx : Sends session sent x s)
    (hf : ∀ a s', x s = (.ok a, s') → Sends session [] (f a) s') :
    Sends session sent (x >>= f) s := by
  refine of_adds (hx.adds.run.bind (fun a t added hmid ↦ ?_) fun e t added hmid ↦ hmid.2)
  obtain ⟨hrun, hsent⟩ := hmid
  refine (hf a t hrun).adds.mono fun r u more hnone ↦ ?_
  rw [List.filterMap_append, hsent, hnone, List.append_nil]

theorem silent_bind {f : α → Change τ β} {a : α} (hx : Sends session [] x s)
    (hrun : x s = (.ok a, s')) (hf : Sends session sent (f a) s') :
    Sends session sent (x >>= f) s := by
  refine of_adds (hx.adds.run.bind (fun b t added hmid ↦ ?_) fun e t added hmid ↦ ?_)
  · obtain ⟨hrun', hnone⟩ := hmid
    obtain ⟨hb, rfl⟩ := Prod.mk.inj (hrun.symm.trans hrun')
    obtain rfl := Except.ok.inj hb
    refine hf.adds.mono fun r u more hsent ↦ ?_
    rw [List.filterMap_append, hnone, hsent, List.nil_append]
  · exact nomatch hrun.symm.trans hmid.1

theorem attempt (hx : Sends session sent x s) : Sends session sent (Change.attempt x) s := hx

theorem mapFailure (f : Failure → Failure) (hx : Sends session sent x s) :
    Sends session sent (Change.mapFailure f x) s := hx

theorem onSecond {x : Change (Session σ) α} {s : Session σ} (hx : Sends id sent x s) (t : ρ) :
    Sends (fun u : ρ × Session σ ↦ u.2) sent (Change.onSecond x) (t, s) := hx

end Change.Sends

namespace App

open Change

variable {σ α : Type} [Backend σ] {sent : List Statement} {s : Session σ}

theorem sends_execute (c : Connection) (sql : String) (values : List Value) (s : Session σ) :
    Sends id [⟨sql, values⟩] (execute c sql values : App σ Outcome) s :=
  ⟨[.called (.exec c sql values) (Backend.perform (.exec c sql values) s.db).1.toOption], rfl, rfl⟩

/-- A connection that there is for a use: a given one, or a usable one of a pool. -/
def HasConnection (conn : Option Connection) (pool : Option Pool) (s : Session σ) : Prop :=
  conn.isSome = true ∨
    ∃ c s', (do usableConnection (← poolOrDefault pool) : App σ Connection) s = (.ok c, s')

/-- A use of a connection that succeeds has had one. -/
theorem hasConnection_of_checkout {conn : Option Connection} {pool : Option Pool} {destroy : Bool}
    {body : Connection → App σ α} {a : α} {s' : Session σ}
    (h : checkout conn pool destroy body s = (.ok a, s')) : HasConnection conn pool s := by
  cases conn with
  | some c => exact .inl rfl
  | none =>
    obtain ⟨p, s₁, hpool, h⟩ := bind_eq_ok.mp h
    obtain ⟨c, s₂, hconnect, -⟩ := bind_eq_ok.mp h
    exact .inr ⟨c, s₂, bind_eq_ok.mpr ⟨p, s₁, hpool, hconnect⟩⟩

/-- **Checking out a connection that there is** sends what its use sends. -/
theorem sends_checkout {conn : Option Connection} {pool : Option Pool} {destroy : Bool}
    {body : Connection → App σ α} (h : ∀ c s, Sends id sent (body c) s)
    (hconn : HasConnection conn pool s) : Sends id sent (checkout conn pool destroy body) s := by
  cases conn with
  | some c => exact (h c s).mapFailure _
  | none =>
    obtain hsome | ⟨c, s₂, hrun⟩ := hconn
    · exact absurd hsome Bool.false_ne_true
    obtain ⟨pool', s₁, hpool, hconnect⟩ := bind_eq_ok.mp hrun
    refine Sends.silent_bind (.of_onlySends (onlySends_poolOrDefault _ pool s)) hpool ?_
    refine Sends.silent_bind (.of_onlySends (onlySends_usableConnection _ pool' _ s₁)) hconnect ?_
    have hcommitted : Sends id sent (committed c body) s₂ := by
      refine (h c s₂).bind_silent fun a s' _ ↦ .of_onlySends ?_
      refine (onlySends_silent fun _ ↦ rfl).bind fun open_ s'' _ ↦ ?_
      cases open_ with
      | true => exact (onlySends_silent fun _ ↦ rfl).bind fun _ _ _ ↦ .ok _
      | false => exact .ok _
    -- the release after the use is silent, whether or not the use failed
    refine (hcommitted.mapFailure _).attempt.bind_silent fun r s' _ ↦ .of_onlySends ?_
    exact (onlySends_release _ c _ s').bind fun _ _ _ ↦ .ofExcept r

end App

theorem Record.sends_send {σ : Type} [Backend σ] (r : Record) (statement : Statement)
    {s : Session σ} (h : App.HasConnection r.conn r.pool s) :
    Change.Sends id [statement] (r.send statement : App σ Outcome) s :=
  App.sends_checkout (fun c s ↦ App.sends_execute c statement.text statement.values s) h

end Rowmap
