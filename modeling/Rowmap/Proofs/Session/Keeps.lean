import Rowmap.Proofs.Session.Stepwise
import Rowmap.Session.Refresh
import Rowmap.Stream.Pull

/-!
# What changes keep

Most changes leave most of a state alone. `Keeps` says that a change leaves what is seen of its
state, through some view, as it was, whether or not it succeeds. Bringing objects up to date keeps
everything, and what is done with connections, or to close a stream, keeps all that is live.
-/

namespace Rowmap

/-! ## Objects by their numbers -/

theorem Numbered.lookup_put_self {α : Type} (objects : Numbered α) (id : Nat) (a : α) :
    (objects.put id a).lookup id = some a := by
  rw [put, List.lookup_cons_self]

theorem Numbered.lookup_put_of_ne {α : Type} (objects : Numbered α) {id other : Nat} (a : α)
    (h : other ≠ id) : (objects.put id a).lookup other = objects.lookup other := by
  rw [put, List.lookup_cons, beq_eq_false_iff_ne.mpr h]
  induction objects with
  | nil => rfl
  | cons e objects ih =>
    obtain ⟨n, b⟩ := e
    by_cases hn : n = id
    · have hother : (other == n) = false := by rwa [beq_eq_false_iff_ne, hn]
      rw [List.filter_cons_of_neg (by simp [hn]), List.lookup_cons, hother]
      exact ih
    · rw [List.filter_cons_of_pos (by simpa using hn), List.lookup_cons, List.lookup_cons]
      cases other == n with
      | true => rfl
      | false => exact ih

/-! ## Changes -/

namespace Change

variable {τ ρ α β γ : Type}

instance : LawfulMonad (Change τ) := by
  refine LawfulMonad.mk' _ (fun x ↦ ?_) (fun _ _ ↦ rfl) fun x f g ↦ ?_
  · funext s
    show (x >>= ok) s = x s
    rw [bind_apply]
    split <;> rename_i h <;> rw [h]
    rfl
  · funext s
    simp only [bind_apply]
    cases x s with
    | mk r s' => cases r <;> rfl

/-- **Sequences.** The second change goes on from where the first one ended, and the failure of the
first is the failure of both. -/
theorem bind_cases (x : Change τ α) (f : α → Change τ β) (s : τ) :
    (∃ a t, x s = (.ok a, t) ∧ (x >>= f) s = f a t) ∨
      ∃ e t, x s = (.error e, t) ∧ (x >>= f) s = (.error e, t) := by
  rcases hrun : x s with ⟨e | a, t⟩
  · exact .inr ⟨e, t, rfl, bind_of_error f hrun⟩
  · exact .inl ⟨a, t, rfl, bind_of_ok f hrun⟩

theorem bind_eq_ok {x : Change τ α} {f : α → Change τ β} {s s' : τ} {b : β} :
    (x >>= f) s = (.ok b, s') ↔ ∃ a s₁, x s = (.ok a, s₁) ∧ f a s₁ = (.ok b, s') := by
  constructor
  · intro h
    obtain ⟨a, t, hrun, hthen⟩ | ⟨e, t, -, hthen⟩ := bind_cases x f s
    · exact ⟨a, t, hrun, hthen.symm.trans h⟩
    · exact nomatch hthen.symm.trans h
  · rintro ⟨a, t, hrun, hf⟩
    exact (bind_of_ok f hrun).trans hf

theorem ofExcept_bind_eq_ok {r : Except Failure α} {f : α → Change τ β} {s s' : τ} {b : β} :
    (ofExcept r >>= f) s = (.ok b, s') ↔ ∃ a, r = .ok a ∧ f a s = (.ok b, s') := by
  rw [bind_apply, ofExcept_apply]
  cases r <;> simp

theorem get_bind (f : τ → Change τ α) (s : τ) : (get >>= f) s = f s s := rfl

theorem gets_bind (view : τ → α) (f : α → Change τ β) (s : τ) :
    (gets view >>= f) s = f (view s) s := rfl

/-- A change that leaves what is seen of every state as it was. -/
def Keeps (view : τ → γ) (x : Change τ α) : Prop := ∀ s, view (x s).2 = view s

namespace Keeps

variable {view : τ → γ} {x : Change τ α}

theorem ok (a : α) : Keeps view (Change.ok a) := fun _ ↦ rfl

theorem get : Keeps view Change.get := fun _ ↦ rfl

theorem gets (f : τ → α) : Keeps view (Change.gets f) := fun _ ↦ rfl

theorem ofExcept (r : Except Failure α) : Keeps view (Change.ofExcept r) := fun _ ↦ rfl

theorem bind {f : α → Change τ β} (hx : Keeps view x) (hf : ∀ a, Keeps view (f a)) :
    Keeps view (x >>= f) := by
  intro s
  obtain ⟨a, t, hrun, hthen⟩ | ⟨e, t, hrun, hthen⟩ := bind_cases x f s
  · rw [hthen, hf a t, ← hx s, hrun]
  · rw [hthen, ← hx s, hrun]

theorem mapM {f : α → Change τ β} (hf : ∀ a, Keeps view (f a)) (as : List α) :
    Keeps view (as.mapM f) := by
  induction as with
  | nil => exact ok []
  | cons a as ih =>
    rw [List.mapM_cons]
    exact (hf a).bind fun b ↦ ih.bind fun bs ↦ ok (b :: bs)

theorem attempt (hx : Keeps view x) : Keeps view (Change.attempt x) := hx

theorem mapFailure (f : Failure → Failure) (hx : Keeps view x) :
    Keeps view (Change.mapFailure f x) := hx

theorem finally_ {cleanUp : Except Failure α → Change τ Unit} (hx : Keeps view x)
    (hclean : ∀ r, Keeps view (cleanUp r)) : Keeps view (x.finally_ cleanUp) :=
  hx.attempt.bind fun r ↦ (hclean r).bind fun _ ↦ ofExcept r

theorem onSecond {x : Change ρ α} {view : ρ → γ} (hx : Keeps view x) :
    Keeps (fun u : τ × ρ ↦ (u.1, view u.2)) (Change.onSecond x) :=
  fun u ↦ congrArg (Prod.mk u.1) (hx u.2)

theorem of_comp {δ : Type} (f : γ → δ) (hx : Keeps view x) : Keeps (fun s ↦ f (view s)) x :=
  fun s ↦ congrArg f (hx s)

end Keeps

end Change

open Change

variable {σ : Type}

/-- The live objects that values can hold. -/
def Session.objects (s : Session σ) : Numbered Query × Numbered Record := (s.queries, s.records)

/-- What the numbers of live objects stand for depends on these objects alone. -/
theorem Session.current_congr {s s' : Session σ} (h : s'.objects = s.objects) :
    s'.current s'.depth = s.current s.depth := by
  obtain ⟨hqueries, hrecords⟩ := Prod.mk.inj h
  -- objects inside objects are brought up to date to the same depth in both
  have hcurrent (n : Nat) : s'.current n = s.current n := by
    induction n with
    | zero => rfl
    | succ n ih =>
      funext id
      simp only [Session.current, hqueries, hrecords, ih]
  rw [hcurrent, Session.depth, Session.depth, hqueries, hrecords]

/-- What is done beside an object leaves it as it is. -/
theorem On.beside_eq_ok {α τ : Type} {x : App σ α} {t : τ} {s : Session σ} {a : α}
    {u : τ × Session σ} (h : On.beside x (t, s) = (.ok a, u)) :
    ∃ s', u = (t, s') ∧ x s = (.ok a, s') := by
  obtain ⟨hresult, rfl⟩ := Prod.mk.inj h
  exact ⟨_, rfl, Prod.ext hresult rfl⟩

namespace App

theorem keeps_refresh (v : Value) : Keeps id (refresh v : App σ Value) :=
  Keeps.get.bind fun _ ↦ .ofExcept _

theorem keeps_refreshEntries (es : Entries) : Keeps id (refreshEntries es : App σ Entries) :=
  Keeps.get.bind fun _ ↦ .ofExcept _

theorem keeps_refreshPairs (ps : Pairs) : Keeps id (refreshPairs ps : App σ Pairs) := by
  refine Keeps.mapM (fun p ↦ ?_) ps
  exact (keeps_refresh p.2).bind fun v ↦ .ok (p.1, v)

end App

/-- What is live in a session: everything but the database and what happened so far. -/
def Session.live (s : Session σ) :
    (Nat × Numbered Query × Numbered Record) × Numbered RowStream × Numbered PoolRegistry :=
  ((s.next, s.queries, s.records), s.streams, s.registries)

theorem Change.Keeps.objects {τ α : Type} {session : τ → Session σ} {x : Change τ α}
    (h : Keeps (fun t ↦ (session t).live) x) : Keeps (fun t ↦ (session t).objects) x :=
  h.of_comp fun live ↦ live.1.2

/-! ## Connections -/

namespace App

variable {α : Type}

theorem keeps_poolOrDefault (pool : Option Pool) :
    Keeps Session.live (poolOrDefault pool : App σ Pool) := by
  rcases pool with _ | p
  · exact Keeps.bind (fun _ ↦ rfl) fun r ↦ .ofExcept _
  · exact .ok p

variable [Backend σ]

theorem keeps_call (c : Call) : Keeps Session.live (call c : App σ c.Reply) := fun _ ↦ rfl

theorem keeps_execute (c : Connection) (sql : String) (values : List Value) :
    Keeps Session.live (execute c sql values : App σ Outcome) :=
  Keeps.bind (fun _ ↦ rfl) fun _ ↦ keeps_call _

theorem stepwise_keeps : Stepwise (σ := σ) fun _ ↦ Keeps Session.live where
  ok := .ok
  bind := .bind
  attempt_bind hx hf := hx.attempt.bind fun r ↦ hf r (.ofExcept r)
  recast hx := hx.mapFailure _
  tell _ := fun _ ↦ rfl
  call _ := keeps_call _
  noneUsable _ := .ofExcept _

theorem keeps_release (c : Connection) (destroy : Bool) :
    Keeps Session.live (release c destroy : App σ Unit) :=
  stepwise_keeps.release c destroy

theorem keeps_usableConnection (p : Pool) (attempts : Value) :
    Keeps Session.live (usableConnection p attempts : App σ Connection) :=
  stepwise_keeps.usableConnection p (.ofExcept _)

/-- **A use of a connection** keeps what its body keeps. -/
theorem keeps_checkout {conn : Option Connection} {pool : Option Pool} {destroy : Bool}
    {body : Connection → App σ α} (hbody : ∀ c, Keeps Session.live (body c)) :
    Keeps Session.live (checkout conn pool destroy body) :=
  stepwise_keeps.checkout (keeps_poolOrDefault pool) hbody

end App

/-! ## Streams -/

variable [Backend σ]

namespace RowStream

theorem keeps_announce (failed : Bool) :
    Keeps (fun u ↦ u.2.live) (announce failed : On RowStream σ Unit) := by
  refine (Keeps.gets _).bind fun s ↦ ?_
  cases s.onClose with
  | nothing => exact .ok ()
  | release => exact (App.keeps_release s.conn failed).onSecond.of_comp Prod.snd
  | notify => exact fun _ ↦ rfl

theorem keeps_finishTransaction (failed : Bool) :
    Keeps (fun u ↦ u.2.live) (finishTransaction failed : On RowStream σ Unit) := by
  refine (Keeps.gets _).bind fun s ↦ ?_
  cases s.ownsTransaction with
  | false => exact .ok ()
  | true => cases failed <;> exact fun _ ↦ rfl

theorem keeps_close (failed : Bool) :
    Keeps (fun u ↦ u.2.live) (close failed : On RowStream σ Unit) := by
  refine (Keeps.gets _).bind fun s ↦ ?_
  cases s.closed with
  | true => exact .ok ()
  | false =>
    refine Keeps.bind (fun _ ↦ rfl) fun _ ↦ (keeps_finishTransaction failed).finally_ fun _ ↦ ?_
    exact Keeps.bind (fun _ ↦ rfl) fun _ ↦ keeps_announce failed

end RowStream

omit [Backend σ] in
theorem App.keeps_withStream {α : Type} {x : On RowStream σ α} (id : Nat)
    (hx : Keeps (fun u ↦ u.2.objects) x) : Keeps Session.objects (App.withStream id x) := by
  intro s
  rw [App.withStream]
  cases s.streams.lookup id with
  | none => rfl
  | some stream => exact hx (stream, s)

end Rowmap
