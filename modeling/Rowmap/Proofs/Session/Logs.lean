import Rowmap.Proofs.Session.Sends

/-!
# What was logged decides nothing

The log of a session is written and never read. So looking for a connection ends the same way
whatever was logged before, and there is a connection after something was logged if there is one
without.
-/

namespace Rowmap

namespace App

variable {σ α β : Type}

/-- Whether something is done in the same way whatever was logged before. -/
def IgnoresLog (x : App σ α) : Prop :=
  ∀ s log, ∃ log', x { s with log } = ((x s).1, { (x s).2 with log := log' })

namespace IgnoresLog

variable {x : App σ α}

theorem ofExcept (r : Except Failure α) : IgnoresLog (Change.ofExcept r : App σ α) :=
  fun _ log ↦ ⟨log, rfl⟩

theorem ok (a : α) : IgnoresLog (Change.ok a : App σ α) := ofExcept (.ok a)

theorem tell (e : LogEvent) : IgnoresLog (App.tell e : App σ Unit) := fun _ log ↦ ⟨log ++ [e], rfl⟩

theorem bind {f : α → App σ β} (hx : IgnoresLog x) (hf : ∀ a, IgnoresLog (f a)) :
    IgnoresLog (x >>= f) := by
  intro s log
  obtain ⟨log', hlog⟩ := hx s log
  obtain ⟨a, s', hrun, hthen⟩ | ⟨e, s', hrun, hthen⟩ := Change.bind_cases x f s <;>
    rw [hrun] at hlog
  · obtain ⟨more, hmore⟩ := hf a s' log'
    exact ⟨more, by rw [Change.bind_of_ok f hlog, hthen, hmore]⟩
  · exact ⟨log', by rw [Change.bind_of_error f hlog, hthen]⟩

theorem attempt (hx : IgnoresLog x) : IgnoresLog x.attempt := by
  intro s log
  obtain ⟨log', hlog⟩ := hx s log
  refine ⟨log', ?_⟩
  rw [Change.attempt_apply, Change.attempt_apply, hlog]

theorem recast (hx : IgnoresLog x) : IgnoresLog (App.recast x) := by
  intro s log
  obtain ⟨log', hlog⟩ := hx s log
  refine ⟨log', ?_⟩
  rw [App.recast, Change.mapFailure_apply, Change.mapFailure_apply, hlog]

end IgnoresLog

/-! ## Connections -/

theorem ignoresLog_poolOrDefault (pool : Option Pool) :
    IgnoresLog (poolOrDefault pool : App σ Pool) := by
  rcases pool with _ | p
  · exact .bind (fun _ log ↦ ⟨log, rfl⟩) fun _ ↦ .ofExcept _
  · exact .ok p

variable [Backend σ]

theorem ignoresLog_call (c : Call) : IgnoresLog (call c : App σ c.Reply) := fun _ log ↦ ⟨log, rfl⟩

theorem stepwise_ignoresLog : Stepwise (σ := σ) fun _ ↦ IgnoresLog where
  ok := .ok
  bind := .bind
  attempt_bind hx hf := hx.attempt.bind fun r ↦ hf r (.ofExcept r)
  recast := .recast
  tell := .tell
  call _ := ignoresLog_call _
  noneUsable _ := .ofExcept _

/-- **A connection that there is** is there whatever was logged before. -/
theorem HasConnection.with_log {conn : Option Connection} {pool : Option Pool} {s : Session σ}
    (h : HasConnection conn pool s) (log : List LogEvent) :
    HasConnection conn pool { s with log } := by
  refine h.imp_right ?_
  rintro ⟨c, s', hrun⟩
  have hignores : IgnoresLog (do usableConnection (← poolOrDefault pool) : App σ Connection) :=
    (ignoresLog_poolOrDefault pool).bind fun p ↦ stepwise_ignoresLog.usableConnection p (.ofExcept _)
  obtain ⟨log', hlog⟩ := hignores s log
  rw [hrun] at hlog
  exact ⟨c, _, hlog⟩

end App

end Rowmap
