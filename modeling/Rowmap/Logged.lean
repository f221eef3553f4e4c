import Rowmap.Failure.Basic
import Rowmap.LogEvent

/-!
# Computations that log

A computation with a result or a failure and the events logged on the way; what was logged before a
failure stays logged. Taking the result forgets the log, and it forgets it step by step, so facts
about results never mention logs.
-/

namespace Rowmap

/-- A result or a failure, with the events logged on the way. -/
structure Logged (α : Type) where
  log : List LogEvent
  result : Except Failure α

namespace Logged

variable {α β : Type}

/-- A result, without logging. -/
def ok (a : α) : Logged α := ⟨[], .ok a⟩

/-- A failure, without logging. -/
def fail (f : Failure) : Logged α := ⟨[], .error f⟩

def tell (e : LogEvent) : Logged Unit := ⟨[e], .ok ()⟩

def ofExcept (x : Except Failure α) : Logged α := ⟨[], x⟩

/-- One computation, then another from its result. -/
def bind (x : Logged α) (f : α → Logged β) : Logged β :=
  match x.result with
  | .error e => ⟨x.log, .error e⟩
  | .ok a => ⟨x.log ++ (f a).log, (f a).result⟩

instance : Monad Logged where
  pure := ok
  bind := bind

@[simp] theorem result_pure (a : α) : (pure a : Logged α).result = .ok a := rfl

@[simp] theorem result_ok (a : α) : (ok a).result = .ok a := rfl

@[simp] theorem result_fail (f : Failure) : (fail f : Logged α).result = .error f := rfl

@[simp] theorem result_tell (e : LogEvent) : (tell e).result = .ok () := rfl

@[simp] theorem result_ofExcept (x : Except Failure α) : (ofExcept x).result = x := rfl

@[simp] theorem result_bind (x : Logged α) (f : α → Logged β) :
    (x >>= f).result = x.result >>= fun a ↦ (f a).result := by
  show (bind x f).result = _
  unfold bind
  split <;> rename_i h <;> rw [h] <;> rfl

theorem ok_bind (a : α) (f : α → Logged β) : (ok a >>= f) = f a := rfl

end Logged

end Rowmap
