import Rowmap.Failure.Basic

/-!
# Changes

A change of a state may fail, and what it had changed before it failed stays changed. That is how
records, queries and sessions behave, so their operations are changes, and what a failing operation
leaves behind is part of its meaning.
-/

namespace Rowmap

/-- A change of a state `τ` with a result. -/
def Change (τ α : Type) : Type := τ → Except Failure α × τ

namespace Change

variable {τ ρ α β : Type}

/-- A result, without any change. -/
def ok (a : α) : Change τ α := fun s ↦ (.ok a, s)

/-- One change, then another from its result. -/
def bind (x : Change τ α) (f : α → Change τ β) : Change τ β := fun s ↦
  match x s with
  | (.ok a, s') => f a s'
  | (.error e, s') => (.error e, s')

instance : Monad (Change τ) where
  pure := ok
  bind := bind

/-- A failure, without any change. -/
def fail (e : Failure) : Change τ α := fun s ↦ (.error e, s)

instance : Inhabited (Change τ α) := ⟨fail .missingPart⟩

/-- A result or a failure, without any change. -/
def ofExcept (r : Except Failure α) : Change τ α := fun s ↦ (r, s)

def get : Change τ τ := fun s ↦ (.ok s, s)

def set (s : τ) : Change τ Unit := fun _ ↦ (.ok (), s)

/-- A part of the state. -/
def gets (f : τ → α) : Change τ α := fun s ↦ (.ok (f s), s)

def modify (f : τ → τ) : Change τ Unit := fun s ↦ (.ok (), f s)

def attempt (x : Change τ α) : Change τ (Except Failure α) := fun s ↦ (.ok (x s).1, (x s).2)

/-- A change whose failure is put into other terms. -/
def mapFailure (f : Failure → Failure) (x : Change τ α) : Change τ α := fun s ↦
  ((x s).1.mapError f, (x s).2)

/-- A change, and then a second one whether or not the first failed. A failure of the second counts
more than one of the first. -/
def finally_ (x : Change τ α) (cleanUp : Except Failure α → Change τ Unit) : Change τ α := do
  let r ← attempt x
  cleanUp r
  ofExcept r

/-- A change of the first of two states. -/
def onFirst (x : Change τ α) : Change (τ × ρ) α := fun (s, t) ↦ ((x s).1, (x s).2, t)

/-- A change of the second of two states. -/
def onSecond (x : Change ρ α) : Change (τ × ρ) α := fun (s, t) ↦ ((x t).1, s, (x t).2)

/-! ## What changes do to a state -/

@[simp] theorem pure_apply (a : α) (s : τ) : (pure a : Change τ α) s = (.ok a, s) := rfl

@[simp] theorem ok_apply (a : α) (s : τ) : (ok a : Change τ α) s = (.ok a, s) := rfl

@[simp] theorem fail_apply (e : Failure) (s : τ) : (fail e : Change τ α) s = (.error e, s) := rfl

@[simp] theorem ofExcept_apply (r : Except Failure α) (s : τ) : ofExcept r s = (r, s) := rfl

@[simp] theorem get_apply (s : τ) : get s = (.ok s, s) := rfl

@[simp] theorem set_apply (s t : τ) : set s t = (.ok (), s) := rfl

@[simp] theorem gets_apply (f : τ → α) (s : τ) : gets f s = (.ok (f s), s) := rfl

@[simp] theorem modify_apply (f : τ → τ) (s : τ) : modify f s = (.ok (), f s) := rfl

@[simp] theorem attempt_apply (x : Change τ α) (s : τ) :
    attempt x s = (.ok (x s).1, (x s).2) := rfl

@[simp] theorem mapFailure_apply (f : Failure → Failure) (x : Change τ α) (s : τ) :
    mapFailure f x s = ((x s).1.mapError f, (x s).2) := rfl

@[simp] theorem onFirst_apply (x : Change τ α) (s : τ) (t : ρ) :
    onFirst x (s, t) = ((x s).1, (x s).2, t) := rfl

@[simp] theorem onSecond_apply (x : Change ρ α) (s : τ) (t : ρ) :
    onSecond x (s, t) = ((x t).1, s, (x t).2) := rfl

theorem bind_apply (x : Change τ α) (f : α → Change τ β) (s : τ) :
    (x >>= f) s =
      match x s with
      | (.ok a, s') => f a s'
      | (.error e, s') => (.error e, s') := rfl

theorem bind_of_ok {x : Change τ α} {s s' : τ} {a : α} (f : α → Change τ β)
    (h : x s = (.ok a, s')) : (x >>= f) s = f a s' := by
  rw [bind_apply, h]

theorem bind_of_error {x : Change τ α} {s s' : τ} {e : Failure} (f : α → Change τ β)
    (h : x s = (.error e, s')) : (x >>= f) s = (.error e, s') := by
  rw [bind_apply, h]

end Change

end Rowmap
