import Rowmap.Proofs.Condition.Cases
import Rowmap.Proofs.Session.Keeps

/-!
# The complaint about the output

That the shape of rows does not agree with what is returned of them is one complaint among the many
ways in which a run can end. What spares it may fail in every other way. Sequences, lists and
clean-ups of what spares it spare it too, so whether a function does is read off its parts.
-/

namespace Rowmap

/-- Whether a failure is the complaint that an output type does not agree with what is returned. -/
def Failure.isMismatch : Failure → Bool
  | .fault (.incompatibleOutput ..) => true
  | _ => false

theorem Failure.eq_of_isMismatch {f : Failure} (h : f.isMismatch = true) :
    ∃ output returns, f = .fault (.incompatibleOutput output returns) := by
  rw [isMismatch.eq_def] at h
  split at h
  · exact ⟨_, _, rfl⟩
  · cases h

theorem Failure.isMismatch_recast {f : Failure} (h : f.isMismatch = false) :
    f.recast.isMismatch = false := by
  cases f with
  | raised e =>
    rw [recast]
    split <;> rfl
  | _ => exact h

/-! ## Results -/

/-- A result that is not that complaint. -/
def Spares {α : Type} (r : Except Failure α) : Prop :=
  ∀ e, r = .error e → e.isMismatch = false

namespace Spares

variable {α β : Type} {r : Except Failure α}

theorem ok (a : α) : Spares (.ok a : Except Failure α) := fun _ h ↦ nomatch h

theorem error {e : Failure} (h : e.isMismatch = false) :
    Spares (.error e : Except Failure α) := fun _ he ↦ Except.error.inj he ▸ h

theorem bind {f : α → Except Failure β} (hr : Spares r) (hf : ∀ a, Spares (f a)) :
    Spares (r >>= f) := by
  cases r with
  | error e => exact .error (hr e rfl)
  | ok a => exact hf a

theorem map (f : α → β) (hr : Spares r) : Spares (f <$> r) := by
  cases r with
  | error e => exact .error (hr e rfl)
  | ok a => exact .ok (f a)

theorem mapM {f : α → Except Failure β} {as : List α} (hf : ∀ a ∈ as, Spares (f a)) :
    Spares (as.mapM f) := by
  induction as with
  | nil => exact .ok []
  | cons a as ih =>
    obtain ⟨ha, has⟩ := List.forall_mem_cons.mp hf
    rw [List.mapM_cons]
    exact ha.bind fun b ↦ (ih has).bind fun bs ↦ .ok (b :: bs)

theorem recast (hr : Spares r) : Spares (r.mapError Failure.recast) := by
  cases r with
  | error e => exact .error (Failure.isMismatch_recast (hr e rfl))
  | ok a => exact .ok a

end Spares

/-! ## Computations that log -/

/-- A computation that does not end in that complaint. -/
def Logged.Spares {α : Type} (x : Logged α) : Prop := Rowmap.Spares x.result

namespace Logged.Spares

variable {α β : Type} {x : Logged α}

theorem ok (a : α) : (Logged.ok a).Spares := Rowmap.Spares.ok a

theorem fail {e : Failure} (h : e.isMismatch = false) : (Logged.fail e : Logged α).Spares :=
  Rowmap.Spares.error h

theorem ofExcept {r : Except Failure α} (h : Rowmap.Spares r) : (Logged.ofExcept r).Spares := h

theorem bind {f : α → Logged β} (hx : x.Spares) (hf : ∀ a, (f a).Spares) : (x >>= f).Spares := by
  rw [Logged.Spares, Logged.result_bind]
  exact Rowmap.Spares.bind hx hf

theorem map (f : α → β) (hx : x.Spares) : (f <$> x).Spares := bind hx fun a ↦ .ok (f a)

end Logged.Spares

/-! ## Changes -/

/-- A change that does not end in that complaint, from whatever state. -/
def Change.Spares {τ α : Type} (x : Change τ α) : Prop := ∀ s, Rowmap.Spares (x s).1

namespace Change.Spares

variable {τ ρ α β : Type} {x : Change τ α}

theorem ok (a : α) : (Change.ok a : Change τ α).Spares := fun _ ↦ .ok a

theorem gets (f : τ → α) : (Change.gets f).Spares := fun s ↦ .ok (f s)

theorem fail {e : Failure} (h : e.isMismatch = false) : (Change.fail e : Change τ α).Spares :=
  fun _ ↦ .error h

theorem ofExcept {r : Except Failure α} (h : Rowmap.Spares r) :
    (Change.ofExcept r : Change τ α).Spares := fun _ ↦ h

theorem modify (f : τ → τ) : (Change.modify f).Spares := fun _ ↦ .ok ()

theorem bind {f : α → Change τ β} (hx : x.Spares) (hf : ∀ a, (f a).Spares) :
    (x >>= f).Spares := by
  intro s
  have hs := hx s
  obtain ⟨a, t, hrun, hthen⟩ | ⟨e, t, hrun, hthen⟩ := bind_cases x f s <;>
    rw [hrun] at hs <;> rw [hthen]
  · exact hf a t
  · exact .error (hs e rfl)

/-- What is done with a failure need only spare those that the change can end in. -/
theorem attempt_bind {f : Except Failure α → Change τ β} (hx : x.Spares)
    (hf : ∀ r, Rowmap.Spares r → (f r).Spares) : (Change.attempt x >>= f).Spares :=
  fun s ↦ hf (x s).1 (hx s) (x s).2

theorem finally_ {cleanUp : Except Failure α → Change τ Unit} (hx : x.Spares)
    (hclean : ∀ r, (cleanUp r).Spares) : (x.finally_ cleanUp).Spares :=
  hx.attempt_bind fun r hr ↦ (hclean r).bind fun _ ↦ .ofExcept hr

theorem recast (hx : x.Spares) : (Change.mapFailure Failure.recast x).Spares :=
  fun s ↦ (hx s).recast

theorem onFirst (hx : x.Spares) : (Change.onFirst x : Change (τ × ρ) α).Spares := fun u ↦ hx u.1

theorem onSecond (hx : x.Spares) : (Change.onSecond x : Change (ρ × τ) α).Spares := fun u ↦ hx u.2

end Change.Spares

end Rowmap
