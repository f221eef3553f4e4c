import Rowmap.Database.Checkout

/-!
# Properties of uses of a connection

Looking for a connection, using it and giving it back is made of a few calls, of log entries and of
sequences. So what holds of these and of every sequence of such steps holds of the whole, whichever
property it is.
-/

namespace Rowmap

/-- Whether a call has to do with looking for a connection or with giving it back. -/
def Call.handlesConnection : Call → Bool
  | .connect _ | .driver _ | .driverClosed _ | .driverInTransaction _ | .inTransaction _
  | .commit _ | .invalidate _ | .close _ => true
  | _ => false

namespace App

/-- A property of changes that sequences have whose steps have it, and that the steps have by which
a connection is looked for and given back. -/
structure Stepwise {σ : Type} [Backend σ] (P : ∀ α : Type, App σ α → Prop) : Prop where
  ok {α : Type} (a : α) : P α (.ok a)
  bind {α β : Type} {x : App σ α} {f : α → App σ β} (hx : P α x) (hf : ∀ a, P β (f a)) :
    P β (x >>= f)
  /-- What follows a change that may have failed need have the property only where reporting its
  result has it. -/
  attempt_bind {α β : Type} {x : App σ α} {f : Except Failure α → App σ β} (hx : P α x)
    (hf : ∀ r, P α (Change.ofExcept r) → P β (f r)) : P β (x.attempt >>= f)
  recast {α : Type} {x : App σ α} (hx : P α x) : P α (App.recast x)
  tell (e : LogEvent) : P Unit (App.tell e)
  call {c : Call} (hc : c.handlesConnection = true) : P c.Reply (App.call c)
  noneUsable (attempts : Value) : P Connection (.fail (.fault (.noUsableConnection attempts)))

namespace Stepwise

variable {σ α : Type} [Backend σ] {P : ∀ α : Type, App σ α → Prop} (h : Stepwise P)
include h

theorem finally_ {x : App σ α} {cleanUp : Except Failure α → App σ Unit} (hx : P α x)
    (hclean : ∀ r, P Unit (cleanUp r)) : P α (Change.finally_ x cleanUp) :=
  h.attempt_bind hx fun r hr ↦ h.bind (hclean r) fun _ ↦ hr

theorem release (c : Connection) (destroy : Bool) : P Unit (release c destroy) := by
  have hclose : P Unit (App.call (.close c)) := h.call (c := .close c) rfl
  cases destroy with
  | true => exact h.bind (h.call (c := .invalidate c) rfl) fun _ ↦ hclose
  | false => exact hclose

theorem unusableReason (c : Connection) : P (Option String) (unusableReason c) := by
  have hrest (closed : Bool) : P (Option String) (if closed then .ok (some "connection is closed")
      else do
        let busy : Bool ← App.call (.driverInTransaction c)
        .ok (if busy then some "connection was checked out with an open transaction"
          else none)) := by
    cases closed with
    | true => exact h.ok _
    | false => exact h.bind (h.call (c := .driverInTransaction c) rfl) fun _ ↦ h.ok _
  refine h.bind (h.call (c := .driver c) rfl) fun present ↦ ?_
  cases (present : Bool) with
  | true => exact h.bind (h.call (c := .driverClosed c) rfl) hrest
  | false => exact hrest true

theorem probe (c : Connection) : P (Option String) (probe c) := by
  refine h.attempt_bind (h.unusableReason c) fun r hr ↦ ?_
  cases r with
  | ok reason => exact h.ok reason
  | error e =>
    dsimp only
    split
    · exact h.ok _
    · exact hr

theorem usableAmong (p : Pool) (attempts : Value) (limit : Int) (n : Nat) :
    P Connection (usableAmong p attempts limit n) := by
  induction n with
  | zero => exact h.noneUsable attempts
  | succ n ih =>
    refine h.bind (h.call (c := .connect p) rfl) fun c ↦ h.bind (h.probe c) fun reason ↦ ?_
    cases reason with
    | none => exact h.ok c
    | some reason => exact h.bind (h.tell _) fun _ ↦ h.bind (h.release c true) fun _ ↦ ih

/-- **Looking for a connection** has the property where reporting the number of attempts has it. -/
theorem usableConnection (p : Pool) {attempts : Value}
    (hattempts : P Int (Change.ofExcept (Sequence.position attempts))) :
    P Connection (usableConnection p attempts) :=
  h.bind hattempts fun _ ↦ h.usableAmong p attempts _ _

theorem committed {c : Connection} {body : Connection → App σ α} (hbody : P α (body c)) :
    P α (committed c body) := by
  refine h.bind hbody fun a ↦ h.bind (h.call (c := .inTransaction c) rfl) fun isOpen ↦ ?_
  cases (isOpen : Bool) with
  | true => exact h.bind (h.call (c := .commit c) rfl) fun _ ↦ h.ok a
  | false => exact h.ok a

/-- **A use of a connection** has the property where its body has it and the pool is found with
it. -/
theorem checkout {conn : Option Connection} {pool : Option Pool} {destroy : Bool}
    {body : Connection → App σ α} (hpool : P Pool (poolOrDefault pool))
    (hbody : ∀ c, P α (body c)) : P α (checkout conn pool destroy body) := by
  cases conn with
  | some c => exact h.recast (hbody c)
  | none =>
    refine h.bind hpool fun p ↦ h.bind (h.usableConnection p (h.ok 100)) fun c ↦ ?_
    exact h.finally_ (h.recast (h.committed (hbody c))) fun _ ↦ h.release c _

end Stepwise

end App

end Rowmap
