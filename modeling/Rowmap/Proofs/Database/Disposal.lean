import Rowmap.Database.Scripted
import Rowmap.Proofs.Session.Deeds

/-!
# Disposing of registered pools

A registry that is disposed of forgets its pools first and then asks them to close, one after the
other. The first one that refuses ends it, and those behind it were forgotten without having been
asked. Which pools are asked is told here from the replies of the database alone, for every registry
and whatever the pools reply.

A registry in use drops pools in two other ways, and asks them to close in neither: the name of a
pool is given to another one, or the registry is cleared. `PoolRegistry.Course` follows a registry
through any of this, with an account of the pools that were left to the caller. Where none refuses,
every other pool that has been in the registry is in it still or was asked to close.
-/

namespace Rowmap

/-- The pools of a registry, in the order in which their names were first registered. -/
def PoolRegistry.pools (r : PoolRegistry) : List Pool := r.map (·.2)

namespace Session

variable {σ : Type}

def pools (s : Session σ) (id : Nat) : List Pool :=
  PoolRegistry.pools ((s.registries.lookup id).getD [])

/-- A session that has forgotten the pools of a registry. -/
def forgetting (s : Session σ) (id : Nat) : Session σ :=
  { s with registries := s.registries.put id [] }

end Session

/-! ## Pools that are asked to close -/

/-- Pools that are asked to close, and do. -/
def closings (ps : List Pool) : List (Deed Empty) :=
  ps.map fun p ↦ .called (.dispose p) (.ok ())

/-- A pool that is asked to close, and refuses. -/
def refusal (p : Pool) (e : Failure) : Deed Empty := .called (.dispose p) (.error e)

def AskedToClose (deeds : List (Deed Empty)) (p : Pool) : Prop :=
  ∃ reply, .called (.dispose p) reply ∈ deeds

/-- What asking pools to close comes to: all of them close, or all in front of the first one that
refuses. -/
inductive Disposed (ps : List Pool) : Except Failure Unit → List (Deed Empty) → Prop where
  | all : Disposed ps (.ok ()) (closings ps)
  | refused {before after : List Pool} {p : Pool} {e : Failure} (hps : ps = before ++ p :: after) :
      Disposed ps (.error e) (closings before ++ [refusal p e])

section

variable {ps before after : List Pool} {p q : Pool} {e : Failure} {r : Except Failure Unit}
  {deeds : List (Deed Empty)}

theorem isCall_closings (ps : List Pool) : ∀ d ∈ closings ps, d.IsCall :=
  List.forall_mem_map.mpr fun _ _ ↦ trivial

theorem AskedToClose.append_left (more : List (Deed Empty)) (h : AskedToClose deeds p) :
    AskedToClose (more ++ deeds) p :=
  h.imp fun _ ↦ List.mem_append_right _

theorem AskedToClose.append_right (more : List (Deed Empty)) (h : AskedToClose deeds p) :
    AskedToClose (deeds ++ more) p :=
  h.imp fun _ ↦ List.mem_append_left _

theorem askedToClose_closings : AskedToClose (closings ps) p ↔ p ∈ ps := by
  constructor
  · rintro ⟨reply, hreply⟩
    obtain ⟨q, hq, h⟩ := List.mem_map.mp hreply
    cases h
    exact hq
  · exact fun hp ↦ ⟨.ok (), List.mem_map_of_mem hp⟩

namespace Disposed

theorem isCall (h : Disposed ps r deeds) : ∀ d ∈ deeds, d.IsCall := by
  cases h with
  | all => exact isCall_closings ps
  | refused _ =>
    exact List.forall_mem_append.mpr ⟨isCall_closings _, List.forall_mem_singleton.mpr trivial⟩

theorem cons (p : Pool) (h : Disposed ps r deeds) :
    Disposed (p :: ps) r (.called (.dispose p) (.ok ()) :: deeds) := by
  cases h with
  | all => exact .all
  | @refused before after q e hps =>
    have hcons : p :: ps = (p :: before) ++ q :: after := by rw [hps, List.cons_append]
    exact .refused hcons

end Disposed

end

/-! ## Pools that refuse -/

section

variable {σ : Type} [Backend σ] {db : σ} {ps before before' after after' : List Pool} {p p' : Pool}
  {r : Except Failure Unit} {deeds : List (Deed Empty)}

namespace Disposed

end Disposed

end

/-! ## Disposing -/

namespace App

open Change

variable {σ : Type} [Backend σ]

theorem does_disposePools {use : Connection → App σ Empty} (r : PoolRegistry) (s : Session σ) :
    (disposePools r).Does id use s (Disposed r.pools) := by
  induction r generalizing s with
  | nil => exact .ok .all
  | cons entry r ih =>
    obtain ⟨name, p⟩ := entry
    show (call (.dispose p) >>= fun _ ↦ disposePools r).Does id use s _
    refine (does_call (.dispose p)).bind (fun _ t deeds h ↦ ?_) fun e deeds h ↦ ?_
    · obtain ⟨-, rfl⟩ := h
      exact (ih t).mono fun _ _ h ↦ h.cons p
    · obtain ⟨-, rfl⟩ := h
      have hfirst : PoolRegistry.pools ((name, p) :: r) = [] ++ p :: PoolRegistry.pools r := rfl
      exact .refused hfirst

theorem calls_disposeRegistry (id : Nat) (s : Session σ) :
    ∃ deeds, (s.forgetting id).Calls deeds (disposeRegistry id s).2 ∧
      Disposed (s.pools id) (disposeRegistry id s).1 deeds := by
  obtain ⟨deeds, hpath, hdisposed⟩ := @does_disposePools σ _ (fun _ ↦ .fail .missingPart)
    ((s.registries.lookup id).getD []) (s.forgetting id)
  exact ⟨deeds, ⟨hdisposed.isCall, hpath⟩, hdisposed⟩

theorem eq_closings_of_disposeRegistry {id : Nat} {s : Session σ} {deeds : List (Deed Empty)}
    (hcloses : (disposeRegistry id s).1 = .ok ())
    (hcalls : (s.forgetting id).Calls deeds (disposeRegistry id s).2) :
    deeds = closings (s.pools id) := by
  obtain ⟨deeds', hcalls', hdisposed⟩ := calls_disposeRegistry id s
  rw [hcalls.unique hcalls']
  rw [hcloses] at hdisposed
  cases hdisposed
  rfl

end App

/-! ## Registries in use -/

namespace PoolRegistry

/-- The pool whose name is given to another one, if there is such a pool. -/
def displaced (r : PoolRegistry) (name : Value) (p : Pool) : List Pool :=
  (r.find? name).toList.filter (· ≠ p)

theorem find?_cons (n : Value) (p : Pool) (r : PoolRegistry) (name : Value) :
    find? ((n, p) :: r) name = if n.matchesElement name then some p else find? r name := by
  rw [find?, List.find?_cons]
  cases n.matchesElement name with
  | true => rfl
  | false => rfl

theorem mem_displaced {r : PoolRegistry} {name : Value} {p q : Pool} (hq : q ∈ r.pools)
    (hdropped : q ∉ (r.put name p).pools) : q ∈ r.displaced name p := by
  induction r with
  | nil => exact absurd hq List.not_mem_nil
  | cons entry r ih =>
    obtain ⟨n, p'⟩ := entry
    rw [put] at hdropped
    rw [displaced, find?_cons]
    split at hdropped
    · rename_i hn
      obtain ⟨hne, hrest⟩ := not_or.mp (mt List.mem_cons.mpr hdropped)
      obtain rfl : q = p' := (List.mem_cons.mp hq).resolve_right hrest
      rw [if_pos hn]
      exact List.mem_filter.mpr ⟨List.mem_singleton.mpr rfl, decide_eq_true hne⟩
    · rename_i hn
      obtain ⟨hne, hrest⟩ := not_or.mp (mt List.mem_cons.mpr hdropped)
      rw [if_neg hn]
      exact ih ((List.mem_cons.mp hq).resolve_left hne) hrest

end PoolRegistry

namespace App

variable {σ : Type} {id : Nat} {s : Session σ}

theorem registries_registerPool (id : Nat) (name : Value) (p : Pool) (s : Session σ) :
    (registerPool id name p s).2 = s ∨ (registerPool id name p s).2.registries =
      s.registries.put id (PoolRegistry.put ((s.registries.lookup id).getD []) name p) := by
  have hrun : registerPool id name p s = (Change.ofExcept
      (PoolRegistry.register ((s.registries.lookup id).getD []) name p) >>= setRegistry id) s := rfl
  rw [hrun, PoolRegistry.register, PoolRegistry.keyOf]
  cases name.hashable with
  | true => exact .inr rfl
  | false => exact .inl rfl

theorem mem_displaced_of_registerPool {name : Value} {p q : Pool} (hq : q ∈ s.pools id)
    (hdropped : q ∉ (registerPool id name p s).2.pools id) :
    q ∈ PoolRegistry.displaced ((s.registries.lookup id).getD []) name p := by
  obtain h | h := registries_registerPool id name p s
  · rw [h] at hdropped
    exact absurd hq hdropped
  · rw [Session.pools, h, Numbered.lookup_put_self] at hdropped
    exact PoolRegistry.mem_displaced hq hdropped

end App

/-- A registry in use, from any session on: the pools that have been in it, those that were left to
the caller to close, and the calls that disposing of it made. Registering a pool leaves the one to
the caller whose name it takes, and clearing the registry leaves all. Every disposal succeeds; one
that fails leaves an empty registry, with which another course starts. What else happens in between
leaves the registry as it is. -/
inductive PoolRegistry.Course {σ : Type} [Backend σ] (id : Nat) :
    Session σ → List Pool → List Pool → List (Deed Empty) → Prop where
  | start (s : Session σ) : Course id s (s.pools id) [] []
  | register {s : Session σ} {been left : List Pool} {own : List (Deed Empty)}
      (before : Course id s been left own) (name : Value) (p : Pool) :
      Course id (App.registerPool id name p s).2
        ((App.registerPool id name p s).2.pools id ++ been)
        (displaced ((s.registries.lookup id).getD []) name p ++ left) own
  | clear {s : Session σ} {been left : List Pool} {own : List (Deed Empty)}
      (before : Course id s been left own) :
      Course id (App.clearRegistry id s).2 been (s.pools id ++ left) own
  | dispose {s : Session σ} {been left : List Pool} {own deeds : List (Deed Empty)}
      (before : Course id s been left own) (hcloses : (App.disposeRegistry id s).1 = .ok ())
      (hdeeds : (s.forgetting id).Calls deeds (App.disposeRegistry id s).2) :
      Course id (App.disposeRegistry id s).2 been left (own ++ deeds)
  | others {s s' : Session σ} {been left : List Pool} {own : List (Deed Empty)}
      (before : Course id s been left own)
      (hsame : s'.registries.lookup id = s.registries.lookup id) : Course id s' been left own

namespace PoolRegistry

namespace Course

variable {σ : Type} [Backend σ] {id : Nat} {s : Session σ} {been left : List Pool}
  {own : List (Deed Empty)} {p : Pool}

/-- No pool is dropped unasked, but for those that are left to the caller. -/
theorem accounts (h : Course id s been left own) (hp : p ∈ been) :
    p ∈ s.pools id ∨ AskedToClose own p ∨ p ∈ left := by
  induction h with
  | start s => exact .inl hp
  | @register s been left own _ name q ih =>
    by_cases hstays : p ∈ (App.registerPool id name q s).2.pools id
    · exact .inl hstays
    · obtain hbefore | hasked | hleft := ih ((List.mem_append.mp hp).resolve_left hstays)
      · have hdisplaced := App.mem_displaced_of_registerPool hbefore hstays
        exact .inr (.inr (List.mem_append_left _ hdisplaced))
      · exact .inr (.inl hasked)
      · exact .inr (.inr (List.mem_append_right _ hleft))
  | clear _ ih =>
    obtain hbefore | hasked | hleft := ih hp
    · exact .inr (.inr (List.mem_append_left _ hbefore))
    · exact .inr (.inl hasked)
    · exact .inr (.inr (List.mem_append_right _ hleft))
  | dispose _ hcloses hdeeds ih =>
    obtain hbefore | hasked | hleft := ih hp
    · have hclosing := App.eq_closings_of_disposeRegistry hcloses hdeeds ▸
        askedToClose_closings.mpr hbefore
      exact .inr (.inl (hclosing.append_left _))
    · exact .inr (.inl (hasked.append_right _))
    · exact .inr (.inr hleft)
  | others _ hsame ih =>
    rw [Session.pools, hsame]
    exact ih hp

end Course

open App

end PoolRegistry

end Rowmap
