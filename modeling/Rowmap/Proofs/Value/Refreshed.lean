import Mathlib.Data.List.Forall2
import Rowmap.Proofs.Condition.Cases
import Rowmap.Proofs.Session.Keeps

/-!
# Comparing values that were brought up to date

A value that was brought up to date is the same former around parts that were, and a live object in
it is still that object. Live objects are compared by what they are and not by what they hold, so
the value compares as it did: it equals what it was, if that equals itself.
-/

namespace Rowmap

namespace Value

/-- Whether a value is equal to itself, as what is no number is not. -/
def EqualsItself (v : Value) : Prop := v.equal v = true

instance : DecidablePred EqualsItself := fun v ↦ decEq (v.equal v) true

structure ComparesAs (v v' : Value) : Prop where
  same : ∀ w, same v' w = same v w
  compare : ∀ w, compare? v' w = compare? v w

namespace ComparesAs

variable {v v' : Value}

theorem refl (v : Value) : ComparesAs v v := ⟨fun _ ↦ rfl, fun _ ↦ rfl⟩

theorem equal (h : ComparesAs v v') (hv : v.EqualsItself) : v'.equal v = true := by
  rw [Value.equal, h.compare]
  exact hv

variable {xs xs' : List Value} {es es' : Entries}

theorem items (h : List.Forall₂ ComparesAs xs xs') (ys : List Value) :
    compareItems? xs' ys = compareItems? xs ys := by
  induction h generalizing ys with
  | nil => rfl
  | cons hx _ ih =>
    rcases ys with _ | ⟨y, ys⟩
    · rfl
    · rw [compareItems?, compareItems?, hx.same, hx.compare, ih]

theorem each (h : List.Forall₂ ComparesAs xs xs') (ys : List Value) :
    compareEach? xs' ys = compareEach? xs ys := by
  induction h with
  | nil => rfl
  | cons hx _ ih =>
    rw [compareEach?, compareEach?, ih]
    simp only [hx.same, hx.compare]

theorem entries (h : List.Forall₂ (fun e e' ↦ e'.1 = e.1 ∧ ComparesAs e.2 e'.2) es es')
    (fs : Entries) : compareEntries? es' fs = compareEntries? es fs := by
  induction h with
  | nil => rfl
  | @cons e e' _ _ he _ ih =>
    obtain ⟨key, x⟩ := e
    obtain ⟨key', x'⟩ := e'
    obtain ⟨rfl, hx⟩ := he
    rw [compareEntries?, compareEntries?, ih]
    simp only [hx.same, hx.compare]

/-- What stands under a key among entries that take the place of others. -/
theorem valueOrUnset (h : List.Forall₂ (fun e e' ↦ e'.1 = e.1 ∧ ComparesAs e.2 e'.2) es es')
    (key : String) : ComparesAs (es.valueOrUnset key) (es'.valueOrUnset key) := by
  induction h with
  | nil => exact .refl _
  | @cons e e' _ _ he _ ih =>
    obtain ⟨name, x⟩ := e
    obtain ⟨name', x'⟩ := e'
    obtain ⟨rfl, hx⟩ := he
    rw [Entries.valueOrUnset, Entries.valueOrUnset, List.lookup_cons, List.lookup_cons]
    cases key == name' with
    | true => exact hx
    | false => exact ih

/-! ### Live objects -/

theorem compare?_of_identity? {id : Nat} (h : v.identity? = some id) (w : Value) :
    compare? v w = some (some id == w.identity?) := by
  cases v <;> first
    | exact absurd h (Option.some_ne_none _).symm
    | (obtain rfl := Option.some.inj h
       cases w <;> rfl)

theorem of_identity? {id : Nat} (h : v.identity? = some id) (h' : v'.identity? = some id) :
    ComparesAs v v' where
  same w := by
    have hsame {u : Value} (hu : u.identity? = some id) : Value.same u w = false := by
      cases u <;> first
        | rfl
        | exact absurd hu (Option.some_ne_none _).symm
    rw [hsame h, hsame h']
  compare w := by rw [compare?_of_identity? h, compare?_of_identity? h']

end ComparesAs

/-! ## Bringing up to date -/

section

variable {current : Nat → Option (Except Failure Value)}

/-- A way of bringing live objects up to date that replaces each by itself. -/
def IsFaithful (current : Nat → Option (Except Failure Value)) : Prop :=
  ∀ id v, current id = some (.ok v) → v.identity? = some id

theorem comparesAs_of_current (h : IsFaithful current) {v v' : Value} {id : Nat}
    (hv : v.identity? = some id) (hrun : (current id).getD (.ok v) = .ok v') : ComparesAs v v' := by
  rcases hcurrent : current id with _ | r
  · rw [hcurrent] at hrun
    exact Except.ok.inj hrun ▸ .refl v
  · rw [hcurrent] at hrun
    obtain rfl : r = .ok v' := hrun
    exact .of_identity? hv (h id v' hcurrent)

mutual

/-- **A value that was brought up to date** compares as it did. -/
theorem comparesAs_refreshWith (h : IsFaithful current) :
    ∀ (v : Value) {v' : Value}, v.refreshWith current = .ok v' → ComparesAs v v'
  | .list xs, v', hrun => by
    obtain ⟨xs', hxs, hv⟩ := Except.bind_eq_ok.mp hrun
    obtain rfl := Except.ok.inj hv
    have hitems := comparesAs_refreshItems h xs hxs
    refine ⟨fun _ ↦ rfl, fun w ↦ ?_⟩
    cases w with
    | list ys => simp only [compare?, hitems.length_eq, ComparesAs.items hitems]
    | _ => rfl
  | .tuple xs, v', hrun => by
    obtain ⟨xs', hxs, hv⟩ := Except.bind_eq_ok.mp hrun
    obtain rfl := Except.ok.inj hv
    have hitems := comparesAs_refreshItems h xs hxs
    refine ⟨fun _ ↦ rfl, fun w ↦ ?_⟩
    cases w with
    | tuple ys => simp only [compare?, ComparesAs.items hitems]
    | _ => rfl
  | .set frozen xs, v', hrun => by
    obtain ⟨xs', hxs, hv⟩ := Except.bind_eq_ok.mp hrun
    obtain rfl := Except.ok.inj hv
    have hitems := comparesAs_refreshItems h xs hxs
    refine ⟨fun _ ↦ rfl, fun w ↦ ?_⟩
    cases w with
    | set _ ys => simp only [compare?, hitems.length_eq, ComparesAs.each hitems]
    | _ => rfl
  | .map es, v', hrun => by
    obtain ⟨es', hes, hv⟩ := Except.bind_eq_ok.mp hrun
    obtain rfl := Except.ok.inj hv
    have hentries := comparesAs_refreshEntries h es hes
    refine ⟨fun _ ↦ rfl, fun w ↦ ?_⟩
    cases w with
    | map fs => simp only [compare?, hentries.length_eq, ComparesAs.entries hentries]
    | _ => rfl
  | .wrapped v b c q, v', hrun => by
    obtain ⟨w', hw, hv⟩ := Except.bind_eq_ok.mp hrun
    obtain rfl := Except.ok.inj hv
    have hinner := comparesAs_refreshWith h v hw
    refine ⟨fun w ↦ ?_, fun w ↦ ?_⟩
    · cases w with
      | wrapped => simp only [same, hinner.same]
      | _ => rfl
    · cases w with
      | wrapped => simp only [compare?, hinner.compare]
      | _ => rfl
  | .rendered sql values own, v', hrun => by
    obtain ⟨values', hvalues, hv⟩ := Except.bind_eq_ok.mp hrun
    obtain rfl := Except.ok.inj hv
    have hitems := comparesAs_refreshItems h values hvalues
    refine ⟨fun _ ↦ rfl, fun w ↦ ?_⟩
    cases w with
    | rendered => simp only [compare?, ComparesAs.items hitems]
    | _ => rfl
  | .group id kind items own, v', hrun => by
    obtain ⟨items', -, hv⟩ := Except.bind_eq_ok.mp hrun
    obtain rfl := Except.ok.inj hv
    exact .of_identity? rfl rfl
  | .rawSql id sql values own, v', hrun => by
    obtain ⟨values', -, hv⟩ := Except.bind_eq_ok.mp hrun
    obtain rfl := Except.ok.inj hv
    exact .of_identity? rfl rfl
  | .renderable id render, v', hrun => by
    obtain rfl := Except.ok.inj hrun
    exact .of_identity? rfl rfl
  | .query id select, v', hrun => comparesAs_of_current h rfl hrun
  | .object id typeName face attributes, v', hrun => comparesAs_of_current h rfl hrun
  | .null, _, hrun | .bool _, _, hrun | .int _, _, hrun | .float _, _, hrun | .decimal _, _, hrun
  | .text _, _, hrun | .bytes _, _, hrun | .date _, _, hrun | .time _, _, hrun
  | .moment _, _, hrun | .uuid _, _, hrun | .unset, _, hrun | .marker _, _, hrun
  | .comparison _, _, hrun | .direction _, _, hrun | .output _, _, hrun | .type _, _, hrun
  | .recordType _ _, _, hrun => Except.ok.inj hrun ▸ .refl _
termination_by structural v => v

theorem comparesAs_refreshItems (h : IsFaithful current) :
    ∀ (xs : List Value) {xs' : List Value}, refreshItems current xs = .ok xs' →
      List.Forall₂ ComparesAs xs xs'
  | [], _, hrun => Except.ok.inj hrun ▸ .nil
  | x :: xs, xs', hrun => by
    obtain ⟨x', hx, hrun⟩ := Except.bind_eq_ok.mp hrun
    obtain ⟨rest, hrest, hrun⟩ := Except.bind_eq_ok.mp hrun
    obtain rfl := Except.ok.inj hrun
    exact .cons (comparesAs_refreshWith h x hx) (comparesAs_refreshItems h xs hrest)
termination_by structural xs => xs

theorem comparesAs_refreshEntries (h : IsFaithful current) :
    ∀ (es : List (String × Value)) {es' : List (String × Value)},
      refreshEntries current es = .ok es' →
      List.Forall₂ (fun e e' ↦ e'.1 = e.1 ∧ ComparesAs e.2 e'.2) es es'
  | [], _, hrun => Except.ok.inj hrun ▸ .nil
  | (key, x) :: es, es', hrun => by
    obtain ⟨x', hx, hrun⟩ := Except.bind_eq_ok.mp hrun
    obtain ⟨rest, hrest, hrun⟩ := Except.bind_eq_ok.mp hrun
    obtain rfl := Except.ok.inj hrun
    exact .cons ⟨rfl, comparesAs_refreshWith h x hx⟩ (comparesAs_refreshEntries h es hrest)
termination_by structural es => es

end

end

end Value

/-- A live object stands for itself. -/
theorem Session.isFaithful_current {σ : Type} (s : Session σ) (n : Nat) :
    Value.IsFaithful (s.current n) := by
  intro id v h
  rcases n with _ | n
  · cases h
  · rw [current] at h
    split at h
    · obtain ⟨wheres, -, hv⟩ := Except.bind_eq_ok.mp (Option.some.inj h)
      exact Except.ok.inj hv ▸ rfl
    · obtain ⟨values, -, hv⟩ := Except.bind_eq_ok.mp (Option.some.inj h)
      exact Except.ok.inj hv ▸ rfl
    · cases h

/-! ## Sessions with the same live objects -/

open Change

variable {σ α β : Type} {s s₁ : Session σ}

/-- What only looks at its state gives the same in two states if its parts do. -/
theorem Change.Keeps.fst_bind {τ : Type} {x : Change τ α} {f : α → Change τ β} {t t₁ : τ}
    (hkeeps : Keeps id x) (hx : (x t₁).1 = (x t).1) (hf : ∀ a, (f a t₁).1 = (f a t).1) :
    ((x >>= f) t₁).1 = ((x >>= f) t).1 := by
  have ht₁ : x t₁ = ((x t).1, t₁) := Prod.ext hx (hkeeps t₁)
  have ht : x t = ((x t).1, t) := Prod.ext rfl (hkeeps t)
  rw [bind_apply, bind_apply, ht₁, ht]
  rcases (x t).1 with e | a
  · rfl
  · exact hf a

namespace App

theorem refresh_congr (h : s₁.objects = s.objects) (v : Value) :
    (refresh v s₁).1 = (refresh v s).1 := by
  show v.refreshWith (s₁.current s₁.depth) = _
  rw [Session.current_congr h]
  rfl

theorem refreshEntries_congr (h : s₁.objects = s.objects) (es : Entries) :
    (refreshEntries es s₁).1 = (refreshEntries es s).1 := by
  show Value.refreshEntries (s₁.current s₁.depth) es = _
  rw [Session.current_congr h]
  rfl

theorem refreshPairs_congr (h : s₁.objects = s.objects) (ps : Pairs) :
    (refreshPairs ps s₁).1 = (refreshPairs ps s).1 := by
  induction ps with
  | nil => rfl
  | cons p ps ih =>
    rw [refreshPairs, List.mapM_cons]
    refine Keeps.fst_bind ((keeps_refresh p.2).bind fun _ ↦ .ok _) ?_ fun q ↦ ?_
    · exact (keeps_refresh p.2).fst_bind (refresh_congr h p.2) fun _ ↦ rfl
    · exact (keeps_refreshPairs ps).fst_bind ih fun _ ↦ rfl

end App

end Rowmap
