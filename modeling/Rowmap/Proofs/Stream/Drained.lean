import Rowmap.Proofs.Stream.Passage

/-!
# Closed streams are drained

A stream that is closed has no rows to hand out: those that it had are given up with its cursor.
Every use of a stream keeps that so, and leaves the other streams of the session alone.
-/

namespace Rowmap

/-- A change that leads from states with a property to states with it, whether or not it fails. -/
def Change.Preserves {τ α : Type} (p : τ → Prop) (x : Change τ α) : Prop := ∀ t, p t → p (x t).2

namespace Change.Preserves

variable {τ ρ α β γ : Type} {p : τ → Prop} {x : Change τ α}

theorem of_keeps {view : τ → γ} {p : γ → Prop} (hx : Keeps view x) :
    Preserves (fun t ↦ p (view t)) x := by
  intro t ht
  show p (view (x t).2)
  rwa [hx t]

theorem ok (a : α) : Preserves p (Change.ok a) := fun _ h ↦ h

theorem fail (e : Failure) : Preserves p (Change.fail e : Change τ α) := fun _ h ↦ h

theorem ofExcept (r : Except Failure α) : Preserves p (Change.ofExcept r) := fun _ h ↦ h

/-- What follows a change that has led to such a state. -/
theorem bind_at {f : α → Change τ β} {t : τ} (hx : p (x t).2) (hf : ∀ a, Preserves p (f a)) :
    p ((x >>= f) t).2 := by
  obtain ⟨a, t', hrun, hthen⟩ | ⟨e, t', hrun, hthen⟩ := bind_cases x f t <;>
    rw [hrun] at hx <;> rw [hthen]
  · exact hf a t' hx
  · exact hx

theorem bind {f : α → Change τ β} (hx : Preserves p x) (hf : ∀ a, Preserves p (f a)) :
    Preserves p (x >>= f) := fun t ht ↦ bind_at (hx t ht) hf

theorem attempt (hx : Preserves p x) : Preserves p (Change.attempt x) := hx

theorem mapFailure (f : Failure → Failure) (hx : Preserves p x) :
    Preserves p (Change.mapFailure f x) := hx

theorem finally_ {cleanUp : Except Failure α → Change τ Unit} (hx : Preserves p x)
    (hclean : ∀ r, Preserves p (cleanUp r)) : Preserves p (x.finally_ cleanUp) :=
  hx.attempt.bind fun r ↦ (hclean r).bind fun _ ↦ .ofExcept r

theorem object {σ : Type} {p : ρ × Session σ → Prop} {f : ρ → On ρ σ β}
    (hf : ∀ a, Preserves p (f a)) : Preserves p (On.object >>= f) :=
  bind (fun _ h ↦ h) hf

/-- What is done beside an object preserves what is true of the object. -/
theorem beside {σ : Type} {p : ρ → Prop} (x : App σ α) :
    Preserves (fun u ↦ p u.1) (On.beside x : On ρ σ α) := fun _ h ↦ h

end Change.Preserves

open Change

namespace RowStream

variable {σ α : Type} [Backend σ] {a b : RowStream} {s t : Session σ}

def Drained (a : RowStream) : Prop := a.closed = true → a.buffer = []

theorem drained_of_open (h : a.closed = false) : a.Drained :=
  fun hclosed ↦ absurd (hclosed.symm.trans h) Bool.noConfusion

theorem drained_announce (failed : Bool) :
    Preserves (fun u ↦ u.1.Drained) (announce failed : On RowStream σ Unit) := by
  refine .object fun a ↦ ?_
  rcases a.onClose with _ | _ | _
  · exact .ok ()
  · exact .beside _
  · exact .beside _

theorem drained_finishTransaction (failed : Bool) :
    Preserves (fun u ↦ u.1.Drained) (finishTransaction failed : On RowStream σ Unit) := by
  refine .object fun a ↦ ?_
  split
  · split
    · exact .beside _
    · exact .beside _
  · exact .ok ()

/-- Closing gives the rows up that were not handed out. -/
theorem drained_close (failed : Bool) :
    Preserves (fun u ↦ u.1.Drained) (close failed : On RowStream σ Unit) := by
  refine .object fun a ↦ ?_
  split
  · exact .ok ()
  · refine Preserves.bind (fun _ _ _ ↦ rfl) fun _ ↦ ?_
    refine (drained_finishTransaction failed).finally_ fun _ ↦ ?_
    exact Preserves.bind (fun _ h ↦ h) fun _ ↦ drained_announce failed

theorem drained_guarded {x : On RowStream σ α} (hx : Preserves (fun u ↦ u.1.Drained) x) :
    Preserves (fun u ↦ u.1.Drained) (guarded x) := by
  refine (hx.mapFailure _).attempt.bind fun r ↦ ?_
  rcases r with e | v
  · exact (drained_close true).bind fun _ ↦ .fail e
  · exact .ok v

/-- Only an open stream fetches. -/
theorem drained_fill : Preserves (fun u ↦ u.1.Drained) (fill : On RowStream σ Unit) := by
  rintro ⟨a, s⟩ ha
  by_cases hwants : a.wantsFetch = true
  · have hopen : a.closed = false := (wantsFetch_iff.mp hwants).2.1
    generalize hfetch : (if a.hasCursor then On.beside (App.call (.fetch a.conn a.batchSize))
      else Change.fail .missingPart : On RowStream σ (List Row)) = fetch
    have hkeeps : Keeps (fun u ↦ u.1) fetch := by
      rw [← hfetch]
      split
      · exact fun _ ↦ rfl
      · exact fun _ ↦ rfl
    have hfill : fill (a, s) = (guarded fetch >>= fun batch ↦ On.own (do
        Change.set (← Change.ofExcept ((← Change.get).receive batch)))) (a, s) := by
      show (if a.wantsFetch then _ else _ : On RowStream σ Unit) (a, s) = _
      rw [if_pos hwants, hfetch]
    rw [hfill]
    rcases hguarded : guarded fetch (a, s) with ⟨e | batch, b, t⟩
    · have hdrained := drained_guarded (Preserves.of_keeps hkeeps) (a, s) ha
      rw [bind_of_error _ hguarded]
      rwa [hguarded] at hdrained
    · have hb := hkeeps (a, s)
      rw [guarded_eq_ok hguarded] at hb
      obtain rfl : b = a := hb
      rw [bind_of_ok _ hguarded, own_receive_apply]
      rcases hreceive : b.receive batch with e | c
      · exact ha
      · obtain ⟨short, -, rfl⟩ := receive_eq_ok.mp hreceive
        exact drained_of_open hopen
  · rw [fill_of_not_wantsFetch (Bool.not_eq_true _ ▸ hwants)]
    exact ha

/-- **A pull** leaves a stream drained, whether there is a row, there is none or fetching fails. -/
theorem drained_pull : Preserves (fun u ↦ u.1.Drained) (pull : On RowStream σ Value) := by
  rintro ⟨a, s⟩ ha
  have hdrained := drained_fill (a, s) ha
  rcases hfill : fill (a, s) with ⟨e | _, b, t⟩
  · rw [hfill] at hdrained
    rwa [pull, bind_of_error _ hfill]
  · rw [hfill] at hdrained
    rcases hbuffer : b.buffer with _ | ⟨row, rest⟩
    · rw [pull_of_nil hfill hbuffer]
      exact ((drained_close false).bind fun _ ↦ .fail .ended) (b, t) hdrained
    · rw [pull_of_cons hfill hbuffer rfl]
      refine drained_of_open (Bool.eq_false_iff.mpr fun hclosed ↦ ?_)
      exact List.cons_ne_nil _ _ (hbuffer.symm.trans (hdrained hclosed))

/-! ## Other streams -/

theorem keeps_streams_close (failed : Bool) :
    Keeps (fun u ↦ u.2.streams) (close failed : On RowStream σ Unit) :=
  (keeps_close failed).of_comp fun live ↦ live.2.1

/-- A pull adds a record at most to what is live in the session. -/
theorem keeps_streams_pull : Keeps (fun u ↦ u.2.streams) (pull : On RowStream σ Value) := by
  have hguarded {β : Type} {x : On RowStream σ β} (hx : Keeps (fun u ↦ u.2.streams) x) :
      Keeps (fun u ↦ u.2.streams) (guarded x) := by
    have hattempt : Keeps (fun u ↦ u.2.streams) (Change.attempt (x.mapFailure Failure.recast)) :=
      hx
    refine hattempt.bind fun r ↦ ?_
    rcases r with e | v
    · exact (keeps_streams_close true).bind fun _ ↦ fun _ ↦ rfl
    · exact .ok v
  have hfill : Keeps (fun u ↦ u.2.streams) (fill : On RowStream σ Unit) := by
    refine (Keeps.gets _).bind fun a ↦ ?_
    split
    · refine (hguarded ?_).bind fun _ _ ↦ rfl
      split
      · exact fun _ ↦ rfl
      · exact fun _ ↦ rfl
    · exact .ok ()
  refine hfill.bind fun _ ↦ (Keeps.gets _).bind fun a ↦ ?_
  split
  · exact (keeps_streams_close false).bind fun _ _ ↦ rfl
  · refine Keeps.bind (fun _ ↦ rfl) fun _ u ↦ ?_
    obtain ⟨-, -, -, -, hgrows, -⟩ := quiet_shapeRow a.shape _ u.2 none
    exact hgrows.streams

end RowStream

end Rowmap
