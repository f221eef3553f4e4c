import Rowmap.Proofs.Stream.Custody

/-!
# Live records stay

The records that are made in a session are numbered with ever new numbers, so whatever is done to
connections, statements and streams leaves those alone that were there before. `Retains` says so of
a change, whether or not it fails, and is put together step by step. A change may add records of its
own: the ones that a stream makes of its rows.
-/

namespace Rowmap

/-- Whether the live records of a session are still there, as they were, in a later one. -/
structure Session.Retains {σ : Type} (s s' : Session σ) : Prop where
  next : s.next ≤ s'.next
  records : ∀ id < s.next, s'.records.lookup id = s.records.lookup id

namespace Session.Retains

variable {σ : Type} {s s' s'' : Session σ}

theorem refl (s : Session σ) : s.Retains s := ⟨Nat.le_refl _, fun _ _ ↦ rfl⟩

theorem trans (h : s.Retains s') (h' : s'.Retains s'') : s.Retains s'' where
  next := Nat.le_trans h.next h'.next
  records id hid := (h'.records id (Nat.lt_of_lt_of_le hid h.next)).trans (h.records id hid)

theorem of_records (hnext : s.next ≤ s'.next) (hrecords : s'.records = s.records) : s.Retains s' :=
  ⟨hnext, fun _ _ ↦ by rw [hrecords]⟩

end Session.Retains

/-- A change after which the live records of the session in its state are still there. -/
def Change.Retains {τ σ α : Type} (session : τ → Session σ) (x : Change τ α) : Prop :=
  ∀ t, (session t).Retains (session (x t).2)

namespace Change.Retains

variable {τ ρ σ α β : Type} {session : τ → Session σ} {x : Change τ α}

theorem of_eq (h : ∀ t, session (x t).2 = session t) : Change.Retains session x := by
  intro t
  rw [h t]
  exact .refl _

theorem ok (a : α) : Change.Retains session (Change.ok a) := .of_eq fun _ ↦ rfl

theorem fail (e : Failure) : Change.Retains session (Change.fail e : Change τ α) :=
  .of_eq fun _ ↦ rfl

theorem ofExcept (r : Except Failure α) : Change.Retains session (Change.ofExcept r) :=
  .of_eq fun _ ↦ rfl

theorem bind {f : α → Change τ β} (hx : Change.Retains session x)
    (hf : ∀ a, Change.Retains session (f a)) : Change.Retains session (x >>= f) := by
  intro t
  have hfirst := hx t
  obtain ⟨a, t', hrun, hthen⟩ | ⟨e, t', hrun, hthen⟩ := bind_cases x f t <;>
    rw [hrun] at hfirst <;> rw [hthen]
  · exact hfirst.trans (hf a t')
  · exact hfirst

theorem attempt (hx : Change.Retains session x) : Change.Retains session (Change.attempt x) := hx

theorem mapFailure (f : Failure → Failure) (hx : Change.Retains session x) :
    Change.Retains session (Change.mapFailure f x) := hx

/-- What is live stays where all of it is kept. -/
theorem of_keeps (h : Keeps (fun t ↦ (session t).live) x) : Change.Retains session x := by
  intro t
  obtain ⟨hlive, -⟩ := Prod.mk.inj (h t)
  obtain ⟨hnext, hobjects⟩ := Prod.mk.inj hlive
  exact .of_records (Nat.le_of_eq hnext.symm) (Prod.mk.inj hobjects).2

theorem object {f : ρ → On ρ σ β} (hf : ∀ a, Change.Retains (·.2) (f a)) :
    Change.Retains (·.2) (On.object >>= f) :=
  Retains.bind (.of_eq fun _ ↦ rfl) hf

theorem own (x : Change ρ α) : Change.Retains (·.2) (On.own x : On ρ σ α) := .of_eq fun _ ↦ rfl

theorem beside {x : App σ α} (hx : Change.Retains id x) :
    Change.Retains (·.2) (On.beside x : On ρ σ α) := fun t ↦ hx t.2

end Change.Retains

open Change

variable {σ α : Type}

namespace App

/-! ## Sessions -/

theorem retains_addRecord (r : Record) : Retains id (addRecord r : App σ Nat) := by
  intro s
  refine ⟨Nat.le_succ _, fun id hid ↦ ?_⟩
  exact Numbered.lookup_put_of_ne _ _ (Nat.ne_of_lt hid)

theorem retains_addStream (a : RowStream) : Retains id (addStream a : App σ Nat) :=
  fun _ ↦ .of_records (Nat.le_succ _) rfl

theorem retains_recordValue (n : Nat) : Retains id (recordValue n : App σ Value) := by
  intro s
  rcases hlookup : s.records.lookup n with _ | r
  · rw [recordValue, withRecord, hlookup]
    exact .refl s
  · -- the record is put back as it was
    have hrun : recordValue n s = (.ok (r.toValue n), { s with records := s.records.put n r }) := by
      rw [recordValue, withRecord, hlookup]
      rfl
    rw [hrun]
    refine ⟨Nat.le_refl _, fun m _ ↦ ?_⟩
    show (s.records.put n r).lookup m = s.records.lookup m
    by_cases hm : m = n
    · rw [hm, hlookup]
      exact Numbered.lookup_put_self _ _ _
    · exact Numbered.lookup_put_of_ne _ _ hm

theorem retains_withStream {x : On RowStream σ α} (n : Nat) (hx : Retains (·.2) x) :
    Retains id (withStream n x) := by
  intro s
  rw [withStream]
  rcases s.streams.lookup n with _ | stream
  · exact .refl s
  · have hlive := hx (stream, s)
    exact ⟨hlive.next, hlive.records⟩

theorem retains_tell (e : LogEvent) : Retains id (tell e : App σ Unit) :=
  fun _ ↦ .of_records (Nat.le_refl _) rfl

variable [Backend σ]

theorem retains_call (c : Call) : Retains id (call c : App σ c.Reply) :=
  .of_keeps (keeps_call c)

end App

namespace RowStream

/-! ## Streams -/

variable [Backend σ]

theorem retains_close (failed : Bool) : Retains (·.2) (close failed : On RowStream σ Unit) :=
  .of_keeps (keeps_close failed)

theorem retains_guarded {x : On RowStream σ α} (hx : Retains (·.2) x) :
    Retains (·.2) (guarded x) := by
  refine (hx.mapFailure _).attempt.bind fun r ↦ ?_
  rcases r with e | a
  · exact (retains_close true).bind fun _ ↦ .fail e
  · exact .ok a

theorem retains_open : Retains (·.2) (open_ : On RowStream σ Unit) := by
  refine .object fun s ↦ (Retains.beside (App.retains_tell _)).bind fun _ ↦ retains_guarded ?_
  refine Retains.bind ?_ fun _ ↦ (Retains.beside (App.retains_call _)).bind fun _ ↦ .own _
  refine .object fun s ↦ (Retains.beside (App.retains_call (.driver s.conn))).bind fun present ↦ ?_
  rcases present with _ | _
  · exact .fail _
  · refine (Retains.beside (App.retains_call (.driverInTransaction s.conn))).bind fun busy ↦ ?_
    rcases busy with _ | _
    · exact (Retains.own _).bind fun _ ↦
        .beside (App.retains_call (.startTransaction s.conn))
    · exact .ok ()

theorem retains_pull : Retains (·.2) (pull : On RowStream σ Value) := by
  have hfill : Retains (·.2) (fill : On RowStream σ Unit) := by
    refine .object fun s ↦ ?_
    rcases s.wantsFetch with _ | _
    · exact .ok ()
    · refine (retains_guarded ?_).bind fun batch ↦ .own _
      rcases s.hasCursor with _ | _
      · exact .fail _
      · exact .beside (App.retains_call (.fetch s.conn s.batchSize))
  refine hfill.bind fun _ ↦ .object fun s ↦ ?_
  rcases s.buffer with _ | ⟨row, rest⟩
  · exact (retains_close false).bind fun _ ↦ .fail _
  · refine (Retains.own _).bind fun _ ↦ .beside ?_
    rcases s.shape with _ | ⟨t, source⟩
    · exact .ok _
    · exact Retains.bind (.ofExcept _) fun r ↦
        (App.retains_addRecord r).bind fun id ↦ App.retains_recordValue id

end RowStream

end Rowmap
