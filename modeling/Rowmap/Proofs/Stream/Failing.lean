import Rowmap.Proofs.Condition.Meaning
import Rowmap.Proofs.Stream.Drained

/-!
# Pulls that fail

A pull may fail because a batch cannot be fetched, because there is nothing left to hand out, or
with a row in hand of which nothing can be made. The first two close the stream. The last does not:
the row is off the buffer by then, nobody is told, and the next pull goes on behind it. So what a
failed pull leaves is either a stream that was closed once, or an open one that has lost a row.
-/

namespace Rowmap

theorem Event.isAnswered_of_isFailedFetch {x : Event} (h : x.isFailedFetch = true) :
    x.isAnswered = false := by
  cases x with
  | called call reply =>
    cases reply with
    | none => rfl
    | some reply => cases call <;> cases h
  | _ => cases h

namespace RowStream

open Change

variable {σ : Type} [Backend σ] {fresh a b : RowStream} {s t : Session σ} {own added : List Event}
  {e : Failure}

/-! ## What is lost -/

/-- A pull that fails with rows in hand, and what it leaves. -/
inductive Loses (a : RowStream) (s : Session σ) (e : Failure) : RowStream × Session σ → Prop where
  /-- Nothing can be made of the row that is next. -/
  | row {b : RowStream} {t u : Session σ} {row : Row} {rest : List Row}
      (hfill : fill (a, s) = (.ok (), b, t)) (hbuffer : b.buffer = row :: rest)
      (hshape : shapeRow b.shape row t = (.error e, u)) :
      Loses a s e ({ b with buffer := rest }, u)
  /-- A batch was fetched, but the size that was asked for is none to compare it with. -/
  | batch {batch : List Row} {db : σ} (hwants : a.wantsFetch = true)
      (hfetch : Backend.perform (.fetch a.conn a.batchSize) s.db = (.ok batch, db))
      (hreceive : a.receive batch = .error e) :
      Loses a s e (a, { s with
        db, events := s.events ++ [.called (.fetch a.conn a.batchSize) (some batch)] })

/-- What loses a row does not close the stream. -/
theorem Loses.isOpen (ha : a.Drained) (h : Loses a s e (b, t)) : b.closed = false := by
  cases h with
  | row hfill hbuffer =>
    have hdrained := drained_fill (a, s) ha
    rw [hfill] at hdrained
    refine Bool.eq_false_iff.mpr fun hclosed ↦ ?_
    exact List.cons_ne_nil _ _ (hbuffer.symm.trans (hdrained hclosed))
  | batch hwants => exact (wantsFetch_iff.mp hwants).2.1

/-! ## What else can fail -/

theorem closed_of_close (failed : Bool) (a : RowStream) (s : Session σ) :
    (close failed (a, s)).2.1.closed = true := by
  rcases hclosed : a.closed with _ | _
  · obtain ⟨_, -, hended, -⟩ := adds_close failed hclosed s
    rw [hended]
    rfl
  · rw [close_of_closed failed hclosed]
    exact hclosed

theorem closed_of_close_fail {α : Type} (failed : Bool) (e : Failure) (u : RowStream × Session σ) :
    ((do close failed; .fail e : On RowStream σ α) u).2.1.closed = true :=
  Preserves.bind_at (p := fun v : RowStream × Session σ ↦ v.1.closed = true)
    (closed_of_close failed u.1 u.2) fun _ ↦ .fail e

theorem closed_of_guarded {α : Type} {x : On RowStream σ α} {u v : RowStream × Session σ}
    (h : guarded x u = (.error e, v)) : v.1.closed = true := by
  rcases hx : x u with ⟨f | value, w⟩
  · have hclosed := closed_of_close_fail (α := α) true f.recast w
    rwa [← guarded_of_error hx, h] at hclosed
  · cases (guarded_of_ok hx).symm.trans h

/-- Filling the rows to hand out fails while the stream stays open only if a batch was fetched. -/
theorem loses_of_fill (hcursor : a.hasCursor = true) (hfill : fill (a, s) = (.error e, b, t))
    (hopen : b.closed = false) : Loses a s e (b, t) := by
  by_cases hwants : a.wantsFetch = true
  · have hfetches : fill (a, s) = (do
        let batch : List Row ← guarded (On.beside (App.call (.fetch a.conn a.batchSize)))
        On.own (do Change.set (← Change.ofExcept ((← Change.get).receive batch))) :
          On RowStream σ Unit) (a, s) := by
      show (if a.wantsFetch then _ else _ : On RowStream σ Unit) (a, s) = _
      rw [if_pos hwants, if_pos hcursor]
    rw [hfetches] at hfill
    rcases hguarded : (guarded (On.beside (App.call (.fetch a.conn a.batchSize))) :
      On RowStream σ (List Row)) (a, s) with ⟨f | batch, v⟩
    · rw [bind_of_error _ hguarded] at hfill
      obtain rfl : v = (b, t) := congrArg Prod.snd hfill
      exact absurd (hopen.symm.trans (closed_of_guarded hguarded)) Bool.noConfusion
    · rcases hperform : Backend.perform (.fetch a.conn a.batchSize) s.db with ⟨r, db⟩
      have hcall : (On.beside (App.call (.fetch a.conn a.batchSize)) : On RowStream σ (List Row))
          (a, s) = (r, a, { s with
            db, events := s.events ++ [.called (.fetch a.conn a.batchSize) r.toOption] }) := by
        show ((App.call (.fetch a.conn a.batchSize) s).1, a, _) = _
        rw [App.call, hperform]
      obtain ⟨rfl, rfl⟩ := Prod.mk.inj (hcall.symm.trans (guarded_eq_ok hguarded))
      rw [bind_of_ok _ hguarded, own_receive_apply] at hfill
      rcases hreceive : a.receive batch with f | c
      · rw [hreceive] at hfill
        cases hfill
        exact .batch hwants hperform hreceive
      · rw [hreceive] at hfill
        cases hfill
  · rw [fill_of_not_wantsFetch (Bool.not_eq_true _ ▸ hwants)] at hfill
    cases hfill

/-- **A failed pull** that leaves the stream open has lost a row. -/
theorem loses_of_isOpen (hcursor : a.hasCursor = true) (hpull : pull (a, s) = (.error e, b, t))
    (hopen : b.closed = false) : Loses a s e (b, t) := by
  rcases hfill : fill (a, s) with ⟨f | _, c, u⟩
  · rw [pull, bind_of_error _ hfill] at hpull
    cases hpull
    exact loses_of_fill hcursor hfill hopen
  · rcases hbuffer : c.buffer with _ | ⟨row, rest⟩
    · have hclosed := closed_of_close_fail (α := Value) false .ended (c, u)
      rw [← pull_of_nil hfill hbuffer, hpull] at hclosed
      exact absurd (hopen.symm.trans hclosed) Bool.noConfusion
    · rcases hshape : shapeRow c.shape row u with ⟨r, v⟩
      rw [pull_of_cons hfill hbuffer hshape] at hpull
      cases hpull
      exact .row hfill hbuffer hshape

theorem adds_pull_answered (h : Working fresh a own) (hcursor : a.hasCursor = true)
    (hfetched : ∀ x ∈ own, x.isFailedFetch = false) (s : Session σ) :
    (pull : On RowStream σ Value).Adds (·.2) (a, s) fun r u added ↦
      u.1.closed = true → (∀ x ∈ added, x.isAnswered = true) → r = .error .ended := by
  refine (adds_fill h hcursor hfetched s).bind (fun _ u added hu ↦ ?_) fun f u added hu ↦ ?_
  · obtain ⟨c, t⟩ := u
    rcases hu with ⟨⟨hworking, -, -⟩, -⟩ | ⟨⟨_, hfailed⟩, -⟩
    · refine Adds.object ?_
      dsimp only
      split
      · refine (adds_close false hworking.isOpen t).bind (fun _ v more hv ↦ ?_) fun f v more hv ↦ ?_
        · exact .fail fun _ _ ↦ rfl
        · intro _ hall
          exact nomatch hv.2.answered (List.forall_mem_append.mp hall).2
      · rename_i row rest hbuffer
        refine Adds.modify (.of_events ?_ fun hclosed ↦ ?_)
        · exact congrArg Prod.snd (keeps_shapeRow c.shape row t)
        · exact absurd (hworking.isOpen.symm.trans hclosed) Bool.noConfusion
    · exact nomatch hfailed
  · rcases hu with ⟨⟨hworking, -, -⟩, -⟩ | ⟨-, -, x, hx, hfetch⟩
    · exact fun hclosed ↦ absurd (hworking.isOpen.symm.trans hclosed) Bool.noConfusion
    · intro _ hall
      exact absurd ((hall x hx).symm.trans (Event.isAnswered_of_isFailedFetch hfetch))
        Bool.noConfusion

/-- **A failed pull closes the stream unless it loses a row.** A stream was opened and any demands
were made on it, and then a pull fails. It leaves the stream open exactly if there was a row in hand
of which nothing could be made, or a batch that could not be measured. Otherwise the stream was
closed once, and whoever made it was told whether a batch could not be fetched; it has ended if all
calls were answered, and so has every later pull. Left open, it has told nobody and finished no
transaction, and the next pull goes on with the row behind the one that is lost. -/
theorem closes_unless_it_loses {closing : Option Bool} (hnew : fresh.IsNew)
    (h : Course σ fresh a closing own) (hpull : pull (a, s) = (.error e, b, t))
    (hadded : t.events = s.events ++ added) :
    (b.closed = false ↔ Loses a s e (b, t)) ∧
    (b.closed = true →
      ClosedOnce fresh (closing.getD (added.any Event.isFailedFetch)) (own ++ added) ∧
      ((∀ x ∈ added, x.isAnswered = true) → e = .ended) ∧
      ∀ u : Session σ, pull (b, u) = (.error .ended, b, u)) ∧
    (b.closed = false →
      (∀ x ∈ own ++ added, x.isWork fresh.conn = true ∧ x.isFailedFetch = false) ∧
      ∀ row rest, b.buffer = row :: rest → ∀ u : Session σ, pull (b, u) =
        ((shapeRow b.shape row u).1, { b with buffer := rest }, (shapeRow b.shape row u).2)) := by
  have hchange : Demand.pull.change (a, s) = (.error e, b, t) := by
    rw [Demand.change, bind_of_error _ hpull]
  have hevents : (Demand.pull.change (a, s)).2.2.events = s.events ++ added := by
    rw [hchange]
    exact hadded
  have hcourse := h.asked .pull s hevents
  rw [hchange] at hcourse
  have hafter := hcourse.lived hnew
  cases h.lived hnew with
  | working hworking hcursor hfetched =>
    have hdrained : a.Drained := drained_of_open hworking.isOpen
    have hiff : b.closed = false ↔ Loses a s e (b, t) :=
      ⟨loses_of_isOpen hcursor hpull, Loses.isOpen hdrained⟩
    refine ⟨hiff, fun hclosed ↦ ?_, fun hopen ↦ ?_⟩
    · rw [hclosed] at hafter
      obtain - | hended := hafter
      have hanswered := (adds_pull_answered hworking hcursor hfetched s).of_eq hpull hadded hclosed
      exact ⟨hended.once, fun hall ↦ Except.error.inj (hanswered hall),
        fun u ↦ pull_of_closed hended.closed hended.buffer u⟩
    · rw [hopen] at hafter
      obtain ⟨hworking', -, hfetched'⟩ := hafter
      refine ⟨fun x hx ↦ ⟨hworking'.work x hx, hfetched' x hx⟩, fun row rest hbuffer u ↦ ?_⟩
      have hwants : b.wantsFetch = false := by simp [wantsFetch, hbuffer]
      exact pull_of_cons (fill_of_not_wantsFetch hwants u) hbuffer rfl
  | ended hended =>
    rw [pull_of_closed hended.closed hended.buffer] at hpull
    cases hpull
    obtain - | hended := hafter
    have hclosed := hended.closed
    have hdrained : a.Drained := fun _ ↦ hended.buffer
    refine ⟨⟨fun hopen ↦ ?_, Loses.isOpen hdrained⟩, fun _ ↦ ?_, fun hopen ↦ ?_⟩
    · exact absurd (hopen.symm.trans hclosed) Bool.noConfusion
    · exact ⟨hended.once, fun _ ↦ rfl, fun u ↦ pull_of_closed hclosed hended.buffer u⟩
    · exact absurd (hopen.symm.trans hclosed) Bool.noConfusion

/-- A stream of letters that fetches two rows at once. -/
def recording : RowStream :=
  { notifying with shape := .record ⟨.letters, [], [], []⟩ .absent, batchSize := .int 2 }

/-- Two rows, the first of which has no value for the key. -/
def keylessFirst : List Row := [[("b", .text "x")], [("a", .int 2), ("b", .text "y")]]

/-- That stream over those rows once it was opened, and after a pull. -/
def recordingOpened : RowStream × Session Scripted :=
  (open_ (recording,
    { db := { connections := [("c", { driver := { batches := [.ok keylessFirst] } })] } })).2

def recordingPulled : RowStream × Session Scripted := (pull recordingOpened).2

/-- What the pull fails with. -/
def noKey : Failure := .fault (.missingKeyValue "Letter" "a")

/-- What the stream does to be opened, and then for the pull. -/
def recordingOpens : List Event :=
  let c : Connection := ⟨"c"⟩
  [.called (.driver c) (some true), .free c, .called (.startTransaction c) (some ()),
    .called (.openCursor c "SELECT 1" []) (some ())]

def recordingFetches : List Event := [.called (.fetch ⟨"c"⟩ (.int 2)) (some keylessFirst)]

theorem closes_unless_it_loses_letter : recording.IsNew ∧
    Course Scripted recording recordingOpened.1 none recordingOpens ∧
    pull recordingOpened = (.error noKey, recordingPulled) ∧
    recordingPulled.2.events = recordingOpened.2.events ++ recordingFetches ∧
    Loses recordingOpened.1 recordingOpened.2 noKey recordingPulled ∧
    ∀ x ∈ recordingOpens ++ recordingFetches,
      x.isWork ⟨"c"⟩ = true ∧ x.isFailedFetch = false := by
  have hnew : recording.IsNew := ⟨rfl, rfl, rfl, rfl, rfl⟩
  have hopened : Course Scripted recording recordingOpened.1 none recordingOpens :=
    .opened _ rfl
  have hpull : pull recordingOpened = (.error noKey, recordingPulled) := rfl
  have hadded : recordingPulled.2.events = recordingOpened.2.events ++ recordingFetches := rfl
  obtain ⟨hloses, -, hgoes⟩ := closes_unless_it_loses hnew hopened hpull hadded
  exact ⟨hnew, hopened, hpull, hadded, hloses.mp rfl, (hgoes rfl).1⟩

/-- The pull has failed, but the stream is open, whoever made it was not told, and the next pull
hands out a row. -/
theorem pull_of_keylessFirst : (pull recordingOpened).1 = .error noKey ∧
    recordingPulled.1.closed = false ∧ (∀ failed, Event.streamClosed failed ∉ recordingFetches) ∧
    recordingPulled.2.events = recordingOpened.2.events ++ recordingFetches ∧
    ∃ v, (pull recordingPulled).1 = .ok v :=
  ⟨rfl, rfl, fun _ h ↦ (nomatch List.mem_singleton.mp h), rfl, _, rfl⟩

end RowStream

end Rowmap
