import Rowmap.Proofs.Session.Custody
import Rowmap.Stream.Pull

/-!
# Streams as custodians

A stream that releases its connection on closing has the custody of it while it is open. Whatever is
done to such a stream, either it stays open and its connection held, or it is closed and has given
the connection back. `Lives` says so of a stream before and after, and composes; `Minds` says it of
what is done to streams. A closed stream minds nothing any more, whoever holds what by then.
-/

namespace Rowmap

namespace RowStream

/-- Whether a stream, if it is open, releases the connection that is held. -/
def Accounts (a : RowStream) (held : Option Connection) : Prop :=
  a.closed = false → a.onClose = .release ∧ held = some a.conn

/-- What may become of a stream and of the connection held: both stay as they are, or the stream is
closed and nothing is held any more. -/
inductive Lives (a : RowStream) (held : Option Connection) :
    RowStream → Option Connection → Prop where
  | stays {b : RowStream} (hclosed : b.closed = a.closed) (hconn : b.conn = a.conn)
      (honClose : b.onClose = a.onClose) : Lives a held b held
  | ends {b : RowStream} (hopen : a.closed = false) (hclosed : b.closed = true) :
      Lives a held b none

variable {a b c : RowStream} {held k l : Option Connection}

theorem elim_of_closed {p : Prop} (hclosed : a.closed = true) (hopen : a.closed = false) : p :=
  absurd (hopen.symm.trans hclosed) Bool.false_ne_true

theorem Lives.refl (a : RowStream) (held : Option Connection) : Lives a held a held :=
  .stays rfl rfl rfl

theorem Lives.trans (h : Lives a held b k) (h' : Lives b k c l) : Lives a held c l := by
  cases h with
  | stays hclosed hconn honClose =>
    cases h' with
    | stays hclosed' hconn' honClose' =>
      exact .stays (hclosed'.trans hclosed) (hconn'.trans hconn) (honClose'.trans honClose)
    | ends hopen hclosed' => exact .ends (hclosed.symm.trans hopen) hclosed'
  | ends hopen hclosed =>
    cases h' with
    | stays hclosed' => exact .ends hopen (hclosed'.trans hclosed)
    | ends hopen' => exact elim_of_closed hclosed hopen'

theorem Lives.accounts (h : Lives a held b k) (ha : a.Accounts held) : b.Accounts k := by
  intro hopen
  cases h with
  | stays hclosed hconn honClose =>
    rw [hconn, honClose]
    exact ha (hclosed.symm.trans hopen)
  | ends _ hclosed => exact elim_of_closed hclosed hopen

/-- A stream that was open and is closed has given its connection back. -/
theorem Lives.eq_none (h : Lives a held b k) (hopen : a.closed = false)
    (hclosed : b.closed = true) : k = none := by
  cases h with
  | stays hsame => exact elim_of_closed hclosed (hsame.trans hopen)
  | ends => rfl

theorem Lives.of_closed (h : Lives a held b k) (hclosed : a.closed = true) :
    b.closed = true ∧ b.conn = a.conn ∧ b.onClose = a.onClose ∧ k = held := by
  cases h with
  | stays hsame hconn honClose => exact ⟨hsame.trans hclosed, hconn, honClose, rfl⟩
  | ends hopen => exact elim_of_closed hclosed hopen

/-! ## What is done to streams -/

variable {σ α β : Type}

/-- What minds the connection of every stream that accounts for the one held. -/
def Minds (x : On RowStream σ α) : Prop :=
  ∀ a s held, a.Accounts held →
    x.Settles (fun u ↦ u.2) (a, s) held fun _ u k ↦ Lives a held u.1 k

namespace Minds

open Change

variable {x : On RowStream σ α}

theorem of_quiet {x : App σ α} (hx : Quiet id x) : Minds (On.beside x) := by
  intro a s held _
  refine (hx s held).onSecond.mono fun _ u k hk ↦ ?_
  obtain ⟨hobject, rfl⟩ := hk
  rw [hobject]
  exact .refl a k

theorem of_own {x : Change RowStream α}
    (hx : Keeps (fun a : RowStream ↦ (a.closed, a.conn, a.onClose)) x) :
    Minds (On.own x : On RowStream σ α) := by
  intro a s held _
  have hkept := hx a
  simp only [Prod.mk.injEq] at hkept
  exact .of_events rfl (.refl s) (.stays hkept.1 hkept.2.1 hkept.2.2)

theorem fail (e : Failure) : Minds (Change.fail e : On RowStream σ α) :=
  fun a _ held _ ↦ .fail (.refl a held)

theorem ok (r : α) : Minds (Change.ok r : On RowStream σ α) :=
  fun a _ held _ ↦ .ok (.refl a held)

theorem bind {f : α → On RowStream σ β} (hx : Minds x) (hf : ∀ r, Minds (f r)) :
    Minds (x >>= f) := by
  intro a s held ha
  refine (hx a s held ha).bind (fun r u k hk ↦ ?_) fun _ _ _ hk ↦ hk
  exact (hf r u.1 u.2 k (hk.accounts ha)).mono fun _ _ _ hl ↦ hk.trans hl

theorem object {f : RowStream → On RowStream σ β} (hf : ∀ a, Minds (f a)) :
    Minds (On.object >>= f) := fun a s held ha ↦ hf a a s held ha

theorem mapFailure (f : Failure → Failure) (hx : Minds x) : Minds (Change.mapFailure f x) := hx

end Minds

variable [Backend σ]

open Change

theorem minds_call {c : Call}
    (h : ∀ reply, (Event.called c reply).taken? = none ∧ (Event.called c reply).returned? = none) :
    Minds (On.beside (App.call c) : On RowStream σ c.Reply) := .of_quiet (App.quiet_call h)

theorem minds_finishTransaction (failed : Bool) :
    Minds (finishTransaction failed : On RowStream σ Unit) := by
  refine .object fun a ↦ ?_
  cases a.ownsTransaction with
  | false => exact .ok ()
  | true => cases failed <;> exact minds_call fun _ ↦ ⟨rfl, rfl⟩

theorem settles_announce (hdb : Backend.Releases σ) (failed : Bool) (s : Session σ)
    (honClose : a.onClose = .release) (hheld : held = some a.conn) :
    (announce failed).Settles (fun u : RowStream × Session σ ↦ u.2) (a, s) held
      fun _ u k ↦ u.1 = a ∧ k = none := by
  refine Settles.object ?_
  dsimp only
  rw [honClose, hheld]
  exact (App.settles_release hdb a.conn failed s).onSecond

/-- **Closing** a stream closes it, and gives its connection back if it was open. -/
theorem settles_close (hdb : Backend.Releases σ) (failed : Bool) (s : Session σ)
    (ha : a.Accounts held) :
    (close failed).Settles (fun u : RowStream × Session σ ↦ u.2) (a, s) held fun _ u k ↦
      Lives a held u.1 k ∧ u.1.closed = true := by
  refine Settles.object ?_
  dsimp only
  cases hclosed : a.closed with
  | true => exact .ok ⟨.refl a held, hclosed⟩
  | false =>
    obtain ⟨honClose, rfl⟩ := ha hclosed
    refine Settles.modify ?_
    -- the stream is closed from here on, and finishing its transaction keeps the connection
    have hfinish := minds_finishTransaction failed a.shut s (some a.conn)
      (elim_of_closed rfl)
    refine Settles.finally_ hfinish fun _ u k hk ↦ ?_
    obtain ⟨hclosed', hconn, honClose', rfl⟩ := hk.of_closed rfl
    have hannounce := @settles_announce { u.1 with ownsTransaction := false } _ σ _ hdb failed u.2
      (honClose'.trans honClose) (congrArg some hconn.symm)
    refine Settles.modify (hannounce.mono fun _ v l hl ↦ ?_)
    obtain ⟨hobject, rfl⟩ := hl
    have hend : v.1.closed = true := hobject ▸ hclosed'
    exact ⟨.ends hclosed hend, hend⟩

theorem minds_close (hdb : Backend.Releases σ) (failed : Bool) :
    Minds (close failed : On RowStream σ Unit) :=
  fun _ s _ ha ↦ (settles_close hdb failed s ha).mono fun _ _ _ h ↦ h.1

theorem settles_guarded (hdb : Backend.Releases σ) {x : On RowStream σ α} (hx : Minds x)
    (s : Session σ) (ha : a.Accounts held) :
    (guarded x).Settles (fun u ↦ u.2) (a, s) held fun r u k ↦
      Lives a held u.1 k ∧ ∀ e, r = .error e → u.1.closed = true := by
  refine (hx.mapFailure Failure.recast a s held ha).attempt_bind fun outcome u k hk ↦ ?_
  cases outcome with
  | ok r => exact .ok ⟨hk, fun e he ↦ nomatch he⟩
  | error e =>
    have hclose := settles_close hdb true u.2 (hk.accounts ha)
    refine hclose.bind (fun _ v l hl ↦ ?_) fun _ v l hl ↦ ?_
    · exact .fail ⟨hk.trans hl.1, fun _ _ ↦ hl.2⟩
    · exact ⟨hk.trans hl.1, fun _ _ ↦ hl.2⟩

theorem minds_guarded (hdb : Backend.Releases σ) {x : On RowStream σ α} (hx : Minds x) :
    Minds (guarded x) :=
  fun _ s _ ha ↦ (settles_guarded hdb hx s ha).mono fun _ _ _ h ↦ h.1

theorem minds_startTransaction : Minds (startTransaction : On RowStream σ Unit) := by
  refine .object fun a ↦ (minds_call fun _ ↦ ⟨rfl, rfl⟩).bind fun present ↦ ?_
  cases (present : Bool) with
  | false => exact .fail .missingPart
  | true =>
    refine (minds_call fun _ ↦ ⟨rfl, rfl⟩).bind fun busy ↦ ?_
    cases (busy : Bool) with
    | true => exact .ok ()
    | false => exact (Minds.of_own fun _ ↦ rfl).bind fun _ ↦ minds_call fun _ ↦ ⟨rfl, rfl⟩

/-- **Opening** a stream that fails closes it. -/
theorem settles_open (hdb : Backend.Releases σ) (s : Session σ) (ha : a.Accounts held) :
    (open_ : On RowStream σ Unit).Settles (fun u ↦ u.2) (a, s) held fun r u k ↦
      Lives a held u.1 k ∧ ∀ e, r = .error e → u.1.closed = true := by
  have hcursor : Minds (do
      startTransaction
      On.beside (App.call (.openCursor a.conn a.sql a.values))
      On.own (Change.modify fun a ↦ { a with hasCursor := true }) : On RowStream σ Unit) :=
    minds_startTransaction.bind fun _ ↦ (minds_call fun _ ↦ ⟨rfl, rfl⟩).bind fun _ ↦
      .of_own fun _ ↦ rfl
  refine Settles.object ((App.settles_tell _).onSecond.bind (fun _ u k hk ↦ ?_) fun _ _ _ hk ↦ ?_)
  · obtain ⟨hobject, -, rfl⟩ := hk
    obtain ⟨b, t⟩ := u
    obtain rfl : b = a := hobject
    exact settles_guarded hdb hcursor t ha
  · exact nomatch hk.2.1

theorem of_receive {batch : List Row} (h : a.receive batch = .ok b) :
    (b.closed, b.conn, b.onClose) = (a.closed, a.conn, a.onClose) := by
  rw [receive] at h
  cases hshort : a.batchSize.exceeds batch.length with
  | error e =>
    rw [hshort] at h
    exact nomatch h
  | ok short =>
    rw [hshort] at h
    rw [← Except.ok.inj h]

theorem minds_fill (hdb : Backend.Releases σ) : Minds (fill : On RowStream σ Unit) := by
  refine .object fun a ↦ ?_
  cases a.wantsFetch with
  | false => exact .ok ()
  | true =>
    rw [if_pos rfl]
    refine Minds.bind (minds_guarded hdb ?_) fun batch ↦ .of_own fun b ↦ ?_
    · cases a.hasCursor with
      | false => exact .fail .missingPart
      | true => exact minds_call fun _ ↦ ⟨rfl, rfl⟩
    · show (fun a : RowStream ↦ (a.closed, a.conn, a.onClose))
        ((Change.ofExcept (b.receive batch) >>= Change.set) b).2 = _
      rw [Change.bind_apply, Change.ofExcept_apply]
      cases hreceive : b.receive batch with
      | error e => rfl
      | ok b' => exact of_receive hreceive

omit [Backend σ] in
/-- Making something of a row leaves the streams alone. -/
theorem quiet_shapeRow (shape : RowShape) (row : Row) :
    Quiet id (shapeRow shape row : App σ Value) := by
  cases shape with
  | entries => exact .ok _
  | record type source =>
    exact (Quiet.ofExcept _).bind fun r ↦ (App.quiet_addRecord r).bind App.quiet_recordValue

/-- **Pulling** minds the connection, whether there is a row, there is none or fetching fails. -/
theorem minds_pull (hdb : Backend.Releases σ) : Minds (pull : On RowStream σ Value) := by
  refine (minds_fill hdb).bind fun _ ↦ .object fun a ↦ ?_
  cases a.buffer with
  | nil => exact (minds_close hdb false).bind fun _ ↦ .fail .ended
  | cons row rest =>
    exact (Minds.of_own fun _ ↦ rfl).bind fun _ ↦ .of_quiet (quiet_shapeRow a.shape row)

end RowStream

/-! ## Live streams -/

def Session.withStream {σ : Type} (s : Session σ) (a : RowStream) : Session σ :=
  { s with streams := s.streams.put s.next a, next := s.next + 1 }

theorem App.passes_addStream {σ ρ β : Type} {a : RowStream} {f : Nat → On ρ σ β} {object : ρ}
    {s : Session σ} {held : Option Connection}
    {post : Except Failure β → ρ × Session σ → Option Connection → Prop}
    (hf : (f s.next).Passes (fun u ↦ u.2) (object, s.withStream a) held post) :
    (On.beside (App.addStream a) >>= f).Passes (fun u ↦ u.2) (object, s) held post := hf

/-- What is done to a live stream passes custody as it does to the stream itself, which it replaces.
-/
theorem App.passes_withStream {σ α : Type} {n : Nat} {x : On RowStream σ α} {a : RowStream}
    {s : Session σ} {held : Option Connection}
    {post : Except Failure α → RowStream → Option Connection → Prop}
    (ha : s.streams.lookup n = some a)
    (hx : x.Settles (fun u ↦ u.2) (a, s) held fun r u k ↦ post r u.1 k) :
    (App.withStream n x).Passes id s held fun r t k ↦
      ∃ b, t.streams = s.streams.put n b ∧ s.next ≤ t.next ∧ post r b k := by
  obtain ⟨added, k, hadded, hafter, hgrows, hpost⟩ := hx
  have hrun : App.withStream n x s = ((x (a, s)).1,
      { (x (a, s)).2.2 with streams := (x (a, s)).2.2.streams.put n (x (a, s)).2.1 }) := by
    rw [App.withStream, ha]
  refine ⟨added, k, ?_, hafter, ?_⟩ <;> rw [hrun]
  · exact hadded
  · have hstreams : (x (a, s)).2.2.streams = s.streams := hgrows.streams
    refine ⟨(x (a, s)).2.1, ?_, hgrows.next, hpost⟩
    rw [hstreams]

end Rowmap
