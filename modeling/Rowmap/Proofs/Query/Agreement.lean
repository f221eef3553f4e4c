import Rowmap.Proofs.Query.Custody
import Rowmap.Proofs.Session.Spares

/-!
# What is returned and the output agree

A query is told what to return and in what shape by setters that can fail half-way. `Agrees` is what
they keep all the same: what is returned comes with the shape that it implies. So the check of that
before a run never fails, and the one thing left to complain of is a shape of single values where
everything is returned. The setter of what is returned does break the agreement for a moment, and
mends it before it is done, since the shape that it then sets is the one that was implied.
-/

namespace Rowmap

namespace Query

open Change

variable {σ α : Type} {q q' : Query}

/-- Whether the rows have the shape that what is returned of them implies, if it implies one. -/
def Agrees (q : Query) : Prop := ∀ o, q.select.returns.implied? = some o → q.select.output = o

def agreed (q : Query) : Selector Value × OutputType := (q.select.returns, q.select.output)

theorem Agrees.of_agreed (h : q.Agrees) (hq : q'.agreed = q.agreed) : q'.Agrees := by
  obtain ⟨hreturns, houtput⟩ := Prod.mk.inj hq
  intro o ho
  rw [houtput]
  exact h o (hreturns ▸ ho)

theorem checkReturns_eq_ok {returns : Selector Value} {output : OutputType} :
    checkReturns returns output = .ok () ↔ ∀ o, returns.implied? = some o → output = o := by
  rw [checkReturns.eq_def]
  cases returns.implied? with
  | none => simp
  | some o =>
    by_cases h : output = o
    · simp [h]
    · simp [h]

/-! ## Setters -/

/-- A change after which a query agrees, if it did before, whether or not the change fails. -/
def KeepsAgreement (x : Change Query α) : Prop := ∀ q : Query, q.Agrees → (x q).2.Agrees

namespace KeepsAgreement

variable {β : Type} {x : Change Query α}

theorem of_keeps (hx : Keeps agreed x) : KeepsAgreement x := fun q h ↦ h.of_agreed (hx q)

theorem bind {f : α → Change Query β} (hx : KeepsAgreement x) (hf : ∀ a, KeepsAgreement (f a)) :
    KeepsAgreement (x >>= f) := by
  intro q h
  have hfirst := hx q h
  obtain ⟨a, q₁, hrun, hthen⟩ | ⟨e, q₁, hrun, hthen⟩ := bind_cases x f q <;>
    rw [hrun] at hfirst <;> rw [hthen]
  · exact hf a q₁ hfirst
  · exact hfirst

end KeepsAgreement

theorem agreed_staleIf (changed : Bool) : Keeps agreed (staleIf changed) := by
  cases changed with
  | true => exact fun _ ↦ rfl
  | false => exact .ok ()

theorem agreed_staleUnlessEqual (v old : Value) : Keeps agreed (staleUnlessEqual v old) :=
  (Keeps.ofExcept _).bind fun _ ↦ agreed_staleIf _

theorem agreed_unlessNull_stream (v : Value) : Keeps agreed (unlessNull v stream_) := by
  rw [unlessNull]
  split
  · exact .ok ()
  · exact Keeps.get.bind fun _ ↦ (agreed_staleUnlessEqual _ _).bind fun _ _ ↦ rfl

/-- The shape of the rows is set where it passes the check, and else nothing is. -/
theorem output_apply (v : Value) (q : Query) :
    output v q =
      match outputOf v with
      | .error e => (.error e, q)
      | .ok o =>
        match checkReturns q.select.returns o with
        | .error e => (.error e, q)
        | .ok _ => (.ok (), { q with select := { q.select with
            output := o, loaded := q.select.loaded && o = q.select.output } }) := by
  cases ho : outputOf v with
  | error e =>
    rw [output, ho]
    rfl
  | ok o =>
    simp only [output, ho, bind_apply, ofExcept_apply, get_apply]
    cases checkReturns q.select.returns o with
    | error e => rfl
    | ok _ => by_cases hsame : o = q.select.output <;> simp [staleIf, setLoaded, withLoaded,
        modifySelect, hsame]

theorem outputOf_output (o : OutputType) : outputOf (.output o) = .ok o := by
  cases o <;> rfl

theorem output_implied {q : Query} {o : OutputType} (h : q.select.returns.implied? = some o) :
    checkReturns q.select.returns o = .ok () ∧
      output (.output o) q = (.ok (), { q with select := { q.select with
        output := o, loaded := q.select.loaded && o = q.select.output } }) := by
  have hcheck : checkReturns q.select.returns o = .ok () :=
    checkReturns_eq_ok.mpr fun o' ho ↦ Option.some.inj (h.symm.trans ho)
  refine ⟨hcheck, ?_⟩
  rw [output_apply, outputOf_output]
  dsimp only
  rw [hcheck]

theorem keepsAgreement_output (v : Value) : KeepsAgreement (output v) := by
  intro q h
  rw [output_apply]
  split
  · exact h
  · split
    · exact h
    next hcheck => exact checkReturns_eq_ok.mp hcheck

/-- What is returned is set before the shape that it implies. That passes its check, so the query
agrees once both are set, whether or not it did before. -/
theorem keepsAgreement_returns (v : Value) : KeepsAgreement (returns v) := by
  refine .bind (.of_keeps (.ofExcept _)) fun selector ↦ .bind (.of_keeps .get) fun _ ↦
    .bind (.of_keeps (agreed_staleUnlessEqual _ _)) fun _ q _ ↦ ?_
  rw [modifySelect, bind_apply, modify_apply]
  cases himplied : selector.implied? with
  | none =>
    intro o ho
    cases himplied.symm.trans ho
  | some implied =>
    obtain ⟨hcheck, hset⟩ := output_implied (q := { q with select.returns := selector }) himplied
    dsimp only
    rw [hset]
    exact checkReturns_eq_ok.mp hcheck

theorem keepsAgreement_unlessNull {setter : Value → Change Query Unit} (v : Value)
    (hsetter : KeepsAgreement (setter v)) : KeepsAgreement (unlessNull v setter) := by
  rw [unlessNull]
  split
  · exact .of_keeps (.ok ())
  · exact hsetter

theorem keepsAgreement_options (outputType returning streaming : Value) :
    KeepsAgreement (options outputType returning streaming) :=
  .bind (.of_keeps (agreed_unlessNull_stream streaming)) fun _ ↦
    .bind (keepsAgreement_unlessNull returning (keepsAgreement_returns returning)) fun _ ↦
      keepsAgreement_unlessNull outputType (keepsAgreement_output outputType)

theorem agreed_orderBy (specs : List Value) : Keeps agreed (orderBy specs) := by
  refine Keeps.bind ?_ fun _ _ ↦ rfl
  induction specs with
  | nil => exact .ok ()
  | cons spec specs ih =>
    exact ((Keeps.ofExcept _).bind fun _ _ ↦ rfl).bind fun _ ↦ ih

/-- **Setters** keep the agreement, whether or not they fail. -/
theorem Setting.keepsAgreement (c : Setting) : KeepsAgreement c.apply := by
  cases c with
  | where_ tree => exact .of_keeps fun _ ↦ rfl
  | orderBy specs => exact .of_keeps (agreed_orderBy specs)
  | limit v =>
    exact .of_keeps (Keeps.get.bind fun _ ↦ (agreed_staleUnlessEqual _ _).bind fun _ _ ↦ rfl)
  | offset v =>
    exact .of_keeps (Keeps.get.bind fun _ ↦ (agreed_staleUnlessEqual _ _).bind fun _ _ ↦ rfl)
  | output v => exact keepsAgreement_output v
  | returns v => exact keepsAgreement_returns v
  | options outputType returning streaming =>
    exact keepsAgreement_options outputType returning streaming

/-! ## Operations -/

theorem agreed_of_asked {u v : Query × Session σ} (h : asked u = asked v) :
    u.1.agreed = v.1.agreed :=
  congrArg (fun a : RecordType × Select Value ↦ (a.2.returns, a.2.output)) h

variable [Backend σ]

/-- **Every operation** keeps the agreement, whether or not it fails. -/
theorem Operation.agrees (o : Operation) {s : Session σ} (h : q.Agrees) :
    (o.perform (q, s)).2.1.Agrees := by
  have hkept (hx : Keeps asked (o.perform : On Query σ (List Pass))) :
      (o.perform (q, s)).2.1.Agrees := h.of_agreed (agreed_of_asked (hx (q, s)))
  have hcore (hx : Keeps core (o.perform : On Query σ (List Pass))) :
      (o.perform (q, s)).2.1.Agrees := hkept (keeps_asked hx)
  cases o with
  | set c =>
    have hset : (Operation.perform (.set c) (q, s)).2.1 = (c.apply q).2 := by
      rw [perform, bind_apply, On.own, onFirst_apply]
      cases (c.apply q).1 <;> rfl
    rw [hset]
    exact c.keepsAgreement q h
  | setLoaded loaded => exact hkept ((keeps_asked_setLoaded loaded).bind fun _ ↦ .ok _)
  | setPool pool releaseOld => exact hcore ((keeps_core_setPool pool releaseOld).bind fun _ ↦ .ok _)
  | dropConnection releaseOld =>
    exact hcore ((keeps_core_setConnection none releaseOld).bind fun _ ↦ .ok _)
  | run given => exact hkept ((keeps_asked_run given).bind fun _ ↦ .ok _)
  | close => exact hcore (keeps_core_close.bind fun _ ↦ .ok _)
  | startPass =>
    exact hcore ((Keeps.gets _).bind fun _ ↦ (Keeps.ofExcept _).bind fun _ ↦ .ok _)
  | advance pass => exact hkept ((keeps_asked_advance pass).bind fun _ ↦ .ok _)
  | abandon pass => exact hcore ((keeps_core_beside _).bind fun _ ↦ .ok _)

/-! ## Runs -/

theorem spares_close (hdb : Backend.Spares σ) : (close : On Query σ Unit).Spares := by
  refine (Change.Spares.gets _).bind fun q ↦ ?_
  cases q.stream with
  | none => exact .ok ()
  | some id =>
    exact (Change.Spares.modify _).onFirst.bind fun _ ↦
      (App.spares_withStream id (RowStream.spares_close hdb false)).onSecond

omit [Backend σ] in
theorem spares_statement (q : Query) (count isSubquery : Bool) (bound : Int) :
    (q.statement count isSubquery bound : App σ Statement).Spares := by
  have hselect : (App.refreshSelect q.select : App σ (Select Value)).Spares :=
    Change.Spares.bind (fun _ ↦ .ok _) fun s ↦ (Change.Spares.ofExcept
      (Value.spares_refreshItems (fun id _ ↦ s.spares_current s.depth id) _)).bind fun _ ↦ .ok _
  exact hselect.bind fun select _ ↦ select.spares_statement count isSubquery bound

theorem spares_openStream (hdb : Backend.Spares σ) (statement : Statement) (source : Source) :
    (openStream statement source : On Query σ Unit).Spares := by
  rw [openStream_eq]
  refine (Change.Spares.gets _).bind fun q ↦ Change.Spares.bind ?_ fun c ↦ ?_
  · rw [connection]
    cases q.conn with
    | some c => exact .ok c
    | none => exact ((App.spares_poolOrDefault q.pool).bind
        (App.spares_usableConnection hdb)).onSecond
  · exact Change.Spares.bind (fun _ ↦ .ok _) fun id ↦
      (App.spares_withStream id (RowStream.spares_open hdb)).onSecond.bind fun _ ↦
        (Change.Spares.modify _).onFirst

omit [Backend σ] in
theorem spares_recordsOf (t : RecordType) (source : Source) (rows : List Row) :
    (recordsOf t source rows : App σ (List Value)).Spares := by
  induction rows with
  | nil => exact .ok []
  | cons row rows ih =>
    have hvalue (id : Nat) : (App.recordValue id : App σ Value).Spares := by
      intro s
      rw [App.recordValue, App.withRecord]
      cases s.records.lookup id with
      | none => exact .error rfl
      | some r => exact .ok _
    exact (Change.Spares.ofExcept (Record.spares_ofRow t source row)).bind fun r ↦
      Change.Spares.bind (fun _ ↦ .ok _) fun id ↦ (hvalue id).bind fun _ ↦ ih.bind fun _ ↦ .ok _

omit [Backend σ] in
theorem spares_shapeRows (q : Query) (source : Source) (rows : List Row) :
    (q.shapeRows source rows : App σ (List Value)).Spares := by
  rw [shapeRows]
  cases q.select.output with
  | record => exact spares_recordsOf q.type source rows
  | value =>
    refine .ofExcept (.mapM fun row _ ↦ ?_)
    rw [cell]
    split
    · exact .ok _
    · exact .error rfl
  | object => exact .ok _

/-- **After its check**, a run does not complain of the output. -/
theorem spares_run (hdb : Backend.Spares σ) (given : Source) {s : Session σ}
    (hcheck : Spares q.checkRunnable) : Spares (run given (q, s)).1 := by
  have hrest : Change.Spares (do
      close
      let q ← On.object
      let source := given.orElse (Source.ofParts q.conn q.pool)
      let statement ← On.beside (q.statement false false 0)
      if q.isStreaming then openStream statement source
      else
        let outcome : Outcome ← On.beside
          (App.checkout q.conn q.pool false fun c ↦ App.execute c statement.text statement.values)
        let rows ← On.beside (q.shapeRows source outcome.rows)
        On.own (modifySelect fun s ↦ { s with rows })
      On.own (setLoaded true) : On Query σ Unit) := by
    refine (spares_close hdb).bind fun _ ↦ (Change.Spares.gets _).bind fun q ↦
      (q.spares_statement false false 0).onSecond.bind fun statement ↦ ?_
    dsimp only
    split
    · exact (spares_openStream hdb statement _).bind fun _ ↦ (Change.Spares.modify _).onFirst
    · have houtcome := App.spares_checkout hdb q.conn q.pool false
        fun c ↦ App.spares_execute hdb c statement.text statement.values
      exact houtcome.onSecond.bind fun outcome ↦
        (q.spares_shapeRows _ outcome.rows).onSecond.bind fun rows ↦
          (Change.Spares.modify _).onFirst.bind fun _ ↦ (Change.Spares.modify _).onFirst
  rw [run, On.object, gets_bind]
  cases hr : q.checkRunnable with
  | error e => exact hcheck e hr ▸ .error (hcheck e hr)
  | ok _ => exact hrest (q, s)

/-- The check before a run of a query that agrees complains of the output just where single values
are to be made of everything. -/
theorem isMismatch_of_checkRunnable (h : q.Agrees) :
    (∃ e, q.checkRunnable = .error e ∧ e.isMismatch = true) ↔
      q.select.output = .value ∧ q.select.returns = .everything := by
  have himplied : q.select.returns.implied? = none ↔ q.select.returns = .everything := by
    cases q.select.returns <;> simp [Selector.implied?]
  have hcheck : q.checkRunnable =
      if q.select.output = .value ∧ q.select.returns.implied? = none then
        .error (incompatible .value .everything)
      else if q.isStreaming then
        if q.select.returns.implied?.isSome then
          .error (.fault (.unavailableInStream "Option returns"))
        else if q.select.output ≠ .record then
          .error (.fault (.unavailableInStream "Output other than record"))
        else .ok ()
      else .ok () := by
    rw [checkRunnable, checkReturns_eq_ok.mpr h]
    rfl
  rw [← himplied, hcheck]
  split
  next hvalue => exact ⟨fun _ ↦ hvalue, fun _ ↦ ⟨_, rfl, rfl⟩⟩
  next hvalue =>
    refine ⟨?_, fun h ↦ absurd h hvalue⟩
    rintro ⟨e, he, hmismatch⟩
    split at he
    · split at he
      · cases he
        exact nomatch hmismatch
      · split at he
        · cases he
          exact nomatch hmismatch
        · exact nomatch he
    · exact nomatch he

/-! ## Courses -/

/-- What a query can become: it is made, and then anything is done to it, in any session, which
succeeds or fails. -/
inductive Reached (σ : Type) [Backend σ] : Query → Prop where
  | new {t : RecordType} {source : Source} {outputType returning streaming : Value} {q : Query}
      (h : make t source outputType returning streaming = .ok q) : Reached σ q
  | step {q : Query} (before : Reached σ q) (o : Operation) (s : Session σ) :
      Reached σ (o.perform (q, s)).2.1

omit [Backend σ] in
theorem agrees_of_make {t : RecordType} {source : Source} {outputType returning streaming : Value}
    (h : make t source outputType returning streaming = .ok q) : q.Agrees := by
  obtain ⟨⟨conn, pool⟩, -, h⟩ := Except.bind_eq_ok.mp h
  have hblank : (blank t conn pool).Agrees := fun _ ho ↦ nomatch ho
  have hset := keepsAgreement_options outputType returning streaming _ hblank
  dsimp only at h
  split at h
  next hoptions =>
    rw [hoptions] at hset
    exact Except.ok.inj h ▸ hset
  next => exact nomatch h

theorem Reached.agrees (h : Reached σ q) : q.Agrees := by
  induction h with
  | new h => exact agrees_of_make h
  | step _ o s ih => exact o.agrees ih

/-- **What is returned and the output agree.** However a query was made and whatever was done to it
since, failing calls included, its rows are single values if one key is returned and maps if several
are. So the check of that before a run passes. And a run complains that the output is incompatible
exactly where single values are to be made of everything. -/
theorem output_agrees_with_returns (h : Reached σ q) :
    (q.select.returns = .everything ∨
      (∃ key, q.select.returns = .one key) ∧ q.select.output = .value ∨
      (∃ keys, q.select.returns = .several keys) ∧ q.select.output = .object) ∧
    checkReturns q.select.returns q.select.output = .ok () ∧
    (Backend.Spares σ → ∀ (given : Source) (s : Session σ),
      (∃ output returns,
        (run given (q, s)).1 = .error (.fault (.incompatibleOutput output returns))) ↔
        q.select.output = .value ∧ q.select.returns = .everything) := by
  have hagrees := h.agrees
  refine ⟨?_, checkReturns_eq_ok.mpr hagrees, fun hdb given s ↦ ⟨?_, fun hvalue ↦ ?_⟩⟩
  · cases hreturns : q.select.returns with
    | everything => exact .inl rfl
    | one key => exact .inr (.inl ⟨⟨key, rfl⟩, hagrees .value (by rw [hreturns]; rfl)⟩)
    | several keys => exact .inr (.inr ⟨⟨keys, rfl⟩, hagrees .object (by rw [hreturns]; rfl)⟩)
  · rintro ⟨output, returns, hrun⟩
    by_contra hvalue
    have hcheck : Spares q.checkRunnable := fun e he ↦ Bool.eq_false_iff.mpr fun hmismatch ↦
      hvalue ((isMismatch_of_checkRunnable hagrees).mp ⟨e, he, hmismatch⟩)
    exact Bool.noConfusion (spares_run hdb given hcheck _ hrun)
  · obtain ⟨e, he, hmismatch⟩ := (isMismatch_of_checkRunnable hagrees).mpr hvalue
    obtain ⟨output, returns, rfl⟩ := Failure.eq_of_isMismatch hmismatch
    refine ⟨output, returns, ?_⟩
    rw [run, On.object, gets_bind, he]
    rfl

end Query

/-- A scripted database that leaves the complaint about the output to queries. -/
structure Sparing where
  script : Scripted

namespace Sparing

instance : Backend Sparing where
  perform call s :=
    ((Backend.perform call s.script).1.mapError fun e ↦
      if e.isMismatch then Scripted.exhausted else e, ⟨(Backend.perform call s.script).2⟩)

theorem spares : Backend.Spares Sparing := by
  intro call s e he
  obtain ⟨f, -, rfl⟩ : ∃ f, (Backend.perform call s.script).1 = .error f ∧
      (if f.isMismatch then Scripted.exhausted else f) = e := by
    change (Except.mapError _ (Backend.perform call s.script).1) = _ at he
    cases hr : (Backend.perform call s.script).1 with
    | ok reply =>
      rw [hr] at he
      exact nomatch he
    | error f =>
      rw [hr] at he
      exact ⟨f, rfl, Except.error.inj he⟩
  split
  · rfl
  next h => exact Bool.eq_false_iff.mpr h

end Sparing

namespace Query

def sparingSession : Session Sparing := { db := ⟨{ connections := [("c", {})] }⟩ }

/-- A query for the first letters alone, of which records are then asked, in vain, and finally
everything: it still has the shape of single values. -/
def valuesOfEverything : Query :=
  let made := blank ⟨.letters, [], [], []⟩ (some ⟨"c"⟩) none
  let first := ((Operation.set (.returns (.text "a"))).perform (made, sparingSession)).2.1
  let refused := ((Operation.set (.output (.text "record"))).perform (first, sparingSession)).2.1
  ((Operation.set (.returns .null)).perform (refused, sparingSession)).2.1

theorem output_agrees_with_returns_valuesOfEverything :
    Reached Sparing valuesOfEverything ∧ Backend.Spares Sparing ∧
    valuesOfEverything.select.output = .value ∧
    valuesOfEverything.select.returns = .everything ∧
    ∃ output returns, (run .absent (valuesOfEverything, sparingSession)).1 =
      .error (.fault (.incompatibleOutput output returns)) := by
  have hmade : Reached Sparing (blank ⟨.letters, [], [], []⟩ (some ⟨"c"⟩) none) :=
    @Reached.new _ _ _ (.connection ⟨"c"⟩) .null .null .null _ rfl
  have hreached : Reached Sparing valuesOfEverything :=
    ((hmade.step (.set (.returns (.text "a"))) sparingSession).step
      (.set (.output (.text "record"))) sparingSession).step (.set (.returns .null)) sparingSession
  have hvalue : valuesOfEverything.select.output = .value := rfl
  have heverything : valuesOfEverything.select.returns = .everything := rfl
  refine ⟨hreached, Sparing.spares, hvalue, heverything, ?_⟩
  exact ((output_agrees_with_returns hreached).2.2 Sparing.spares .absent sparingSession).mpr
    ⟨hvalue, heverything⟩

end Query

end Rowmap
