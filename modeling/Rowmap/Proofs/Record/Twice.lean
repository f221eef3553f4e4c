import Rowmap.Proofs.Record.Unchanged
import Rowmap.Proofs.Value.Refreshed

/-!
# Saving twice

A save that takes over the row which the database gave back leaves the record matching that row: its
clean copy is its values. So nothing is dirty that equals itself, and saving again sends nothing.

A save that skips the row leaves the record as it was before, dirty or without a row. So saving
again makes the same statement, and a record that was inserted is inserted once more.
-/

namespace Rowmap

namespace Record

open Change

variable {σ : Type} {s s₁ : Session σ} {r r₁ r' : Record}

/-! ## Clean records -/

/-- Whether a record matches its row as it stands. -/
structure IsClean (r : Record) : Prop where
  loaded : r.loaded = true
  clean : r.clean = r.values

theorem isClean_of_matched (h : r.matched = .ok r') : r'.IsClean := by
  obtain ⟨r₀, -, h⟩ := Except.bind_eq_ok.mp h
  obtain rfl := Except.ok.inj h
  exact ⟨rfl, rfl⟩

/-- A record that has taken over a row matches it. -/
theorem isClean_of_loadRow {row : Row} (h : loadRow row r = (.ok (), r')) : r'.IsClean := by
  obtain ⟨e, he, -⟩ | ⟨-, hmark⟩ := of_loadRow h
  · exact nomatch he
  · exact isClean_of_matched (Step.matched_of_setLoaded hmark)

theorem changeStatement_of_not_dirty (h : ∀ key ∈ r.type.keys, r.isFieldDirty key = false)
    (skipReload : Bool) : r.changeStatement skipReload = .ok none := by
  have hkeys (keys : List String) (hmem : ∀ key ∈ keys, key ∈ r.type.keys) :
      (keys.map Value.text).foldlM (r.contribute { includePrivate := true, onlyDirty := true }) [] =
        .ok [] := by
    induction keys with
    | nil => rfl
    | cons key keys ih =>
      rw [List.forall_mem_cons] at hmem
      have hfirst : r.contribute { includePrivate := true, onlyDirty := true } [] (.text key) =
          .ok [] := by
        rw [contribute, contributionBy]
        dsimp only [Value.asText?]
        rw [contribution_of_dirty (Table.declares_of_mem_keys hmem.1), h key hmem.1]
        rfl
      rw [List.map_cons, List.foldlM_cons, hfirst]
      exact ih hmem.2
  have hdata : r.data { includePrivate := true, onlyDirty := true } = .ok [] := by
    rw [data]
    show (do
      let ps ← (r.type.keys.map Value.text).foldlM
        (r.contribute { includePrivate := true, onlyDirty := true }) []
      .ok ps : Except Failure Pairs) = _
    rw [hkeys _ fun _ h ↦ h]
    rfl
  rw [changeStatement, hdata]
  rfl

/-- No field of a clean record is dirty if its value equals itself, however the live objects in it
have changed. -/
theorem IsClean.isFieldDirty (hclean : r.IsClean) (h : (r.refreshed s).1 = .ok r') {key : String}
    (hself : (r.values.valueOrUnset key).EqualsItself) : r'.isFieldDirty key = false := by
  obtain ⟨-, hvalues, hr'⟩ := of_refreshed h
  have hsame : r'.clean = r.clean := by rw [hr']
  have hcompares := Value.ComparesAs.valueOrUnset
    (Value.comparesAs_refreshEntries (s.isFaithful_current s.depth) r.values hvalues) key
  rw [Record.isFieldDirty, hsame, hclean.clean, hcompares.equal hself]
  rfl

section

variable [Backend σ] {skipReload ignoreConflict : Bool}

/-- **Saving a clean record** sends nothing, and tells so. -/
theorem IsClean.save (hclean : r.IsClean)
    (hself : ∀ key ∈ r.type.keys, (r.values.valueOrUnset key).EqualsItself) (s : Session σ)
    (skipReload ignoreConflict : Bool) :
    Sends (·.2) [] (save skipReload ignoreConflict) (r, s) ∧
      ∀ r', (r.refreshed s).1 = .ok r' →
        Record.save skipReload ignoreConflict (r, s) = (.ok false, r, s) := by
  have hsave (r' : Record) (h : (r.refreshed s).1 = .ok r') :
      Record.save skipReload ignoreConflict (r, s) = (.ok false, r, s) := by
    obtain ⟨hrun, -, hr'⟩ := of_refreshed h
    have htype : r'.type = r.type := by rw [hr']
    have hnothing : r'.saveStatement skipReload ignoreConflict = .ok none := by
      rw [saveStatement, loaded_of_refreshed h, if_pos hclean.loaded]
      exact changeStatement_of_not_dirty
        (fun key hkey ↦ hclean.isFieldDirty h (hself key (htype ▸ hkey))) skipReload
    exact save_of_no_statement hrun hnothing
  refine ⟨?_, hsave⟩
  rcases hrefreshed : (r.refreshed s).1 with e | r'
  · -- what cannot be brought up to date is not saved
    have hrun : (On.beside r.refreshed : On Record σ Record) (r, s) = (.error e, r, s) :=
      Prod.ext hrefreshed (Prod.ext rfl (r.keeps_refreshed s))
    refine .of_onlySends (.of_events ?_)
    rw [Record.save, On.object, gets_bind, bind_of_error _ hrun]
  · exact ⟨[], by rw [hsave r' hrefreshed, List.append_nil], rfl⟩

/-! ## Saves that wrote -/

omit [Backend σ] in
/-- Bringing a record up to date asks the live objects alone. -/
theorem refreshed_congr (h : s₁.objects = s.objects) (r : Record) :
    (r.refreshed s₁).1 = (r.refreshed s).1 :=
  (App.keeps_refreshEntries _).fst_bind (App.refreshEntries_congr h _) fun _ ↦
    (App.keeps_refreshPairs _).fst_bind (App.refreshPairs_congr h _) fun _ ↦ rfl

theorem keeps_send (r : Record) (st : Statement) :
    Keeps Session.live (r.send st : App σ Outcome) :=
  App.keeps_checkout fun c ↦ App.keeps_execute c st.text st.values

omit [Backend σ] in
theorem of_takeWritten {rows : List Row}
    (h : takeWritten skipReload rows (r, s) = (.ok true, r₁, s₁)) :
    s₁ = s ∧ (skipReload = true → r₁ = r) ∧
      (skipReload = false → ∃ row ∈ rows, loadRow row r = (.ok (), r₁)) := by
  rcases skipReload with _ | _
  · rcases rows with _ | ⟨row, rows⟩
    · exact nomatch h
    · obtain ⟨⟨⟩, ⟨r', s'⟩, hload, h⟩ := bind_eq_ok.mp h
      obtain ⟨-, h⟩ := Prod.mk.inj h
      obtain ⟨rfl, rfl⟩ := Prod.mk.inj h
      obtain ⟨hresult, hstate⟩ := Prod.mk.inj hload
      obtain ⟨hrecord, rfl⟩ := Prod.mk.inj hstate
      exact ⟨rfl, nofun, fun _ ↦ ⟨row, List.mem_cons_self, Prod.ext hresult hrecord⟩⟩
  · obtain ⟨-, h⟩ := Prod.mk.inj h
    obtain ⟨rfl, rfl⟩ := Prod.mk.inj h
    exact ⟨rfl, fun _ ↦ rfl, nofun⟩

/-- What a save that wrote a row has done: it has sent the statement that saves the record as it
was, and taken a row over that was given back unless that was to be skipped. -/
theorem of_save (h : Record.save skipReload ignoreConflict (r, s) = (.ok true, r₁, s₁)) :
    ∃ r' st outcome, (r.refreshed s).1 = .ok r' ∧
      (r'.saveStatement skipReload ignoreConflict).result = .ok (some st) ∧
      r'.send st { s with log := s.log ++ (r'.saveStatement skipReload ignoreConflict).log } =
        (.ok outcome, s₁) ∧
      (skipReload = true → r₁ = r) ∧
      (skipReload = false → ∃ row ∈ outcome.rows, loadRow row r = (.ok (), r₁)) := by
  rw [Record.save, On.object, gets_bind] at h
  obtain ⟨r', u, hrefreshed, hlater⟩ := bind_eq_ok.mp h
  obtain ⟨s', rfl, hr'⟩ := On.beside_eq_ok hrefreshed
  have hkept : (r.refreshed s).2 = s := r.keeps_refreshed s
  rw [show r.refreshed s = _ from hr'] at hkept
  rw [show s' = s from hkept] at hr' hlater
  obtain ⟨found, u, hlogged, hlater⟩ := bind_eq_ok.mp hlater
  obtain ⟨s₂, rfl, hfound⟩ := On.beside_eq_ok hlogged
  obtain ⟨hresult, rfl⟩ := Prod.mk.inj hfound
  rcases found with _ | st
  · cases hlater
  obtain ⟨outcome, u, hsent, hlater⟩ := bind_eq_ok.mp hlater
  obtain ⟨s₃, rfl, hsend⟩ := On.beside_eq_ok hsent
  obtain ⟨rfl, hskip, htook⟩ := of_takeWritten hlater
  exact ⟨r', st, outcome, congrArg Prod.fst hr', hresult, hsend, hskip, htook⟩

/-! ## Saving again -/

/-- **Saving again** after a save that wrote a row. Nothing is sent if the row was taken over, and
the values that the record then has equal themselves. If the row was skipped, the record is as it
was, and the statement is sent once more. -/
theorem saves_once_unless_skipped
    (h : Record.save skipReload ignoreConflict (r, s) = (.ok true, r₁, s₁)) :
    (skipReload = false →
      (∀ key ∈ r₁.type.keys, (r₁.values.valueOrUnset key).EqualsItself) →
      ∀ (s₂ : Session σ) (skipAgain ignoreAgain : Bool),
        Sends (·.2) [] (Record.save skipAgain ignoreAgain) (r₁, s₂) ∧
        ∀ r₂, (r₁.refreshed s₂).1 = .ok r₂ →
          Record.save skipAgain ignoreAgain (r₁, s₂) = (.ok false, r₁, s₂)) ∧
    (skipReload = true → r₁ = r ∧
      ∃ st, Sends (·.2) [st] (Record.save skipReload ignoreConflict) (r, s) ∧
        (App.HasConnection r₁.conn r₁.pool s₁ →
          Sends (·.2) [st] (Record.save skipReload ignoreConflict) (r₁, s₁))) := by
  obtain ⟨r', st, outcome, hr', hst, hsend, hskip, htook⟩ := of_save h
  refine ⟨fun hreload hself s₂ skipAgain ignoreAgain ↦ ?_, fun hskipped ↦ ?_⟩
  · obtain ⟨row, -, hload⟩ := htook hreload
    exact (isClean_of_loadRow hload).save hself s₂ skipAgain ignoreAgain
  · obtain rfl := hskip hskipped
    obtain ⟨hrun, -⟩ := of_refreshed hr'
    obtain ⟨hsameConn, hsamePool⟩ := source_of_refreshed hr'
    have hobjects : s₁.objects = s.objects := by
      have hkept := (keeps_send r' st).objects
        { s with log := s.log ++ (r'.saveStatement skipReload ignoreConflict).log }
      rw [hsend] at hkept
      exact hkept
    obtain ⟨hagain, -⟩ := of_refreshed ((refreshed_congr hobjects r₁).trans hr')
    have hconn := (App.hasConnection_of_checkout hsend).with_log s.log
    refine ⟨rfl, st, sends_save hrun hst hconn, fun hconn' ↦ ?_⟩
    rw [← hsameConn, ← hsamePool] at hconn'
    exact sends_save hagain hst hconn'

end

/-- A session with a connection that gives the row of a letter back. -/
def letterGiving : Session Scripted where
  db := { connections := [("c", { results := [.ok ⟨[letterRow], .int 1, true, .null⟩] })] }

/-- A letter of that connection, which was given another text since it was loaded. -/
def unsaved : Record := { letter with conn := some ⟨"c"⟩ }

/-- What came of saving the letter. -/
def unsavedSave (skipReload : Bool) : Except Failure Bool × Record × Session Scripted :=
  Record.save skipReload false (unsaved, letterGiving)

theorem saves_once_unless_skipped_unsaved :
    (∀ skipReload, (unsavedSave skipReload).1 = .ok true) ∧
    Record.save false false (unsavedSave false).2 = (.ok false, (unsavedSave false).2) ∧
    (unsavedSave true).2.1 = unsaved ∧
    ∃ st, Sends (·.2) [st] (Record.save true false) (unsaved, letterGiving) ∧
      Sends (·.2) [st] (Record.save true false) (unsavedSave true).2 := by
  have htrue : ∀ skipReload, (unsavedSave skipReload).1 = .ok true := by
    intro skipReload
    cases skipReload <;> rfl
  have hsaved (skipReload : Bool) : Record.save skipReload false (unsaved, letterGiving) =
      (.ok true, (unsavedSave skipReload).2.1, (unsavedSave skipReload).2.2) :=
    Prod.ext (htrue skipReload) rfl
  have hself : ∀ key ∈ (unsavedSave false).2.1.type.keys,
      ((unsavedSave false).2.1.values.valueOrUnset key).EqualsItself := by
    decide +kernel
  obtain ⟨hreloaded, -⟩ := saves_once_unless_skipped (hsaved false)
  obtain ⟨-, hskipped⟩ := saves_once_unless_skipped (hsaved true)
  obtain ⟨hsame, st, hfirst, hsecond⟩ := hskipped rfl
  refine ⟨htrue, ?_, hsame, st, hfirst, hsecond (.inl rfl)⟩
  exact (hreloaded rfl hself (unsavedSave false).2.2 false false).2 _ rfl

/-- A new letter with a text. -/
def spoken : Record := { unwritten with values := [("b", .text "x")], setKeys := ["b"] }

/-- **A new record that is saved twice** without its row is inserted twice. -/
theorem save_of_skipped :
    Record.make letter.type (.connection ⟨"c"⟩) (.map [("b", .text "x")]) [] = .ok spoken ∧
    (∀ key ∈ letter.type.keys, (spoken.values.valueOrUnset key).EqualsItself) ∧
    ∃ s₁ s₂ : Session Scripted,
      Record.save true false (spoken, letterGiving) = (.ok true, spoken, s₁) ∧
      Record.save true false (spoken, s₁) = (.ok true, spoken, s₂) ∧
      s₂.events.filterMap Event.statement? =
        [⟨"INSERT INTO \"letters\" (\"b\") VALUES ($1)", [.text "x"]⟩,
          ⟨"INSERT INTO \"letters\" (\"b\") VALUES ($1)", [.text "x"]⟩] :=
  ⟨rfl, by decide +kernel, _, _, rfl, rfl, rfl⟩

end Record

end Rowmap
