import Rowmap.Database.Checkout
import Rowmap.Proofs.Session.Sends
import Rowmap.Proofs.Sql.Lexemes

/-!
# Reading quoted text back

What PostgreSQL makes of a text between marks. A quoted text is one lexeme, whatever stands between
its marks, and reading it makes one mark of two. The marks come back in this way, but nothing makes
one percent sign of two: the statement is sent as it was written. So a quoted name is the name with
its percent signs doubled, and so is the value of a quoted text.

Some names cannot be written at all. None is empty or has a zero character in it, and one is cut off
behind `maxNameBytes` bytes.
-/

theorem Rowmap.App.sent_execute {σ : Type} [Backend σ] (c : Connection) (sql : String)
    (values : List Value) (t : Session σ) :
    (execute c sql values t).2.events.filterMap Event.statement? =
      t.events.filterMap Event.statement? ++ [⟨sql, values⟩] := by
  show (t.events ++ [Event.called (.exec c sql values) _]).filterMap Event.statement? = _
  rw [List.filterMap_append]
  rfl

namespace Rowmap.Sql

/-! ## Reading -/

/-- A text between marks with one mark for two. -/
def undoubled (mark : Char) : List Char → List Char
  | c :: d :: cs =>
    if c = mark ∧ d = mark then c :: undoubled mark cs else c :: undoubled mark (d :: cs)
  | cs => cs

/-- What a lexeme between marks says, if it is one. -/
def unquoted? (mark : Char) : List Char → Option (List Char)
  | c :: cs => if c = mark then some (undoubled mark cs.dropLast) else none
  | [] => none

def maxNameBytes : Nat := 63

/-- The first characters of a text, as many as have so many bytes. -/
def clipped : Nat → List Char → List Char
  | _, [] => []
  | n, c :: cs => if c.utf8Size ≤ n then c :: clipped (n - c.utf8Size) cs else []

/-- A text as PostgreSQL takes it: without zero characters. -/
def accepted? (cs : List Char) : Option (List Char) := if '\x00' ∈ cs then none else some cs

/-- A text as PostgreSQL takes it for a name: not empty, and not too long. -/
def named? (cs : List Char) : Option (List Char) :=
  if cs = [] then none else (accepted? cs).map (clipped maxNameBytes)

/-- The name that a text is, if it is one quoted name. -/
def identifier? (cs : List Char) : Option (List Char) :=
  match tokens cs with
  | [l] => (unquoted? '"' l).bind named?
  | _ => none

/-- The value of the string constant that a text is, if it is one in one part. -/
def constant? (cs : List Char) : Option (List Char) :=
  match tokens cs with
  | [l] => (unquoted? '\'' l).bind accepted?
  | _ => none

/-! ## Between marks -/

theorem undoubled_cons_of_ne {mark c : Char} (hc : c ≠ mark) (cs : List Char) :
    undoubled mark (c :: cs) = c :: undoubled mark cs := by
  cases cs with
  | nil => rfl
  | cons d cs => rw [undoubled, if_neg fun h ↦ hc h.1]

/-- Reading takes back the doubling of marks, and of nothing else. -/
theorem undoubled_doubled {mark other : Char} (hne : other ≠ mark) (cs : List Char) :
    undoubled mark (doubled [mark, other] cs) = doubled [other] cs := by
  induction cs with
  | nil => rfl
  | cons c cs ih =>
    have hcons (marks : List Char) : doubled marks (c :: cs) =
        (if marks.contains c then [c, c] else [c]) ++ doubled marks cs := List.flatMap_cons
    rw [hcons, hcons]
    by_cases hmark : c = mark
    · subst hmark
      simp [undoubled, ih, hne.symm]
    by_cases hother : c = other
    · subst hother
      simp [undoubled_cons_of_ne hmark, ih]
    · simp [hmark, hother, undoubled_cons_of_ne hmark, ih]

theorem length_doubled (marks cs : List Char) :
    (doubled marks cs).length = cs.length + cs.countP (marks.contains ·) := by
  induction cs with
  | nil => rfl
  | cons c cs ih =>
    rw [doubled, List.flatMap_cons, List.length_append, ← doubled, ih, List.length_cons,
      List.countP_cons]
    split <;> simp <;> omega

/-- A text stays as it is where nothing in it is doubled. -/
theorem doubled_eq_self_iff {mark : Char} {cs : List Char} :
    doubled [mark] cs = cs ↔ mark ∉ cs := by
  constructor
  · intro h hmem
    have hlength := congrArg List.length h
    rw [length_doubled, Nat.add_eq_left, List.countP_eq_zero] at hlength
    exact hlength mark hmem (by simp)
  · intro h
    induction cs with
    | nil => rfl
    | cons c cs ih =>
      rw [List.mem_cons, not_or] at h
      rw [doubled, List.flatMap_cons, ← doubled, ih h.2, if_neg (by simpa using Ne.symm h.1)]
      rfl

theorem mem_doubled {marks cs : List Char} {c : Char} : c ∈ doubled marks cs ↔ c ∈ cs := by
  rw [doubled, List.mem_flatMap]
  constructor
  · rintro ⟨d, hd, hc⟩
    split at hc <;> simp_all
  · intro hc
    refine ⟨c, hc, ?_⟩
    split <;> simp

theorem clipped_of_fits {n : Nat} {cs : List Char} (h : (cs.map Char.utf8Size).sum ≤ n) :
    clipped n cs = cs := by
  induction cs generalizing n with
  | nil => rfl
  | cons c cs ih =>
    rw [List.map_cons, List.sum_cons] at h
    rw [clipped, if_pos (by omega), ih (by omega)]

namespace Lexer

variable {mark : Char} {inside behindMark : Lexer} {marks : List Char}

theorem run?_doubled (hends : inside.next? mark = some behindMark)
    (hgoesOn : behindMark.next? mark = some inside)
    (hinside : ∀ c, c ≠ mark → inside.next? c = some inside)
    (hmark : marks.contains mark = true) (cs : List Char) :
    inside.run? (doubled marks cs) = some inside := by
  induction cs with
  | nil => rfl
  | cons c cs ih =>
    have hfirst : inside.run? (if marks.contains c then [c, c] else [c]) = some inside := by
      by_cases hc : c = mark
      · subst hc
        rw [if_pos hmark, run?_cons hends, run?_cons hgoesOn]
        rfl
      · split <;> simp [run?, hinside c hc]
    rw [doubled, List.flatMap_cons, ← doubled, run?_append, hfirst, Option.bind_some, ih]

end Lexer

section

variable {mark : Char} {inside behindMark : Lexer} {marks : List Char}

/-- **Whatever stands between its marks, a quoted text is one lexeme** where no mark follows it. -/
theorem lexemes_enclosed (hfirst : Lexer.first mark = inside)
    (hends : inside.next? mark = some behindMark) (hgoesOn : behindMark.next? mark = some inside)
    (hinside : ∀ c, c ≠ mark → inside.next? c = some inside)
    (hover : ∀ c, c ≠ mark → behindMark.next? c = none) (hmark : marks.contains mark = true)
    (s : String) {rest : List Char} (hrest : rest.head? ≠ some mark) :
    lexemes ((enclosed mark marks s).toList ++ rest) =
      (enclosed mark marks s).toList :: lexemes rest := by
  have hrun : (Lexer.first mark).run? (doubled marks s.toList ++ [mark]) = some behindMark := by
    rw [hfirst, Lexer.run?_append, Lexer.run?_doubled hends hgoesOn hinside hmark,
      Option.bind_some, Lexer.run?_cons hends]
    rfl
  have hstops : rest.head?.bind behindMark.next? = none := by
    cases rest with
    | nil => rfl
    | cons c rest => exact hover c fun hc ↦ hrest (congrArg some hc)
  rw [toList_enclosed, List.cons_append, List.cons_append]
  exact lexemes_cons_append hrun hstops

end

theorem lexemes_quoteIdentifier (s : String) {rest : List Char} (hrest : rest.head? ≠ some '"') :
    lexemes ((quoteIdentifier s).toList ++ rest) = (quoteIdentifier s).toList :: lexemes rest := by
  have hinside (c : Char) (hc : c ≠ '"') : Lexer.name.next? c = some .name :=
    congrArg some (if_neg hc)
  have hover (c : Char) (hc : c ≠ '"') : Lexer.nameMark.next? c = none := if_neg hc
  exact lexemes_enclosed rfl rfl rfl hinside hover rfl s hrest

theorem lexemes_quoteText (s : String) {rest : List Char} (hrest : rest.head? ≠ some '\'') :
    lexemes ((quoteText s).toList ++ rest) = (quoteText s).toList :: lexemes rest := by
  have hinside (c : Char) (hc : c ≠ '\'') : Lexer.literal.next? c = some .literal :=
    congrArg some (if_neg hc)
  have hover (c : Char) (hc : c ≠ '\'') : Lexer.literalMark.next? c = none := if_neg hc
  exact lexemes_enclosed rfl rfl rfl hinside hover rfl s hrest

/-- A quoted text is no gap. -/
theorem isGap_between {mark : Char} (hmark : isBlank mark = false ∧ mark ≠ '-' ∧ mark ≠ '/')
    (s : String) : isGap (between mark s).toList = false := by
  have hchars : (between mark s).toList = mark :: (doubled [mark, '%'] s.toList ++ [mark]) :=
    toList_enclosed mark _ s
  rw [hchars, isGap, List.all_cons, hmark.1, Bool.false_and, Bool.false_or, isComment.eq_def]
  split
  · exact absurd (List.cons.inj ‹_›).1 hmark.2.1
  · exact absurd (List.cons.inj ‹_›).1 hmark.2.2
  · rfl

theorem tokens_quoteIdentifier (s : String) {rest : List Char} (hrest : rest.head? ≠ some '"') :
    tokens ((quoteIdentifier s).toList ++ rest) = (quoteIdentifier s).toList :: tokens rest :=
  tokens_of_lexemes (lexemes_quoteIdentifier s hrest) (isGap_between (by decide) s)

theorem tokens_quoteText (s : String) {rest : List Char} (hrest : rest.head? ≠ some '\'') :
    tokens ((quoteText s).toList ++ rest) = (quoteText s).toList :: tokens rest :=
  tokens_of_lexemes (lexemes_quoteText s hrest) (isGap_between (by decide) s)

theorem unquoted?_between {mark : Char} (hmark : '%' ≠ mark) (s : String) :
    unquoted? mark (between mark s).toList = some (doubled ['%'] s.toList) := by
  rw [between, toList_enclosed, List.cons_append, unquoted?, if_pos rfl, List.dropLast_concat,
    undoubled_doubled hmark]

theorem identifier?_quoteIdentifier (s : String) :
    identifier? (quoteIdentifier s).toList = named? (doubled ['%'] s.toList) := by
  have htokens := @tokens_quoteIdentifier s [] (by simp)
  rw [List.append_nil] at htokens
  rw [identifier?, htokens]
  show (unquoted? '"' (quoteIdentifier s).toList).bind named? = _
  rw [quoteIdentifier, unquoted?_between (by decide), Option.bind_some]

theorem constant?_quoteText (s : String) :
    constant? (quoteText s).toList = accepted? (doubled ['%'] s.toList) := by
  have htokens := @tokens_quoteText s [] (by simp)
  rw [List.append_nil] at htokens
  rw [constant?, htokens]
  show (unquoted? '\'' (quoteText s).toList).bind accepted? = _
  rw [quoteText, unquoted?_between (by decide), Option.bind_some]

/-! ## What is read back -/

theorem accepted?_doubled (s : String) : accepted? (doubled ['%'] s.toList) =
    if '\x00' ∈ s.toList then none else some (doubled ['%'] s.toList) := by
  rw [accepted?]
  simp only [mem_doubled]

theorem accepted?_doubled_iff (s : String) :
    accepted? (doubled ['%'] s.toList) = some s.toList ↔
      '\x00' ∉ s.toList ∧ '%' ∉ s.toList := by
  rw [accepted?_doubled, Option.ite_none_left_eq_some, Option.some.injEq, doubled_eq_self_iff]

theorem named?_doubled_iff (s : String)
    (hfits : ((doubled ['%'] s.toList).map Char.utf8Size).sum ≤ maxNameBytes) :
    named? (doubled ['%'] s.toList) = some s.toList ↔
      s ≠ "" ∧ '\x00' ∉ s.toList ∧ '%' ∉ s.toList := by
  have hempty : doubled ['%'] s.toList = [] ↔ s = "" := by
    rw [← List.length_eq_zero_iff, length_doubled, Nat.add_eq_zero_iff, List.length_eq_zero_iff,
      String.toList_eq_nil_iff]
    exact ⟨And.left, fun h ↦ ⟨h, by rw [h]; rfl⟩⟩
  have hclipped : (accepted? (doubled ['%'] s.toList)).map (clipped maxNameBytes) =
      accepted? (doubled ['%'] s.toList) := by
    rw [accepted?]
    split
    · rfl
    · exact congrArg some (clipped_of_fits hfits)
  rw [named?, Option.ite_none_left_eq_some, hempty, hclipped, accepted?_doubled_iff]

/-- **Quoted text reads back as the text with its percent signs doubled**, and so as the text itself
exactly if there are none. A quoted name and a quoted text are one lexeme each, wherever no mark
follows; as a name PostgreSQL refuses an empty text and cuts a long one off, and it takes no zero
character. Nothing between quoting and the database undoes the doubling: what is sent is the text
of the statement. -/
theorem quoted_reads_back_unless_percent (s : String) :
    ((∀ rest : List Char, rest.head? ≠ some '"' →
        lexemes ((quoteIdentifier s).toList ++ rest) =
          (quoteIdentifier s).toList :: lexemes rest) ∧
      identifier? (quoteIdentifier s).toList = named? (doubled ['%'] s.toList) ∧
      (((doubled ['%'] s.toList).map Char.utf8Size).sum ≤ maxNameBytes →
        (identifier? (quoteIdentifier s).toList = some s.toList ↔
          s ≠ "" ∧ '\x00' ∉ s.toList ∧ '%' ∉ s.toList))) ∧
    (literal (.text s) = .ok (quoteText s) ∧
      (∀ rest : List Char, rest.head? ≠ some '\'' →
        lexemes ((quoteText s).toList ++ rest) = (quoteText s).toList :: lexemes rest) ∧
      constant? (quoteText s).toList = accepted? (doubled ['%'] s.toList) ∧
      (constant? (quoteText s).toList = some s.toList ↔ '\x00' ∉ s.toList ∧ '%' ∉ s.toList)) ∧
    ∀ (σ : Type) [Backend σ] (c : Connection) (sql : String) (values : List Value) (t : Session σ),
      (App.execute c sql values t).2.events.filterMap Event.statement? =
        t.events.filterMap Event.statement? ++ [⟨sql, values⟩] := by
  refine ⟨⟨fun rest ↦ lexemes_quoteIdentifier s, identifier?_quoteIdentifier s, fun hfits ↦ ?_⟩,
    ⟨rfl, fun rest ↦ lexemes_quoteText s, constant?_quoteText s, ?_⟩, ?_⟩
  · rw [identifier?_quoteIdentifier]
    exact named?_doubled_iff s hfits
  · rw [constant?_quoteText]
    exact accepted?_doubled_iff s
  · exact fun _ _ c sql values t ↦ App.sent_execute c sql values t

theorem quoted_reads_back_unless_percent_marks :
    lexemes "\"it's \"\"\\\"::text".toList =
      "\"it's \"\"\\\"".toList :: lexemes "::text".toList ∧
    identifier? "\"it's \"\"\\\"".toList = some "it's \"\\".toList ∧
    constant? "'it''s \"\\'".toList = some "it's \"\\".toList := by
  have h := quoted_reads_back_unless_percent "it's \"\\"
  exact ⟨h.1.1 "::text".toList (by decide), (h.1.2.2 (by decide)).mpr (by decide),
    h.2.1.2.2.2.mpr (by decide)⟩

/-- A percent sign becomes two. -/
theorem quoted_percent_reads_doubled :
    quoteIdentifier "100%" = "\"100%%\"" ∧ identifier? "\"100%%\"".toList = some "100%%".toList ∧
    literal (.text "100%") = .ok "'100%%'" ∧ constant? "'100%%'".toList = some "100%%".toList :=
  ⟨by rfl, by decide, by rfl, by decide⟩

end Rowmap.Sql
