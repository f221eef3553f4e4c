import Mathlib.Data.List.Forall2
import Rowmap.Proofs.Sql.Shifting
import Rowmap.Vocabulary

/-!
# The outline of a statement

How PostgreSQL cuts a text into tokens, as far as it takes to tell where its string constants begin
and end. The outline of a text is the text with each constant as one gap: two texts with the same
outline are the same tokens but for the contents of their string constants.

A text is sealed when reading it leads back outside every token with marks and every comment, so
what follows it is read as if it stood alone. A doubled mark keeps whatever a caller writes between
marks inside them, which makes every quoted text and every quoted name sealed.

Shifting placeholders changes nothing in how a text is read, so hand-written SQL is sealed wherever
it is put if it is so by itself.
-/

namespace Rowmap.Sql

/-! ## Reading a text -/

/-- Where the reading of a text stands: between tokens, behind a character of a word or behind the
first character of what may be more than a character, inside a string constant, a quoted name or a
comment or behind what may end it, or past something that the reading does not follow. That is a
constant between dollar signs or one with escapes, which an `E` stands before. Comments nest. -/
inductive Mode where
  | plain | word | escape | dash | slash | dollar
  | literal | literalMark | name | nameMark
  | remark | comment (depth : Nat) | commentStar (depth : Nat) | commentSlash (depth : Nat)
  | lost
  deriving DecidableEq, Repr

/-- Whether a character is a part of words. -/
def isWord (c : Char) : Bool := c.isAlphanum || c = '_' || 128 ≤ c.toNat

namespace Mode

/-- The modes in which every token with marks is over, or may be. -/
def outside : List Mode := [plain, word, escape, dash, slash, dollar, literalMark, nameMark]

/-- Behind a character that goes on with no token. -/
def behind (c : Char) : Mode :=
  if c = '\'' then literal
  else if c = '"' then name
  else if c = '-' then dash
  else if c = '/' then slash
  else if c = '$' then dollar
  else if c = 'e' || c = 'E' then escape
  else if isWord c then word
  else plain

/-- Behind one more character. -/
def step : Mode → Char → Mode
  | plain, c => behind c
  | word, c => if isWord c || c = '$' then word else behind c
  | escape, c => if c = '\'' then lost else if isWord c || c = '$' then word else behind c
  | dash, c => if c = '-' then remark else behind c
  | slash, c => if c = '*' then comment 0 else behind c
  | dollar, c =>
    if c = '$' then lost
    else if isWord c then if Text.isDigit c then word else lost
    else behind c
  | literal, c => if c = '\'' then literalMark else literal
  | literalMark, c => if c = '\'' then literal else behind c
  | name, c => if c = '"' then nameMark else name
  | nameMark, c => if c = '"' then name else behind c
  | remark, c => if c = '\n' || c = '\r' then plain else remark
  | comment d, c => if c = '*' then commentStar d else if c = '/' then commentSlash d else comment d
  | commentStar d, c =>
    if c = '/' then if d = 0 then plain else comment (d - 1)
    else if c = '*' then commentStar d
    else comment d
  | commentSlash d, c =>
    if c = '*' then comment (d + 1) else if c = '/' then commentSlash d else comment d
  | lost, _ => lost

/-- Behind several more characters. -/
def run (m : Mode) (cs : List Char) : Mode := cs.foldl step m

/-- What a character adds to the outline: itself, a gap where it opens a constant, and nothing
inside one. -/
def shows (m : Mode) (c : Char) : List (Option Char) :=
  if m = literal || m = literalMark && c = '\'' then []
  else if m.step c = literal then [none]
  else [some c]

/-- The outline of the rest of a text. -/
def outline : Mode → List Char → List (Option Char)
  | _, [] => []
  | m, c :: cs => m.shows c ++ (m.step c).outline cs

theorem run_cons (m : Mode) (c : Char) (cs : List Char) : m.run (c :: cs) = (m.step c).run cs := rfl

theorem run_append (m : Mode) (cs ds : List Char) : m.run (cs ++ ds) = (m.run cs).run ds :=
  List.foldl_append

end Mode

/-- The outline of a text: its characters, each string constant as one gap. -/
def outline (s : String) : List (Option Char) := Mode.plain.outline s.toList

/-- A text that is over when it ends: no constant, quoted name or comment of it is left open. -/
def Sealed (s : String) : Prop := Mode.plain.run s.toList ∈ Mode.outside

instance (s : String) : Decidable (Sealed s) := inferInstanceAs (Decidable (_ ∈ _))

/-- A text that ends every token before it and begins none after it. -/
def Divides (sep : String) : Prop :=
  sep ≠ "" ∧ ∀ m ∈ Mode.outside, m.run sep.toList = .plain ∧ m.outline sep.toList = outline sep

instance (sep : String) : Decidable (Divides sep) := inferInstanceAs (Decidable (_ ∧ _))

/-! ## Sealed texts -/

variable {s t sep : String}

theorem run_divided (hs : Sealed s) (hsep : Divides sep) (t : String) :
    Mode.plain.run (s ++ sep ++ t).toList = Mode.plain.run t.toList := by
  rw [String.toList_append, String.toList_append, Mode.run_append, Mode.run_append,
    (hsep.2 _ hs).1]

theorem Sealed.divided (hs : Sealed s) (hsep : Divides sep) (ht : Sealed t) :
    Sealed (s ++ sep ++ t) := by
  rwa [Sealed, run_divided hs hsep]

/-- A text behind one that ends between tokens. -/
theorem Sealed.behind (hs : Sealed s) {pre : String} (h : Mode.plain.run pre.toList = .plain) :
    Sealed (pre ++ s) := by
  rwa [Sealed, String.toList_append, Mode.run_append, h]

/-- A text before one that opens nothing. -/
theorem Sealed.before (hs : Sealed s) {post : String}
    (h : ∀ m ∈ Mode.outside, m.run post.toList ∈ Mode.outside) : Sealed (s ++ post) := by
  rw [Sealed, String.toList_append, Mode.run_append]
  exact h _ hs

theorem sealed_empty : Sealed "" := by decide

theorem sealed_intercalate (hsep : Divides sep) {texts : List String}
    (h : ∀ text ∈ texts, Sealed text) : Sealed (sep.intercalate texts) := by
  induction texts with
  | nil => exact sealed_empty
  | cons text texts ih =>
    rw [List.forall_mem_cons] at h
    cases texts with
    | nil => simpa using h.1
    | cons next texts =>
      rw [String.intercalate_cons_cons]
      exact h.1.divided hsep (ih h.2)

/-! ### Between marks -/

namespace Mode

theorem run_once_doubled {mark : Char} {inside behindMark : Mode}
    (hends : inside.step mark = behindMark) (hgoesOn : behindMark.step mark = inside)
    (hinside : ∀ c, c ≠ mark → inside.step c = inside) {marks : List Char}
    (hmark : marks.contains mark = true) (c : Char) :
    inside.run (if marks.contains c then [c, c] else [c]) = inside := by
  by_cases hc : c = mark
  · subst hc
    rw [if_pos hmark, run_cons, run_cons, hends, hgoesOn]
    rfl
  · split <;> simp [run, hinside c hc]

theorem run_doubled {mark : Char} {inside behindMark : Mode}
    (hends : inside.step mark = behindMark) (hgoesOn : behindMark.step mark = inside)
    (hinside : ∀ c, c ≠ mark → inside.step c = inside) {marks : List Char}
    (hmark : marks.contains mark = true) (cs : List Char) :
    inside.run (doubled marks cs) = inside := by
  induction cs with
  | nil => rfl
  | cons c cs ih =>
    rw [doubled, List.flatMap_cons, run_append,
      run_once_doubled hends hgoesOn hinside hmark c]
    exact ih

theorem step_literal {c : Char} (h : c ≠ '\'') : literal.step c = literal := if_neg h

theorem step_name {c : Char} (h : c ≠ '"') : name.step c = name := if_neg h

end Mode

theorem toList_enclosed (mark : Char) (marks : List Char) (s : String) :
    (enclosed mark marks s).toList = mark :: doubled marks s.toList ++ [mark] := by
  rw [enclosed, String.toList_ofList]

/-- A quoted name ends where it is closed. -/
theorem sealed_quoteIdentifier (name : String) : Sealed (quoteIdentifier name) := by
  rw [Sealed, quoteIdentifier, between, toList_enclosed, Mode.run_append]
  show ((Mode.name.run (doubled ['"', '%'] name.toList)).run ['"']) ∈ Mode.outside
  rw [Mode.run_doubled rfl rfl (fun _ ↦ Mode.step_name) rfl]
  decide

/-! ### Numbers -/

/-- The digits of a whole number, with or without a sign. -/
def IsNumeral (cs : List Char) : Prop :=
  ∃ d ds, (cs = d :: ds ∨ cs = '-' :: d :: ds) ∧ ∀ c ∈ d :: ds, Text.isDigit c = true

theorem isNumeral_of_digits {ds : List Char} (hne : ds ≠ [])
    (h : ∀ c ∈ ds, Text.isDigit c = true) : IsNumeral ds := by
  obtain ⟨d, ds, rfl⟩ := List.exists_cons_of_ne_nil hne
  exact ⟨d, ds, .inl rfl, h⟩

theorem isNumeral_toString (n : Int) : IsNumeral (toString n).toList := by
  cases n with
  | ofNat n => exact isNumeral_of_digits (toList_toString_ne_nil n) (text_isDigit_of_mem_toString n)
  | negSucc n =>
    obtain ⟨d, ds, hds⟩ := List.exists_cons_of_ne_nil (toList_toString_ne_nil (n + 1))
    have hdigits := text_isDigit_of_mem_toString (n + 1)
    rw [hds] at hdigits
    refine ⟨d, ds, .inr ?_, hdigits⟩
    show ("-" ++ toString (n + 1)).toList = _
    rw [String.toList_append, hds]
    rfl

theorem isWord_of_isDigit {c : Char} (hc : Text.isDigit c = true) : isWord c = true := by
  have hzeros : ∀ z ∈ Text.digitZeros, z = 0x30 ∨ 128 ≤ z := by decide
  rw [Text.isDigit, Text.digit?, Option.isSome_map, List.find?_isSome] at hc
  obtain ⟨z, hz, hrange⟩ := hc
  simp only [Bool.and_eq_true, decide_eq_true_eq] at hrange
  rw [isWord]
  rcases hzeros z hz with rfl | hz
  · have hnine : '9'.toNat = 0x39 := rfl
    have hdigit : c.isDigit = true := Char.isDigit_iff_toNat.mpr ⟨hrange.1, by omega⟩
    simp [Char.isAlphanum, hdigit]
  · have hwide : 128 ≤ c.toNat := hz.trans hrange.1
    simp [hwide]

namespace Mode

theorem behind_digit {c : Char} (hc : Text.isDigit c = true) : behind c = word := by
  have hne (d : Char) (hd : Text.isDigit d = false) : c ≠ d := by
    rintro rfl
    exact Bool.false_ne_true (hd.symm.trans hc)
  rw [behind, if_neg (hne _ (by decide)), if_neg (hne _ (by decide)), if_neg (hne _ (by decide)),
    if_neg (hne _ (by decide)), if_neg (hne _ (by decide)), if_neg, if_pos (isWord_of_isDigit hc)]
  simp [hne 'e' (by decide), hne 'E' (by decide)]

theorem run_word_digits {ds : List Char} (h : ∀ c ∈ ds, Text.isDigit c = true) :
    word.run ds = word := by
  induction ds with
  | nil => rfl
  | cons d ds ih =>
    obtain ⟨hd, hds⟩ := List.forall_mem_cons.mp h
    have hstep : word.step d = word := by simp [step, isWord_of_isDigit hd]
    rw [run_cons, hstep, ih hds]

/-- A number is a word, alone, behind a dollar sign or at the end of a word. -/
theorem run_numeral {m : Mode} (hm : m = plain ∨ m = dollar ∨ m = word) {cs : List Char}
    (h : IsNumeral cs) : m.run cs = word := by
  obtain ⟨d, ds, hcs, hdigits⟩ := h
  obtain ⟨hd, hds⟩ := List.forall_mem_cons.mp hdigits
  have hword (m : Mode) (hstep : m.step d = word) : m.run (d :: ds) = word := by
    rw [run_cons, hstep, run_word_digits hds]
  have hdash : dash.run (d :: ds) = word := hword _ <| by
    have hne : d ≠ '-' := by
      rintro rfl
      exact absurd hd (by decide)
    rw [step, if_neg hne, behind_digit hd]
  rcases hcs with rfl | rfl
  · rcases hm with rfl | rfl | rfl
    · exact hword _ (behind_digit hd)
    · refine hword _ ?_
      rw [step, if_neg (ne_dollar_of_isDigit hd), if_pos (isWord_of_isDigit hd), if_pos hd]
    · exact run_word_digits hdigits
  · rcases hm with rfl | rfl | rfl <;> exact hdash

/-- The modes of which neither a number nor a dollar sign leads out. -/
def IsInside (m : Mode) : Prop :=
  m = literal ∨ m = name ∨ m = remark ∨ (∃ d, m = comment d) ∨ m = lost

/-- Inside a token with marks or a comment, a number changes nothing. -/
theorem run_numeral_inside {m : Mode} (hm : m.IsInside) {cs : List Char} (h : IsNumeral cs) :
    m.run cs = m := by
  have hnone (c : Char) (hc : Text.isDigit c = true ∨ c = '-') : m.step c = m := by
    have hne (d : Char) (hd : Text.isDigit d = false) (hdash : d ≠ '-') : c ≠ d := by
      rintro rfl
      rcases hc with hc | rfl
      · exact Bool.false_ne_true (hd.symm.trans hc)
      · exact hdash rfl
    rcases hm with rfl | rfl | rfl | ⟨d, rfl⟩ | rfl
    · exact step_literal (hne _ (by decide) (by decide))
    · exact step_name (hne _ (by decide) (by decide))
    · simp [step, hne '\n' (by decide) (by decide), hne '\r' (by decide) (by decide)]
    · rw [step, if_neg (hne _ (by decide) (by decide)), if_neg (hne _ (by decide) (by decide))]
    · rfl
  have hall (ds : List Char) (hds : ∀ c ∈ ds, Text.isDigit c = true ∨ c = '-') : m.run ds = m := by
    induction ds with
    | nil => rfl
    | cons d ds ih =>
      rw [List.forall_mem_cons] at hds
      rw [run_cons, hnone d hds.1, ih hds.2]
  obtain ⟨d, ds, rfl | rfl, hdigits⟩ := h
  · exact hall _ fun c hc ↦ .inl (hdigits c hc)
  · exact hall _ (List.forall_mem_cons.mpr ⟨.inr rfl, fun c hc ↦ .inl (hdigits c hc)⟩)

/-- Which number a placeholder has makes no difference to what follows it. -/
theorem run_placeholder (m : Mode) {cs ds : List Char} (hcs : IsNumeral cs) (hds : IsNumeral ds) :
    m.run ('$' :: cs) = m.run ('$' :: ds) := by
  have hword (m : Mode) (hm : m = plain ∨ m = dollar ∨ m = word) : m.run cs = m.run ds := by
    rw [run_numeral hm hcs, run_numeral hm hds]
  have hinside (m : Mode) (hm : m.IsInside) : m.run cs = m.run ds := by
    rw [run_numeral_inside hm hcs, run_numeral_inside hm hds]
  rw [run_cons, run_cons]
  cases m with
  | plain | dash | slash | literalMark | nameMark => exact hword dollar (by simp)
  | word | escape => exact hword word (by simp)
  | dollar | lost => exact hinside lost (by simp [IsInside])
  | literal => exact hinside literal (by simp [IsInside])
  | name => exact hinside name (by simp [IsInside])
  | remark => exact hinside remark (by simp [IsInside])
  | comment d | commentStar d | commentSlash d => exact hinside (comment d) (by simp [IsInside])

/-- Shifting placeholders changes nothing in how a text is read. -/
theorem run_shifted (b : Int) (cs : List Char) (m : Mode) :
    m.run ((Piece.ofChars cs).flatMap (Piece.shifted b)) = m.run cs := by
  induction cs generalizing m with
  | nil => rfl
  | cons c cs ih =>
    by_cases hplace : c = '$' ∧ leadingDigits cs ≠ []
    · obtain ⟨rfl, hdigits⟩ := hplace
      -- the digits behind the dollar sign are the first pieces of the rest of the text
      have hrest := ih (m.step '$')
      rw [Piece.ofChars_eq, List.flatMap_append, flatMap_shifted_map_char, run_append] at hrest
      rw [Piece.ofChars_cons_dollar hdigits, List.flatMap_cons, run_append, Piece.shifted,
        m.run_placeholder (isNumeral_toString _)
          (isNumeral_of_digits hdigits isDigit_of_mem_leadingDigits), run_cons, hrest, run_cons]
    · have hlone : c = '$' → leadingDigits cs = [] := by tauto
      rw [Piece.ofChars_cons hlone, List.flatMap_cons, run_append, ih]
      rfl

end Mode

theorem sealed_placeholder (n : Int) : Sealed (placeholder n) := by
  have hchars : (placeholder n).toList = '$' :: (toString n).toList := String.toList_append
  rw [Sealed, hchars, Mode.run_cons]
  show Mode.dollar.run _ ∈ Mode.outside
  rw [Mode.run_numeral (.inr (.inl rfl)) (isNumeral_toString n)]
  decide

theorem divides_comma : Divides ", " := by decide

theorem sealed_placeholders (b : Int) (n : Nat) : Sealed (placeholders b n) := by
  refine sealed_intercalate divides_comma fun text htext ↦ ?_
  obtain ⟨i, -, rfl⟩ := List.mem_map.mp htext
  exact sealed_placeholder _

/-- Hand-written SQL stays sealed wherever its placeholders are moved. -/
theorem Sealed.shift (h : Sealed s) (b : Int) : Sealed (shift b s) := by
  rw [Sql.shift]
  split
  · exact h
  · rwa [Sealed, String.toList_ofList, Mode.run_shifted]

end Rowmap.Sql
