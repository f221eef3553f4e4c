import Rowmap.Condition.Compile
import Rowmap.Proofs.Sql.Lexemes

/-!
# Renumbering

Hand-written SQL gets new numbers for its placeholders where it becomes a part of a statement. They
are found by their characters alone, a dollar sign and digits, wherever these stand. So all depends
on whether what is found are the placeholders of the text: then these get their new numbers and
every other lexeme stays as it was written, and otherwise something else is changed.

What is found in comments does no harm: a comment stays one whatever the numbers in it are.
-/

namespace Rowmap.Text

theorem digitsValue_append (ds es : List Char) :
    digitsValue (ds ++ es) = digitsValue ds * 10 ^ es.length + digitsValue es := by
  have hfold (n : Nat) : es.foldl (fun n c ↦ 10 * n + (digit? c).getD 0) n =
      n * 10 ^ es.length + digitsValue es := by
    induction es generalizing n with
    | nil => exact (Nat.mul_one n).symm
    | cons e es ih =>
      rw [digitsValue, List.foldl_cons, List.foldl_cons, ih, ih, List.length_cons, pow_succ]
      ring
  rw [digitsValue, List.foldl_append, hfold]
  rfl

end Rowmap.Text

namespace Rowmap.Sql

def isPlaceholder : List Char → Bool
  | '$' :: d :: ds => (d :: ds).all Char.isDigit
  | _ => false

/-- A lexeme after so many more bound parameters: a placeholder gets its new number. -/
def renumbered (b : Nat) (l : List Char) : List Char :=
  if isPlaceholder l then '$' :: (toString (Text.digitsValue l.tail + b)).toList else l

/-- The pieces of a lexeme when only placeholders count as such. -/
def lexemePieces (l : List Char) : List Piece :=
  if isPlaceholder l then [.placeholder l.tail] else l.map .char

def FindsPlaceholders (cs : List Char) : Prop :=
  Piece.ofChars cs = (lexemes cs).flatMap lexemePieces

/-- Whether what shifting finds in a text are its placeholders, comments aside. -/
def FindsBesideComments (cs : List Char) : Prop :=
  Piece.ofChars cs =
    (lexemes cs).flatMap fun l ↦ if isComment l then Piece.ofChars l else lexemePieces l

instance (cs : List Char) : Decidable (FindsPlaceholders cs) := inferInstanceAs (Decidable (_ = _))

instance (cs : List Char) : Decidable (FindsBesideComments cs) :=
  inferInstanceAs (Decidable (_ = _))

/-! ## Placeholders -/

theorem isPlaceholder_iff {l : List Char} :
    isPlaceholder l = true ↔ ∃ ds, l = '$' :: ds ∧ ds ≠ [] ∧ ∀ c ∈ ds, c.isDigit = true := by
  rw [isPlaceholder.eq_def]
  split
  · rename_i d ds
    rw [List.all_eq_true]
    exact ⟨fun h ↦ ⟨d :: ds, rfl, List.cons_ne_nil _ _, h⟩, fun ⟨_, hl, _, h⟩ ↦
      (List.cons.inj hl).2 ▸ h⟩
  · rename_i hother
    refine iff_of_false Bool.false_ne_true ?_
    rintro ⟨ds, rfl, hne, -⟩
    obtain ⟨d, ds, rfl⟩ := List.exists_cons_of_ne_nil hne
    exact hother d ds rfl

theorem isPlaceholder_number (n : Nat) : isPlaceholder ('$' :: (toString n).toList) = true :=
  isPlaceholder_iff.mpr ⟨_, rfl, toList_toString_ne_nil n, isDigit_of_mem_toString n⟩

theorem renumbered_of_not_isPlaceholder {l : List Char} (h : isPlaceholder l = false) (b : Nat) :
    renumbered b l = l := by
  rw [renumbered, h, if_neg Bool.false_ne_true]

theorem renumbered_placeholder {ds : List Char} (h : isPlaceholder ('$' :: ds) = true) (b : Nat) :
    renumbered b ('$' :: ds) = '$' :: (toString (Text.digitsValue ds + b)).toList := by
  rw [renumbered, if_pos h, List.tail_cons]

theorem flatMap_shifted_lexemePieces (b : Nat) (l : List Char) :
    (lexemePieces l).flatMap (Piece.shifted b) = renumbered b l := by
  rw [lexemePieces, renumbered]
  split
  · exact List.append_nil _
  · exact flatMap_shifted_map_char b l

namespace Lexer

theorem run?_digits {ds : List Char} (hne : ds ≠ []) (hds : ∀ c ∈ ds, c.isDigit = true) :
    dollar.run? ds = some placeholder := by
  have hrest (ds : List Char) (hds : ∀ c ∈ ds, c.isDigit = true) :
      placeholder.run? ds = some placeholder := by
    induction ds with
    | nil => rfl
    | cons d ds ih =>
      rw [List.forall_mem_cons] at hds
      have hnext : placeholder.next? d = some placeholder := if_pos hds.1
      rw [run?_cons hnext, ih hds.2]
  obtain ⟨d, ds, rfl⟩ := List.exists_cons_of_ne_nil hne
  rw [List.forall_mem_cons] at hds
  have hnext : dollar.next? d = some placeholder := if_pos hds.1
  rw [run?_cons hnext, hrest ds hds.2]

/-- A lexeme is read as far with its new number. -/
theorem fits_renumbered (b : Nat) {l : List Char} (h : Fits l l) : Fits l (renumbered b l) := by
  cases hplace : isPlaceholder l with
  | false => rwa [renumbered_of_not_isPlaceholder hplace]
  | true =>
    obtain ⟨ds, rfl, hne, hds⟩ := isPlaceholder_iff.mp hplace
    rw [renumbered_placeholder hplace]
    exact ⟨'$', _, _, placeholder, rfl, rfl, run?_digits hne hds,
      run?_digits (toList_toString_ne_nil _) (isDigit_of_mem_toString _)⟩

/-! ## Comments -/

/-- Whether the lexeme in progress is a comment, behind its start. -/
def inComment : Lexer → Bool
  | ended | remark | comment _ | commentStar _ | commentSlash _ => true
  | _ => false

theorem inComment_of_next? {m m' : Lexer} {c : Char} (hm : m.inComment = true)
    (h : m.next? c = some m') : m'.inComment = true := by
  cases m with
  | ended => cases h
  | remark =>
    rw [next?, Option.ite_none_left_eq_some] at h
    obtain ⟨-, h⟩ := h
    obtain rfl := Option.some.inj h
    rfl
  | comment d | commentStar d | commentSlash d =>
    obtain rfl := Option.some.inj h
    repeat' split
    all_goals rfl
  | _ => cases hm

/-- Which number a comment mentions makes no difference to where it ends. -/
theorem run?_number_inComment {m : Lexer} (hm : m.inComment = true) {ds ds' : List Char}
    (hds : ∀ c ∈ ds, Text.isDigit c = true) (hds' : ∀ c ∈ ds', Text.isDigit c = true) :
    m.run? ('$' :: ds) = m.run? ('$' :: ds') := by
  have hstay (m : Lexer) (hm : m = remark ∨ ∃ d, m = comment d) {ds : List Char}
      (hds : ∀ c ∈ ds, Text.isDigit c = true) : m.run? ds = some m := by
    induction ds with
    | nil => rfl
    | cons c ds ih =>
      obtain ⟨hc, hds⟩ := List.forall_mem_cons.mp hds
      have hne (d : Char) (hd : Text.isDigit d = false) : c ≠ d := by
        rintro rfl
        exact Bool.false_ne_true (hd.symm.trans hc)
      have hnext : m.next? c = some m := by
        rcases hm with rfl | ⟨d, rfl⟩
        · simp [next?, hne '\n' (by decide), hne '\r' (by decide)]
        · simp [next?, hne '*' (by decide), hne '/' (by decide)]
      rw [run?_cons hnext, ih hds]
  cases m with
  | ended => rfl
  | remark =>
    show remark.run? ds = remark.run? ds'
    rw [hstay _ (.inl rfl) hds, hstay _ (.inl rfl) hds']
  | comment d | commentStar d | commentSlash d =>
    show (comment d).run? ds = (comment d).run? ds'
    rw [hstay _ (.inr ⟨d, rfl⟩) hds, hstay _ (.inr ⟨d, rfl⟩) hds']
  | _ => cases hm

/-- Shifting what a comment mentions makes no difference to where it ends. -/
theorem run?_shifted_inComment (b : Nat) (cs : List Char) {m : Lexer} (hm : m.inComment = true) :
    m.run? ((Piece.ofChars cs).flatMap (Piece.shifted b)) = m.run? cs := by
  induction cs generalizing m with
  | nil => rfl
  | cons c cs ih =>
    by_cases hplace : c = '$' ∧ leadingDigits cs ≠ []
    · obtain ⟨rfl, hdigits⟩ := hplace
      have hnumber := run?_number_inComment hm
        (text_isDigit_of_mem_toString (Text.digitsValue (leadingDigits cs) + b))
        (@isDigit_of_mem_leadingDigits cs)
      rw [Piece.ofChars_cons_dollar hdigits, List.flatMap_cons, run?_append]
      show ((m.run? ('$' :: (toString (Text.digitsValue (leadingDigits cs) + b)).toList)).bind
        fun m ↦ m.run? _) = _
      rw [hnumber, ← run?_append, List.cons_append, run?, run?]
      refine Option.bind_congr fun m' hm' ↦ ?_
      -- the digits behind the dollar sign are the first pieces of the rest of the text
      have hrest := ih (inComment_of_next? hm hm')
      rwa [Piece.ofChars_eq, List.flatMap_append, flatMap_shifted_map_char] at hrest
    · have hlone : c = '$' → leadingDigits cs = [] := by tauto
      rw [Piece.ofChars_cons hlone, List.flatMap_cons]
      show m.run? (c :: _) = _
      rw [run?, run?]
      exact Option.bind_congr fun m' hm' ↦ ih (inComment_of_next? hm hm')

end Lexer

theorem flatMap_shifted_ofChars_cons {c : Char} (hc : c ≠ '$') (b : Nat) (cs : List Char) :
    (Piece.ofChars (c :: cs)).flatMap (Piece.shifted b) =
      c :: (Piece.ofChars cs).flatMap (Piece.shifted b) := by
  rw [Piece.ofChars_cons fun h ↦ absurd h hc]
  rfl

namespace Lexer

/-- A comment is read as far when it mentions other numbers. -/
theorem fits_comment (b : Nat) {start second : Char} {rest : List Char} {m : Lexer}
    (hsecond : (first start).next? second = some m) (hm : m.inComment = true)
    (hne : start ≠ '$' ∧ second ≠ '$')
    (h : Fits (start :: second :: rest) (start :: second :: rest)) :
    Fits (start :: second :: rest)
      ((Piece.ofChars (start :: second :: rest)).flatMap (Piece.shifted b)) := by
  obtain ⟨c, _, -, m', hl, -, hrun, -⟩ := h
  obtain ⟨rfl, rfl⟩ := List.cons.inj hl
  rw [flatMap_shifted_ofChars_cons hne.1, flatMap_shifted_ofChars_cons hne.2]
  refine ⟨start, _, _, m', rfl, rfl, hrun, ?_⟩
  rwa [run?_cons hsecond, run?_shifted_inComment b rest hm, ← run?_cons hsecond]

end Lexer

/-- A lexeme whose numbers are shifted, if it is a comment, and which is renumbered otherwise. -/
def shiftedLexeme (b : Nat) (l : List Char) : List Char :=
  if isComment l then (Piece.ofChars l).flatMap (Piece.shifted b) else renumbered b l

theorem fits_shiftedLexeme (b : Nat) {l : List Char} (h : Lexer.Fits l l) :
    Lexer.Fits l (shiftedLexeme b l) := by
  rw [shiftedLexeme]
  split
  · rename_i hcomment
    rw [isComment.eq_def] at hcomment
    split at hcomment
    · exact Lexer.fits_comment b (m := .remark) rfl rfl (by decide) h
    · exact Lexer.fits_comment b (m := .comment 0) rfl rfl (by decide) h
    · cases hcomment
  · exact Lexer.fits_renumbered b h

/-- What is changed where says as much as before. -/
theorem isGap_shiftedLexeme (b : Nat) (l : List Char) : isGap (shiftedLexeme b l) = isGap l := by
  rw [shiftedLexeme]
  cases hcomment : isComment l with
  | true =>
    have hshifted : isComment ((Piece.ofChars l).flatMap (Piece.shifted b)) = true := by
      rw [isComment.eq_def] at hcomment
      split at hcomment
      · rw [flatMap_shifted_ofChars_cons (by decide), flatMap_shifted_ofChars_cons (by decide)]
        rfl
      · rw [flatMap_shifted_ofChars_cons (by decide), flatMap_shifted_ofChars_cons (by decide)]
        rfl
      · cases hcomment
    rw [if_pos rfl, isGap, isGap, hshifted, hcomment, Bool.or_true, Bool.or_true]
  | false =>
    rw [if_neg Bool.false_ne_true]
    cases hplace : isPlaceholder l with
    | false => rw [renumbered_of_not_isPlaceholder hplace]
    | true =>
      obtain ⟨ds, rfl, -, -⟩ := isPlaceholder_iff.mp hplace
      rw [renumbered_placeholder hplace]
      rfl

/-! ## What shifting finds -/

theorem leadingDigits_flatten_renumbered (b : Nat) (ls : List (List Char)) :
    leadingDigits (ls.map (renumbered b)).flatten = leadingDigits ls.flatten := by
  induction ls with
  | nil => rfl
  | cons l ls ih =>
    rw [List.map_cons, List.flatten_cons, List.flatten_cons]
    cases hplace : isPlaceholder l with
    | false =>
      rw [renumbered_of_not_isPlaceholder hplace, ← leadingDigits_append_leadingDigits, ih,
        leadingDigits_append_leadingDigits]
    | true =>
      obtain ⟨ds, rfl, -, -⟩ := isPlaceholder_iff.mp hplace
      rw [renumbered_placeholder hplace, List.cons_append, List.cons_append,
        leadingDigits_cons_of_not_digit (by decide), leadingDigits_cons_of_not_digit (by decide)]

/-- **What is found where renumbering adds to every number found.** A lexeme that keeps its numbers
has none, and none reaches beyond a placeholder, whose number would be moved up as well. -/
theorem pieces_of_numbersOf_renumbered {b : Nat} (hb : b ≠ 0) {ls : List (List Char)}
    (h : numbersOf (ls.map (renumbered b)).flatten = (numbersOf ls.flatten).map (· + b)) :
    Piece.ofChars ls.flatten = ls.flatMap lexemePieces := by
  induction ls with
  | nil => rfl
  | cons l ls ih =>
    have hlead := leadingDigits_flatten_renumbered b ls
    rw [List.map_cons, List.flatten_cons, List.flatten_cons] at h
    rw [List.flatten_cons, List.flatMap_cons, lexemePieces]
    cases hplace : isPlaceholder l with
    | false =>
      rw [renumbered_of_not_isPlaceholder hplace, numbersOf_append_leadingDigits l, hlead,
        numbersOf_append_leadingDigits l ls.flatten, List.map_append] at h
      obtain ⟨hown, hrest⟩ := List.append_inj h (List.length_map _).symm
      have hnone : numbersOf (l ++ leadingDigits ls.flatten) = [] := by
        cases hnumbers : numbersOf (l ++ leadingDigits ls.flatten) with
        | nil => rfl
        | cons n ns =>
          rw [hnumbers, List.map_cons, List.cons.injEq] at hown
          omega
      rw [if_neg Bool.false_ne_true, Piece.ofChars_append_of_no_numbers hnone, ih hrest]
    | true =>
      obtain ⟨ds, rfl, hne, hds⟩ := isPlaceholder_iff.mp hplace
      have hdigits (c : Char) (hc : c ∈ ds) : Text.isDigit c = true :=
        text_isDigit_of_isDigit (hds c hc)
      rw [renumbered_placeholder hplace, List.cons_append, List.cons_append,
        numbersOf_dollar_append (toList_toString_ne_nil _) (text_isDigit_of_mem_toString _),
        numbersOf_dollar_append hne hdigits, hlead, List.map_cons, List.cons.injEq,
        Text.digitsValue_append, Text.digitsValue_append, digitsValue_toString] at h
      obtain ⟨hown, hrest⟩ := h
      have hnone : leadingDigits ls.flatten = [] := by
        have hscaled : b * 10 ^ (leadingDigits ls.flatten).length = b * 1 := by
          rw [Nat.add_mul] at hown
          omega
        have hpower := Nat.eq_of_mul_eq_mul_left (by omega) hscaled
        rw [Nat.pow_eq_one] at hpower
        exact List.eq_nil_of_length_eq_zero (hpower.resolve_left (by decide))
      rw [if_pos rfl, List.cons_append, Piece.ofChars_dollar_append hne hdigits hnone, ih hrest]
      rfl

theorem toList_shift_of_findsPlaceholders {b : Nat} (hb : b ≠ 0) {s : String}
    (h : FindsPlaceholders s.toList) :
    (shift b s).toList = ((lexemes s.toList).map (renumbered b)).flatten := by
  rw [toList_shift hb, pieces, h, List.flatMap_assoc, ← List.flatMap_def]
  exact List.flatMap_congr fun l _ ↦ flatMap_shifted_lexemePieces b l

/-- Shifting renumbers the placeholders and leaves every other lexeme as it is, exactly where the
placeholders are what it finds. -/
theorem lexemes_shift_iff {b : Nat} (hb : b ≠ 0) (s : String) :
    lexemes (shift b s).toList = (lexemes s.toList).map (renumbered b) ↔
      FindsPlaceholders s.toList := by
  constructor
  · intro h
    have hflatten := congrArg List.flatten h
    rw [flatten_lexemes] at hflatten
    have hnumbers := numbers_shift b s
    rw [numbers, numbers, hflatten] at hnumbers
    rw [FindsPlaceholders]
    have hpieces := @pieces_of_numbersOf_renumbered b hb (lexemes s.toList)
    rw [flatten_lexemes] at hpieces
    exact hpieces hnumbers
  · intro h
    rw [toList_shift_of_findsPlaceholders hb h]
    exact lexemes_flatten_map fun l hl ↦ Lexer.fits_renumbered b (.of_mem_read hl)

/-- Where shifting finds placeholders alone besides what stands in comments, it renumbers the
placeholders and leaves every other token as it is. -/
theorem tokens_shift {b : Nat} (hb : b ≠ 0) {s : String} (h : FindsBesideComments s.toList) :
    tokens (shift b s).toList = (tokens s.toList).map (renumbered b) := by
  have hshift : (shift b s).toList = ((lexemes s.toList).map (shiftedLexeme b)).flatten := by
    rw [toList_shift hb, pieces, h, List.flatMap_assoc, ← List.flatMap_def]
    refine List.flatMap_congr fun l _ ↦ ?_
    rw [shiftedLexeme]
    split
    · rfl
    · exact flatMap_shifted_lexemePieces b l
  have hlexemes := lexemes_flatten_map fun l (hl : l ∈ lexemes s.toList) ↦
    fits_shiftedLexeme b (.of_mem_read hl)
  have hsays : ((!isGap ·) ∘ shiftedLexeme b) = (!isGap ·) :=
    funext fun l ↦ congrArg not (isGap_shiftedLexeme b l)
  rw [tokens, hshift, hlexemes, List.filter_map, hsays, tokens]
  refine List.map_congr_left fun l hl ↦ ?_
  -- a token is no comment
  have hl := (List.mem_filter.mp hl).2
  rw [Bool.not_eq_true', isGap, Bool.or_eq_false_iff] at hl
  rw [shiftedLexeme, hl.2, if_neg Bool.false_ne_true]

end Rowmap.Sql

namespace Rowmap.Condition

open Sql

/-- **Hand-written SQL gets new numbers for its placeholders and keeps all else**, exactly where the
placeholders are what looking for a dollar sign and digits finds. What it finds in comments besides
changes no token. After no bound values the text stays as it is, and only numbers with too many
digits make it fail. -/
theorem rawSql_renumbers_what_is_found (id : Nat) (query : String) (values : List Value)
    (comparison : Option Comparison) (b : Nat) :
    (canShift b query = false →
      renderPlain (.rawSql id query values comparison) b = .fail .badValue) ∧
    (canShift b query = true → ∃ text,
      renderPlain (.rawSql id query values comparison) b =
        .ok ⟨.text text, values, Rendition.comparisonValue comparison⟩ ∧
      (b = 0 → text = query) ∧
      (b ≠ 0 → (lexemes text.toList = (lexemes query.toList).map (renumbered b) ↔
        FindsPlaceholders query.toList)) ∧
      (b ≠ 0 → FindsBesideComments query.toList →
        Sql.tokens text.toList = (Sql.tokens query.toList).map (renumbered b))) := by
  refine ⟨fun h ↦ ?_, fun h ↦ ⟨shift b query, ?_, ?_, fun hb ↦ lexemes_shift_iff hb query,
    fun hb ↦ tokens_shift hb⟩⟩
  · rw [renderPlain, h, if_neg Bool.false_ne_true]
  · rw [renderPlain, if_pos h]
  · rintro rfl
    rfl

/-- A condition on placeholders, an identifier with a dollar sign and a comment. -/
theorem rawSql_renumbers_what_is_found_comment :
    ∃ text, renderPlain (.rawSql 0 "\"a\" = $2 /* $1 */ OR b$ = 'x'" [.int 1, .int 2] none) 3 =
        .ok ⟨.text text, [.int 1, .int 2], .null⟩ ∧
      ¬lexemes text.toList =
        (lexemes "\"a\" = $2 /* $1 */ OR b$ = 'x'".toList).map (renumbered 3) ∧
      Sql.tokens text.toList = ["\"a\"", "=", "$5", "OR", "b$", "=", "'x'"].map String.toList := by
  obtain ⟨text, hrender, -, hiff, htokens⟩ := (rawSql_renumbers_what_is_found 0
    "\"a\" = $2 /* $1 */ OR b$ = 'x'" [.int 1, .int 2] none 3).2 (by decide)
  refine ⟨text, hrender, fun h ↦ absurd ((hiff (by decide)).mp h) (by decide), ?_⟩
  rw [htokens (by decide) (by decide)]
  decide

/-- A string constant is changed that looks like a placeholder. -/
theorem renderPlain_constant_changed :
    renderPlain (.rawSql 0 "SELECT '$1' WHERE a = $1" [.int 1] none) 1 =
      .ok ⟨.text "SELECT '$2' WHERE a = $2", [.int 1], .null⟩ ∧
    "'$1'".toList ∈ Sql.tokens "SELECT '$1' WHERE a = $1".toList ∧
    "'$1'".toList ∉ Sql.tokens "SELECT '$2' WHERE a = $2".toList :=
  ⟨by rfl, by decide, by decide⟩

end Rowmap.Condition
