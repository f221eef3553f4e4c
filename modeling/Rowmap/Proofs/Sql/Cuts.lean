import Rowmap.Condition.Compile
import Rowmap.Proofs.Sql.Shifting
import Mathlib.Data.List.Basic
import Mathlib.Data.List.TakeWhile

/-!
# Texts cut at their placeholders

A cut takes a text apart into the digits of its placeholders and what stands between them. It is
exact when no placeholder is left in between, and every placeholder has all the digits that follow
its dollar sign. A text has one exact cut. So an exact cut says what is found in a text without any
scanning, and what shifting makes of the text can be read off it: the digits change to those of the
moved number, and what stands between them stays. The shifted text is cut exactly at the new digits,
which are all digits again. That is why a shifted text can be shifted once more, as if it had been
shifted by the sum at once.

Digits of any script count, with any zeros in front. The first shift by more than nothing writes
them as ASCII digits without these zeros, and the next one finds them so.
-/

namespace Rowmap.Sql

def NoDigitFirst (cs : List Char) : Prop := ∀ d rest, cs = d :: rest → Text.isDigit d = false

/-- Characters among which there is no placeholder: no digit stands behind a dollar sign. -/
def Unmarked (cs : List Char) : Prop :=
  ∀ before after, cs = before ++ '$' :: after → NoDigitFirst after

/-- The digits of a placeholder, all that there are, with what stands behind them. -/
structure IsMark (m : List Char × List Char) : Prop where
  nonempty : m.1 ≠ []
  digits : ∀ d ∈ m.1, Text.isDigit d = true
  maximal : NoDigitFirst m.2
  unmarked : Unmarked m.2

/-- A text cut at its placeholders: what stands in front of the first one, and the digits of each
with what stands between it and the next. -/
structure Cut where
  front : List Char
  marks : List (List Char × List Char)

namespace Cut

/-- What stands from the first placeholder on. -/
def tailChars (marks : List (List Char × List Char)) : List Char :=
  marks.flatMap fun m ↦ '$' :: (m.1 ++ m.2)

def chars (x : Cut) : List Char := x.front ++ tailChars x.marks

/-- A cut at all placeholders of its text, each with all of its digits. -/
structure IsExact (x : Cut) : Prop where
  front : Unmarked x.front
  marks : ∀ m ∈ x.marks, IsMark m

def numbers (x : Cut) : List Nat := x.marks.map fun m ↦ Text.digitsValue m.1

/-- What stands between the placeholders, in front of the first and behind the last included. -/
def between (x : Cut) : List (List Char) := x.front :: x.marks.map (·.2)

end Cut

/-! ## Every text has an exact cut -/

theorem noDigitFirst_nil : NoDigitFirst [] := fun _ _ h ↦ nomatch h

theorem noDigitFirst_cons {d : Char} {rest : List Char} :
    NoDigitFirst (d :: rest) ↔ Text.isDigit d = false := by
  refine ⟨fun h ↦ h d rest rfl, fun h d' rest' hcons ↦ ?_⟩
  obtain ⟨rfl, -⟩ := List.cons.inj hcons
  exact h

theorem noDigitFirst_iff_leadingDigits {cs : List Char} :
    NoDigitFirst cs ↔ leadingDigits cs = [] := by
  cases cs with
  | nil => exact iff_of_true noDigitFirst_nil rfl
  | cons d rest =>
    rw [noDigitFirst_cons]
    refine ⟨fun h ↦ leadingDigits_cons_of_not_digit h rest, fun h ↦ ?_⟩
    by_contra hd
    rw [Bool.not_eq_false] at hd
    rw [leadingDigits_cons_digit hd] at h
    exact List.cons_ne_nil _ _ h

theorem noDigitFirst_iff_takeWhile {cs : List Char} :
    NoDigitFirst cs ↔ cs.takeWhile Text.isDigit = [] := by
  cases cs with
  | nil => exact iff_of_true noDigitFirst_nil rfl
  | cons d rest =>
    rw [noDigitFirst_cons, List.takeWhile_cons]
    cases Text.isDigit d <;> simp

theorem noDigitFirst_dropWhile (cs : List Char) : NoDigitFirst (cs.dropWhile Text.isDigit) := by
  induction cs with
  | nil => exact noDigitFirst_nil
  | cons d rest ih =>
    rw [List.dropWhile_cons]
    split
    · exact ih
    · rwa [noDigitFirst_cons, ← Bool.not_eq_true]

theorem unmarked_nil : Unmarked [] := fun before _ h ↦ by simp at h

theorem Unmarked.of_append {cs ds : List Char} (h : Unmarked (cs ++ ds)) : Unmarked ds :=
  fun before after hds ↦ h (cs ++ before) after (by rw [hds, List.append_assoc])

theorem unmarked_cons {c : Char} {cs : List Char} :
    Unmarked (c :: cs) ↔ (c = '$' → NoDigitFirst cs) ∧ Unmarked cs := by
  constructor
  · refine fun h ↦ ⟨?_, @Unmarked.of_append [c] cs h⟩
    rintro rfl
    exact h [] cs rfl
  · rintro ⟨hc, hcs⟩ before after h
    cases before with
    | nil =>
      obtain ⟨rfl, rfl⟩ := List.cons.inj h
      exact hc rfl
    | cons c' before => exact hcs before after (List.cons.inj h).2

namespace Cut

/-- The exact cut of a text. -/
def ofChars : List Char → Cut
  | [] => ⟨[], []⟩
  | c :: cs =>
    let x := ofChars cs
    let digits := x.front.takeWhile Text.isDigit
    if c = '$' ∧ digits ≠ [] then ⟨[], (digits, x.front.dropWhile Text.isDigit) :: x.marks⟩
    else ⟨c :: x.front, x.marks⟩

theorem chars_ofChars (cs : List Char) : (ofChars cs).chars = cs := by
  induction cs with
  | nil => rfl
  | cons c cs ih =>
    rw [ofChars]
    split
    · rename_i h
      rw [chars, tailChars, List.flatMap_cons, List.takeWhile_append_dropWhile, h.1]
      exact congrArg ('$' :: ·) ih
    · exact congrArg (c :: ·) ih

theorem isExact_ofChars (cs : List Char) : (ofChars cs).IsExact := by
  induction cs with
  | nil => exact ⟨unmarked_nil, List.forall_mem_nil _⟩
  | cons c cs ih =>
    rw [ofChars]
    split
    · rename_i h
      have hsplit := List.takeWhile_append_dropWhile (p := Text.isDigit) (l := (ofChars cs).front)
      exact ⟨unmarked_nil, List.forall_mem_cons.mpr ⟨⟨h.2, fun _ ↦ List.mem_takeWhile_imp,
        noDigitFirst_dropWhile _, .of_append (hsplit.symm ▸ ih.front)⟩, ih.marks⟩⟩
    · rename_i h
      refine ⟨unmarked_cons.mpr ⟨fun hc ↦ ?_, ih.front⟩, ih.marks⟩
      rw [noDigitFirst_iff_takeWhile]
      by_contra hdigits
      exact h ⟨hc, hdigits⟩

/-! ## A text has one exact cut -/

/-- The pieces of a text, read off a cut. -/
def pieces (x : Cut) : List Piece :=
  x.front.map .char ++ x.marks.flatMap fun m ↦ .placeholder m.1 :: m.2.map .char

def ofPieces : List Piece → Cut
  | [] => ⟨[], []⟩
  | .char c :: ps => ⟨c :: (ofPieces ps).front, (ofPieces ps).marks⟩
  | .placeholder digits :: ps => ⟨[], (digits, (ofPieces ps).front) :: (ofPieces ps).marks⟩

theorem ofPieces_map_char_append (cs : List Char) (ps : List Piece) :
    ofPieces (cs.map .char ++ ps) = ⟨cs ++ (ofPieces ps).front, (ofPieces ps).marks⟩ := by
  induction cs with
  | nil => rfl
  | cons c cs ih =>
    rw [List.map_cons, List.cons_append, ofPieces, ih]
    rfl

theorem ofPieces_pieces (x : Cut) : ofPieces x.pieces = x := by
  obtain ⟨front, marks⟩ := x
  rw [pieces, ofPieces_map_char_append]
  have hmarks : ofPieces (marks.flatMap fun m ↦ .placeholder m.1 :: m.2.map .char) =
      ⟨[], marks⟩ := by
    induction marks with
    | nil => rfl
    | cons m marks ih =>
      rw [List.flatMap_cons, List.cons_append, ofPieces, ofPieces_map_char_append, ih,
        List.append_nil]
  rw [hmarks, List.append_nil]

end Cut

theorem Unmarked.ofChars {cs : List Char} (h : Unmarked cs) :
    Piece.ofChars cs = cs.map .char := by
  induction cs with
  | nil => rfl
  | cons c cs ih =>
    obtain ⟨hc, hcs⟩ := unmarked_cons.mp h
    rw [Piece.ofChars_cons fun heq ↦ noDigitFirst_iff_leadingDigits.mp (hc heq), ih hcs]
    rfl

namespace Cut

theorem leadingDigits_tailChars (marks : List (List Char × List Char)) :
    leadingDigits (tailChars marks) = [] := by
  cases marks with
  | nil => rfl
  | cons m marks => exact leadingDigits_cons_of_not_digit (by decide) _

theorem ofChars_tailChars {marks : List (List Char × List Char)} (h : ∀ m ∈ marks, IsMark m) :
    Piece.ofChars (tailChars marks) =
      marks.flatMap fun m ↦ .placeholder m.1 :: m.2.map .char := by
  induction marks with
  | nil => rfl
  | cons m marks ih =>
    obtain ⟨hm, hmarks⟩ := List.forall_mem_cons.mp h
    have hrest := leadingDigits_tailChars marks
    -- the digits end where what is between this placeholder and the next one starts
    have hstop : leadingDigits (m.2 ++ tailChars marks) = [] := by
      rw [leadingDigits_append hrest]
      exact noDigitFirst_iff_leadingDigits.mp hm.maximal
    calc Piece.ofChars (tailChars (m :: marks))
        = Piece.ofChars ('$' :: (m.1 ++ (m.2 ++ tailChars marks))) := by
          rw [tailChars, List.flatMap_cons, List.cons_append, List.append_assoc]
          rfl
      _ = .placeholder m.1 :: (Piece.ofChars m.2 ++ Piece.ofChars (tailChars marks)) := by
          rw [Piece.ofChars_dollar_append hm.nonempty hm.digits hstop, Piece.ofChars_append hrest]
      _ = _ := by
          rw [hm.unmarked.ofChars, ih hmarks]
          rfl

variable {x : Cut}

theorem IsExact.pieces_eq (h : x.IsExact) : Piece.ofChars x.chars = x.pieces := by
  rw [chars, Piece.ofChars_append (leadingDigits_tailChars x.marks), h.front.ofChars,
    ofChars_tailChars h.marks]
  rfl

theorem existsUnique_isExact (cs : List Char) : ∃! x : Cut, x.chars = cs ∧ x.IsExact := by
  refine ⟨ofChars cs, ⟨chars_ofChars cs, isExact_ofChars cs⟩, fun y ⟨hchars, hexact⟩ ↦ ?_⟩
  have hpieces : y.pieces = (ofChars cs).pieces := by
    rw [← hexact.pieces_eq, ← (isExact_ofChars cs).pieces_eq, hchars, chars_ofChars]
  rw [← ofPieces_pieces y, hpieces, ofPieces_pieces]

/-! ## Shifting a cut -/

/-- A cut after so many more bound parameters. After none the digits stay as they were written. -/
def moved (k : Nat) (x : Cut) : Cut :=
  if k = 0 then x
  else ⟨x.front, x.marks.map fun m ↦ ((toString (Text.digitsValue m.1 + k)).toList, m.2)⟩

theorem moved_zero (x : Cut) : x.moved 0 = x := rfl

theorem moved_of_ne {k : Nat} (hk : k ≠ 0) (x : Cut) : x.moved k =
    ⟨x.front, x.marks.map fun m ↦ ((toString (Text.digitsValue m.1 + k)).toList, m.2)⟩ :=
  if_neg hk

theorem IsExact.moved (h : x.IsExact) (k : Nat) : (x.moved k).IsExact := by
  by_cases hk : k = 0
  · rwa [hk, moved_zero]
  rw [moved_of_ne hk]
  refine ⟨h.front, List.forall_mem_map.mpr fun m hm ↦ ?_⟩
  exact ⟨toList_toString_ne_nil _, text_isDigit_of_mem_toString _, (h.marks m hm).maximal,
    (h.marks m hm).unmarked⟩

theorem numbers_moved (k : Nat) (x : Cut) : (x.moved k).numbers = x.numbers.map (· + k) := by
  by_cases hk : k = 0
  · rw [hk, moved_zero]
    exact (List.map_id _).symm
  · rw [moved_of_ne hk, numbers, List.map_map, numbers, List.map_map]
    exact List.map_congr_left fun m _ ↦ digitsValue_toString _

theorem between_moved (k : Nat) (x : Cut) : (x.moved k).between = x.between := by
  by_cases hk : k = 0
  · rw [hk, moved_zero]
  · rw [moved_of_ne hk, between, List.map_map]
    rfl

theorem flatMap_shifted_pieces {k : Nat} (hk : k ≠ 0) (x : Cut) :
    x.pieces.flatMap (Piece.shifted k) = (x.moved k).chars := by
  rw [pieces, List.flatMap_append, flatMap_shifted_map_char, List.flatMap_assoc, moved_of_ne hk,
    chars, tailChars, List.flatMap_map]
  refine congrArg (x.front ++ ·) (List.flatMap_congr fun m _ ↦ ?_)
  rw [List.flatMap_cons, flatMap_shifted_map_char, Piece.shifted, ← Int.natCast_add]
  rfl

theorem IsExact.shift (h : x.IsExact) {query : String} (hquery : x.chars = query.toList) (k : Nat) :
    (Sql.shift k query).toList = (x.moved k).chars := by
  by_cases hk : k = 0
  · rw [hk, moved_zero, hquery]
    rfl
  · rw [toList_shift hk, Sql.pieces, ← hquery, h.pieces_eq, flatMap_shifted_pieces hk]

/-- That the digits of every placeholder can be read, and the moved number be written. After no more
parameters nothing is read. -/
def IsMovable (k : Nat) (x : Cut) : Prop :=
  k = 0 ∨ ∀ m ∈ x.marks, m.1.length ≤ Text.maxDigits ∧
    Text.canWrite (Text.digitsValue m.1 + k : Nat) = true

theorem any_isTooLong_pieces (k : Nat) (x : Cut) : x.pieces.any (Piece.isTooLong k) =
    x.marks.any fun m ↦ Piece.isTooLong k (.placeholder m.1) := by
  have hchars (cs : List Char) : (cs.map Piece.char).any (Piece.isTooLong k) = false := by
    rw [List.any_map, List.any_eq_false]
    exact fun _ _ ↦ Bool.false_ne_true
  rw [pieces, List.any_append, hchars, Bool.false_or, List.any_flatMap]
  refine congrArg (List.any x.marks) (funext fun m ↦ ?_)
  rw [List.any_cons, hchars, Bool.or_false]

theorem IsExact.canShift_iff (h : x.IsExact) {query : String} (hquery : x.chars = query.toList)
    (k : Nat) : Sql.canShift k query = true ↔ x.IsMovable k := by
  by_cases hk : k = 0
  · subst hk
    exact iff_of_true rfl (.inl rfl)
  rw [canShift_eq hk, Sql.pieces, ← hquery, h.pieces_eq, any_isTooLong_pieces, Bool.not_eq_true',
    List.any_eq_false, IsMovable, or_iff_right hk]
  refine forall₂_congr fun m _ ↦ ?_
  rw [Piece.isTooLong, Bool.or_eq_true, not_or, decide_eq_true_iff, not_lt, Bool.not_eq_true',
    Bool.not_eq_false, Nat.cast_add]

end Cut

end Rowmap.Sql

namespace Rowmap.Condition

open Sql

variable {values : List Value} {comparison : Option Comparison} {query : String}

theorem renderPlain_rawSql_of_canShift {b : Nat} (h : canShift b query = true) (id : Nat) :
    renderPlain (.rawSql id query values comparison) b =
      .ok ⟨.text (shift b query), values, Rendition.comparisonValue comparison⟩ := by
  rw [renderPlain, if_pos h]

theorem renderPlain_rawSql_of_not_canShift {b : Nat} (h : ¬canShift b query = true) (id : Nat) :
    renderPlain (.rawSql id query values comparison) b = .fail .badValue := by
  rw [renderPlain, if_neg h]

theorem canShift_of_add {a b : Nat} (h : canShift (a + b : Nat) query = true) :
    canShift a query = true := by
  have hexact := Cut.isExact_ofChars query.toList
  have hchars := Cut.chars_ofChars query.toList
  rw [hexact.canShift_iff hchars] at h ⊢
  obtain hzero | hmarks := h
  · exact .inl (Nat.eq_zero_of_add_eq_zero_right hzero)
  · exact .inr fun m hm ↦ ⟨(hmarks m hm).1, Text.canWrite_of_le (by omega) (hmarks m hm).2⟩

theorem renderPlain_twice (id again a b : Nat) :
    (renderPlain (.rawSql id query values comparison) a >>= fun first ↦
      renderPlain (.rawSql again first.query.inline first.values comparison) b) =
      renderPlain (.rawSql id query values comparison) (a + b : Nat) := by
  by_cases ha : canShift a query = true
  · have htwice := canShift_shift (b := b) ha
    rw [renderPlain_rawSql_of_canShift ha, Logged.ok_bind]
    show renderPlain (.rawSql again (shift a query) values comparison) b = _
    by_cases hsum : canShift (a + b : Nat) query = true
    · rw [renderPlain_rawSql_of_canShift (htwice.trans hsum), shift_shift,
        renderPlain_rawSql_of_canShift hsum]
    · rw [renderPlain_rawSql_of_not_canShift (by rwa [htwice]),
        renderPlain_rawSql_of_not_canShift hsum]
  · rw [renderPlain_rawSql_of_not_canShift ha,
      renderPlain_rawSql_of_not_canShift fun hsum ↦ ha (canShift_of_add hsum)]
    rfl

/-- **Shifts compose.** Hand-written SQL that is rendered after `a` values, and rendered again as
hand-written SQL after `b`, comes to what it comes to after `a + b` at once, failures included.
Every text has one exact cut at its placeholders. After `a` values the text has as many placeholders
in the same order, each with its number moved up by `a`, and is the same between them; unless there
are digits too many to be read or written, in which case there is no text. -/
theorem shifts_compose (id again : Nat) (query : String) (values : List Value)
    (comparison : Option Comparison) (a b : Nat) :
    (renderPlain (.rawSql id query values comparison) a >>= fun first ↦
      renderPlain (.rawSql again first.query.inline first.values comparison) b) =
        renderPlain (.rawSql id query values comparison) (a + b : Nat) ∧
    (∃! x : Cut, x.chars = query.toList ∧ x.IsExact) ∧
    ∀ x : Cut, x.chars = query.toList → x.IsExact →
      (x.moved a).IsExact ∧ (x.moved a).numbers = x.numbers.map (· + a) ∧
      (x.moved a).between = x.between ∧
      (x.IsMovable a → renderPlain (.rawSql id query values comparison) a =
        .ok ⟨.text (String.ofList (x.moved a).chars), values,
          Rendition.comparisonValue comparison⟩) ∧
      (¬x.IsMovable a → renderPlain (.rawSql id query values comparison) a = .fail .badValue) := by
  refine ⟨renderPlain_twice id again a b, Cut.existsUnique_isExact query.toList,
    fun x hquery hexact ↦ ⟨hexact.moved a, x.numbers_moved a, x.between_moved a,
      fun hmovable ↦ ?_, fun hstuck ↦ ?_⟩⟩
  · rw [← hexact.shift hquery, String.ofList_toList]
    exact renderPlain_rawSql_of_canShift ((hexact.canShift_iff hquery a).mpr hmovable) id
  · exact renderPlain_rawSql_of_not_canShift
      (fun hcan ↦ hstuck ((hexact.canShift_iff hquery a).mp hcan)) id

/-- Placeholders with zeros in front and with a digit of another script, and a dollar sign that is
no placeholder. -/
def mixedDigits : Cut where
  front := "a = ".toList
  marks := [("007".toList, " AND b = ".toList), ("٣".toList, " OR c = '$x'".toList)]

theorem mixedDigits_isExact : mixedDigits.IsExact := by
  have hcut : Cut.ofChars "a = $007 AND b = $٣ OR c = '$x'".toList = mixedDigits := by rfl
  exact hcut ▸ Cut.isExact_ofChars _

/-- After two values and then three they have the numbers that they have after five. -/
theorem shifts_compose_mixedDigits :
    mixedDigits.chars = "a = $007 AND b = $٣ OR c = '$x'".toList ∧ mixedDigits.IsExact ∧
    mixedDigits.IsMovable 2 ∧
    renderPlain (.rawSql 0 "a = $007 AND b = $٣ OR c = '$x'" [.int 1] none) (2 : Nat) =
      .ok ⟨.text "a = $9 AND b = $5 OR c = '$x'", [.int 1], .null⟩ ∧
    renderPlain (.rawSql 1 "a = $9 AND b = $5 OR c = '$x'" [.int 1] none) (3 : Nat) =
      renderPlain (.rawSql 0 "a = $007 AND b = $٣ OR c = '$x'" [.int 1] none) (5 : Nat) := by
  have hchars : mixedDigits.chars = "a = $007 AND b = $٣ OR c = '$x'".toList := by rfl
  have hmovable : mixedDigits.IsMovable 2 := .inr (by decide)
  obtain ⟨htwice, -, hcut⟩ :=
    shifts_compose 0 1 "a = $007 AND b = $٣ OR c = '$x'" [.int 1] none 2 3
  obtain ⟨-, -, -, hrender, -⟩ := hcut mixedDigits hchars mixedDigits_isExact
  have hfirst := hrender hmovable
  have htext : String.ofList (mixedDigits.moved 2).chars = "a = $9 AND b = $5 OR c = '$x'" := by
    rfl
  rw [htext] at hfirst
  rw [hfirst, Logged.ok_bind] at htwice
  exact ⟨hchars, mixedDigits_isExact, hmovable, hfirst, htwice⟩

end Rowmap.Condition
