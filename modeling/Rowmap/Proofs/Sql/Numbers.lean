import Rowmap.Sql.Placeholder
import Rowmap.Sql.Quoting
import Mathlib.Tactic.Common

/-!
# The numbers of a text

The numbers of the placeholders of a text, from left to right. Joining two texts joins their
numbers, unless digits come to stand behind a dollar sign; quoting leaves them as they are, and
shifting adds to each.
-/

namespace Rowmap.Sql

/-- The number of a piece, if it is a placeholder. -/
def Piece.number? : Piece → Option Nat
  | .char _ => none
  | .placeholder digits => some (Text.digitsValue digits)

/-- The digits that a text starts with. -/
def leadingDigits (cs : List Char) : List Char := (Piece.scan cs).1

/-- The numbers of the placeholders of a text in characters. -/
def numbersOf (cs : List Char) : List Nat := (Piece.ofChars cs).filterMap Piece.number?

/-- The numbers of the placeholders of a text, from left to right. -/
def numbers (s : String) : List Nat := numbersOf s.toList

/-! ## Characters -/

theorem filterMap_number?_map_char (cs : List Char) :
    (cs.map Piece.char).filterMap Piece.number? = [] := by
  induction cs with
  | nil => rfl
  | cons c cs ih => rw [List.map_cons, List.filterMap_cons_none rfl, ih]

theorem numbersOf_eq (cs : List Char) :
    numbersOf cs = (Piece.scan cs).2.filterMap Piece.number? := by
  show ((leadingDigits cs).map Piece.char ++ (Piece.scan cs).2).filterMap Piece.number? = _
  rw [List.filterMap_append, filterMap_number?_map_char, List.nil_append]

@[simp] theorem leadingDigits_nil : leadingDigits [] = [] := rfl

namespace Piece

theorem scan_cons_digit {c : Char} (hc : Text.isDigit c = true) (cs : List Char) :
    scan (c :: cs) = (c :: leadingDigits cs, (scan cs).2) := by
  simp [scan, hc, leadingDigits]

theorem scan_cons_dollar {cs : List Char} (h : leadingDigits cs ≠ []) :
    scan ('$' :: cs) = ([], placeholder (leadingDigits cs) :: (scan cs).2) := by
  have hdigit : Text.isDigit '$' = false := by decide
  have hne : (scan cs).1 ≠ [] := h
  simp [scan, hdigit, hne, leadingDigits]

theorem scan_cons_char {c : Char} {cs : List Char} (hc : Text.isDigit c = false)
    (h : c = '$' → leadingDigits cs = []) :
    scan (c :: cs) = ([], char c :: (leadingDigits cs).map char ++ (scan cs).2) := by
  simpa [scan, hc, leadingDigits] using h

end Piece

theorem leadingDigits_cons_digit {c : Char} (hc : Text.isDigit c = true) (cs : List Char) :
    leadingDigits (c :: cs) = c :: leadingDigits cs := by
  rw [leadingDigits, Piece.scan_cons_digit hc]

theorem leadingDigits_cons_of_not_digit {c : Char} (hc : Text.isDigit c = false)
    (cs : List Char) : leadingDigits (c :: cs) = [] := by
  rw [leadingDigits, Piece.scan]
  simp only [hc, Bool.false_eq_true, if_false]
  split <;> rfl

/-- A character that is no dollar sign adds no placeholder. -/
theorem numbersOf_cons_of_ne {c : Char} (hc : c ≠ '$') (cs : List Char) :
    numbersOf (c :: cs) = numbersOf cs := by
  rw [numbersOf_eq, numbersOf_eq cs]
  by_cases hdigit : Text.isDigit c = true
  · rw [Piece.scan_cons_digit hdigit]
  · rw [Bool.not_eq_true] at hdigit
    rw [Piece.scan_cons_char hdigit fun h ↦ absurd h hc, List.filterMap_append, ← List.map_cons,
      filterMap_number?_map_char, List.nil_append]

/-- A dollar sign makes a placeholder of the digits behind it. -/
theorem numbersOf_cons_dollar {cs : List Char} (h : leadingDigits cs ≠ []) :
    numbersOf ('$' :: cs) = Text.digitsValue (leadingDigits cs) :: numbersOf cs := by
  rw [numbersOf_eq, numbersOf_eq cs, Piece.scan_cons_dollar h]
  rfl

/-- A dollar sign without digits behind it makes none. -/
theorem numbersOf_cons_lone {cs : List Char} (h : leadingDigits cs = []) :
    numbersOf ('$' :: cs) = numbersOf cs := by
  rw [numbersOf_eq, numbersOf_eq cs, Piece.scan_cons_char (by decide) fun _ ↦ h, h]
  rfl

/-- A text without dollar signs in front of another adds no placeholder. -/
theorem numbersOf_append_of_no_dollar {cs : List Char} (h : '$' ∉ cs) (ds : List Char) :
    numbersOf (cs ++ ds) = numbersOf ds := by
  induction cs with
  | nil => rfl
  | cons c cs ih =>
    rw [List.mem_cons, not_or] at h
    rw [List.cons_append, numbersOf_cons_of_ne (Ne.symm h.1), ih h.2]

/-! ## Digits -/

theorem leadingDigits_digits_append {ds : List Char} (hds : ∀ c ∈ ds, Text.isDigit c = true)
    (cs : List Char) : leadingDigits (ds ++ cs) = ds ++ leadingDigits cs := by
  induction ds with
  | nil => rfl
  | cons d ds ih =>
    obtain ⟨hd, hds⟩ := List.forall_mem_cons.mp hds
    rw [List.cons_append, leadingDigits_cons_digit hd, ih hds, List.cons_append]

theorem leadingDigits_of_digits {ds : List Char} (hds : ∀ c ∈ ds, Text.isDigit c = true)
    {cs : List Char} (hcs : leadingDigits cs = []) : leadingDigits (ds ++ cs) = ds := by
  rw [leadingDigits_digits_append hds, hcs, List.append_nil]

theorem ne_dollar_of_isDigit {c : Char} (h : Text.isDigit c = true) : c ≠ '$' := by
  rintro rfl
  exact absurd h (by decide)

theorem no_dollar_of_digits {ds : List Char} (hds : ∀ c ∈ ds, Text.isDigit c = true) :
    '$' ∉ ds := fun h ↦ ne_dollar_of_isDigit (hds _ h) rfl

theorem isDigit_of_mem_leadingDigits {cs : List Char} :
    ∀ c ∈ leadingDigits cs, Text.isDigit c = true := by
  induction cs with
  | nil => simp
  | cons c cs ih =>
    by_cases hc : Text.isDigit c = true
    · rw [leadingDigits_cons_digit hc]
      exact List.forall_mem_cons.mpr ⟨hc, ih⟩
    · rw [Bool.not_eq_true] at hc
      rw [leadingDigits_cons_of_not_digit hc]
      simp

/-- Digits alone are no placeholder. -/
theorem numbersOf_leadingDigits (cs : List Char) : numbersOf (leadingDigits cs) = [] := by
  have hdigits := no_dollar_of_digits (@isDigit_of_mem_leadingDigits cs)
  have hnone := numbersOf_append_of_no_dollar hdigits []
  rwa [List.append_nil] at hnone

/-! ## Joined texts -/

/-- Of what follows a text, only the digits right behind it can belong to its own. -/
theorem leadingDigits_append_leadingDigits (cs ds : List Char) :
    leadingDigits (cs ++ leadingDigits ds) = leadingDigits (cs ++ ds) := by
  induction cs with
  | nil =>
    have hlead := leadingDigits_of_digits (@isDigit_of_mem_leadingDigits ds) leadingDigits_nil
    rwa [List.append_nil] at hlead
  | cons c cs ih =>
    rw [List.cons_append, List.cons_append]
    cases hc : Text.isDigit c with
    | true => rw [leadingDigits_cons_digit hc, leadingDigits_cons_digit hc, ih]
    | false => rw [leadingDigits_cons_of_not_digit hc, leadingDigits_cons_of_not_digit hc]

theorem leadingDigits_append {cs ds : List Char} (h : leadingDigits ds = []) :
    leadingDigits (cs ++ ds) = leadingDigits cs := by
  rw [← leadingDigits_append_leadingDigits, h, List.append_nil]

/-- Joined texts have the numbers of both, where the first goes on with the digits that the second
starts with. -/
theorem numbersOf_append_leadingDigits (cs ds : List Char) :
    numbersOf (cs ++ ds) = numbersOf (cs ++ leadingDigits ds) ++ numbersOf ds := by
  induction cs with
  | nil => rw [List.nil_append, List.nil_append, numbersOf_leadingDigits, List.nil_append]
  | cons c cs ih =>
    have hlead := leadingDigits_append_leadingDigits cs ds
    rw [List.cons_append, List.cons_append]
    by_cases hc : c = '$'
    · subst hc
      by_cases hdigits : leadingDigits (cs ++ ds) = []
      · rw [numbersOf_cons_lone hdigits, numbersOf_cons_lone (hlead.trans hdigits), ih]
      · rw [numbersOf_cons_dollar hdigits, numbersOf_cons_dollar (hlead ▸ hdigits), hlead, ih,
          List.cons_append]
    · rw [numbersOf_cons_of_ne hc, numbersOf_cons_of_ne hc, ih]

/-- What does not start with a digit continues no placeholder. -/
theorem numbersOf_append {cs ds : List Char} (h : leadingDigits ds = []) :
    numbersOf (cs ++ ds) = numbersOf cs ++ numbersOf ds := by
  rw [numbersOf_append_leadingDigits, h, List.append_nil]

/-! ## Numbers as they are written -/

/-- A decimal digit of ASCII has the value that its code says. -/
theorem digit?_of_isDigit {c : Char} (h : c.isDigit = true) :
    Text.digit? c = some (c.toNat - '0'.toNat) := by
  obtain ⟨hlow, hhigh⟩ := Char.isDigit_iff_toNat.mp h
  have hrun : (decide (0x30 ≤ c.toNat) && decide (c.toNat < 0x30 + 10)) = true := by
    have h0 : '0'.toNat = 48 := rfl
    have h9 : '9'.toNat = 57 := rfl
    simp only [Bool.and_eq_true, decide_eq_true_eq]
    omega
  rw [Text.digit?, Text.digitZeros, List.find?_cons, hrun]
  rfl

theorem digitsValue_eq_ofDigitChars {ds : List Char} (h : ∀ c ∈ ds, c.isDigit = true) :
    Text.digitsValue ds = Nat.ofDigitChars 10 ds 0 := by
  -- both folds go on alike from any number read so far
  have hfold (n : Nat) : ds.foldl (fun n c ↦ 10 * n + (Text.digit? c).getD 0) n =
      Nat.ofDigitChars 10 ds n := by
    induction ds generalizing n with
    | nil => simp
    | cons c ds ih =>
      obtain ⟨hc, hds⟩ := List.forall_mem_cons.mp h
      rw [List.foldl_cons, Nat.ofDigitChars_cons, digit?_of_isDigit hc, ih hds]
      rfl
  exact hfold 0

theorem text_isDigit_of_isDigit {c : Char} (h : c.isDigit = true) : Text.isDigit c = true := by
  rw [Text.isDigit, digit?_of_isDigit h]
  rfl

theorem isDigit_of_mem_toString (n : Nat) : ∀ c ∈ (toString n).toList, c.isDigit = true := by
  intro c hc
  rw [Nat.toString_eq_repr, Nat.toList_repr] at hc
  exact Nat.isDigit_of_mem_toDigits (by decide) (by decide) hc

theorem text_isDigit_of_mem_toString (n : Nat) :
    ∀ c ∈ (toString n).toList, Text.isDigit c = true := fun c hc ↦
  text_isDigit_of_isDigit (isDigit_of_mem_toString n c hc)

/-- A written number is read back. -/
theorem digitsValue_toString (n : Nat) : Text.digitsValue (toString n).toList = n := by
  rw [digitsValue_eq_ofDigitChars (isDigit_of_mem_toString n), Nat.toString_eq_repr,
    Nat.toList_repr, Nat.ofDigitChars_ten_toDigits]

theorem toList_toString_ne_nil (n : Nat) : (toString n).toList ≠ [] := by
  rw [Nat.toString_eq_repr, Nat.toList_repr]
  exact Nat.toDigits_ne_nil

theorem numbersOf_dollar_append {ds : List Char} (hne : ds ≠ [])
    (hds : ∀ c ∈ ds, Text.isDigit c = true) (cs : List Char) :
    numbersOf ('$' :: (ds ++ cs)) =
      Text.digitsValue (ds ++ leadingDigits cs) :: numbersOf cs := by
  have hlead := leadingDigits_digits_append hds cs
  rw [numbersOf_cons_dollar (by rw [hlead]; exact List.append_ne_nil_of_left_ne_nil hne _), hlead,
    numbersOf_append_of_no_dollar (no_dollar_of_digits hds)]

theorem numbersOf_dollar (n : Nat) {cs : List Char} (h : leadingDigits cs = []) :
    numbersOf ('$' :: ((toString n).toList ++ cs)) = n :: numbersOf cs := by
  rw [numbersOf_dollar_append (toList_toString_ne_nil n) (text_isDigit_of_mem_toString n), h,
    List.append_nil, digitsValue_toString]

end Rowmap.Sql
