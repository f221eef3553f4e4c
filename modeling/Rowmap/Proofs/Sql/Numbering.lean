import Rowmap.Proofs.Sql.Numbers
import Rowmap.Sql.Joined

/-!
# Numbering the placeholders of joined texts

What joining, quoting and shifting do to the numbers of a text. A text that is put in front of
others, or behind them, adds no number when it opens or closes them; a separator does both.

A numbering says which lists of numbers count as those of so many values after so many others. Two
are of interest: each number at least once, as hand-written SQL has them, and each exactly once and
in order.
-/

namespace Rowmap.Sql

/-! ## Texts around texts -/

@[simp] theorem numbers_empty : numbers "" = [] := rfl

theorem numbers_append {s t : String} (h : leadingDigits t.toList = []) :
    numbers (s ++ t) = numbers s ++ numbers t := by
  rw [numbers, String.toList_append, numbersOf_append h]
  rfl

/-- A text that adds no number in front of another. -/
def Opens (pre : String) : Prop := ∀ s, numbers (pre ++ s) = numbers s

/-- A text that adds no number behind another. -/
def Closes (post : String) : Prop := ∀ s, numbers (s ++ post) = numbers s

/-- A text that keeps the numbers of its two sides apart. -/
structure Separates (sep : String) : Prop where
  opens : Opens sep
  start : ∀ s, leadingDigits (sep ++ s).toList = []

theorem Opens.numbers_eq {pre : String} (h : Opens pre) : numbers pre = [] := by
  simpa using h ""

theorem Closes.numbers_eq {post : String} (h : Closes post) : numbers post = [] := by
  simpa using h ""

theorem opens_of_no_dollar {pre : String} (h : '$' ∉ pre.toList) : Opens pre := fun s ↦ by
  rw [numbers, String.toList_append, numbersOf_append_of_no_dollar h]
  rfl

theorem numbers_of_no_dollar {s : String} (h : '$' ∉ s.toList) : numbers s = [] :=
  (opens_of_no_dollar h).numbers_eq

theorem closes_of_start {post : String} (hnumbers : numbers post = [])
    (hstart : leadingDigits post.toList = []) : Closes post := fun s ↦ by
  rw [numbers_append hstart, hnumbers, List.append_nil]

theorem closes_empty : Closes "" := fun s ↦ by simp

namespace Separates

variable {sep : String}

theorem of_toList {c : Char} {cs : List Char} (h : sep.toList = c :: cs)
    (hc : Text.isDigit c = false) (hdollar : '$' ∉ c :: cs) : Separates sep where
  opens := opens_of_no_dollar (by rwa [h])
  start s := by rw [String.toList_append, h, List.cons_append, leadingDigits_cons_of_not_digit hc]

theorem blank : Separates " " := .of_toList rfl (by decide) (by decide)

theorem comma : Separates ", " := .of_toList rfl (by decide) (by decide)

theorem connective (c : Connective) : Separates (" " ++ c.label ++ " ") := by
  cases c
  · exact .of_toList rfl (by decide) (by decide)
  · exact .of_toList rfl (by decide) (by decide)

theorem opening : Separates " (" := .of_toList rfl (by decide) (by decide)

theorem numbers_between (h : Separates sep) (s t : String) :
    numbers (s ++ (sep ++ t)) = numbers s ++ numbers t := by
  rw [numbers_append (h.start t), h.opens t]

theorem opens_behind (h : Separates sep) {s : String} (hs : numbers s = []) :
    Opens (s ++ sep) := fun t ↦ by
  rw [String.append_assoc, h.numbers_between, hs, List.nil_append]

theorem closes_before (h : Separates sep) {s : String} (hs : numbers s = []) :
    Closes (sep ++ s) := fun t ↦ by
  rw [h.numbers_between, hs, List.append_nil]

theorem numbers_intercalate (h : Separates sep) (texts : List String) :
    numbers (sep.intercalate texts) = texts.flatMap numbers := by
  induction texts with
  | nil => simp
  | cons text texts ih =>
    cases texts with
    | nil => simp
    | cons text' texts =>
      rw [String.intercalate_cons_cons, String.append_assoc, h.numbers_between, ih]
      rfl

end Separates

theorem flatMap_numbers_filter (texts : List String) :
    (texts.filter (!·.isEmpty)).flatMap numbers = texts.flatMap numbers := by
  induction texts with
  | nil => rfl
  | cons text texts ih =>
    by_cases h : text = ""
    · simp [h, ih]
    · rw [List.filter_cons_of_pos (by simpa using h), List.flatMap_cons, List.flatMap_cons, ih]

theorem numbers_words (texts : List String) :
    numbers (words texts) = texts.flatMap numbers := by
  rw [words, Separates.blank.numbers_intercalate, flatMap_numbers_filter]

theorem numbers_enclosed {o c : String} (ho : Opens o) (hc : Closes c) (s : String) :
    numbers (o ++ s ++ c) = numbers s := by
  rw [hc, ho]

theorem opens_parenthesis : Opens "(" := opens_of_no_dollar (by decide)

theorem closes_parenthesis : Closes ")" :=
  closes_of_start (numbers_of_no_dollar (by decide)) (by decide)

theorem numbers_parenthesized (s : String) : numbers ("(" ++ s ++ ")") = numbers s :=
  numbers_enclosed opens_parenthesis closes_parenthesis s

/-! ## Quoting -/

section Quoting

variable {marks : List Char} (hdigit : ∀ c ∈ marks, Text.isDigit c = false) (hdollar : '$' ∉ marks)

include hdigit

theorem leadingDigits_doubled (cs : List Char) :
    leadingDigits (doubled marks cs) = leadingDigits cs := by
  induction cs with
  | nil => rfl
  | cons c cs ih =>
    rw [doubled, List.flatMap_cons]
    by_cases hc : marks.contains c = true
    · have hc' := hdigit c (by simpa using hc)
      rw [if_pos hc, List.cons_append, leadingDigits_cons_of_not_digit hc',
        leadingDigits_cons_of_not_digit hc']
    · rw [if_neg hc, List.singleton_append]
      by_cases hd : Text.isDigit c = true
      · rw [leadingDigits_cons_digit hd, leadingDigits_cons_digit hd]
        exact congrArg (c :: ·) ih
      · rw [Bool.not_eq_true] at hd
        rw [leadingDigits_cons_of_not_digit hd, leadingDigits_cons_of_not_digit hd]

include hdollar

theorem numbersOf_doubled (cs : List Char) : numbersOf (doubled marks cs) = numbersOf cs := by
  induction cs with
  | nil => rfl
  | cons c cs ih =>
    have hlead : leadingDigits (doubled marks cs) = leadingDigits cs :=
      leadingDigits_doubled hdigit cs
    rw [doubled, List.flatMap_cons]
    by_cases hc : c = '$'
    · subst hc
      -- the dollar sign is no mark, and the same digits follow it
      rw [if_neg (by simpa using hdollar), List.singleton_append]
      by_cases hcs : leadingDigits cs = []
      · rw [numbersOf_cons_lone hcs]
        exact (numbersOf_cons_lone (hlead.trans hcs)).trans ih
      · have hcons := @numbersOf_cons_dollar (doubled marks cs) (by rwa [hlead])
        rw [hlead, ih] at hcons
        rw [numbersOf_cons_dollar hcs]
        exact hcons
    · rw [numbersOf_cons_of_ne hc, ← ih]
      split
      · rw [List.cons_append, numbersOf_cons_of_ne hc, List.singleton_append,
          numbersOf_cons_of_ne hc]
        rfl
      · rw [List.singleton_append, numbersOf_cons_of_ne hc]
        rfl

end Quoting

theorem numbers_quoteIdentifier (name : String) :
    numbers (quoteIdentifier name) = numbers name := by
  have hmark : '"' ≠ '$' := by decide
  have hdigit : ∀ c ∈ ['"', '%'], Text.isDigit c = false := by
    rw [List.forall_mem_cons, List.forall_mem_singleton]
    exact ⟨rfl, rfl⟩
  rw [quoteIdentifier, between, enclosed, numbers, String.toList_ofList, List.cons_append,
    numbersOf_cons_of_ne hmark, numbersOf_append (by decide),
    numbersOf_doubled hdigit (by decide)]
  exact List.append_nil _

/-! ## Placeholders -/

theorem numbers_placeholder (n : Nat) : numbers (placeholder n) = [n] := by
  have h := @numbersOf_dollar n [] rfl
  rw [List.append_nil] at h
  rw [placeholder, numbers, String.toList_append]
  exact h

theorem numbers_placeholders (b n : Nat) :
    numbers (placeholders b n) = List.range' (b + 1) n := by
  have hmap : ((List.range n).map fun (i : Nat) ↦ placeholder ((b : Int) + i + 1)) =
      (List.range' (b + 1) n).map fun (k : Nat) ↦ placeholder k := by
    rw [List.range'_eq_map_range, List.map_map]
    refine List.map_congr_left fun i _ ↦ congrArg placeholder ?_
    show (b : Int) + i + 1 = ((b + 1 + i : Nat) : Int)
    omega
  rw [placeholders, hmap, Separates.comma.numbers_intercalate, List.flatMap_map]
  simp only [numbers_placeholder]
  exact List.flatMap_singleton' _

/-! ## Shifting -/

theorem flatMap_shifted_map_char (b : Int) (cs : List Char) :
    (cs.map Piece.char).flatMap (Piece.shifted b) = cs := by
  rw [List.flatMap_map]
  exact List.flatMap_singleton' cs

theorem shifted_scan (b : Nat) (cs : List Char) :
    leadingDigits ((Piece.scan cs).2.flatMap (Piece.shifted b)) = [] ∧
      numbersOf ((Piece.scan cs).2.flatMap (Piece.shifted b)) =
        (numbersOf cs).map (· + b) := by
  induction cs with
  | nil => exact ⟨rfl, rfl⟩
  | cons c cs ih =>
    obtain ⟨hlead, hnumbers⟩ := ih
    by_cases hc : Text.isDigit c = true
    · rw [Piece.scan_cons_digit hc, numbersOf_cons_of_ne (ne_dollar_of_isDigit hc)]
      exact ⟨hlead, hnumbers⟩
    · rw [Bool.not_eq_true] at hc
      by_cases hplace : c = '$' ∧ leadingDigits cs ≠ []
      · obtain ⟨rfl, hcs⟩ := hplace
        rw [Piece.scan_cons_dollar hcs, numbersOf_cons_dollar hcs, List.flatMap_cons]
        refine ⟨leadingDigits_cons_of_not_digit (by decide) _, ?_⟩
        have hshift := numbersOf_dollar (Text.digitsValue (leadingDigits cs) + b) hlead
        rw [hnumbers] at hshift
        exact hshift
      · have himp : c = '$' → leadingDigits cs = [] := fun h ↦ by
          by_contra hne
          exact hplace ⟨h, hne⟩
        have hdigits := @isDigit_of_mem_leadingDigits cs
        -- no placeholder: the character and the digits behind it stay as they are
        rw [Piece.scan_cons_char hc himp, List.flatMap_append, List.flatMap_cons,
          flatMap_shifted_map_char]
        refine ⟨leadingDigits_cons_of_not_digit hc _, ?_⟩
        by_cases hdollar : c = '$'
        · have hcs := himp hdollar
          rw [hdollar, numbersOf_cons_lone hcs, hcs, ← hnumbers]
          exact numbersOf_cons_lone hlead
        · rw [numbersOf_cons_of_ne hdollar, ← hnumbers]
          exact (numbersOf_cons_of_ne hdollar _).trans
            (numbersOf_append_of_no_dollar (no_dollar_of_digits hdigits) _)

/-- **Shifting adds to every number.** -/
theorem numbers_shift (b : Nat) (s : String) :
    numbers (shift b s) = (numbers s).map (· + b) := by
  rw [shift]
  split
  · obtain rfl : b = 0 := by omega
    simp
  · have hdigits := @isDigit_of_mem_leadingDigits s.toList
    rw [numbers, String.toList_ofList, Piece.ofChars]
    -- digits at the very start belong to no placeholder
    show numbersOf (((leadingDigits s.toList).map Piece.char ++ _).flatMap _) = _
    rw [List.flatMap_append, flatMap_shifted_map_char,
      numbersOf_append_of_no_dollar (no_dollar_of_digits hdigits)]
    exact (shifted_scan b s.toList).2

/-! ## Numberings -/

/-- Which numbers count as those of so many values after so many others. -/
structure Numbering where
  /-- Whether they do, after `b` values and for `n` of them. -/
  holds : (b n : Nat) → List Nat → Prop
  holds_range : ∀ b n, holds b n (List.range' (b + 1) n)
  holds_append : ∀ {b n m ks ls}, holds b n ks → holds (b + n) m ls → holds b (n + m) (ks ++ ls)
  holds_shift : ∀ {n ks} b, holds 0 n ks → holds b n (ks.map (· + b))

namespace Numbering

/-- Each number at least once. -/
def covering : Numbering where
  holds b n ks := ∀ k, k ∈ ks ↔ b < k ∧ k ≤ b + n
  holds_range b n k := by
    rw [List.mem_range'_1]
    omega
  holds_append {b n m ks ls} hks hls k := by
    rw [List.mem_append, hks, hls]
    omega
  holds_shift {n ks} b h k := by
    simp only [List.mem_map, h]
    constructor
    · rintro ⟨j, hj, rfl⟩
      omega
    · intro hk
      exact ⟨k - b, by omega, by omega⟩

/-- Each number exactly once, in order. -/
def inOrder : Numbering where
  holds b n ks := ks = List.range' (b + 1) n
  holds_range _ _ := rfl
  holds_append {b n m ks ls} hks hls := by
    rw [hks, hls, ← List.range'_append_1]
    congr 2
    omega
  holds_shift {n ks} b h := by
    have hcomm : (fun k : Nat ↦ k + b) = fun k ↦ b + k := funext fun k ↦ Nat.add_comm k b
    rw [h, hcomm, List.map_add_range', Nat.zero_add]

variable (d : Numbering)

theorem holds_nil (b : Nat) : d.holds b 0 [] := d.holds_range b 0

end Numbering

end Rowmap.Sql
