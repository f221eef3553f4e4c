import Rowmap.Proofs.Sql.Numbering
import Mathlib.Data.Nat.Digits.Defs

/-!
# Shifting joined texts

A text is its pieces, and joining texts joins their pieces unless digits come to stand behind a
dollar sign. So what opens or closes texts without adding numbers is left alone by shifting, and
shifting goes to the parts of a joined text one by one. Shifting twice is shifting once by the sum,
however the placeholders were written before.

Whether a text can be shifted at all depends on the digits of its placeholders, so it goes to the
parts as well.
-/

namespace Rowmap.Sql

/-! ## Pieces -/

namespace Piece

theorem ofChars_eq (cs : List Char) :
    ofChars cs = (leadingDigits cs).map char ++ (scan cs).2 := rfl

/-- A character is a piece of its own unless it starts a placeholder. -/
theorem ofChars_cons {c : Char} {cs : List Char} (h : c = '$' → leadingDigits cs = []) :
    ofChars (c :: cs) = char c :: ofChars cs := by
  rw [ofChars_eq, ofChars_eq cs]
  by_cases hc : Text.isDigit c = true
  · rw [leadingDigits_cons_digit hc, scan_cons_digit hc]
    rfl
  · rw [Bool.not_eq_true] at hc
    rw [leadingDigits_cons_of_not_digit hc, scan_cons_char hc h]
    rfl

theorem ofChars_cons_dollar {cs : List Char} (h : leadingDigits cs ≠ []) :
    ofChars ('$' :: cs) = placeholder (leadingDigits cs) :: (scan cs).2 := by
  rw [ofChars_eq, leadingDigits_cons_of_not_digit (by decide), scan_cons_dollar h]
  rfl

theorem ofChars_ne_nil {cs : List Char} (h : cs ≠ []) : ofChars cs ≠ [] := by
  obtain ⟨c, cs, rfl⟩ := List.exists_cons_of_ne_nil h
  by_cases hplace : c = '$' ∧ leadingDigits cs ≠ []
  · obtain ⟨rfl, hcs⟩ := hplace
    rw [ofChars_cons_dollar hcs]
    exact List.cons_ne_nil _ _
  · rw [ofChars_cons (by tauto)]
    exact List.cons_ne_nil _ _

theorem shifted_ne_nil (b : Int) (p : Piece) : p.shifted b ≠ [] := by
  cases p <;> exact List.cons_ne_nil _ _

/-- **Joined texts** are the pieces of both, unless the second continues a placeholder. -/
theorem ofChars_append {cs ds : List Char} (h : leadingDigits ds = []) :
    ofChars (cs ++ ds) = ofChars cs ++ ofChars ds := by
  induction cs with
  | nil => rfl
  | cons c cs ih =>
    have hlead := @leadingDigits_append cs ds h
    rw [List.cons_append]
    by_cases hplace : c = '$' ∧ leadingDigits cs ≠ []
    · obtain ⟨rfl, hcs⟩ := hplace
      -- the digits are the same on both sides, and so are the pieces behind them
      have hrest : (scan (cs ++ ds)).2 = (scan cs).2 ++ ofChars ds := by
        rw [ofChars_eq, ofChars_eq cs, hlead, List.append_assoc] at ih
        exact List.append_cancel_left ih
      rw [ofChars_cons_dollar (by rwa [hlead]), ofChars_cons_dollar hcs, hlead, hrest]
      rfl
    · have hlone : c = '$' → leadingDigits cs = [] := fun hc ↦ by
        by_contra hcs
        exact hplace ⟨hc, hcs⟩
      rw [ofChars_cons fun hc ↦ hlead.trans (hlone hc), ofChars_cons hlone, ih]
      rfl

/-- A text to which no number found belongs is its characters, whatever follows. -/
theorem ofChars_append_of_no_numbers {cs ds : List Char}
    (h : numbersOf (cs ++ leadingDigits ds) = []) :
    ofChars (cs ++ ds) = cs.map char ++ ofChars ds := by
  induction cs with
  | nil => rfl
  | cons c cs ih =>
    have hlead := leadingDigits_append_leadingDigits cs ds
    have hlone : c = '$' → leadingDigits (cs ++ ds) = [] := by
      rintro rfl
      -- otherwise the dollar sign would add the number of these digits
      by_contra hdigits
      rw [List.cons_append, numbersOf_cons_dollar (hlead ▸ hdigits)] at h
      exact List.cons_ne_nil _ _ h
    have hrest : numbersOf (cs ++ leadingDigits ds) = [] := by
      by_cases hc : c = '$'
      · rwa [List.cons_append, hc, numbersOf_cons_lone (hlead.trans (hlone hc))] at h
      · rwa [List.cons_append, numbersOf_cons_of_ne hc] at h
    rw [List.cons_append, ofChars_cons hlone, ih hrest]
    rfl

theorem ofChars_append_of_no_dollar {cs : List Char} (h : '$' ∉ cs) (ds : List Char) :
    ofChars (cs ++ ds) = cs.map char ++ ofChars ds :=
  ofChars_append_of_no_numbers
    ((numbersOf_append_of_no_dollar h _).trans (numbersOf_leadingDigits ds))

theorem ofChars_append_of_opens {cs : List Char} (h : ∀ ds, numbersOf (cs ++ ds) = numbersOf ds)
    (ds : List Char) : ofChars (cs ++ ds) = cs.map char ++ ofChars ds :=
  ofChars_append_of_no_numbers ((h _).trans (numbersOf_leadingDigits ds))

theorem ofChars_of_no_numbers {cs : List Char} (h : numbersOf cs = []) :
    ofChars cs = cs.map char := by
  have happend := @ofChars_append_of_no_numbers cs [] (by rwa [leadingDigits_nil, List.append_nil])
  rw [List.append_nil] at happend
  rw [happend]
  exact List.append_nil _

theorem ofChars_dollar_append {ds cs : List Char} (hne : ds ≠ [])
    (hds : ∀ c ∈ ds, Text.isDigit c = true) (hcs : leadingDigits cs = []) :
    ofChars ('$' :: (ds ++ cs)) = placeholder ds :: ofChars cs := by
  have hlead := leadingDigits_of_digits hds hcs
  have hrest : (scan (ds ++ cs)).2 = ofChars cs := by
    have happend := ofChars_append_of_no_dollar (no_dollar_of_digits hds) cs
    rw [ofChars_eq, hlead] at happend
    exact List.append_cancel_left happend
  rw [ofChars_cons_dollar (by rwa [hlead]), hlead, hrest]

/-- A placeholder after so many more bound parameters, as a piece. -/
def moved (k : Nat) : Piece → Piece
  | .char c => .char c
  | .placeholder digits => .placeholder (toString (Text.digitsValue digits + k)).toList

theorem shifted_moved (b k : Nat) (p : Piece) :
    (p.moved k).shifted b = p.shifted (k + b : Nat) := by
  cases p with
  | char c => rfl
  | placeholder digits =>
    rw [moved, shifted, shifted, digitsValue_toString]
    congr 3
    omega

theorem ofChars_shifted_scan (k : Nat) (cs : List Char) :
    ofChars ((scan cs).2.flatMap (shifted k)) = (scan cs).2.map (moved k) := by
  induction cs with
  | nil => rfl
  | cons c cs ih =>
    by_cases hc : Text.isDigit c = true
    · rw [scan_cons_digit hc]
      exact ih
    · rw [Bool.not_eq_true] at hc
      by_cases hplace : c = '$' ∧ leadingDigits cs ≠ []
      · obtain ⟨rfl, hcs⟩ := hplace
        rw [scan_cons_dollar hcs, List.flatMap_cons, List.map_cons, ← ih]
        exact ofChars_dollar_append (toList_toString_ne_nil _) (text_isDigit_of_mem_toString _)
          (shifted_scan k cs).1
      · have hlone : c = '$' → leadingDigits cs = [] := fun h ↦ by
          by_contra hcs
          exact hplace ⟨h, hcs⟩
        have hdigits := no_dollar_of_digits (@isDigit_of_mem_leadingDigits cs)
        -- no placeholder: the character and the digits behind it stay as they are
        rw [scan_cons_char hc hlone, List.flatMap_append, List.flatMap_cons,
          flatMap_shifted_map_char, List.map_append, List.map_cons, ← ih]
        have hchars :
            ((leadingDigits cs).map char).map (moved k) = (leadingDigits cs).map char := by
          rw [List.map_map]
          rfl
        rw [hchars]
        show ofChars (c :: (leadingDigits cs ++ _)) = char c :: ((leadingDigits cs).map char ++ _)
        rw [← ofChars_append_of_no_dollar hdigits]
        refine ofChars_cons fun h ↦ ?_
        rw [hlone h]
        exact (shifted_scan k cs).1

theorem ofChars_flatMap_shifted (k : Nat) (cs : List Char) :
    ofChars ((ofChars cs).flatMap (shifted k)) = (ofChars cs).map (moved k) := by
  have hdigits := no_dollar_of_digits (@isDigit_of_mem_leadingDigits cs)
  rw [ofChars_eq cs, List.flatMap_append, flatMap_shifted_map_char, List.map_append,
    ofChars_append_of_no_dollar hdigits, ofChars_shifted_scan, List.map_map]
  rfl

end Piece

/-! ## Texts -/

def pieces (s : String) : List Piece := Piece.ofChars s.toList

/-- Two texts whose pieces are those of the joined text. -/
def Joins (s t : String) : Prop := pieces (s ++ t) = pieces s ++ pieces t

theorem joins_of_start {s t : String} (h : leadingDigits t.toList = []) : Joins s t := by
  rw [Joins, pieces, String.toList_append, Piece.ofChars_append h]
  rfl

theorem pieces_of_plain {s : String} (h : numbers s = []) : pieces s = s.toList.map Piece.char :=
  Piece.ofChars_of_no_numbers h

theorem Opens.joins {pre : String} (h : Opens pre) (s : String) : Joins pre s := by
  have hchars (ds : List Char) : numbersOf (pre.toList ++ ds) = numbersOf ds := by
    have hds := h (String.ofList ds)
    rwa [numbers, numbers, String.toList_append, String.toList_ofList] at hds
  rw [Joins, pieces_of_plain h.numbers_eq, pieces, String.toList_append,
    Piece.ofChars_append_of_opens hchars]
  rfl

theorem Closes.start {post : String} (h : Closes post) : leadingDigits post.toList = [] := by
  -- digits behind a lone dollar sign would be a placeholder
  by_contra hdigits
  have hadds := h "$"
  rw [numbers, String.toList_append, show "$".toList = ['$'] from rfl, List.singleton_append,
    numbersOf_cons_dollar hdigits] at hadds
  exact List.cons_ne_nil _ _ hadds

theorem Closes.joins {post : String} (h : Closes post) (s : String) : Joins s post :=
  joins_of_start h.start

variable {b k : Nat} {s t : String}

theorem toList_shift (hb : b ≠ 0) (s : String) :
    (shift b s).toList = (pieces s).flatMap (Piece.shifted b) := by
  rw [shift, if_neg (by omega), String.toList_ofList]
  rfl

theorem canShift_eq (hb : b ≠ 0) (s : String) :
    canShift b s = !(pieces s).any (Piece.isTooLong b) := by
  have hne : decide ((b : Int) = 0) = false := by simpa using hb
  rw [canShift, hne, Bool.false_or]
  rfl

theorem Joins.shift (h : Joins s t) : shift b (s ++ t) = shift b s ++ shift b t := by
  by_cases hb : b = 0
  · subst hb
    rfl
  · rw [← String.toList_inj, String.toList_append, toList_shift hb, toList_shift hb,
      toList_shift hb, h, List.flatMap_append]

theorem Joins.canShift (h : Joins s t) :
    canShift b (s ++ t) = (canShift b s && canShift b t) := by
  by_cases hb : b = 0
  · subst hb
    rfl
  · rw [canShift_eq hb, canShift_eq hb, canShift_eq hb, h, List.any_append, Bool.not_or]

/-- A text without numbers stays as it is. -/
theorem shift_of_plain (h : numbers s = []) : shift b s = s := by
  by_cases hb : b = 0
  · subst hb
    rfl
  · rw [← String.toList_inj, toList_shift hb, pieces_of_plain h, flatMap_shifted_map_char]

theorem canShift_of_plain (h : numbers s = []) : canShift b s = true := by
  by_cases hb : b = 0
  · subst hb
    rfl
  · rw [canShift_eq hb, pieces_of_plain h, List.any_map, Bool.not_eq_true', List.any_eq_false]
    exact fun _ _ ↦ Bool.false_ne_true

theorem Opens.shift {pre : String} (h : Opens pre) : shift b (pre ++ s) = pre ++ shift b s := by
  rw [(h.joins s).shift, shift_of_plain h.numbers_eq]

theorem Opens.canShift {pre : String} (h : Opens pre) :
    canShift b (pre ++ s) = canShift b s := by
  rw [(h.joins s).canShift, canShift_of_plain h.numbers_eq, Bool.true_and]

theorem Closes.shift {post : String} (h : Closes post) :
    shift b (s ++ post) = shift b s ++ post := by
  rw [(h.joins s).shift, shift_of_plain h.numbers_eq]

theorem Closes.canShift {post : String} (h : Closes post) :
    canShift b (s ++ post) = canShift b s := by
  rw [(h.joins s).canShift, canShift_of_plain h.numbers_eq, Bool.and_true]

theorem shift_enclosed {pre post : String} (hpre : Opens pre) (hpost : Closes post) :
    shift b (pre ++ s ++ post) = pre ++ shift b s ++ post := by
  rw [hpost.shift, hpre.shift]

theorem canShift_enclosed {pre post : String} (hpre : Opens pre) (hpost : Closes post) :
    canShift b (pre ++ s ++ post) = canShift b s := by
  rw [hpost.canShift, hpre.canShift]

namespace Separates

variable {sep : String}

theorem shift_between (h : Separates sep) (s t : String) :
    shift b (s ++ (sep ++ t)) = shift b s ++ (sep ++ shift b t) := by
  rw [(joins_of_start (h.start t)).shift, h.opens.shift]

theorem canShift_between (h : Separates sep) (s t : String) :
    canShift b (s ++ (sep ++ t)) = (canShift b s && canShift b t) := by
  rw [(joins_of_start (h.start t)).canShift, h.opens.canShift]

theorem shift_intercalate (h : Separates sep) (texts : List String) :
    shift b (sep.intercalate texts) = sep.intercalate (texts.map (shift b)) := by
  induction texts with
  | nil => exact shift_of_plain rfl
  | cons text texts ih =>
    cases texts with
    | nil => simp
    | cons text' texts =>
      rw [String.intercalate_cons_cons, String.append_assoc, h.shift_between, ih, List.map_cons,
        List.map_cons, List.map_cons, String.intercalate_cons_cons, String.append_assoc]

theorem canShift_intercalate (h : Separates sep) (texts : List String) :
    canShift b (sep.intercalate texts) = texts.all (canShift b) := by
  induction texts with
  | nil => exact canShift_of_plain rfl
  | cons text texts ih =>
    cases texts with
    | nil => simp
    | cons text' texts =>
      rw [String.intercalate_cons_cons, String.append_assoc, h.canShift_between, ih,
        List.all_cons, List.all_cons, List.all_cons]

end Separates

/-- Shifting neither makes a text empty nor fills an empty one. -/
theorem isEmpty_shift (b : Nat) (s : String) : (shift b s).isEmpty = s.isEmpty := by
  by_cases hb : b = 0
  · subst hb
    rfl
  by_cases hs : s = ""
  · rw [hs, shift_of_plain rfl]
  · have hpieces : pieces s ≠ [] := Piece.ofChars_ne_nil (by simpa using hs)
    obtain ⟨p, ps, hcons⟩ := List.exists_cons_of_ne_nil hpieces
    have hshift : shift b s ≠ "" := by
      rw [← String.toList_inj.ne, toList_shift hb, hcons, List.flatMap_cons]
      exact List.append_ne_nil_of_left_ne_nil (p.shifted_ne_nil b) _
    rw [Bool.eq_iff_iff, String.isEmpty_iff, String.isEmpty_iff]
    exact iff_of_false hshift hs

/-! ## Joined texts -/

theorem filter_map_shift (b : Nat) (texts : List String) :
    (texts.map (shift b)).filter (!·.isEmpty) = (texts.filter (!·.isEmpty)).map (shift b) := by
  rw [List.filter_map]
  congr 1
  refine List.filter_congr fun text _ ↦ ?_
  rw [Function.comp_apply, isEmpty_shift]

theorem all_filter_canShift (b : Nat) (texts : List String) :
    (texts.filter (!·.isEmpty)).all (canShift b) = texts.all (canShift b) := by
  induction texts with
  | nil => rfl
  | cons text texts ih =>
    by_cases h : text = ""
    · rw [List.filter_cons_of_neg (by simp [h]), ih, List.all_cons, h, canShift_of_plain rfl,
        Bool.true_and]
    · rw [List.filter_cons_of_pos (by simpa using h), List.all_cons, List.all_cons, ih]

theorem shift_words (b : Nat) (texts : List String) :
    shift b (words texts) = words (texts.map (shift b)) := by
  rw [words, Separates.blank.shift_intercalate, words, filter_map_shift]

theorem canShift_words (b : Nat) (texts : List String) :
    canShift b (words texts) = texts.all (canShift b) := by
  rw [words, Separates.blank.canShift_intercalate, all_filter_canShift]

theorem shift_joinParts (b : Nat) (parts : List String) (c : Connective) (siblings : Int) :
    shift b (joinParts parts c.label siblings) =
      joinParts (parts.map (shift b)) c.label siblings := by
  rw [joinParts, joinParts, filter_map_shift, List.length_map,
    ← (Separates.connective c).shift_intercalate]
  split
  · exact shift_enclosed opens_parenthesis closes_parenthesis
  · rfl

theorem canShift_joinParts (b : Nat) (parts : List String) (c : Connective) (siblings : Int) :
    canShift b (joinParts parts c.label siblings) = parts.all (canShift b) := by
  rw [joinParts, ← all_filter_canShift, ← (Separates.connective c).canShift_intercalate]
  split
  · exact canShift_enclosed opens_parenthesis closes_parenthesis
  · rfl

/-! ## Shifting twice -/

theorem pieces_shift (hk : k ≠ 0) (s : String) :
    pieces (shift k s) = (pieces s).map (Piece.moved k) := by
  rw [pieces, toList_shift hk]
  exact Piece.ofChars_flatMap_shifted k s.toList

/-- **Shifting twice** is shifting by the sum. -/
theorem shift_shift (b k : Nat) (s : String) : shift b (shift k s) = shift (k + b : Nat) s := by
  by_cases hk : k = 0
  · rw [hk, Nat.zero_add]
    rfl
  by_cases hb : b = 0
  · rw [hb]
    rfl
  have hmoved : (fun p : Piece ↦ (p.moved k).shifted b) = Piece.shifted (k + b : Nat) :=
    funext (Piece.shifted_moved b k)
  rw [← String.toList_inj, toList_shift hb, toList_shift (by omega), pieces_shift hk,
    List.flatMap_map, hmoved]

end Rowmap.Sql

namespace Rowmap.Text

theorem canWrite_iff (n : Nat) : canWrite n = true ↔ n < 10 ^ maxDigits := by
  have hsmall : 2 ^ 64 ≤ 10 ^ maxDigits :=
    (Nat.pow_le_pow_left (by decide) 64).trans (Nat.pow_le_pow_right (by decide) (by decide))
  rw [canWrite, Bool.or_eq_true, decide_eq_true_iff, decide_eq_true_iff, Int.natAbs_natCast,
    Nat.pow_eq, Nat.pow_eq]
  -- the power is too large to be computed
  generalize maxDigits = digits at hsmall ⊢
  exact ⟨fun h ↦ h.elim (lt_of_lt_of_le · hsmall) id, .inr⟩

theorem canWrite_of_le {m n : Nat} (hmn : m ≤ n) (h : canWrite n = true) : canWrite m = true := by
  rw [canWrite_iff] at h ⊢
  exact lt_of_le_of_lt hmn h

theorem length_toString_le {n : Nat} (h : canWrite n = true) :
    (toString n).toList.length ≤ maxDigits := by
  rw [Nat.toString_eq_repr, Nat.toList_repr]
  exact Nat.toDigits_length 10 n maxDigits (by decide) ((canWrite_iff n).mp h)

end Rowmap.Text

namespace Rowmap.Sql

variable {b k : Nat}

/-- A written number can be moved up when the larger one can be written. -/
theorem isTooLong_toString (b n : Nat) :
    Piece.isTooLong b (.placeholder (toString n).toList) = !Text.canWrite (n + b : Nat) := by
  rw [Piece.isTooLong, digitsValue_toString, ← Int.natCast_add]
  cases hwrite : Text.canWrite (n + b : Nat) with
  | false => simp
  | true =>
    have hlength := Text.length_toString_le (Text.canWrite_of_le (Nat.le_add_right n b) hwrite)
    simpa using hlength

theorem canShift_shift {s : String} (hk : canShift k s = true) :
    canShift b (shift k s) = canShift (k + b : Nat) s := by
  by_cases hk0 : k = 0
  · rw [hk0, Nat.zero_add]
    rfl
  by_cases hb : b = 0
  · rw [hb, Nat.add_zero, hk]
    rfl
  rw [canShift_eq hk0, Bool.not_eq_true', List.any_eq_false] at hk
  rw [canShift_eq hb, canShift_eq (by omega), pieces_shift hk0, List.any_map, Bool.not_inj_iff,
    Bool.eq_iff_iff, List.any_eq_true, List.any_eq_true]
  refine exists_congr fun p ↦ and_congr_right fun hp ↦ ?_
  cases p with
  | char c => rfl
  | placeholder digits =>
    have hlength : ¬Text.maxDigits < digits.length := fun h ↦
      hk _ hp (by rw [Piece.isTooLong, decide_eq_true h, Bool.true_or])
    rw [Function.comp_apply, Piece.moved, isTooLong_toString, Piece.isTooLong,
      decide_eq_false hlength, Bool.false_or, Nat.add_assoc]
    rfl

/-! ## Placeholders -/

theorem pieces_placeholder (n : Nat) :
    pieces (placeholder n) = [.placeholder (toString n).toList] := by
  have hpiece := @Piece.ofChars_dollar_append _ [] (toList_toString_ne_nil n)
    (text_isDigit_of_mem_toString n) rfl
  rw [List.append_nil] at hpiece
  rw [pieces, placeholder, String.toList_append]
  exact hpiece

theorem shift_placeholder (b n : Nat) : shift b (placeholder n) = placeholder (n + b : Nat) := by
  by_cases hb : b = 0
  · rw [hb]
    rfl
  · rw [← String.toList_inj, toList_shift hb, pieces_placeholder, List.flatMap_singleton,
      Piece.shifted, digitsValue_toString, ← Int.natCast_add, placeholder, String.toList_append]
    rfl

theorem canShift_placeholder (hb : b ≠ 0) (n : Nat) :
    canShift b (placeholder n) = Text.canWrite (n + b : Nat) := by
  rw [canShift_eq hb, pieces_placeholder, List.any_cons, List.any_nil, isTooLong_toString,
    Bool.or_false, Bool.not_not]

theorem placeholders_eq (b n : Nat) :
    placeholders b n =
      ", ".intercalate ((List.range n).map fun i ↦ placeholder (b + i + 1 : Nat)) := rfl

/-- Placeholders move up as they are numbered. -/
theorem shift_placeholders (b k n : Nat) :
    shift b (placeholders k n) = placeholders (k + b : Nat) n := by
  rw [placeholders_eq, placeholders_eq, Separates.comma.shift_intercalate, List.map_map]
  congr 1
  refine List.map_congr_left fun i _ ↦ ?_
  rw [Function.comp_apply, shift_placeholder]
  congr 2
  omega

theorem canShift_placeholders (b k n : Nat) :
    canShift b (placeholders k n) = true ↔ b = 0 ∨ canNumber (k + b : Nat) n = true := by
  by_cases hb : b = 0
  · subst hb
    exact iff_of_true rfl (.inl rfl)
  have hfirst : ((k + b : Nat) : Int) + 1 = (k + b + 1 : Nat) := rfl
  have hlast : ((k + b : Nat) : Int) + n = (k + b + n : Nat) := rfl
  have hall (i : Nat) : (canShift b ∘ fun i : Nat ↦ placeholder (k + i + 1 : Nat)) i =
      Text.canWrite (k + i + 1 + b : Nat) := canShift_placeholder hb _
  rw [placeholders_eq, Separates.comma.canShift_intercalate, List.all_map, List.all_eq_true,
    or_iff_right hb, canNumber, Bool.or_eq_true, Bool.and_eq_true, decide_eq_true_iff, hfirst,
    hlast]
  simp only [hall, List.mem_range]
  constructor
  · intro h
    by_cases hn : n = 0
    · exact .inl hn
    -- the last placeholder has the largest number
    · have hwrite := h (n - 1) (by omega)
      exact .inr ⟨Text.canWrite_of_le (by omega) hwrite, Text.canWrite_of_le (by omega) hwrite⟩
  · rintro (rfl | ⟨-, hwrite⟩) i hi
    · omega
    · exact Text.canWrite_of_le (by omega) hwrite

end Rowmap.Sql
