import Mathlib.Data.List.Forall2
import Rowmap.Proofs.Number.Rational
import Rowmap.Value.Matching
import Rowmap.Value.Whole

/-!
# What equal values share

Values of different kinds can be equal: numbers of all kinds, texts and the members of the text
vocabularies, sets that are frozen or not. Comparing is inverted once; from its cases follows that
equal values are the same text, count for the same whole number, and count as true alike.
-/

namespace Rowmap

/-! ## Numbers -/

namespace Number

def whole : Number → Except Failure Int
  | .exact x => .ok (towardZero x.toRat)
  | .infinite _ => .error .tooLarge
  | .notANumber _ => .error .badValue

def isTrue : Number → Bool
  | .exact x => x.rest != 0
  | _ => true

theorem same_of_equal {m n : Number} (h : m.equal n = true) :
    m.whole = n.whole ∧ m.isTrue = n.isTrue := by
  cases m <;> cases n <;> first
    | exact absurd h Bool.false_ne_true
    | exact ⟨rfl, rfl⟩
    | (obtain rfl := eq_of_beq h
       exact ⟨rfl, rfl⟩)

end Number

namespace Value

theorem isTrue_ofProduct (n a b : Int) :
    (Number.exact (Factored.ofProduct n a b)).isTrue = (n != 0) := by
  rw [Number.isTrue, Bool.eq_iff_iff, bne_iff_ne, bne_iff_ne]
  exact Factored.rest_ofProduct_eq_zero.not

theorem signed_ne_zero (negative : Bool) (m : Nat) :
    (Text.signed negative m != 0) = !(m == 0) := by
  cases negative <;> simp [Text.signed, bne, Bool.beq_eq_decide_eq]

theorem same_of_int (n : Int) :
    Except.ok n = (Number.exact (.ofInt n)).whole ∧
      (n != 0) = (Number.exact (.ofInt n)).isTrue := by
  rw [Number.whole, Factored.toRat_ofInt, towardZero_intCast]
  exact ⟨rfl, (isTrue_ofProduct n 0 0).symm⟩

theorem same_of_binary64 (x : Binary64) :
    (Value.float x).toWhole = x.number.whole ∧ (Value.float x).truthy = x.number.isTrue := by
  -- a finite double is a signed significand times a power of two
  cases x with
  | finite negative m e =>
    have htruncate := @Factored.truncate?_of_ofBinary64? (.finite negative m e) _ rfl
    refine ⟨?_, ?_⟩
    · show truncated (Binary64.truncate? (.finite negative m e)) false = _
      rw [htruncate]
      rfl
    · exact ((isTrue_ofProduct _ e 0).trans (signed_ne_zero negative m)).symm
  | infinite negative => exact ⟨rfl, rfl⟩
  | notANumber tag => exact ⟨rfl, rfl⟩

theorem same_of_decimal (x : Decimal) :
    (Value.decimal x).toWhole = x.number.whole ∧ (Value.decimal x).truthy = x.number.isTrue := by
  cases x with
  | finite n =>
    have htruncate := @Factored.truncate?_of_ofDecimal? (.finite n) _ rfl
    refine ⟨?_, ?_⟩
    · show truncated (Decimal.truncate? (.finite n)) false = _
      rw [htruncate]
      rfl
    · exact ((isTrue_ofProduct _ _ _).trans (signed_ne_zero n.negative n.coefficient)).symm
  | infinite negative => exact ⟨rfl, rfl⟩
  | notANumber negative signals payload tag => exact ⟨rfl, rfl⟩

theorem same_of_number? {v : Value} {n : Number} (h : v.number? = some n) :
    v.toWhole = n.whole ∧ v.truthy = n.isTrue := by
  cases v with
  | bool b =>
    obtain rfl := Option.some.inj h
    obtain ⟨hwhole, htrue⟩ := same_of_int (if b then 1 else 0)
    rw [← hwhole, ← htrue]
    cases b <;> exact ⟨rfl, rfl⟩
  | int k =>
    obtain rfl := Option.some.inj h
    exact same_of_int k
  | float x =>
    obtain rfl := Option.some.inj h
    exact same_of_binary64 x
  | decimal x =>
    obtain rfl := Option.some.inj h
    exact same_of_decimal x
  | _ => exact absurd h (Option.some_ne_none _).symm

/-! ## Cases of equality -/

/-- Whether a value is none of those that are a text, a number or a container: it is no whole number
and always counts as true. -/
structure IsOther (v : Value) : Prop where
  notText : v.asText? = none
  notNull : v.isNull = false
  truthy : v.truthy = true
  notWhole : v.toWhole = .error (.wrongType none)

inductive EqualCase : Value → Value → Prop where
  | number {v w : Value} {m n : Number} (hv : v.number? = some m) (hw : w.number? = some n)
      (h : m.equal n = true) : EqualCase v w
  | text {v w : Value} {s : String} (hv : v.asText? = some s) (hw : w.asText? = some s) :
      EqualCase v w
  | null : EqualCase .null .null
  | unset : EqualCase .unset .unset
  | bytes (bs : List UInt8) : EqualCase (.bytes bs) (.bytes bs)
  | uuid (n : Nat) : EqualCase (.uuid n) (.uuid n)
  | list {xs ys : List Value} (h : compareItems? xs ys = some true) :
      EqualCase (.list xs) (.list ys)
  | tuple {xs ys : List Value} (h : compareItems? xs ys = some true) :
      EqualCase (.tuple xs) (.tuple ys)
  | set {frozen frozen' : Bool} {xs ys : List Value} (h : xs.length = ys.length) :
      EqualCase (.set frozen xs) (.set frozen' ys)
  | map {es fs : List (String × Value)} (h : es.length = fs.length) : EqualCase (.map es) (.map fs)
  | other {v w : Value} (hv : v.IsOther) (hw : w.IsOther) : EqualCase v w

theorem isOther_of_identity? {v : Value} {id : Nat} (h : v.identity? = some id) : v.IsOther := by
  cases v <;> first
    | exact absurd h (Option.some_ne_none _).symm
    | exact ⟨rfl, rfl, rfl, rfl⟩

theorem EqualCase.of_equalPlain {v w : Value} (h : equalPlain v w = true) : EqualCase v w := by
  rw [equalPlain.eq_def] at h
  split at h
  · rename_i hv hw
    obtain rfl := eq_of_beq h
    exact .text hv hw
  · split at h
    · exact .null
    · exact .unset
    · obtain rfl := eq_of_beq h
      exact .bytes _
    · exact .other ⟨rfl, rfl, rfl, rfl⟩ ⟨rfl, rfl, rfl, rfl⟩
    · exact .other ⟨rfl, rfl, rfl, rfl⟩ ⟨rfl, rfl, rfl, rfl⟩
    · exact .other ⟨rfl, rfl, rfl, rfl⟩ ⟨rfl, rfl, rfl, rfl⟩
    · obtain rfl := eq_of_beq h
      exact .uuid _
    · exact .other ⟨rfl, rfl, rfl, rfl⟩ ⟨rfl, rfl, rfl, rfl⟩
    · exact .other ⟨rfl, rfl, rfl, rfl⟩ ⟨rfl, rfl, rfl, rfl⟩
    · exact .other ⟨rfl, rfl, rfl, rfl⟩ ⟨rfl, rfl, rfl, rfl⟩
    · split at h
      · rename_i hv hw
        exact .other (isOther_of_identity? hv) (isOther_of_identity? hw)
      · exact absurd h Bool.false_ne_true
  · exact absurd h Bool.false_ne_true

theorem EqualCase.of_compareScalar? {v w : Value} (h : compareScalar? v w = some true) :
    EqualCase v w := by
  rw [compareScalar?] at h
  split at h
  · rename_i m n hv hw
    rw [Number.compare?] at h
    split at h
    · simp at h
    · exact .number hv hw (Option.some.inj h)
  · exact .of_equalPlain (Option.some.inj h)
  · simp at h

theorem eq_of_andThen? {first second : Option Bool} (h : andThen? first second = some true) :
    first = some true ∧ second = some true := by
  rw [andThen?.eq_def] at h
  split at h
  · exact ⟨rfl, h⟩
  · rename_i hfirst
    exact absurd h hfirst

/-- **Comparing, inverted.** -/
theorem EqualCase.of_compare? {v w : Value} (h : compare? v w = some true) : EqualCase v w := by
  rw [compare?.eq_def] at h
  split at h
  · split at h
    · exact .list h
    · simp at h
  · exact .tuple h
  · split at h
    · exact .set ‹_›
    · simp at h
  · split at h
    · exact .map ‹_›
    · simp at h
  · exact .other ⟨rfl, rfl, rfl, rfl⟩ ⟨rfl, rfl, rfl, rfl⟩
  · exact .other ⟨rfl, rfl, rfl, rfl⟩ ⟨rfl, rfl, rfl, rfl⟩
  · exact .of_compareScalar? h

theorem forall₂_of_compareItems? {xs ys : List Value} (h : compareItems? xs ys = some true) :
    List.Forall₂ (fun x y ↦ same x y = true ∨ compare? x y = some true) xs ys := by
  induction xs generalizing ys with
  | nil =>
    cases ys with
    | nil => exact .nil
    | cons y ys => simp [compareItems?] at h
  | cons x xs ih =>
    cases ys with
    | nil => simp [compareItems?] at h
    | cons y ys =>
      rw [compareItems?] at h
      obtain ⟨hfirst, hrest⟩ := eq_of_andThen? h
      refine .cons ?_ (ih hrest)
      by_cases hsame : same x y = true
      · exact .inl hsame
      · rw [if_neg hsame] at hfirst
        exact .inr hfirst

/-! ## What is shared -/

theorem asText?_of_number? {v : Value} {n : Number} (h : v.number? = some n) :
    v.asText? = none := by
  cases v <;> first | rfl | exact absurd h (Option.some_ne_none _).symm

theorem isNull_of_number? {v : Value} {n : Number} (h : v.number? = some n) : v.isNull = false := by
  cases v <;> first | rfl | exact absurd h (Option.some_ne_none _).symm

theorem isNull_of_asText? {v : Value} {s : String} (h : v.asText? = some s) : v.isNull = false := by
  cases v <;> first | rfl | exact absurd h (Option.some_ne_none _).symm

theorem isEmpty_eq_of_length_eq {α : Type} {xs ys : List α} (h : xs.length = ys.length) :
    xs.isEmpty = ys.isEmpty := by
  cases xs <;> cases ys <;> first | rfl | simp at h

theorem truthy_of_asText? {v : Value} {s : String} (h : v.asText? = some s) :
    v.truthy = !s.isEmpty := by
  cases v with
  | text t =>
    obtain rfl := Option.some.inj h
    rfl
  | comparison c =>
    obtain rfl := Option.some.inj h
    cases c <;> rfl
  | direction d =>
    obtain rfl := Option.some.inj h
    cases d <;> rfl
  | output o =>
    obtain rfl := Option.some.inj h
    cases o <;> rfl
  | _ => exact absurd h (Option.some_ne_none _).symm

theorem toWhole_of_asText? {v : Value} {s : String} (h : v.asText? = some s) :
    v.toWhole = wholeOfText (some s) := by
  rw [toWhole.eq_def, h]

theorem EqualCase.asText?_eq {v w : Value} (h : EqualCase v w) : v.asText? = w.asText? := by
  cases h with
  | number hv hw _ => rw [asText?_of_number? hv, asText?_of_number? hw]
  | text hv hw => rw [hv, hw]
  | other hv hw => rw [hv.notText, hw.notText]
  | _ => rfl

/-- Equal values count for the same whole number, or fail to alike. -/
theorem EqualCase.toWhole_eq {v w : Value} (h : EqualCase v w) : v.toWhole = w.toWhole := by
  cases h with
  | number hv hw h =>
    rw [(same_of_number? hv).1, (same_of_number? hw).1]
    exact (Number.same_of_equal h).1
  | text hv hw => rw [toWhole_of_asText? hv, toWhole_of_asText? hw]
  | other hv hw => rw [hv.notWhole, hw.notWhole]
  | _ => rfl

/-- Equal values count as true alike. -/
theorem EqualCase.truthy_eq {v w : Value} (h : EqualCase v w) : v.truthy = w.truthy := by
  cases h with
  | number hv hw h =>
    rw [(same_of_number? hv).2, (same_of_number? hw).2]
    exact (Number.same_of_equal h).2
  | text hv hw => rw [truthy_of_asText? hv, truthy_of_asText? hw]
  | list h | tuple h =>
    exact congrArg (!·) (isEmpty_eq_of_length_eq (forall₂_of_compareItems? h).length_eq)
  | set h | map h => exact congrArg (!·) (isEmpty_eq_of_length_eq h)
  | other hv hw => rw [hv.truthy, hw.truthy]
  | _ => rfl

theorem EqualCase.isNull_eq {v w : Value} (h : EqualCase v w) : v.isNull = w.isNull := by
  cases h with
  | number hv hw _ => rw [isNull_of_number? hv, isNull_of_number? hw]
  | text hv hw => rw [isNull_of_asText? hv, isNull_of_asText? hw]
  | other hv hw => rw [hv.notNull, hw.notNull]
  | _ => rfl

theorem asText?_eq_of_matchesElement {v w : Value} (h : v.matchesElement w = true) :
    v.asText? = w.asText? := by
  rw [matchesElement, Bool.or_eq_true] at h
  obtain hsame | hequal := h
  · rw [same.eq_def] at hsame
    split at hsame
    · rfl
    · rfl
    · rfl
    · exact absurd hsame Bool.false_ne_true
  · exact (EqualCase.of_compare? (eq_of_beq hequal)).asText?_eq

end Value

end Rowmap
