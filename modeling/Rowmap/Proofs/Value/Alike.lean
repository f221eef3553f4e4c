import Mathlib.Data.List.Forall2
import Rowmap.Proofs.Value.Parts

/-!
# Values of one shape

Two values of the same shape, which may differ in their scalars where these are bound, and in the
texts that are written between quotes. What a wrapper says decides which of the two a place is:
inside one that does not bind, nothing may differ but quoted texts.

Groups and queries are told apart by identity when they are compared, so two of one shape need not
be the same object.
-/

namespace Rowmap.Value

theorem isEmpty_eq_of_forall₂ {α β : Type} {R : α → β → Prop} {as : List α} {bs : List β}
    (h : List.Forall₂ R as bs) : as.isEmpty = bs.isEmpty := by
  cases h <;> rfl

/-- Two values written at one place of a text, the same unless they are texts between quotes and
these vary. -/
inductive LiteralAlike (varies : Prop) (quote : Bool) : Value → Value → Prop where
  | same (v : Value) : LiteralAlike varies quote v v
  | text (h : varies) (hquote : quote = true) (s t : String) :
    LiteralAlike varies quote (.text s) (.text t)

/-- Two values written as parts of a text: one by one where they are lists of values. -/
inductive WrittenAlike (varies : Prop) (quote : Bool) : Value → Value → Prop where
  | one {v w : Value} (h : LiteralAlike varies quote v w) : WrittenAlike varies quote v w
  | list {xs ys : List Value} (h : List.Forall₂ (LiteralAlike varies quote) xs ys) :
    WrittenAlike varies quote (.list xs) (.list ys)
  | tuple {xs ys : List Value} (h : List.Forall₂ (LiteralAlike varies quote) xs ys) :
    WrittenAlike varies quote (.tuple xs) (.tuple ys)
  | set {frozen : Bool} {xs ys : List Value}
      (h : List.Forall₂ (LiteralAlike varies quote) xs ys) :
    WrittenAlike varies quote (.set frozen xs) (.set frozen ys)

/-- Whether a value is of a kind that a condition tree can look into. -/
def hasParts : Value → Bool
  | .list _ | .tuple _ | .map _ | .wrapped .. | .group .. | .query .. => true
  | _ => false

/-- Two values of one shape: scalars that are bound are related by `rel`, and texts that are written
between quotes may differ if these vary. -/
inductive Alike (rel : Value → Value → Prop) (varies : Prop) : Value → Value → Prop where
  | same {v : Value} (h : v.hasParts = false) : Alike rel varies v v
  | scalar {v w : Value} (hv : v.isScalar = true) (hw : w.isScalar = true) (h : rel v w) :
    Alike rel varies v w
  | list {xs ys : List Value} (h : List.Forall₂ (Alike rel varies) xs ys) :
    Alike rel varies (.list xs) (.list ys)
  | tuple {xs ys : List Value} (h : List.Forall₂ (Alike rel varies) xs ys) :
    Alike rel varies (.tuple xs) (.tuple ys)
  | set {frozen : Bool} {xs ys : List Value} (h : List.Forall₂ (Alike rel varies) xs ys) :
    Alike rel varies (.set frozen xs) (.set frozen ys)
  | map {es fs : List (String × Value)}
      (hkeys : es.map (·.1) = fs.map (·.1))
      (h : List.Forall₂ (Alike rel varies) (es.map (·.2)) (fs.map (·.2))) :
    Alike rel varies (.map es) (.map fs)
  | group {i j : Nat} {kind : GroupKind} {own : Option Comparison} {xs ys : List Value}
      (h : List.Forall₂ (Alike rel varies) xs ys) :
    Alike rel varies (.group i kind xs own) (.group j kind ys own)
  | wrapped {v w : Value} {bind quote : Bool} {own : Option Comparison}
      (hbind : bind = true ∨ v.isRenderable = true) (h : Alike rel varies v w) :
    Alike rel varies (.wrapped v bind own quote) (.wrapped w bind own quote)
  | inlined {v w : Value} {quote : Bool} {own : Option Comparison}
      (h : WrittenAlike varies quote v w) :
    Alike rel varies (.wrapped v false own quote) (.wrapped w false own quote)
  | rawSql {i j : Nat} {sql : String} {own : Option Comparison} {xs ys : List Value}
      (h : List.Forall₂ (Alike rel varies) xs ys) :
    Alike rel varies (.rawSql i sql xs own) (.rawSql j sql ys own)
  | query {i j : Nat} {select : Select Value} {wheres : List Value}
      (h : List.Forall₂ (Alike rel varies) select.wheres wheres) :
    Alike rel varies (.query i select) (.query j { select with wheres })

/-- What holds of a value and of everything in it that a condition tree can look into. -/
inductive Throughout (p : Value → Prop) : Value → Prop where
  | intro {v : Value} (here : p v) (inside : ∀ w ∈ v.parts, Throughout p w) : Throughout p v

theorem Throughout.inside {p : Value → Prop} {v w : Value} (h : v.Throughout p)
    (hw : w ∈ v.parts) : w.Throughout p := by
  cases h with
  | intro _ inside => exact inside w hw

theorem Throughout.here {p : Value → Prop} {v : Value} (h : v.Throughout p) : p v := by
  cases h with
  | intro here _ => exact here

/-! ## Scalars -/

section

variable {v : Value}

theorem isRenderable_of_isScalar (h : v.isScalar = true) : v.isRenderable = false := by
  cases v <;> first | rfl | exact absurd h Bool.false_ne_true

theorem isNull_of_isScalar (h : v.isScalar = true) : v.isNull = false := by
  cases v <;> first | rfl | exact absurd h Bool.false_ne_true

theorem isUnset_of_isScalar (h : v.isScalar = true) : v.isUnset = false := by
  cases v <;> first | rfl | exact absurd h Bool.false_ne_true

theorem hasParts_of_isScalar (h : v.isScalar = true) : v.hasParts = false := by
  cases v <;> first | rfl | exact absurd h Bool.false_ne_true

theorem elements?_of_isScalar (h : v.isScalar = true) : v.elements? = none := by
  cases v <;> first | rfl | exact absurd h Bool.false_ne_true

end

/-! ## Values written into the text -/

namespace WrittenAlike

variable {varies : Prop} {quote : Bool} {v w : Value}

theorem isRenderable_eq (h : WrittenAlike varies quote v w) : v.isRenderable = w.isRenderable := by
  cases h with
  | one h => cases h <;> rfl
  | _ => rfl

theorem isNull_eq (h : WrittenAlike varies quote v w) : v.isNull = w.isNull := by
  cases h with
  | one h => cases h <;> rfl
  | _ => rfl

theorem marker_iff (h : WrittenAlike varies quote v w) (m : Marker) :
    v = .marker m ↔ w = .marker m := by
  cases h with
  | one h => cases h <;> simp
  | _ => simp

theorem elements? (h : WrittenAlike varies quote v w) :
    (∃ xs ys, v.elements? = some xs ∧ w.elements? = some ys ∧
        List.Forall₂ (LiteralAlike varies quote) xs ys) ∨
      v.elements? = none ∧ w.elements? = none ∧ LiteralAlike varies quote v w := by
  cases h with
  | one h =>
    cases h with
    | same =>
      cases hv : v.elements? with
      | none => exact .inr ⟨rfl, rfl, .same v⟩
      | some xs => exact .inl ⟨xs, xs, rfl, rfl, List.forall₂_same.mpr fun x _ ↦ .same x⟩
    | text h hquote s t => exact .inr ⟨rfl, rfl, .text h hquote s t⟩
  | list h => exact .inl ⟨_, _, rfl, rfl, h⟩
  | tuple h => exact .inl ⟨_, _, rfl, rfl, h⟩
  | set h => exact .inl ⟨_, _, rfl, rfl, h⟩

end WrittenAlike

/-! ## Values of one shape -/

namespace Alike

variable {rel : Value → Value → Prop} {varies : Prop} {v w : Value}

theorem refl : ∀ v : Value, Alike rel varies v v := by
  refine induction_on_parts fun v ih ↦ ?_
  cases v with
  | list items => exact .list (List.forall₂_same.mpr ih)
  | tuple items => exact .tuple (List.forall₂_same.mpr ih)
  | group id kind items own => exact .group (List.forall₂_same.mpr ih)
  | map entries => exact .map rfl (List.forall₂_same.mpr ih)
  | query id select => exact .query (List.forall₂_same.mpr ih)
  | wrapped inner bind own quote =>
    cases bind with
    | true => exact .wrapped (.inl rfl) (ih inner List.mem_cons_self)
    | false => exact .inlined (.one (.same inner))
  | _ => exact .same rfl

theorem isRenderable_eq (h : Alike rel varies v w) : v.isRenderable = w.isRenderable := by
  cases h with
  | scalar hv hw => rw [isRenderable_of_isScalar hv, isRenderable_of_isScalar hw]
  | _ => rfl

theorem isNull_eq (h : Alike rel varies v w) : v.isNull = w.isNull := by
  cases h with
  | scalar hv hw => rw [isNull_of_isScalar hv, isNull_of_isScalar hw]
  | _ => rfl

theorem hasParts_eq (h : Alike rel varies v w) : v.hasParts = w.hasParts := by
  cases h with
  | scalar hv hw => rw [hasParts_of_isScalar hv, hasParts_of_isScalar hw]
  | _ => rfl

theorem isUnset_eq (h : Alike rel varies v w) : v.isUnset = w.isUnset := by
  cases h with
  | scalar hv hw => rw [isUnset_of_isScalar hv, isUnset_of_isScalar hw]
  | _ => rfl

theorem eq_marker {m : Marker} (h : Alike rel varies (.marker m) w) : w = .marker m := by
  cases h with
  | same => rfl
  | scalar hv => exact absurd hv Bool.false_ne_true

theorem marker_iff (h : Alike rel varies v w) (m : Marker) : v = .marker m ↔ w = .marker m := by
  constructor
  · rintro rfl
    exact h.eq_marker
  · rintro rfl
    cases h with
    | same => rfl
    | scalar _ hw => exact absurd hw Bool.false_ne_true

theorem elements? (h : Alike rel varies v w) :
    (∃ xs ys, v.elements? = some xs ∧ w.elements? = some ys ∧
        List.Forall₂ (Alike rel varies) xs ys) ∨
      v.elements? = none ∧ w.elements? = none := by
  cases h with
  | same h =>
    cases v.elements? with
    | none => exact .inr ⟨rfl, rfl⟩
    | some xs => exact .inl ⟨xs, xs, rfl, rfl, List.forall₂_same.mpr fun x _ ↦ refl x⟩
  | scalar hv hw => exact .inr ⟨elements?_of_isScalar hv, elements?_of_isScalar hw⟩
  | list h => exact .inl ⟨_, _, rfl, rfl, h⟩
  | tuple h => exact .inl ⟨_, _, rfl, rfl, h⟩
  | set h => exact .inl ⟨_, _, rfl, rfl, h⟩
  | _ => exact .inr ⟨rfl, rfl⟩

theorem any_isRenderable_eq {xs ys : List Value} (h : List.Forall₂ (Alike rel varies) xs ys) :
    xs.any isRenderable = ys.any isRenderable := by
  induction h with
  | nil => rfl
  | cons head _ ih => rw [List.any_cons, List.any_cons, head.isRenderable_eq, ih]

end Alike

end Rowmap.Value
