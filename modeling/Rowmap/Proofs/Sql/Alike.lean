import Rowmap.Proofs.Sql.Outline

/-!
# Texts that differ in their constants

Two texts written by one rule from the same pieces, but for the contents of string constants. The
relation follows how statements are put together: pieces are joined by dividers, and a constant
stands where a piece does. What joins texts that way keeps it, and two things come of it at once:
texts whose constants may not vary are equal, and texts whose other pieces are sealed have the same
outline. It does not ask for sealed pieces by itself, because a caller's own SQL may open a constant
and leave it open.
-/

namespace Rowmap.Sql

/-- Texts of the same pieces, divided in the same way, which may differ in the contents of string
constants if these vary. Every other piece is sealed if the texts are whole. -/
inductive Alike (varies whole : Prop) : String → String → Prop where
  | piece {s : String} (h : whole → Sealed s) : Alike varies whole s s
  | constant (h : varies) (s t : String) : Alike varies whole (quoteText s) (quoteText t)
  | divided {s t s' t' sep : String} (hsep : Divides sep) (hs : Alike varies whole s s')
      (ht : Alike varies whole t t') : Alike varies whole (s ++ sep ++ t) (s' ++ sep ++ t')

theorem divides_connective (c : Connective) : Divides (" " ++ c.label ++ " ") := by
  cases c <;> decide

namespace Alike

variable {varies whole : Prop} {s s' t t' : String} {ss ts : List String}

/-! ## What alike texts have in common -/

theorem isEmpty_eq (h : Alike varies whole s t) : s.isEmpty = t.isEmpty := by
  have hquoted (x : String) : (quoteText x).isEmpty = false := by
    have hne : quoteText x ≠ "" := fun h ↦ by
      have hchars := congrArg String.toList h
      rw [quoteText, between, toList_enclosed] at hchars
      exact List.cons_ne_nil _ _ hchars
    simpa using hne
  cases h with
  | piece => rfl
  | constant => rw [hquoted, hquoted]
  | divided hsep =>
    have hne (a b : String) {sep : String} (hsep : Divides sep) :
        (a ++ sep ++ b).isEmpty = false := by simp [hsep.1]
    rw [hne _ _ hsep, hne _ _ hsep]

/-! ## Putting texts together -/

theorem append_right (h : Alike varies whole s t) {pre : String} (hpre : Divides pre) :
    Alike varies whole (pre ++ s) (pre ++ t) := by
  have := Alike.divided hpre (.piece fun _ ↦ sealed_empty) h
  rwa [String.empty_append] at this

theorem append_left (h : Alike varies whole s t) {post : String} (hpost : Divides post) :
    Alike varies whole (s ++ post) (t ++ post) := by
  have := Alike.divided hpost h (.piece fun _ ↦ sealed_empty)
  rwa [String.append_empty, String.append_empty] at this

theorem parenthesized (h : Alike varies whole s t) :
    Alike varies whole ("(" ++ s ++ ")") ("(" ++ t ++ ")") :=
  (h.append_right (by decide)).append_left (by decide)

theorem intercalate {sep : String} (hsep : Divides sep)
    (h : List.Forall₂ (Alike varies whole) ss ts) :
    Alike varies whole (sep.intercalate ss) (sep.intercalate ts) := by
  induction h with
  | nil => exact .piece fun _ ↦ sealed_empty
  | cons head tail ih =>
    cases tail with
    | nil => simpa using head
    | cons next tail =>
      rw [String.intercalate_cons_cons, String.intercalate_cons_cons]
      exact .divided hsep head ih

/-- The texts that are left out are the same. -/
theorem filter_nonempty (h : List.Forall₂ (Alike varies whole) ss ts) :
    List.Forall₂ (Alike varies whole) (ss.filter (!·.isEmpty)) (ts.filter (!·.isEmpty)) :=
  List.rel_filter (fun s t hst ↦ by simp only [hst.isEmpty_eq]) h

theorem words (h : List.Forall₂ (Alike varies whole) ss ts) :
    Alike varies whole (Sql.words ss) (Sql.words ts) :=
  intercalate (by decide) (filter_nonempty h)

/-- Conditions that are alike stay so when they are joined: as many are left, so parentheses stand
around both or around neither. -/
theorem joinParts (h : List.Forall₂ (Alike varies whole) ss ts) (c : Connective) (siblings : Int) :
    Alike varies whole (Sql.joinParts ss c.label siblings) (Sql.joinParts ts c.label siblings) := by
  have hparts := filter_nonempty h
  have hjoined := intercalate (divides_connective c) hparts
  rw [Sql.joinParts, Sql.joinParts, hparts.length_eq]
  split
  · exact hjoined.parenthesized
  · exact hjoined

end Alike

end Rowmap.Sql
