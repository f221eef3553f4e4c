import Rowmap.Proofs.Condition.Places
import Rowmap.Proofs.Sql.Numbering

/-!
# Fragments of statements

A statement cut into fragments: one for each leaf of its conditions, with the values that the leaf
binds, and the text between them, which binds nothing. Every fragment has the placeholders of its
own values and no others, so a value can only be bound where its leaf stands.

`Aligned` says that a text and its values can be cut that way. It carries over to texts that are
joined or enclosed.
-/

namespace Rowmap

/-! ## The values of leaves -/

namespace Value

/-- The values of a caller's own sub-query, after so many bound ones. Those of a query are the
values of its leaves. -/
def rowValues : Value → Int → List Value
  | .rawSql _ _ values _, _ => values
  | .renderable _ render, b =>
    match Rendition.ofValue (render b) with
    | .ok r => r.values
    | .error _ => []
  | _, _ => []

/-- The values that a value binds under a comparison that looks at it: none for a test for null and
for a marker, those of a sub-query, each element of a list or the list as one, and itself otherwise.
-/
def boundValues (v : Value) (c : Option Comparison) (bind asArray : Bool) (b : Int) : List Value :=
  if v.isRenderable then v.rowValues b
  else if Leaf.testsNull c v then []
  else
    match v with
    | .marker _ => []
    | v =>
      if bind then
        match v.elements? with
        | some items => if asArray then [.list items] else items
        | none => [v]
      else []

end Value

namespace Place

/-- The values that a leaf binds, after so many others. A bare list of values is always compared as
a list, a wrapped one as the comparison says. -/
def ownValues (p : Place) (b : Int) : List Value :=
  if p.isIgnored then []
  else
    match p.value with
    | .wrapped inner bind own _ =>
      let c := own <|> p.comparison
      inner.boundValues c bind (!c.any (·.bindsEach)) b
    | v => v.boundValues p.comparison true (p.comparison.any (·.bindsArray)) b

end Place

/-! ## What is asked of a tree -/

/-- A record type without placeholders in its names. -/
structure Table.Plain (t : Table Value) : Prop where
  name : ∀ s, t.name.asText? = some s → Sql.numbers s = []
  fields : ∀ key field, (key, field) ∈ t.fields →
    Sql.numbers key = [] ∧ Sql.numbers (field.column key) = []

namespace Value

/-- A value that numbers its own values when it renders itself. Hand-written SQL numbers them from
one, a caller's own sub-query after those that it is told of. -/
def NumbersItself (d : Sql.Numbering) : Value → Prop
  | .rawSql _ sql values _ => d.holds 0 values.length (Sql.numbers sql)
  | .renderable _ render => ∀ (b : Nat) r, Rendition.ofValue (render b) = .ok r →
    d.holds b r.values.length (Sql.numbers r.query.inline) ∧
      ∀ c operator, Leaf.ownComparison r.comparison = .ok (some (c, operator)) →
        Sql.numbers operator = []
  | .query _ select => select.table.Plain
  | _ => True

/-- A value without placeholders when it is written as a part of the text. -/
def InlinesPlainly (quote : Bool) (v : Value) : Prop :=
  ∀ x ∈ v.elements?.getD [v], ∀ text, Leaf.inlined quote x = .ok text → Sql.numbers text = []

end Value

/-- A leaf that brings no placeholders but those of its values. -/
def Place.NumbersItself (d : Sql.Numbering) (p : Place) : Prop :=
  p.isIgnored = false →
    match p.value with
    | .wrapped inner bind _ quote => inner.NumbersItself d ∧
      (bind = false → inner.isRenderable = false → inner.InlinesPlainly quote)
    | v => v.NumbersItself d

/-! ## Fragments -/

/-- A part of a text with the values bound in it, and the leaf that it belongs to, if any. -/
structure Fragment where
  text : String
  place : Option Place := none
  values : List Value := []

namespace Fragment

/-- A fragment that binds the values of its leaf, and has their numbers. -/
structure Fits (d : Sql.Numbering) (b : Nat) (f : Fragment) : Prop where
  values : f.values = f.place.elim [] (·.ownValues b)
  numbers : d.holds b f.values.length (Sql.numbers f.text)

def AllFit (d : Sql.Numbering) : Nat → List Fragment → Prop
  | _, [] => True
  | b, f :: fs => f.Fits d b ∧ AllFit d (b + f.values.length) fs

theorem AllFit.append {d : Sql.Numbering} {fs gs : List Fragment} {b : Nat}
    (hfs : AllFit d b fs) (hgs : AllFit d (b + (fs.flatMap values).length) gs) :
    AllFit d b (fs ++ gs) := by
  induction fs generalizing b with
  | nil => exact hgs
  | cons f fs ih =>
    refine ⟨hfs.1, ih hfs.2 ?_⟩
    rwa [List.flatMap_cons, List.length_append, ← Nat.add_assoc] at hgs

theorem AllFit.holds {d : Sql.Numbering} {fs : List Fragment} {b : Nat} (h : AllFit d b fs) :
    d.holds b (fs.flatMap values).length (fs.flatMap (Sql.numbers ·.text)) := by
  induction fs generalizing b with
  | nil => exact d.holds_nil b
  | cons f fs ih =>
    rw [List.flatMap_cons, List.flatMap_cons, List.length_append]
    exact d.holds_append h.1.numbers (ih h.2)

end Fragment

/-- A text and its values, after so many others, that are cut into fragments around given leaves. -/
def Aligned (d : Sql.Numbering) (b : Nat) (places : List Place) (text : String)
    (values : List Value) : Prop :=
  ∃ fs : List Fragment, fs.filterMap (·.place) = places ∧
    String.join (fs.map (·.text)) = text ∧ fs.flatMap (·.values) = values ∧
    Sql.numbers text = fs.flatMap (Sql.numbers ·.text) ∧ Fragment.AllFit d b fs

namespace Aligned

variable {d : Sql.Numbering} {b : Nat} {places places' : List Place} {text text' : String}
  {values values' : List Value}

theorem holds (h : Aligned d b places text values) :
    d.holds b values.length (Sql.numbers text) := by
  obtain ⟨fs, -, -, rfl, hnumbers, hfit⟩ := h
  rw [hnumbers]
  exact hfit.holds

theorem of_plain (h : Sql.numbers text = []) : Aligned d b [] text [] :=
  ⟨[⟨text, none, []⟩], rfl, by simp, rfl, by simp, ⟨rfl, by rw [h]; exact d.holds_nil b⟩, trivial⟩

theorem of_leaf {p : Place} (hvalues : values = p.ownValues b)
    (h : d.holds b values.length (Sql.numbers text)) : Aligned d b [p] text values :=
  ⟨[⟨text, some p, values⟩], rfl, by simp, by simp, by simp, ⟨hvalues, h⟩, trivial⟩

theorem append (h : Aligned d b places text values)
    (h' : Aligned d (b + values.length) places' text' values')
    (hnumbers : Sql.numbers (text ++ text') = Sql.numbers text ++ Sql.numbers text') :
    Aligned d b (places ++ places') (text ++ text') (values ++ values') := by
  obtain ⟨fs, rfl, rfl, rfl, hfs, hfit⟩ := h
  obtain ⟨gs, rfl, rfl, rfl, hgs, hfit'⟩ := h'
  refine ⟨fs ++ gs, List.filterMap_append, ?_, List.flatMap_append, ?_, hfit.append hfit'⟩
  · rw [List.map_append, String.join_append]
  · rw [hnumbers, hfs, hgs, List.flatMap_append]

theorem opened {pre : String} (hpre : Sql.Opens pre) (h : Aligned d b places text values) :
    Aligned d b places (pre ++ text) values :=
  (of_plain hpre.numbers_eq).append h (by rw [hpre, hpre.numbers_eq, List.nil_append])

theorem closed {post : String} (hpost : Sql.Closes post) (h : Aligned d b places text values) :
    Aligned d b places (text ++ post) values := by
  have hplain : Aligned d (b + values.length) [] post [] := of_plain hpost.numbers_eq
  have h' := h.append hplain (by rw [hpost, hpost.numbers_eq, List.append_nil])
  rwa [List.append_nil, List.append_nil] at h'

theorem enclosed {pre post : String} (hpre : Sql.Opens pre) (hpost : Sql.Closes post)
    (h : Aligned d b places text values) : Aligned d b places (pre ++ text ++ post) values :=
  (h.opened hpre).closed hpost

end Aligned

/-! ## Joined parts -/

inductive AllAligned (d : Sql.Numbering) :
    Nat → List Place → List String → List Value → Prop where
  | nil (b : Nat) : AllAligned d b [] [] []
  | cons {b : Nat} {places places' : List Place} {text : String} {texts : List String}
      {values values' : List Value} (head : Aligned d b places text values)
      (tail : AllAligned d (b + values.length) places' texts values') :
      AllAligned d b (places ++ places') (text :: texts) (values ++ values')

namespace AllAligned

variable {d : Sql.Numbering} {b : Nat} {places : List Place} {texts : List String}
  {values : List Value}

theorem intercalate {sep : String} (hsep : Sql.Separates sep)
    (h : AllAligned d b places texts values) :
    Aligned d b places (sep.intercalate (texts.filter (!·.isEmpty))) values := by
  induction h with
  | nil b => exact .of_plain rfl
  | @cons b places places' text texts values values' head tail ih =>
    -- an empty text is left out together with its separator
    by_cases htext : text = ""
    · subst htext
      have happ := head.append ih (by simp)
      rwa [String.empty_append] at happ
    · rw [List.filter_cons_of_pos (by simpa using htext)]
      cases hkept : texts.filter (!·.isEmpty) with
      | nil =>
        rw [hkept] at ih
        have happ := head.append ih (by simp)
        simpa using happ
      | cons text' kept =>
        rw [hkept] at ih
        rw [String.intercalate_cons_cons, String.append_assoc]
        refine head.append (ih.opened hsep.opens) ?_
        rw [hsep.numbers_between, hsep.opens]

theorem joinParts (connective : Connective) (siblings : Int)
    (h : AllAligned d b places texts values) :
    Aligned d b places (Sql.joinParts texts connective.label siblings) values := by
  have hjoined := h.intercalate (.connective connective)
  rw [Sql.joinParts]
  split
  · exact hjoined.enclosed Sql.opens_parenthesis Sql.closes_parenthesis
  · exact hjoined

end AllAligned

theorem Aligned.orAlways {d : Sql.Numbering} {b : Nat} {places : List Place} {text : String}
    {values : List Value} (h : Aligned d b places text values) :
    Aligned d b places (Condition.orAlways text) values := by
  rw [Condition.orAlways]
  split
  · obtain rfl : text = "" := by simpa using ‹text.isEmpty = true›
    have htrue : Sql.Closes Condition.always :=
      Sql.closes_of_start (Sql.numbers_of_no_dollar (by decide)) (by decide)
    exact h.closed htrue
  · exact h

end Rowmap
