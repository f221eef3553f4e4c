import Rowmap.Proofs.Condition.Meaning

/-!
# Leaves and their columns

Whether the text of a leaf is about its column can be told from the leaf. It is, whatever the value,
unless a list is compared element by element and has no elements: then the text is a constant. A
value under a key that has one leaf is written as that leaf is, however many groups are around it.
-/

namespace Rowmap

/-- Whether a value is a list without elements under a comparison with each of them. -/
def Value.isVacuous (v : Value) (c : Comparison) : Bool :=
  c.bindsEach && v.elements?.any (·.isEmpty)

/-- Whether a leaf is a constant, because there is nothing to compare its column with. -/
def Place.isConstant (p : Place) : Bool :=
  !p.isIgnored &&
    match p.value with
    | .wrapped inner _ own _ => inner.isVacuous ((own <|> p.comparison).getD .equal)
    | v => v.isVacuous (Leaf.listComparison p.comparison)

/-- Whether a text is a condition on the column of a key: the column, or its text, and more words
after it. -/
def Table.IsOn (t : Table Value) (key text : String) : Prop :=
  ∃ field words, t.field? key = some field ∧
    (text = Sql.words (Sql.quoteIdentifier (field.column key) :: words) ∨
      text = Sql.words ((Sql.quoteIdentifier (field.column key) ++ "::text") :: words))

/-! ## Leaves -/

namespace Leaf

theorem left_of_listCase {b : Int} {c : Comparison} {items : List Value} {leaf : Leaf}
    (h : ListCase b c items leaf) : leaf.left.isSome = (c.bindsEach && items.isEmpty) := by
  cases h with
  | array heach | whole heach =>
    rw [heach]
    rfl
  | empty heach =>
    rw [heach]
    rfl
  | each _ hitems =>
    rw [hitems, Bool.and_false]
    rfl

theorem left_of_inlineCase {quote : Bool} {c : Comparison} {items : List Value} {leaf : Leaf}
    (h : InlineCase quote c items leaf) : leaf.left.isSome = (c.bindsEach && items.isEmpty) := by
  cases h with
  | empty hitems heach =>
    rw [heach, hitems]
    rfl
  | joined hempty _ =>
    rw [hempty]
    rfl

theorem left_of_plainCase {b : Int} {c : Comparison} {inner : Value} {bind quote : Bool}
    {leaf : Leaf} (h : PlainCase b c quote inner bind leaf) :
    leaf.left.isSome = inner.isVacuous c := by
  rw [Value.isVacuous]
  cases h with
  | list hitems h => rw [left_of_listCase h, hitems, Option.any_some]
  | inlineList hitems h => rw [left_of_inlineCase h, hitems, Option.any_some]
  | one hitems | inlined hitems _ =>
    rw [hitems, Option.any_none, Bool.and_false]
    rfl

end Leaf

theorem Value.isVacuous_of_elements? {v : Value} (h : v.elements? = none) (c : Comparison) :
    v.isVacuous c = false := by
  rw [isVacuous, h, Option.any_none, Bool.and_false]

theorem Value.elements?_of_isRenderable {v : Value} (h : v.isRenderable = true) :
    v.elements? = none := by
  cases v <;> first | rfl | exact absurd h Bool.false_ne_true

theorem Value.elements?_of_testsNull {v : Value} {c : Option Comparison}
    (h : Leaf.testsNull c v = true) : v.elements? = none := by
  cases v <;> first | rfl | simp [Leaf.testsNull, Value.isNull] at h

theorem WrappedCase.left_isSome {ctx : LeafContext} {own c : Option Comparison} {bind quote : Bool}
    {inner : Value} {leaf : Leaf} (h : WrappedCase ctx own c bind quote inner leaf) :
    leaf.left.isSome = inner.isVacuous (c.getD .equal) := by
  cases h with
  | @ignored _ test hc hleft =>
    rw [hc, Option.getD_some, Value.isVacuous]
    cases test <;> first | rfl | exact absurd hleft Bool.false_ne_true
  | subquery _ hinner _ h =>
    have hitems := Value.elements?_of_isRenderable hinner
    rw [Leaf.left_of_splice h, Value.isVacuous_of_elements? hitems]
    rfl
  | null _ hnull =>
    rw [Leaf.left_nullTest, Value.isVacuous_of_elements? (Value.elements?_of_testsNull hnull)]
    rfl
  | notNull _ h =>
    rw [Leaf.left_of_notNullTest h, Value.isVacuous_of_elements? rfl]
    rfl
  | now =>
    rw [Value.isVacuous_of_elements? rfl]
    rfl
  | plain _ _ _ _ h => exact Leaf.left_of_plainCase (.of_plainWrapped h)

theorem Place.isConstant_of_elements? {v : Value} (h : v.elements? = none)
    (hwrapped : ∀ inner bind own quote, v ≠ .wrapped inner bind own quote) (key : Option String)
    (c : Option Comparison) : Place.isConstant ⟨key, v, c⟩ = false := by
  rw [isConstant]
  split
  · exact absurd ‹_› (hwrapped _ _ _ _)
  · rw [Value.isVacuous_of_elements? h, Bool.and_false]

theorem Comparison.bindsEach_of_leftOnly {c : Comparison} (h : c.leftOnly = true) :
    c.bindsEach = false := by
  cases c <;> first | rfl | exact absurd h Bool.false_ne_true

theorem LeafCase.left_isSome {ctx : LeafContext} {v : Value} {leaf : Leaf} (h : LeafCase ctx v leaf)
    (key : String) : leaf.left.isSome = Place.isConstant ⟨some key, v, ctx.comparison⟩ := by
  cases h with
  | ignored hc hleft =>
    have hignored : Place.isIgnored ⟨some key, v, ctx.comparison⟩ = true := by
      simp [Place.isIgnored, hc, hleft]
    rw [Place.isConstant, hignored]
    rfl
  | null _ hnull =>
    rw [Leaf.left_nullTest, Place.isConstant_of_elements? (Value.elements?_of_testsNull hnull)]
    · rfl
    · rintro inner bind own quote rfl
      simp [Leaf.testsNull, Value.isNull] at hnull
  | notNull _ h =>
    rw [Leaf.left_of_notNullTest h, Place.isConstant_of_elements? rfl (by simp)]
    rfl
  | now =>
    rw [Place.isConstant_of_elements? rfl (by simp)]
    rfl
  | items hleft hitems h =>
    rw [Leaf.left_of_listCase (.of_bindList h)]
    cases v <;> first
      | exact absurd hitems (Option.some_ne_none _).symm
      | (obtain rfl := Option.some.inj hitems
         simp [Place.isConstant, Place.isIgnored, hleft, Value.isVacuous, Value.elements?])
  | @wrapped inner bind quote own _ hleft h =>
    have hignored : Place.isIgnored ⟨some key, .wrapped inner bind own quote, ctx.comparison⟩ =
        own.any (·.leftOnly) := by
      rw [Place.isIgnored, hleft]
      rfl
    rw [h.left_isSome, Place.isConstant, hignored]
    cases hown : own.any (·.leftOnly) with
    | false => rfl
    | true =>
      obtain ⟨test, rfl, htest⟩ := Option.eq_some_of_any hown
      simp [Value.isVacuous, Comparison.bindsEach_of_leftOnly htest]
  | subquery _ hv _ h =>
    rw [Leaf.left_of_splice h, Place.isConstant_of_elements? (Value.elements?_of_isRenderable hv)]
    · rfl
    · rintro inner bind own quote rfl
      exact Bool.false_ne_true hv
  | scalar _ _ _ hitems hwrapped _ =>
    rw [Place.isConstant_of_elements? hitems hwrapped]
    rfl

/-! ## Texts of leaves -/

theorem Sql.words_cons {text : String} (h : text ≠ "") (texts : List String) :
    Sql.words (text :: texts) = " ".intercalate (text :: texts.filter (!·.isEmpty)) := by
  rw [words, List.filter_cons_of_pos (by simpa using h)]

def Condition.constantTexts : List String := ["true = true", "true = false"]

theorem Table.toList_of_isOn {t : Table Value} {key text : String} (h : t.IsOn key text) :
    ∃ rest, text.toList = '"' :: rest := by
  obtain ⟨field, words, -, htext | htext⟩ := h
  all_goals
    rw [htext, Sql.words_cons (by simp [Condition.quoteIdentifier_ne_empty])]
    cases words.filter (!·.isEmpty) <;>
      simp [Sql.quoteIdentifier, Sql.between, Sql.enclosed, String.intercalate_cons_cons]

theorem Table.not_isOn_of_mem_constantTexts {t : Table Value} {key text : String}
    (h : text ∈ Condition.constantTexts) : ¬t.IsOn key text := by
  intro hon
  obtain ⟨rest, hrest⟩ := Table.toList_of_isOn hon
  obtain rfl | rfl : text = "true = true" ∨ text = "true = false" := by
    simpa [Condition.constantTexts] using h
  · exact absurd hrest (by simp)
  · exact absurd hrest (by simp)

/-- Whether a text is what a leaf under a key may be written as. -/
def Place.Describes (t : Table Value) (key : String) (p : Place) (text : String) : Prop :=
  if p.isConstant then text ∈ Condition.constantTexts else t.IsOn key text

namespace Condition

theorem words_ofEmpty (field : Field) (key : String) (c : Comparison) :
    Sql.words [leftOf field key (.ofEmpty c), (Leaf.ofEmpty c).operator, (Leaf.ofEmpty c).right] ∈
      constantTexts := by
  by_cases hc : c = .notOneOf
  · subst hc
    exact List.mem_cons_self
  · simp only [leftOf, Leaf.ofEmpty, if_neg hc]
    exact List.mem_cons_of_mem _ List.mem_cons_self

theorem isOn_words {t : Table Value} {field : Field} {key : String} {leaf : Leaf}
    (hfield : t.field? key = some field) (h : leaf.left = none) (texts : List String) :
    t.IsOn key (Sql.words (leftOf field key leaf :: texts)) := by
  refine ⟨field, texts, hfield, ?_⟩
  rw [leftOf, h]
  dsimp only
  split
  · exact .inr rfl
  · rw [String.append_empty]
    exact .inl rfl

variable {t : Table Value} {isFar : Bool}

theorem describes_of_writtenAs {p : Place} {key text : String} (hkey : p.key = some key)
    (h : p.WrittenAs ⟨t, .standard, isFar⟩ text) : p.Describes t key text := by
  obtain ⟨_, v, c⟩ := p
  obtain rfl : _ = some key := hkey
  obtain ⟨o, values, hkey, hcomparison, h⟩ := h
  rw [Scope.condition, hkey, hcomparison] at h
  cases FieldCase.of_ofField h with
  | @leaf _ _ leaf hfield _ _ _ hleaf _ =>
    have hleaf := LeafCase.of_standard hleaf
    have hconstant : leaf.left.isSome = Place.isConstant ⟨some key, v, c⟩ := hleaf.left_isSome key
    rw [Place.Describes, ← hconstant]
    obtain hleft | ⟨c, rfl⟩ := hleaf.onColumn
    · rw [hleft]
      exact isOn_words hfield hleft _
    · exact words_ofEmpty _ key c

/-! ## Values under a key -/

theorem key_of_mem_fieldLeaves (key : String) (v : Value) :
    ∀ c, ∀ p ∈ v.fieldLeaves false key c, p.key = some key := by
  induction v using Value.induction_on_parts with
  | step v ih =>
    intro c p hp
    cases v with
    | group id kind items own =>
      rw [Value.fieldLeaves, Value.itemsLeaves_eq_flatMap] at hp
      obtain ⟨w, hw, hp⟩ := List.mem_flatMap.mp hp
      exact ih w hw _ p hp
    | unset => exact absurd hp List.not_mem_nil
    | _ => exact congrArg Place.key (List.mem_singleton.mp hp)

theorem length_atoms_le_of_mem {part : Condition} {parts : List Condition} (h : part ∈ parts) :
    part.atoms.length ≤ (partAtoms parts).length := by
  induction parts with
  | nil => exact absurd h List.not_mem_nil
  | cons p parts ih =>
    rw [partAtoms, List.length_append]
    obtain rfl | h := List.mem_cons.mp h
    · omega
    · have hle := ih h
      omega

theorem filter_partTexts {parts : List Condition} {siblings : Int}
    (hne : ∀ a ∈ partAtoms parts, a ≠ "")
    (each : ∀ part ∈ parts,
      part.atoms.length ≤ 1 ∧ part.text siblings = part.atoms.headD "") :
    (partTexts parts siblings).filter (!·.isEmpty) = partAtoms parts := by
  induction parts with
  | nil => rfl
  | cons part parts ih =>
    rw [partAtoms] at hne ⊢
    rw [List.forall_mem_append] at hne
    rw [List.forall_mem_cons] at each
    obtain ⟨⟨hatoms, htext⟩, hrest⟩ := each
    have hparts := ih hne.2 hrest
    rw [partTexts, htext]
    match hpart : part.atoms with
    | [] => simpa using hparts
    | [a] =>
      have ha : a ≠ "" := hne.1 a (by simp [hpart])
      simpa [ha] using hparts
    | _ :: _ :: _ =>
      rw [hpart, List.length_cons, List.length_cons] at hatoms
      omega

theorem joinParts_of_le_one {parts : List String} {atoms : List String} {connective : String}
    {siblings : Int} (h : parts.filter (!·.isEmpty) = atoms) (hatoms : atoms.length ≤ 1) :
    Sql.joinParts parts connective siblings = atoms.headD "" := by
  rw [Sql.joinParts, h]
  rcases atoms with _ | ⟨a, _ | ⟨b, rest⟩⟩
  · rfl
  · simp
  · rw [List.length_cons, List.length_cons] at hatoms
    omega

/-- **Lone leaves.** A value under a key with no leaf but one is written as that leaf is. -/
theorem text_of_ofField {key : String} {v : Value} :
    ∀ {c b condition}, (ofField ⟨t, .standard, isFar⟩ key v c b).result = .ok condition →
      condition.atoms.length ≤ 1 → ∀ s, condition.text s = condition.atoms.headD "" := by
  induction v using Value.induction_on_parts with
  | step v ih =>
    intro c b condition h hatoms s
    have hne := ne_empty_of_mem_atoms ((agreesEverywhere _ v).field h).atoms
    cases FieldCase.of_ofField h with
    | @group _ _ items own parts hitems =>
      have hparts := hitems.forall_mem fun w hw b part hpart ↦ ih w hw hpart
      rw [atoms] at hne hatoms ⊢
      rw [text]
      refine joinParts_of_le_one (filter_partTexts hne fun part hpart ↦ ?_) hatoms
      -- a group with one atom at most has no part with more
      have hle := Nat.le_trans (length_atoms_le_of_mem hpart) hatoms
      exact ⟨hle, hparts part hpart hle _⟩
    | skipped => rfl
    | leaf => rfl

end Condition

end Rowmap
