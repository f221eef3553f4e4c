import Rowmap.Proofs.Condition.Places
import Rowmap.Proofs.Condition.StandardLeaf
import Rowmap.Proofs.Condition.Tokens
import Rowmap.Proofs.Value.Parts

/-!
# What a condition tree means

A tree's own value, given by recursion on the tree alone: lists and maps are conjunctions, groups
are joined by their connective, and what was never given is dropped from the group that holds it.
The main fact is that the text a tree compiles to, read with the precedence of the language, has
this value, whatever truth values its leaves have.

Leaves are numbered from left to right, on the tree as in the text, and the text of each is what the
leaf compiles to by itself.
-/

namespace Rowmap

/-! ## Trees -/

namespace Value

mutual

/-- The value of a node whose leaves, numbered from a given one on, have given truth values, and the
number after its last leaf. There is no value when nothing is left of the node. A map at this
position is joined by a given connective. -/
def nodeTruth (truth : Nat → Bool) (top : Connective) : Value → Nat → Option Bool × Nat
  | .group _ kind items _, n => (nodesTruth truth items n).map kind.connective.join id
  | .list items, n => (nodesTruth truth items n).map (Connective.join .and) id
  | .tuple items, n => (nodesTruth truth items n).map (Connective.join .and) id
  | .map entries, n =>
    (entriesTruth truth entries n).map (fun vs ↦ some ((top.join vs).getD true)) id
  | _, n => (some (truth n), n + 1)

def nodesTruth (truth : Nat → Bool) : List Value → Nat → List (Option Bool) × Nat
  | [], n => ([], n)
  | v :: vs, n =>
    let first := v.nodeTruth truth .and n
    (nodesTruth truth vs first.2).map (first.1 :: ·) id

/-- The values of the entries of a map of fields. -/
def entriesTruth (truth : Nat → Bool) : List (String × Value) → Nat → List (Option Bool) × Nat
  | [], n => ([], n)
  | (_, v) :: es, n =>
    let first := v.fieldTruth truth n
    (entriesTruth truth es first.2).map (first.1 :: ·) id

def fieldTruth (truth : Nat → Bool) : Value → Nat → Option Bool × Nat
  | .group _ kind items _, n => (itemsTruth truth items n).map kind.connective.join id
  | .unset, n => (none, n)
  | _, n => (some (truth n), n + 1)

/-- The values of several values under a key. -/
def itemsTruth (truth : Nat → Bool) : List Value → Nat → List (Option Bool) × Nat
  | [], n => ([], n)
  | v :: vs, n =>
    let first := v.fieldTruth truth n
    (itemsTruth truth vs first.2).map (first.1 :: ·) id

end

/-- The value of a whole tree. A tree of which nothing is left is true. -/
def treeTruth (truth : Nat → Bool) (tree : Value) (o : CompileOptions) : Bool :=
  let v := match o.key with
    | some _ => (tree.fieldTruth truth 0).1
    | none => (tree.nodeTruth truth o.connective 0).1
  v.getD true

/-! ## Lists -/

/-- Optional values one after the other, each with its atoms after those before it. -/
def inTurn {α : Type} (meaning : α → Nat → Option Bool × Nat) :
    List α → Nat → List (Option Bool) × Nat
  | [], n => ([], n)
  | a :: as, n => (inTurn meaning as (meaning a n).2).map ((meaning a n).1 :: ·) id

theorem nodesTruth_eq_inTurn (truth : Nat → Bool) (vs : List Value) :
    nodesTruth truth vs = inTurn (nodeTruth truth .and) vs := by
  funext n
  induction vs generalizing n with
  | nil => rfl
  | cons v vs ih => rw [nodesTruth, inTurn, ih]

theorem entriesTruth_eq_inTurn (truth : Nat → Bool) (es : List (String × Value)) :
    entriesTruth truth es = inTurn (fun e ↦ e.2.fieldTruth truth) es := by
  funext n
  induction es generalizing n with
  | nil => rfl
  | cons e es ih => rw [entriesTruth, inTurn, ih]

theorem itemsTruth_eq_inTurn (truth : Nat → Bool) (vs : List Value) :
    itemsTruth truth vs = inTurn (fieldTruth truth) vs := by
  funext n
  induction vs generalizing n with
  | nil => rfl
  | cons v vs ih => rw [itemsTruth, inTurn, ih]

end Value

/-! ## Compiled trees -/

/-- A text that a leaf is written as when it is compiled by itself. -/
def Place.WrittenAs (s : Scope) (p : Place) (text : String) : Prop :=
  ∃ (o : CompileOptions) (values : List Value), o.key = p.key ∧ o.comparison = p.comparison ∧
    (s.condition p.value o).result = .ok (.atom text values)

namespace Condition

/-- A condition that has the value of a tree, and the tree's leaves as its atoms. -/
structure Agrees (s : Scope) (leaves : List Place)
    (meaning : (Nat → Bool) → Nat → Option Bool × Nat) (c : Condition) : Prop where
  value : ∀ truth n, c.value truth n = meaning truth n
  atoms : List.Forall₂ (Place.WrittenAs s) leaves c.atoms

variable {s : Scope} {α : Type} {leaves : α → List Place}
  {meaning : α → (Nat → Bool) → Nat → Option Bool × Nat} {as : List α} {parts : List Condition}

theorem partsValue_of_agrees
    (h : List.Forall₂ (fun a part ↦ Agrees s (leaves a) (meaning a) part) as parts)
    (truth : Nat → Bool) (n : Nat) :
    partsValue truth parts n = Value.inTurn (fun a ↦ meaning a truth) as n := by
  induction h generalizing n with
  | nil => rfl
  | cons head tail ih => rw [partsValue, Value.inTurn, head.value, ih]

theorem partAtoms_of_agrees
    (h : List.Forall₂ (fun a part ↦ Agrees s (leaves a) (meaning a) part) as parts) :
    List.Forall₂ (Place.WrittenAs s) (as.flatMap leaves) (partAtoms parts) := by
  induction h with
  | nil => exact .nil
  | cons head tail ih => exact List.rel_append head.atoms ih

theorem Agrees.group (connective : Connective)
    (h : List.Forall₂ (fun a part ↦ Agrees s (leaves a) (meaning a) part) as parts) :
    Agrees s (as.flatMap leaves)
      (fun truth n ↦ (Value.inTurn (fun a ↦ meaning a truth) as n).map connective.join id)
      (.group connective parts) where
  value truth n := by rw [Condition.value, partsValue_of_agrees h]
  atoms := partAtoms_of_agrees h

theorem Agrees.fields (connective : Connective)
    (h : List.Forall₂ (fun a part ↦ Agrees s (leaves a) (meaning a) part) as parts) :
    Agrees s (as.flatMap leaves)
      (fun truth n ↦ (Value.inTurn (fun a ↦ meaning a truth) as n).map
        (fun vs ↦ some ((connective.join vs).getD true)) id)
      (.fields connective parts) where
  value truth n := by rw [Condition.value, partsValue_of_agrees h]
  atoms := partAtoms_of_agrees h

theorem Agrees.atom {p : Place} {text : String} (values : List Value) (h : p.WrittenAs s text) :
    Agrees s [p] (fun truth n ↦ (some (truth n), n + 1)) (.atom text values) where
  value _ _ := rfl
  atoms := .cons h .nil

/-- A value that agrees with the condition that it becomes, as a node and under a key. -/
structure AgreesEverywhere (s : Scope) (v : Value) : Prop where
  node : ∀ {top c b condition}, (ofNode s top v c b).result = .ok condition →
    Agrees s (v.nodeLeaves false c) (fun truth ↦ v.nodeTruth truth top) condition
  field : ∀ {key c b condition}, (ofField s key v c b).result = .ok condition →
    Agrees s (v.fieldLeaves false key c) (fun truth ↦ v.fieldTruth truth) condition

theorem agrees_nodes {vs : List Value} (ih : ∀ v ∈ vs, AgreesEverywhere s v)
    {c : Option Comparison} {b : Int}
    (h : Threaded (fun v b part ↦ (ofNode s .and v c b).result = .ok part) vs b parts)
    (connective : Connective) :
    Agrees s (Value.nodesLeaves false vs c)
      (fun truth n ↦ (Value.nodesTruth truth vs n).map connective.join id)
      (.group connective parts) := by
  have hparts := h.forall₂ fun v hv b part hpart ↦ (ih v hv).node hpart
  simp only [Value.nodesLeaves_eq_flatMap, Value.nodesTruth_eq_inTurn]
  exact .group connective hparts

theorem agrees_items {key : String} {vs : List Value} (ih : ∀ v ∈ vs, AgreesEverywhere s v)
    {c : Option Comparison} {b : Int}
    (h : Threaded (fun v b part ↦ (ofField s key v c b).result = .ok part) vs b parts)
    (connective : Connective) :
    Agrees s (Value.itemsLeaves false key vs c)
      (fun truth n ↦ (Value.itemsTruth truth vs n).map connective.join id)
      (.group connective parts) := by
  have hparts := h.forall₂ fun v hv b part hpart ↦ (ih v hv).field hpart
  simp only [Value.itemsLeaves_eq_flatMap, Value.itemsTruth_eq_inTurn]
  exact .group connective hparts

theorem agrees_entries {es : List (String × Value)} (ih : ∀ e ∈ es, AgreesEverywhere s e.2)
    {c : Option Comparison} {b : Int}
    (h : Threaded (fun e b part ↦ (∃ field, s.table.field? e.1 = some field) ∧
      (ofField s e.1 e.2 c b).result = .ok part) es b parts) (connective : Connective) :
    Agrees s (Value.entriesLeaves false es c)
      (fun truth n ↦ (Value.entriesTruth truth es n).map
        (fun vs ↦ some ((connective.join vs).getD true)) id)
      (.fields connective parts) := by
  have hparts := h.forall₂ fun e he b part hpart ↦ (ih e he).field hpart.2
  simp only [Value.entriesLeaves_eq_flatMap, Value.entriesTruth_eq_inTurn]
  exact .fields connective hparts

theorem agrees_node {v : Value} (ih : ∀ w ∈ v.parts, AgreesEverywhere s w) {top : Connective}
    {c : Option Comparison} {b : Int} {condition : Condition}
    (h : (ofNode s top v c b).result = .ok condition) :
    Agrees s (v.nodeLeaves false c) (fun truth ↦ v.nodeTruth truth top) condition := by
  cases NodeCase.of_ofNode h with
  | group hitems => exact agrees_nodes ih hitems _
  | list hitems => exact agrees_nodes ih hitems .and
  | tuple hitems => exact agrees_nodes ih hitems .and
  | @map entries parts hentries =>
    have hes : ∀ e ∈ entries, AgreesEverywhere s e.2 := by
      intro e he
      exact ih e.2 (List.mem_map_of_mem he)
    exact agrees_entries hes hentries top
  | wrappedRows => exact .atom _ ⟨⟨c, top, b, 0, none⟩, _, rfl, rfl, h⟩
  | rows htest hright hv hr =>
    have hplace : Place.WrittenAs s ⟨none, v, c⟩ _ := ⟨⟨c, top, b, 0, none⟩, _, rfl, rfl, h⟩
    -- only what renders itself gets here, and no such value has nodes inside
    cases v <;> first | exact .atom _ hplace | exact absurd hv Bool.false_ne_true

theorem agrees_field {v : Value} (ih : ∀ w ∈ v.parts, AgreesEverywhere s w) {key : String}
    {c : Option Comparison} {b : Int} {condition : Condition}
    (h : (ofField s key v c b).result = .ok condition) :
    Agrees s (v.fieldLeaves false key c) (fun truth ↦ v.fieldTruth truth) condition := by
  cases FieldCase.of_ofField h with
  | group hitems => exact agrees_items ih hitems _
  | skipped => exact ⟨fun _ _ ↦ rfl, .nil⟩
  | leaf hfield hgroup hmap hunset hleaf hright =>
    have hplace : Place.WrittenAs s ⟨some key, v, c⟩ _ :=
      ⟨⟨c, .and, b, 0, some key⟩, _, rfl, rfl, h⟩
    -- a group or a value that was never given is not written as a leaf
    cases v <;> first
      | exact .atom _ hplace
      | exact absurd rfl hunset
      | exact absurd rfl (hgroup _ _ _ _)

/-- Each node, and each value under a key, agrees with the condition that it becomes. -/
theorem agreesEverywhere (s : Scope) (v : Value) : AgreesEverywhere s v := by
  induction v using Value.induction_on_parts with
  | step v ih => exact ⟨agrees_node ih, agrees_field ih⟩

/-! ## Texts of leaves -/

theorem words_ne_empty {text : String} (texts : List String) (h : text ≠ "") :
    Sql.words (text :: texts) ≠ "" := by
  rw [Sql.words, List.filter_cons_of_pos (by simpa using h)]
  cases texts.filter (!·.isEmpty) with
  | nil => simpa using h
  | cons other others =>
    rw [String.intercalate_cons_cons]
    simp

theorem quoteIdentifier_ne_empty (name : String) : Sql.quoteIdentifier name ≠ "" := by
  intro h
  have hlist := congrArg String.toList h
  simp [Sql.quoteIdentifier, Sql.between, Sql.enclosed] at hlist

theorem leftOf_ne_empty {field : Field} {key : String} {leaf : Leaf} (h : leaf.OnColumn) :
    leftOf field key leaf ≠ "" := by
  obtain hleft | ⟨c, rfl⟩ := h
  · rw [leftOf, hleft]
    simp [quoteIdentifier_ne_empty]
  · exact show "true" ≠ "" by decide

theorem ne_empty_of_writtenAs {t : Table Value} {isFar : Bool} {p : Place} {text : String}
    (h : p.WrittenAs ⟨t, .standard, isFar⟩ text) : text ≠ "" := by
  obtain ⟨key, v, c⟩ := p
  obtain ⟨o, values, -, -, h⟩ := h
  rw [Scope.condition] at h
  split at h
  · cases FieldCase.of_ofField h with
    | leaf hfield hgroup hmap hunset hleaf hright =>
      exact words_ne_empty _ (leftOf_ne_empty (LeafCase.of_standard hleaf).onColumn)
  · cases NodeCase.of_ofNode h with
    | wrappedRows => simp
    | rows => simp

theorem ne_empty_of_mem_atoms {t : Table Value} {isFar : Bool} {leaves : List Place}
    {texts : List String} (h : List.Forall₂ (Place.WrittenAs ⟨t, .standard, isFar⟩) leaves texts) :
    ∀ a ∈ texts, a ≠ "" := by
  induction h with
  | nil => exact fun _ ha ↦ absurd ha List.not_mem_nil
  | cons head tail ih => exact List.forall_mem_cons.mpr ⟨ne_empty_of_writtenAs head, ih⟩

end Condition

/-! ## The text of a tree -/

/-- **The text of a tree means what the tree means.** It is spelled by tokens whose atoms are the
tree's leaves in order, and that are read as the tree's own value, whatever the leaves' are. -/
theorem Scope.text_reads_as_tree {t : Table Value} {isFar : Bool} {tree : Value}
    {o : CompileOptions} (hsiblings : 0 ≤ o.siblings) {st : Statement}
    (h : (Scope.compile ⟨t, .standard, isFar⟩ tree o).result = .ok st) :
    ∃ tokens : List Token, Token.written tokens = st.text ∧
      List.Forall₂ (Place.WrittenAs ⟨t, .standard, isFar⟩) (tree.treeLeaves false o)
        (tokens.filterMap Token.atom?) ∧
      ∀ truth : Nat → Bool, Token.read truth tokens = some (tree.treeTruth truth o) := by
  obtain ⟨c, hc, hst⟩ := Logged.bind_eq_ok.mp h
  obtain rfl : c.statement o.siblings = st := Except.ok.inj hst
  obtain ⟨hvalue, hatoms⟩ : (∀ truth, ((c.value truth 0).1.getD true) = tree.treeTruth truth o) ∧
      List.Forall₂ (Place.WrittenAs ⟨t, .standard, isFar⟩) (tree.treeLeaves false o) c.atoms := by
    rw [Scope.condition] at hc
    cases hkey : o.key with
    | some key =>
      rw [hkey] at hc
      obtain ⟨hvalue, hatoms⟩ := (Condition.agreesEverywhere _ tree).field hc
      exact ⟨fun truth ↦ by rw [hvalue, Value.treeTruth, hkey], by rwa [Value.treeLeaves, hkey]⟩
    | none =>
      rw [hkey] at hc
      obtain ⟨hvalue, hatoms⟩ := (Condition.agreesEverywhere _ tree).node hc
      exact ⟨fun truth ↦ by rw [hvalue, Value.treeTruth, hkey], by rwa [Value.treeLeaves, hkey]⟩
  -- no leaf is empty, so what the text leaves out is what the tokens leave out
  have hne := Condition.ne_empty_of_mem_atoms hatoms
  refine ⟨Condition.orAlwaysToken (c.tokens o.siblings), c.written_statement _ hne, ?_, ?_⟩
  · rw [Condition.filterMap_atom?_orAlwaysToken, Condition.filterMap_atom?_tokens]
    exact hatoms
  · intro truth
    rw [Condition.read_tokens truth c hsiblings, hvalue]

/-- A record type of a whole number, its key, and a text. -/
def Table.letters : Table Value where
  recordName := "Letter"
  name := .text "letters"
  fields := [("a", ⟨.integer, none, true, false⟩), ("b", ⟨.text, none, false, true⟩)]
  primaryKey := [.text "a"]

/-- A disjunction under a key, with a value that was never given and a conjunction in it, beside
another condition. -/
def Value.nestedTree : Value :=
  .map [("a", .group 0 .any [.int 1, .unset, .group 1 .plain
    [.wrapped (.int 2) true (some .greater) true, .wrapped (.int 9) true (some .less) true] none]
      none), ("b", .null)]

/-- What the tree above compiles to as the conditions of a disjunction, after one bound value. -/
def Statement.nestedTree : Statement where
  text := "(\"a\" = $2 OR (\"a\" > $3 AND \"a\" < $4)) OR \"b\" IS NULL"
  values := [.int 1, .int 2, .int 9]

theorem Scope.text_reads_as_nestedTree :
    (Scope.compile ⟨.letters, .standard, false⟩ .nestedTree ⟨none, .or, 1, 0, none⟩).result =
      .ok .nestedTree ∧
    ∃ tokens : List Token, Token.written tokens = Statement.nestedTree.text ∧
      List.Forall₂ (Place.WrittenAs ⟨.letters, .standard, false⟩)
        (Value.treeLeaves false .nestedTree ⟨none, .or, 1, 0, none⟩)
        (tokens.filterMap Token.atom?) ∧
      ∀ truth : Nat → Bool, Token.read truth tokens =
        some (Value.nestedTree.treeTruth truth ⟨none, .or, 1, 0, none⟩) := by
  have h : (Scope.compile ⟨.letters, .standard, false⟩ .nestedTree ⟨none, .or, 1, 0, none⟩).result =
      .ok .nestedTree := by rfl
  exact ⟨h, Scope.text_reads_as_tree (Int.le_refl 0) h⟩

end Rowmap
