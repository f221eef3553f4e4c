import Rowmap.Proofs.Condition.Blank

/-!
# A group under a key, spread over maps

A group of values under a key says the same as the group of maps that give each of the values to the
key by itself. The two go different ways through the compiler: the values of the one are parts of a
group in the one entry of a map, and each value of the other is the one entry of its own map. They
are compiled at the same places all the same, and the conditions that they become differ in where
the maps stand.

A map is written as true where nothing is left of it, so the texts are the same only if something is
left of each value.
-/

namespace Rowmap

/-! ## Computations that log -/

namespace Logged

variable {α β : Type}

theorem bind_mk (x : Logged α) (f : α → Logged β) : x >>= f =
    match x.result with
    | .error e => ⟨x.log, .error e⟩
    | .ok a => ⟨x.log ++ (f a).log, (f a).result⟩ := rfl

instance : LawfulMonad Logged := by
  refine LawfulMonad.mk' _ (fun x ↦ ?_) (fun a f ↦ ?_) fun x f g ↦ ?_
  · obtain ⟨log, _ | a⟩ := x
    · rfl
    · show (⟨log ++ [], .ok a⟩ : Logged _) = _
      rw [List.append_nil]
  · rfl
  · obtain ⟨log, _ | a⟩ := x
    · rfl
    · simp only [bind_mk]
      cases (f a).result with
      | error e => rfl
      | ok b => simp [List.append_assoc]

/-- Two functions that agree on the result of a computation agree on the computation. -/
theorem map_congr {f g : α → β} {x : Logged α} (h : ∀ a, x.result = .ok a → f a = g a) :
    f <$> x = g <$> x := by
  obtain ⟨log, _ | a⟩ := x
  · rfl
  · show (⟨log ++ [], .ok (f a)⟩ : Logged _) = ⟨log ++ [], .ok (g a)⟩
    rw [h a rfl]

end Logged

/-! ## Texts -/

theorem Sql.joinParts_singleton (text connective : String) (siblings : Int) :
    joinParts [text] connective siblings = text := by
  by_cases h : text = ""
  · subst h
    rfl
  · rw [joinParts, List.filter_cons_of_pos (by simpa using h)]
    simp

namespace Condition

theorem text_ne_empty {c : Condition} (hatoms : ∀ a ∈ c.atoms, a ≠ "") (truth : Nat → Bool)
    (h : (c.value truth 0).1.isSome = true) {siblings : Int} (hsiblings : 0 ≤ siblings) :
    c.text siblings ≠ "" := by
  obtain ⟨b, hb⟩ := Option.isSome_iff_exists.mp h
  have hpart := isPart_tokens truth c siblings 0 hsiblings
  rw [hb] at hpart
  have hspelled : Token.Spelled (c.tokens siblings) := by
    intro a ha
    rw [filterMap_atom?_tokens] at ha
    exact hatoms a ha
  rw [← written_tokens c siblings hatoms]
  exact hspelled.written_ne_empty hpart.1

theorem text_ne_empty_of_ofField {t : Table Value} {isFar : Bool} {key : String} {v : Value}
    (hv : v.isBlank = false) {c : Option Comparison} {b : Int} {part : Condition}
    (h : (ofField ⟨t, .standard, isFar⟩ key v c b).result = .ok part) {siblings : Int}
    (hsiblings : 0 ≤ siblings) : part.text siblings ≠ "" := by
  have hagrees := (agreesEverywhere _ v).field h
  refine text_ne_empty (ne_empty_of_mem_atoms hagrees.atoms) (fun _ ↦ true) ?_ hsiblings
  rw [hagrees.value]
  exact Value.isSome_fieldTruth _ hv 0

/-! ## Spread conditions -/

def spread (parts : List Condition) : List Condition := parts.map fun part ↦ .fields .and [part]

theorem partValues_spread (parts : List Condition) :
    partValues (spread parts) = partValues parts := by
  induction parts with
  | nil => rfl
  | cons part parts ih =>
    show (part.values ++ []) ++ partValues (spread parts) = _
    rw [ih, List.append_nil]
    rfl

/-- A map of one entry is written as that, or as true. -/
theorem text_fields_singleton (top : Connective) (part : Condition) (siblings : Int) :
    (fields top [part]).text siblings = orAlways (part.text siblings) := by
  have hcount : siblings + ([part].length : Nat) - 1 = siblings := by simp
  rw [text, hcount, partTexts, partTexts, Sql.joinParts_singleton]

/-- Maps of one entry are written as their entries, where something is left of each of these. -/
theorem partTexts_spread {parts : List Condition} {siblings : Int}
    (h : ∀ part ∈ parts, part.text siblings ≠ "") :
    partTexts (spread parts) siblings = partTexts parts siblings := by
  induction parts with
  | nil => rfl
  | cons part parts ih =>
    rw [List.forall_mem_cons] at h
    rw [spread, List.map_cons, ← spread, partTexts, partTexts, text_fields_singleton,
      orAlways_of_ne_empty h.1, ih h.2]

/-- A map with a group as its one entry is written as the group of the maps. -/
theorem statement_spread {parts : List Condition} {siblings : Int}
    (h : ∀ part ∈ parts, part.text (groupSiblings siblings parts.length) ≠ "")
    (top connective : Connective) :
    (fields top [group connective parts]).statement siblings =
      (group connective (spread parts)).statement siblings := by
  have htext : (group connective (spread parts)).text siblings =
      (group connective parts).text siblings := by
    rw [text, text, spread, List.length_map, ← spread, partTexts_spread h]
  have hvalues : (fields top [group connective parts]).values =
      (group connective (spread parts)).values := by
    show (group connective parts).values ++ [] = partValues (spread parts)
    rw [List.append_nil, partValues_spread, values]
  rw [statement, statement, htext, hvalues, text_fields_singleton, orAlways_orAlways]

end Condition

/-! ## Spread groups -/

/-- Each value as that of one key, in a map by itself. -/
def Value.spread (key : String) (items : List Value) : List Value :=
  items.map fun v ↦ .map [(key, v)]

namespace Condition

variable {s : Scope} {key : String} {field : Field} (hkey : s.table.field? key = some field)

include hkey

theorem ofNode_map_singleton (top : Connective) (v : Value) (c : Option Comparison) (b : Int) :
    ofNode s top (.map [(key, v)]) c b =
      (fun part ↦ .fields top [part]) <$> ofField s key v c b := by
  have hok {α : Type} (a : α) : Logged.ok a = pure a := rfl
  rw [ofNode, ofEntries, fieldOf_of_field? hkey]
  show fields top <$> (ofField s key v c b >>= fun part ↦ _) = _
  simp only [ofEntries, hok, bind_pure_comp, map_pure, Functor.map_map]

theorem ofNodes_spread (items : List Value) (c : Option Comparison) (b : Int) :
    ofNodes s (Value.spread key items) c b = spread <$> ofFieldItems s key items c b := by
  have hok {α : Type} (a : α) : Logged.ok a = pure a := rfl
  induction items generalizing b with
  | nil => rfl
  | cons v items ih =>
    have hcount (part : Condition) : (fields .and [part]).values.length = part.values.length := by
      show (part.values ++ []).length = _
      rw [List.append_nil]
    rw [Value.spread, List.map_cons, ← Value.spread, ofNodes, ofNode_map_singleton hkey,
      ofFieldItems]
    simp only [bind_map_left, map_bind, hcount, ih, hok, map_pure]
    rfl

end Condition

/-- The conditions of values that are not blank are written as something, for as many siblings as
they have in their group. -/
theorem Condition.text_ne_empty_of_ofFieldItems {t : Table Value} {isFar : Bool} {key : String}
    {items : List Value} (hblank : ∀ v ∈ items, v.isBlank = false) {c : Option Comparison} {b : Int}
    {parts : List Condition}
    (h : (ofFieldItems ⟨t, .standard, isFar⟩ key items c b).result = .ok parts) {siblings : Int}
    (hsiblings : 0 ≤ siblings) :
    ∀ part ∈ parts, part.text (groupSiblings siblings parts.length) ≠ "" := by
  intro part hmem
  have hcount := (suffices_groupSiblings hsiblings parts.length).nonneg
    (List.length_pos_of_mem hmem)
  exact (threaded_of_ofFieldItems h).forall_mem
    (fun v hv b part hpart ↦ text_ne_empty_of_ofField (hblank v hv) hpart hcount) part hmem

/-- **A group of values under a key is the group of the maps that spread them**: it compiles to the
same text, values and warnings, or to the same failure, by the standard rules, if something is left
of each value. -/
theorem Scope.compile_spread {t : Table Value} {isFar : Bool} {key : String} {field : Field}
    (hkey : t.field? key = some field) {items : List Value} (hitems : items ≠ [])
    (hblank : ∀ v ∈ items, v.isBlank = false) {o : CompileOptions} (hsiblings : 0 ≤ o.siblings)
    (i j : Nat) (kind : GroupKind) (own : Option Comparison) :
    Scope.compile ⟨t, .standard, isFar⟩ (.map [(key, .group i kind items own)]) o =
      Scope.compile ⟨t, .standard, isFar⟩ (.group j kind (Value.spread key items) own) o := by
  have hstatement (tree : Value) : Scope.compile ⟨t, .standard, isFar⟩ tree o =
      (·.statement o.siblings) <$> Scope.condition ⟨t, .standard, isFar⟩ tree o := rfl
  rw [hstatement, hstatement, Scope.condition, Scope.condition]
  cases o.key with
  | none =>
    dsimp only
    rw [Condition.ofNode_map_singleton hkey, Condition.ofField, Condition.ofNode,
      Condition.ofNodes_spread hkey, Functor.map_map, Functor.map_map, Functor.map_map,
      Functor.map_map]
    exact Logged.map_congr fun parts hparts ↦ Condition.statement_spread
      (Condition.text_ne_empty_of_ofFieldItems hblank hparts hsiblings) _ _
  | some key' =>
    -- under another key neither a map nor a group of maps can stand
    obtain ⟨v, items, rfl⟩ := List.exists_cons_of_ne_nil hitems
    rfl

/-- Values of several kinds, one of them a group in which a value was never given. -/
def Value.mixedItems : List Value :=
  [.null, .list [.int 2, .int 3], .rawSql 0 "SELECT 1" [] none,
    .group 1 .all [.unset, .wrapped (.int 4) true (some .less) false,
      .group 2 .any [.marker .now, .int 5] (some .equal)] none]

/-- The condition that they become under a key and a default, after one bound value. -/
def Condition.mixedItems : Condition :=
  .fields .or [.group .or [.atom "\"a\" >= $2" [.null], .atom "\"a\" IN ($3, $4)" [.int 2, .int 3],
    .atom "\"a\" IN (SELECT 1)" [], .group .and [.skipped, .atom "\"a\" < $5" [.int 4],
      .group .or [.atom "\"a\" = NOW()" [], .atom "\"a\" = $6" [.int 5]]]]]

/-- The statement that this is among two siblings. -/
def Statement.mixedItems : Statement where
  text := "(\"a\" >= $2 OR \"a\" IN ($3, $4) OR \"a\" IN (SELECT 1) OR " ++
    "(\"a\" < $5 AND (\"a\" = NOW() OR \"a\" = $6)))"
  values := [.null, .int 2, .int 3, .int 4, .int 5]

theorem Scope.compile_spread_mixedItems :
    Scope.compile ⟨.letters, .standard, false⟩
        (.map [("a", .group 3 .any Value.mixedItems (some .greaterEqual))])
        ⟨some .unknown, .or, 1, 2, none⟩ =
      Scope.compile ⟨.letters, .standard, false⟩
        (.group 4 .any (Value.spread "a" Value.mixedItems) (some .greaterEqual))
        ⟨some .unknown, .or, 1, 2, none⟩ ∧
    (Scope.condition ⟨.letters, .standard, false⟩
        (.map [("a", .group 3 .any Value.mixedItems (some .greaterEqual))])
        ⟨some .unknown, .or, 1, 2, none⟩).result = .ok .mixedItems ∧
    (Scope.compile ⟨.letters, .standard, false⟩
        (.map [("a", .group 3 .any Value.mixedItems (some .greaterEqual))])
        ⟨some .unknown, .or, 1, 2, none⟩).result = .ok .mixedItems ∧
    (Scope.compile ⟨.letters, .standard, false⟩
        (.group 4 .any (Value.spread "a" Value.mixedItems) (some .greaterEqual))
        ⟨some .unknown, .or, 1, 2, none⟩).result = .ok .mixedItems := by
  have hkey : Table.letters.field? "a" = some ⟨.integer, none, true, false⟩ := rfl
  have hspread : Scope.compile ⟨.letters, .standard, false⟩
      (.map [("a", .group 3 .any Value.mixedItems (some .greaterEqual))])
      ⟨some .unknown, .or, 1, 2, none⟩ = Scope.compile ⟨.letters, .standard, false⟩
      (.group 4 .any (Value.spread "a" Value.mixedItems) (some .greaterEqual))
      ⟨some .unknown, .or, 1, 2, none⟩ :=
    Scope.compile_spread hkey (by simp [Value.mixedItems]) (by decide) (by decide) 3 4 .any _
  have hcondition : (Scope.condition ⟨.letters, .standard, false⟩
      (.map [("a", .group 3 .any Value.mixedItems (some .greaterEqual))])
      ⟨some .unknown, .or, 1, 2, none⟩).result = .ok .mixedItems := rfl
  have hunder : (Scope.compile ⟨.letters, .standard, false⟩
      (.map [("a", .group 3 .any Value.mixedItems (some .greaterEqual))])
      ⟨some .unknown, .or, 1, 2, none⟩).result = .ok .mixedItems :=
    Logged.bind_eq_ok.mpr ⟨_, hcondition, rfl⟩
  exact ⟨hspread, hcondition, hunder, hspread ▸ hunder⟩

end Rowmap
