import Rowmap.Proofs.Condition.Meaning
import Rowmap.Proofs.Condition.Succeeds

/-!
# Branches without a condition

A branch of a disjunction in which no value was ever given has no condition, and the question is
what becomes of the disjunction. Under a key nothing is left of such a branch, and the disjunction
is that of the other branches. At the position of a node a branch is made of maps, and a map of
which nothing is left is true; so a single map without a value makes the whole disjunction true.

Leaving out the branch keeps the leaves, their numbers and the bound values, so the statements with
and without it can be compared leaf by leaf. The comparison is made on resolved conditions, former
by former, and then read off the text.
-/

namespace Rowmap

/-! ## Joined values -/

namespace Connective

theorem join_and (vs : List (Option Bool)) : join .and vs =
    if vs.reduceOption.isEmpty then none else some (vs.reduceOption.all id) := by
  rw [join.eq_def]
  cases vs.reduceOption <;> simp

theorem join_or (vs : List (Option Bool)) : join .or vs =
    if vs.reduceOption.isEmpty then none else some (vs.reduceOption.any id) := by
  rw [join.eq_def]
  cases vs.reduceOption <;> simp

/-- A group has a value as soon as one of its parts has one. -/
theorem isSome_join {c : Connective} {vs : List (Option Bool)} {v : Option Bool} (hv : v ∈ vs)
    (h : v.isSome = true) : (c.join vs).isSome = true := by
  obtain ⟨b, rfl⟩ := Option.isSome_iff_exists.mp h
  have hne : vs.reduceOption.isEmpty = false :=
    List.isEmpty_eq_false_iff_exists_mem.mpr ⟨b, List.reduceOption_mem_iff.mpr hv⟩
  cases c with
  | and => rw [join_and, hne, if_neg Bool.false_ne_true, Option.isSome_some]
  | or => rw [join_or, hne, if_neg Bool.false_ne_true, Option.isSome_some]

/-- A part without a value is left out. -/
theorem join_append_none (c : Connective) (vs ws : List (Option Bool)) :
    c.join (vs ++ none :: ws) = c.join (vs ++ ws) := by
  rw [join.eq_def, join.eq_def, List.reduceOption_append, List.reduceOption_append,
    List.reduceOption_cons_of_none]

theorem join_or_append_true (vs ws : List (Option Bool)) :
    join .or (vs ++ some true :: ws) = some true := by
  rw [join_or, List.reduceOption_append, List.reduceOption_cons_of_some]
  simp

/-- A conjunction with one more part. -/
theorem join_and_append_some (vs ws : List (Option Bool)) (b : Bool) :
    join .and (vs ++ some b :: ws) = some (b && (vs ++ ws).reduceOption.all id) := by
  rw [join_and]
  simp [List.reduceOption_append, Bool.and_left_comm]

/-- With a true part in the place of another, a group has the value that it had or is true. -/
theorem join_append_true (c : Connective) (vs ws : List (Option Bool)) (v : Option Bool) :
    c.join (vs ++ some true :: ws) = c.join (vs ++ v :: ws) ∨
      c.join (vs ++ some true :: ws) = some true := by
  cases c with
  | or => exact .inr (join_or_append_true vs ws)
  | and =>
    rw [join_and_append_some, Bool.true_and]
    cases v with
    | none =>
      rw [join_append_none, join_and]
      cases (vs ++ ws).reduceOption with
      | nil => exact .inr rfl
      | cons b bs => exact .inl rfl
    | some b =>
      rw [join_and_append_some]
      -- a false part changes the value only where the others hold
      cases (vs ++ ws).reduceOption.all id with
      | true => exact .inr rfl
      | false => exact .inl (by rw [Bool.and_false])

end Connective

/-! ## Blank values -/

namespace Value

mutual

/-- Whether a node has no conditions but such on values that were never given. -/
def isBlankNode : Value → Bool
  | .group _ _ items _ => areBlankNodes items
  | .list items => areBlankNodes items
  | .tuple items => areBlankNodes items
  | .map entries => areBlankEntries entries
  | _ => false
termination_by structural v => v

/-- Whether several nodes have no other conditions. -/
def areBlankNodes : List Value → Bool
  | [] => true
  | v :: vs => isBlankNode v && areBlankNodes vs
termination_by structural vs => vs

/-- Whether the entries of a map of fields are no other conditions. -/
def areBlankEntries : List (String × Value) → Bool
  | [] => true
  | (_, v) :: es => isBlank v && areBlankEntries es
termination_by structural es => es

/-- Whether a value under a key was never given, or is a group of such values. -/
def isBlank : Value → Bool
  | .group _ _ items _ => areBlank items
  | .unset => true
  | _ => false
termination_by structural v => v

/-- Whether several values under a key were never given. -/
def areBlank : List Value → Bool
  | [] => true
  | v :: vs => isBlank v && areBlank vs
termination_by structural vs => vs

end

mutual

/-- Whether a node is made of groups and lists alone, all the way down. -/
def isHollow : Value → Bool
  | .group _ _ items _ => areHollow items
  | .list items => areHollow items
  | .tuple items => areHollow items
  | _ => false
termination_by structural v => v

/-- Whether several nodes are made of groups and lists alone. -/
def areHollow : List Value → Bool
  | [] => true
  | v :: vs => isHollow v && areHollow vs
termination_by structural vs => vs

end

theorem areBlankNodes_eq_all (vs : List Value) : areBlankNodes vs = vs.all isBlankNode := by
  induction vs with
  | nil => rfl
  | cons v vs ih => rw [areBlankNodes, List.all_cons, ih]

theorem areBlankEntries_eq_all (es : List (String × Value)) :
    areBlankEntries es = es.all fun e ↦ e.2.isBlank := by
  induction es with
  | nil => rfl
  | cons e es ih => rw [areBlankEntries, List.all_cons, ih]

theorem areBlank_eq_all (vs : List Value) : areBlank vs = vs.all isBlank := by
  induction vs with
  | nil => rfl
  | cons v vs ih => rw [areBlank, List.all_cons, ih]

/-! ### What they mean -/

/-- Each part has its value among those of all parts, after the leaves before it. -/
theorem exists_mem_inTurn {α : Type} (meaning : α → Nat → Option Bool × Nat) {as : List α} {a : α}
    (ha : a ∈ as) (n : Nat) : ∃ m, (meaning a m).1 ∈ (inTurn meaning as n).1 := by
  induction as generalizing n with
  | nil => exact absurd ha List.not_mem_nil
  | cons head as ih =>
    obtain rfl | ha := List.mem_cons.mp ha
    · exact ⟨n, List.mem_cons_self⟩
    · exact (ih ha _).imp fun m hm ↦ List.mem_cons_of_mem _ hm

/-- Parts that have no leaves are numbered alike, and have the values that each has by itself. -/
theorem inTurn_of_leafless {α : Type} {meaning : α → Nat → Option Bool × Nat}
    {value : α → Option Bool} {as : List α} (h : ∀ a ∈ as, ∀ n, meaning a n = (value a, n))
    (n : Nat) : inTurn meaning as n = (as.map value, n) := by
  induction as with
  | nil => rfl
  | cons a as ih =>
    rw [List.forall_mem_cons] at h
    rw [inTurn, h.1, ih h.2]
    rfl

/-- The value of a blank node: it is true as soon as there is a map in it. -/
def blankValue (v : Value) : Option Bool := if v.isHollow then none else some true

theorem blankValue_ne_false (v : Value) : v.blankValue ≠ some false := by
  rw [blankValue]
  split <;> simp

theorem isNone_blankValue (v : Value) : v.blankValue.isNone = v.isHollow := by
  rw [blankValue]
  split <;> simp [*]

theorem eq_true_of_mem_blankValue {vs : List Value} {b : Bool}
    (h : b ∈ (vs.map blankValue).reduceOption) : b = true := by
  obtain ⟨v, -, hv⟩ := List.mem_map.mp (List.reduceOption_mem_iff.mp h)
  rw [blankValue] at hv
  split at hv
  · exact nomatch hv
  · exact (Option.some.inj hv).symm

theorem join_blankValue (c : Connective) (vs : List Value) :
    c.join (vs.map blankValue) = if areHollow vs then none else some true := by
  induction vs with
  | nil => cases c <;> rfl
  | cons v vs ih =>
    rw [List.map_cons, areHollow, blankValue]
    cases v.isHollow with
    | true => exact (Connective.join_append_none c [] _).trans ih
    | false =>
      cases c with
      | or => exact Connective.join_or_append_true [] _
      | and =>
        refine (Connective.join_and_append_some [] _ true).trans (congrArg some ?_)
        rw [Bool.true_and, List.all_eq_true]
        exact fun b hb ↦ eq_true_of_mem_blankValue hb

/-- Nothing is left of parts that have no value. -/
theorem join_map_none {α : Type} (c : Connective) (as : List α) :
    c.join (as.map fun _ ↦ none) = none := by
  induction as with
  | nil => cases c <;> rfl
  | cons a as ih => exact (Connective.join_append_none c [] _).trans ih

theorem fieldTruth_of_isBlank (truth : Nat → Bool) {v : Value} (h : v.isBlank = true) (n : Nat) :
    v.fieldTruth truth n = (none, n) := by
  induction v using induction_on_parts generalizing n with
  | step v ih =>
    cases v with
    | group id kind items own =>
      rw [isBlank, areBlank_eq_all, List.all_eq_true] at h
      have hitems : ∀ w ∈ items, ∀ n, w.fieldTruth truth n = (none, n) :=
        fun w hw ↦ ih w hw (h w hw)
      rw [fieldTruth, itemsTruth_eq_inTurn, inTurn_of_leafless hitems]
      exact congrArg (·, n) (join_map_none kind.connective items)
    | unset => rfl
    | _ => exact absurd h Bool.false_ne_true

theorem isSome_fieldTruth (truth : Nat → Bool) {v : Value} (h : v.isBlank = false) (n : Nat) :
    (v.fieldTruth truth n).1.isSome = true := by
  induction v using induction_on_parts generalizing n with
  | step v ih =>
    cases v with
    | group id kind items own =>
      rw [isBlank, areBlank_eq_all, List.all_eq_false] at h
      obtain ⟨w, hw, hblank⟩ := h
      rw [fieldTruth, itemsTruth_eq_inTurn]
      obtain ⟨m, hm⟩ := exists_mem_inTurn (fieldTruth truth) hw n
      exact Connective.isSome_join hm (ih w hw (by simpa using hblank) m)
    | unset => exact absurd h.symm Bool.false_ne_true
    | _ => rfl

theorem nodeTruth_of_isBlankNode (truth : Nat → Bool) {v : Value} (h : v.isBlankNode = true)
    (top : Connective) (n : Nat) : v.nodeTruth truth top n = (v.blankValue, n) := by
  induction v using induction_on_parts generalizing top n with
  | step v ih =>
    have hnodes {items : List Value} (hparts : ∀ w ∈ items, w ∈ v.parts)
        (h : areBlankNodes items = true) (c : Connective) :
        (nodesTruth truth items n).map c.join id =
          (if areHollow items then none else some true, n) := by
      rw [areBlankNodes_eq_all, List.all_eq_true] at h
      rw [nodesTruth_eq_inTurn,
        inTurn_of_leafless fun w hw ↦ ih w (hparts w hw) (h w hw) .and, ← join_blankValue c]
      rfl
    cases v with
    | group id kind items own => exact hnodes (fun _ h ↦ h) h kind.connective
    | list items => exact hnodes (fun _ h ↦ h) h .and
    | tuple items => exact hnodes (fun _ h ↦ h) h .and
    | map entries =>
      rw [isBlankNode, areBlankEntries_eq_all, List.all_eq_true] at h
      rw [nodeTruth, entriesTruth_eq_inTurn,
        inTurn_of_leafless fun e he ↦ fieldTruth_of_isBlank truth (h e he)]
      show (some ((top.join _).getD true), n) = _
      rw [join_map_none]
      rfl
    | _ => exact absurd h Bool.false_ne_true

/-! ### Their leaves -/

theorem fieldLeaves_of_isBlank (deep : Bool) (key : String) {v : Value} (h : v.isBlank = true)
    (c : Option Comparison) : v.fieldLeaves deep key c = [] := by
  induction v using induction_on_parts generalizing c with
  | step v ih =>
    cases v with
    | group id kind items own =>
      rw [isBlank, areBlank_eq_all, List.all_eq_true] at h
      rw [fieldLeaves, itemsLeaves_eq_flatMap, List.flatMap_eq_nil_iff]
      exact fun w hw ↦ ih w hw (h w hw) _
    | unset => rfl
    | _ => exact absurd h Bool.false_ne_true

theorem nodeLeaves_of_isBlankNode (deep : Bool) {v : Value} (h : v.isBlankNode = true)
    (c : Option Comparison) : v.nodeLeaves deep c = [] := by
  induction v using induction_on_parts generalizing c with
  | step v ih =>
    have hnodes {items : List Value} (hparts : ∀ w ∈ items, w ∈ v.parts)
        (h : areBlankNodes items = true) (c : Option Comparison) :
        nodesLeaves deep items c = [] := by
      rw [areBlankNodes_eq_all, List.all_eq_true] at h
      rw [nodesLeaves_eq_flatMap, List.flatMap_eq_nil_iff]
      exact fun w hw ↦ ih w (hparts w hw) (h w hw) c
    cases v with
    | group id kind items own => exact hnodes (fun _ h ↦ h) h _
    | list items => exact hnodes (fun _ h ↦ h) h c
    | tuple items => exact hnodes (fun _ h ↦ h) h c
    | map entries =>
      rw [isBlankNode, areBlankEntries_eq_all, List.all_eq_true] at h
      rw [nodeLeaves, entriesLeaves_eq_flatMap, List.flatMap_eq_nil_iff]
      exact fun e he ↦ fieldLeaves_of_isBlank deep e.1 (h e he) c
    | _ => exact absurd h Bool.false_ne_true

end Value

/-! ## Blank conditions -/

/-- What is compiled one after the other is compiled in two runs, the second behind the first. -/
theorem Threaded.append_iff {α : Type} {compiles : α → Int → Condition → Prop} {as as' : List α}
    {b : Int} {parts : List Condition} : Threaded compiles (as ++ as') b parts ↔
      ∃ ps qs, parts = ps ++ qs ∧ Threaded compiles as b ps ∧
        Threaded compiles as' (b + (Condition.partValues ps).length) qs := by
  induction as generalizing b parts with
  | nil =>
    constructor
    · intro h
      exact ⟨[], parts, rfl, .nil b, by simpa [Condition.partValues] using h⟩
    · rintro ⟨_, qs, rfl, ⟨⟩, h⟩
      simpa [Condition.partValues] using h
  | cons a as ih =>
    constructor
    · rintro (_ | ⟨head, tail⟩)
      obtain ⟨ps, qs, rfl, hps, hqs⟩ := ih.mp tail
      refine ⟨_ :: ps, qs, rfl, .cons head hps, ?_⟩
      rwa [Condition.partValues, List.length_append, Int.natCast_add, ← Int.add_assoc]
    · rintro ⟨_, qs, rfl, _ | ⟨head, tail⟩, hqs⟩
      rw [Condition.partValues, List.length_append, Int.natCast_add, ← Int.add_assoc] at hqs
      exact .cons head (ih.mpr ⟨_, qs, rfl, tail, hqs⟩)

namespace Condition

mutual

/-- A condition without leaves binds nothing. -/
theorem values_of_atoms_eq_nil : ∀ c : Condition, c.atoms = [] → c.values = []
  | .skipped, _ => rfl
  | .atom _ _, h => nomatch h
  | .group _ parts, h => partValues_of_partAtoms_eq_nil parts h
  | .fields _ parts, h => partValues_of_partAtoms_eq_nil parts h

theorem partValues_of_partAtoms_eq_nil : ∀ parts : List Condition,
    partAtoms parts = [] → partValues parts = []
  | [], _ => rfl
  | part :: parts, h => by
    rw [partAtoms, List.append_eq_nil_iff] at h
    rw [partValues, values_of_atoms_eq_nil part h.1, partValues_of_partAtoms_eq_nil parts h.2]
    rfl

end

/-- A condition without leaves, which has one value. -/
structure Says (c : Condition) (v : Option Bool) : Prop where
  atoms : c.atoms = []
  value : ∀ truth n, c.value truth n = (v, n)

theorem Says.values {c : Condition} {v : Option Bool} (h : c.Says v) : c.values = [] :=
  values_of_atoms_eq_nil c h.atoms

theorem says_of_agrees {s : Scope} {leaves : List Place}
    {meaning : (Nat → Bool) → Nat → Option Bool × Nat} {c : Condition}
    (h : Agrees s leaves meaning c) (hleaves : leaves = []) {v : Option Bool}
    (hmeaning : ∀ truth n, meaning truth n = (v, n)) : c.Says v where
  atoms := by
    obtain ⟨-, hatoms⟩ := h
    rw [hleaves] at hatoms
    exact List.forall₂_nil_left_iff.mp hatoms
  value truth n := (h.value truth n).trans (hmeaning truth n)

variable {s : Scope} {v : Value} {c : Option Comparison} {b : Int} {part : Condition}

/-- Nothing is said of a key whose value was never given. -/
theorem says_of_isBlank {key : String} (hv : v.isBlank = true)
    (h : (ofField s key v c b).result = .ok part) : part.Says none :=
  says_of_agrees ((agreesEverywhere s v).field h) (Value.fieldLeaves_of_isBlank false key hv c)
    fun truth ↦ Value.fieldTruth_of_isBlank truth hv

theorem says_of_isBlankNode {top : Connective} (hv : v.isBlankNode = true)
    (h : (ofNode s top v c b).result = .ok part) : part.Says v.blankValue :=
  says_of_agrees ((agreesEverywhere s v).node h) (Value.nodeLeaves_of_isBlankNode false hv c)
    fun truth ↦ Value.nodeTruth_of_isBlankNode truth hv top

end Condition

end Rowmap
