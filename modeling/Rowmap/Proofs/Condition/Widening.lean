import Rowmap.Proofs.Condition.Blank

/-!
# Disjunctions with a branch that was never given

A disjunction is compared with the one that lacks a branch in which no value was ever given. Under a
key the two are read alike. At the position of a node they are read alike only when the branch is
groups and lists alone; with a map in it the branch is true, and the disjunction with it.

Conditions are never negated, so a branch more can only widen the tree around it: with the branch
the tree is read as without it, or as true. The comparison goes through the tree one former at a
time, and keeps the leaves, the bound values and the numbers of both.
-/

namespace Rowmap

/-! ## Leaving out a branch -/

namespace Value

/-- A branch in which no value was ever given is left out of a disjunction under a key. -/
inductive FieldDrops : Value → Value → Prop where
  | branch {id : Nat} {own : Option Comparison} {before after : List Value} {branch : Value}
      (h : branch.isBlank = true) :
      FieldDrops (.group id .any (before ++ branch :: after) own)
        (.group id .any (before ++ after) own)
  | item {id : Nat} {kind : GroupKind} {own : Option Comparison} {before after : List Value}
      {v w : Value} (h : FieldDrops v w) :
      FieldDrops (.group id kind (before ++ v :: after) own)
        (.group id kind (before ++ w :: after) own)

/-- A branch in which no value was ever given is left out of a disjunction at the position of a
node, or of one under a key. It is neutral if nothing is left of it. -/
inductive NodeDrops : Bool → Value → Value → Prop where
  | branch {id : Nat} {own : Option Comparison} {before after : List Value} {branch : Value}
      (h : branch.isBlankNode = true) :
      NodeDrops branch.isHollow (.group id .any (before ++ branch :: after) own)
        (.group id .any (before ++ after) own)
  | group {neutral : Bool} {id : Nat} {kind : GroupKind} {own : Option Comparison}
      {before after : List Value} {v w : Value} (h : NodeDrops neutral v w) :
      NodeDrops neutral (.group id kind (before ++ v :: after) own)
        (.group id kind (before ++ w :: after) own)
  | list {neutral : Bool} {before after : List Value} {v w : Value} (h : NodeDrops neutral v w) :
      NodeDrops neutral (.list (before ++ v :: after)) (.list (before ++ w :: after))
  | tuple {neutral : Bool} {before after : List Value} {v w : Value} (h : NodeDrops neutral v w) :
      NodeDrops neutral (.tuple (before ++ v :: after)) (.tuple (before ++ w :: after))
  | entry {before after : List (String × Value)} {key : String} {v w : Value}
      (h : FieldDrops v w) :
      NodeDrops true (.map (before ++ (key, v) :: after)) (.map (before ++ (key, w) :: after))

/-- A branch in which no value was ever given is left out of a disjunction of a whole tree. -/
def TreeDrops (o : CompileOptions) (neutral : Bool) (tree tree' : Value) : Prop :=
  match o.key with
  | some _ => neutral = true ∧ tree.FieldDrops tree'
  | none => tree.NodeDrops neutral tree'

end Value

/-! ## Conditions with and without it -/

namespace Condition

theorem partAtoms_append (ps qs : List Condition) :
    partAtoms (ps ++ qs) = partAtoms ps ++ partAtoms qs := by
  induction ps with
  | nil => rfl
  | cons p ps ih => rw [List.cons_append, partAtoms, partAtoms, ih, List.append_assoc]

theorem partValues_append (ps qs : List Condition) :
    partValues (ps ++ qs) = partValues ps ++ partValues qs := by
  induction ps with
  | nil => rfl
  | cons p ps ih => rw [List.cons_append, partValues, partValues, ih, List.append_assoc]

theorem partsValue_append (truth : Nat → Bool) (ps qs : List Condition) (n : Nat) :
    partsValue truth (ps ++ qs) n =
      (partsValue truth qs (partsValue truth ps n).2).map ((partsValue truth ps n).1 ++ ·) id := by
  induction ps generalizing n with
  | nil => rfl
  | cons p ps ih =>
    rw [List.cons_append, partsValue, partsValue, ih]
    rfl

/-- Two conditions with the same leaves and bound values, of which the first is read as the second
or, unless the difference is neutral, as true. -/
structure Widens (neutral : Bool) (x y : Condition) : Prop where
  values : x.values = y.values
  atoms : x.atoms = y.atoms
  next : ∀ truth n, (x.value truth n).2 = (y.value truth n).2
  value : ∀ truth n, (x.value truth n).1 = (y.value truth n).1 ∨
    neutral = false ∧ (x.value truth n).1 = some true

section

variable {neutral : Bool} {x y : Condition} (h : x.Widens neutral y) (before after : List Condition)

include h

theorem Widens.partAtoms :
    partAtoms (before ++ x :: after) = partAtoms (before ++ y :: after) := by
  rw [partAtoms_append, partAtoms_append, Condition.partAtoms, Condition.partAtoms, h.atoms]

theorem Widens.partValues :
    partValues (before ++ x :: after) = partValues (before ++ y :: after) := by
  rw [partValues_append, partValues_append, Condition.partValues, Condition.partValues, h.values]

theorem Widens.partsValue_next (truth : Nat → Bool) (n : Nat) :
    (partsValue truth (before ++ x :: after) n).2 =
      (partsValue truth (before ++ y :: after) n).2 := by
  simp only [partsValue_append, partsValue, Prod.map_snd, h.next]

/-- In the place of one another they make a group that is read alike, or as true. -/
theorem Widens.join_partsValue (connective : Connective) (truth : Nat → Bool) (n : Nat) :
    connective.join (partsValue truth (before ++ x :: after) n).1 =
      connective.join (partsValue truth (before ++ y :: after) n).1 ∨ neutral = false ∧
        connective.join (partsValue truth (before ++ x :: after) n).1 = some true := by
  simp only [partsValue_append, partsValue, Prod.map_fst, h.next]
  obtain hvalue | ⟨hneutral, hvalue⟩ := h.value truth (partsValue truth before n).2
  · exact .inl (by rw [hvalue])
  · rw [hvalue]
    exact (connective.join_append_true _ _ _).imp_right fun htrue ↦ ⟨hneutral, htrue⟩

theorem Widens.group (connective : Connective) :
    (Condition.group connective (before ++ x :: after)).Widens neutral
      (.group connective (before ++ y :: after)) where
  values := h.partValues before after
  atoms := h.partAtoms before after
  next := h.partsValue_next before after
  value := h.join_partsValue before after connective

theorem Widens.fields (connective : Connective) :
    (Condition.fields connective (before ++ x :: after)).Widens neutral
      (.fields connective (before ++ y :: after)) where
  values := h.partValues before after
  atoms := h.partAtoms before after
  next := h.partsValue_next before after
  value truth n := by
    simp only [Condition.value, Prod.map_fst]
    refine (h.join_partsValue before after connective truth n).imp (fun heq ↦ ?_)
      fun htrue ↦ ⟨htrue.1, ?_⟩
    · rw [heq]
    · rw [htrue.2]
      rfl

end

/-- A part of a disjunction that says nothing, or that it is true. -/
theorem Says.widens {x : Condition} {v : Option Bool} (h : x.Says v) (hv : v ≠ some false)
    (before after : List Condition) : (Condition.group .or (before ++ x :: after)).Widens
      v.isNone (.group .or (before ++ after)) where
  values := by
    simp only [Condition.values, partValues_append, partValues, h.values, List.nil_append]
  atoms := by
    simp only [Condition.atoms, partAtoms_append, partAtoms, h.atoms, List.nil_append]
  next truth n := by
    simp only [Condition.value, partsValue_append, partsValue, h.value, Prod.map_snd]
    rfl
  value truth n := by
    simp only [Condition.value, partsValue_append, partsValue, h.value, Prod.map_fst]
    cases v with
    | none => exact .inl (Connective.join_append_none .or _ _)
    | some b =>
      obtain rfl : b = true := by simpa using hv
      exact .inr ⟨rfl, Connective.join_or_append_true _ _⟩

/-! ## Compiled with and without it -/

section

variable {α : Type} {compiles : α → Int → Condition → Prop} {before after : List α} {a a' : α}
  {b : Int} {parts : List Condition}

/-- An element that says something without leaves is left out of those around it. -/
theorem Says.left_out {v : Option Bool} (h : Threaded compiles (before ++ a :: after) b parts)
    (each : ∀ b x, compiles a b x → x.Says v) :
    ∃ ps x qs, parts = ps ++ x :: qs ∧ x.Says v ∧
      Threaded compiles (before ++ after) b (ps ++ qs) := by
  obtain ⟨ps, _, rfl, hps, _ | ⟨head, tail⟩⟩ := Threaded.append_iff.mp h
  have hx := each _ _ head
  rw [hx.values, List.length_nil, Int.natCast_zero, Int.add_zero] at tail
  exact ⟨ps, _, _, rfl, hx, Threaded.append_iff.mpr ⟨ps, _, rfl, hps, tail⟩⟩

theorem Widens.exchanged {neutral : Bool} (h : Threaded compiles (before ++ a :: after) b parts)
    (each : ∀ b x, compiles a b x → ∃ y, compiles a' b y ∧ x.Widens neutral y) :
    ∃ ps x y qs, parts = ps ++ x :: qs ∧ x.Widens neutral y ∧
      Threaded compiles (before ++ a' :: after) b (ps ++ y :: qs) := by
  obtain ⟨ps, _, rfl, hps, _ | ⟨head, tail⟩⟩ := Threaded.append_iff.mp h
  obtain ⟨y, hy, hwidens⟩ := each _ _ head
  rw [hwidens.values] at tail
  exact ⟨ps, _, y, _, rfl, hwidens, Threaded.append_iff.mpr ⟨ps, _, rfl, hps, .cons hy tail⟩⟩

end

variable {s : Scope} {v w : Value} {c : Option Comparison} {b : Int} {x : Condition}

theorem widens_of_fieldDrops (hdrops : v.FieldDrops w) {key : String}
    (h : (ofField s key v c b).result = .ok x) :
    ∃ y, (ofField s key w c b).result = .ok y ∧ x.Widens true y := by
  induction hdrops generalizing c b x with
  | branch hbranch =>
    cases FieldCase.of_ofField h with
    | group hitems =>
      obtain ⟨ps, part, qs, rfl, hsays, hrest⟩ :=
        Says.left_out hitems fun b x hx ↦ says_of_isBlank hbranch hx
      exact ⟨_, (FieldCase.group hrest).ofField, hsays.widens (by simp) ps qs⟩
    | leaf _ hgroup => exact absurd rfl (hgroup _ _ _ _)
  | item _ ih =>
    cases FieldCase.of_ofField h with
    | group hitems =>
      obtain ⟨ps, part, part', qs, rfl, hwidens, hrest⟩ :=
        Widens.exchanged hitems fun b x hx ↦ ih hx
      exact ⟨_, (FieldCase.group hrest).ofField, hwidens.group ps qs _⟩
    | leaf _ hgroup => exact absurd rfl (hgroup _ _ _ _)

/-- At the position of a node the condition is as it was, or wider. -/
theorem widens_of_nodeDrops {neutral : Bool} (hdrops : v.NodeDrops neutral w) {top : Connective}
    (h : (ofNode s top v c b).result = .ok x) :
    ∃ y, (ofNode s top w c b).result = .ok y ∧ x.Widens neutral y := by
  induction hdrops generalizing top c b x with
  | @branch id own before after branch hbranch =>
    cases NodeCase.of_ofNode h with
    | group hitems =>
      obtain ⟨ps, part, qs, rfl, hsays, hrest⟩ :=
        Says.left_out hitems fun b x hx ↦ says_of_isBlankNode hbranch hx
      have hwidens := hsays.widens branch.blankValue_ne_false ps qs
      rw [branch.isNone_blankValue] at hwidens
      exact ⟨_, (NodeCase.group hrest).ofNode, hwidens⟩
    | rows _ _ hv => exact absurd hv Bool.false_ne_true
  | group _ ih =>
    cases NodeCase.of_ofNode h with
    | group hitems =>
      obtain ⟨ps, part, part', qs, rfl, hwidens, hrest⟩ :=
        Widens.exchanged hitems fun b x hx ↦ ih hx
      exact ⟨_, (NodeCase.group hrest).ofNode, hwidens.group ps qs _⟩
    | rows _ _ hv => exact absurd hv Bool.false_ne_true
  | list _ ih =>
    cases NodeCase.of_ofNode h with
    | list hitems =>
      obtain ⟨ps, part, part', qs, rfl, hwidens, hrest⟩ :=
        Widens.exchanged hitems fun b x hx ↦ ih hx
      exact ⟨_, (NodeCase.list hrest).ofNode, hwidens.group ps qs _⟩
    | rows _ _ hv => exact absurd hv Bool.false_ne_true
  | tuple _ ih =>
    cases NodeCase.of_ofNode h with
    | tuple hitems =>
      obtain ⟨ps, part, part', qs, rfl, hwidens, hrest⟩ :=
        Widens.exchanged hitems fun b x hx ↦ ih hx
      exact ⟨_, (NodeCase.tuple hrest).ofNode, hwidens.group ps qs _⟩
    | rows _ _ hv => exact absurd hv Bool.false_ne_true
  | @entry before after key v w hfield =>
    cases NodeCase.of_ofNode h with
    | map hentries =>
      obtain ⟨ps, part, part', qs, rfl, hwidens, hrest⟩ :=
        @Widens.exchanged _ _ _ _ _ (key, w) _ _ _ hentries fun b x hx ↦
          (widens_of_fieldDrops hfield hx.2).imp fun y hy ↦ ⟨⟨hx.1, hy.1⟩, hy.2⟩
      exact ⟨_, (NodeCase.map hrest).ofNode, hwidens.fields ps qs top⟩
    | rows _ _ hv => exact absurd hv Bool.false_ne_true

end Condition

/-! ## The two statements -/

/-- A disjunction at the position of a node is true as soon as one of its branches is blank and has
a map in it. -/
theorem Value.nodeTruth_of_blank_branch (truth : Nat → Bool) {branch : Value}
    (hblank : branch.isBlankNode = true) (hmap : branch.isHollow = false) (id : Nat)
    (own : Option Comparison) (before after : List Value) (top : Connective) (n : Nat) :
    ((Value.group id .any (before ++ branch :: after) own).nodeTruth truth top n).1 =
      some true := by
  have hmem : branch ∈ before ++ branch :: after :=
    List.mem_append_right before List.mem_cons_self
  obtain ⟨m, hvalue⟩ := exists_mem_inTurn (nodeTruth truth .and) hmem n
  rw [nodeTruth, nodesTruth_eq_inTurn]
  rw [nodeTruth_of_isBlankNode truth hblank, blankValue, hmap] at hvalue
  obtain ⟨vs, ws, hsplit⟩ := List.append_of_mem hvalue
  show Connective.join .or _ = _
  rw [hsplit]
  exact Connective.join_or_append_true vs ws

/-- Two statement parts that bind the same values and have the same leaves, which are given. The
first is read as the second or, unless the difference is neutral, as true, whatever truth values the
leaves have. -/
def Statement.Widens (s : Scope) (leaves : List Place) (neutral : Bool) (st st' : Statement) :
    Prop :=
  st.values = st'.values ∧ ∃ tokens tokens' : List Token,
    Token.written tokens = st.text ∧ Token.written tokens' = st'.text ∧
    List.Forall₂ (Place.WrittenAs s) leaves (tokens.filterMap Token.atom?) ∧
    tokens.filterMap Token.atom? = tokens'.filterMap Token.atom? ∧
    ∀ truth : Nat → Bool, ∃ x x' : Bool, Token.read truth tokens = some x ∧
      Token.read truth tokens' = some x' ∧ (x = x' ∨ neutral = false ∧ x = true)

namespace Scope

variable {tree tree' : Value} {o : CompileOptions} {neutral : Bool}

theorem condition_of_treeDrops {s : Scope} (hdrops : tree.TreeDrops o neutral tree')
    {x : Condition} (h : (s.condition tree o).result = .ok x) :
    ∃ y, (s.condition tree' o).result = .ok y ∧ x.Widens neutral y := by
  rw [Scope.condition] at h ⊢
  rw [Value.TreeDrops] at hdrops
  cases hkey : o.key with
  | some key =>
    rw [hkey] at h hdrops
    obtain ⟨rfl, hdrops⟩ := hdrops
    exact Condition.widens_of_fieldDrops hdrops h
  | none =>
    rw [hkey] at h hdrops
    exact Condition.widens_of_nodeDrops hdrops h

theorem writtenAs_atoms {s : Scope} {x : Condition} (h : (s.condition tree o).result = .ok x) :
    List.Forall₂ (Place.WrittenAs s) (tree.treeLeaves false o) x.atoms := by
  rw [Scope.condition] at h
  rw [Value.treeLeaves]
  cases hkey : o.key with
  | some key =>
    rw [hkey] at h
    exact ((Condition.agreesEverywhere s tree).field h).atoms
  | none =>
    rw [hkey] at h
    exact ((Condition.agreesEverywhere s tree).node h).atoms

/-- **A branch that was never given widens a disjunction exactly through a map.** Leaving it out
keeps the bound values and the leaves. If nothing is left of the branch, the text is read as before;
if there is a map in it, the text was read as now or as true, and the disjunction itself was true.

The branch may be at any depth, under a key or not. The conditions of a sub-query are a tree of
their own. -/
theorem reads_without_branch (t : Table Value) (isFar : Bool) :
    (∀ (tree tree' : Value) (o : CompileOptions) (neutral : Bool) (st : Statement),
      0 ≤ o.siblings → tree.TreeDrops o neutral tree' →
      (compile ⟨t, .standard, isFar⟩ tree o).result = .ok st →
        ∃ st', (compile ⟨t, .standard, isFar⟩ tree' o).result = .ok st' ∧
          st.Widens ⟨t, .standard, isFar⟩ (tree.treeLeaves false o) neutral st') ∧
    ∀ (truth : Nat → Bool) (branch : Value), branch.isBlankNode = true →
      branch.isHollow = false → ∀ (id : Nat) (own : Option Comparison)
        (before after : List Value) (top : Connective) (n : Nat),
        ((Value.group id .any (before ++ branch :: after) own).nodeTruth truth top n).1 =
          some true := by
  refine ⟨fun tree tree' o neutral st hsiblings hdrops h ↦ ?_,
    fun truth _ ↦ Value.nodeTruth_of_blank_branch truth⟩
  obtain ⟨x, hx, hst⟩ := Logged.bind_eq_ok.mp h
  obtain rfl : x.statement o.siblings = st := Except.ok.inj hst
  obtain ⟨y, hy, hwidens⟩ := condition_of_treeDrops hdrops hx
  have hatoms := writtenAs_atoms hx
  -- no leaf is empty, so what the texts leave out is what the tokens leave out
  have hne := Condition.ne_empty_of_mem_atoms hatoms
  refine ⟨y.statement o.siblings, Logged.bind_eq_ok.mpr ⟨y, hy, rfl⟩, hwidens.values,
    Condition.orAlwaysToken (x.tokens o.siblings), Condition.orAlwaysToken (y.tokens o.siblings),
    x.written_statement _ hne, y.written_statement _ (hwidens.atoms ▸ hne), ?_, ?_,
    fun truth ↦ ⟨_, _, Condition.read_tokens truth x hsiblings,
      Condition.read_tokens truth y hsiblings, ?_⟩⟩
  · rwa [Condition.filterMap_atom?_orAlwaysToken, Condition.filterMap_atom?_tokens]
  · simp only [Condition.filterMap_atom?_orAlwaysToken, Condition.filterMap_atom?_tokens,
      hwidens.atoms]
  · refine (hwidens.value truth 0).imp (fun heq ↦ by rw [heq]) fun htrue ↦ ⟨htrue.1, ?_⟩
    rw [htrue.2]
    rfl

/-- A disjunction under a key that is given a branch, beside another condition. -/
def branchTree (branch : List Value) : Value :=
  .map [("a", .group 0 .any ([.int 1] ++ branch ++ [.int 3]) none), ("b", .null)]

theorem reads_without_branch_branchTree :
    ((compile ⟨.letters, .standard, false⟩ (branchTree [.group 1 .plain [.unset, .unset] none])
        ⟨none, .or, 1, 0, none⟩).result =
      .ok ⟨"(\"a\" = $2 OR \"a\" = $3) OR \"b\" IS NULL", [.int 1, .int 3]⟩ ∧
    ∃ st', (compile ⟨.letters, .standard, false⟩ (branchTree []) ⟨none, .or, 1, 0, none⟩).result =
        .ok st' ∧ Statement.Widens ⟨.letters, .standard, false⟩
          (Value.treeLeaves false (branchTree [.group 1 .plain [.unset, .unset] none])
            ⟨none, .or, 1, 0, none⟩) true
          ⟨"(\"a\" = $2 OR \"a\" = $3) OR \"b\" IS NULL", [.int 1, .int 3]⟩ st') ∧
    ∀ truth : Nat → Bool, ((Value.group 0 .any
      [.map [("b", .null)], .list [.map [("a", .unset), ("b", .unset)]]] none).nodeTruth truth
        .and 0).1 = some true := by
  have h : (compile ⟨.letters, .standard, false⟩
      (branchTree [.group 1 .plain [.unset, .unset] none]) ⟨none, .or, 1, 0, none⟩).result =
      .ok ⟨"(\"a\" = $2 OR \"a\" = $3) OR \"b\" IS NULL", [.int 1, .int 3]⟩ := by rfl
  have hdrops : (branchTree [.group 1 .plain [.unset, .unset] none]).TreeDrops
      ⟨none, .or, 1, 0, none⟩ true (branchTree []) :=
    @Value.NodeDrops.entry [] _ _ _ _ (@Value.FieldDrops.branch _ _ [.int 1] _ _ rfl)
  have hreads := reads_without_branch .letters false
  exact ⟨⟨h, hreads.1 _ _ _ _ _ (Int.le_refl 0) hdrops h⟩, fun truth ↦
    hreads.2 truth (.list [.map [("a", .unset), ("b", .unset)]]) rfl rfl 0 none
      [.map [("b", .null)]] [] .and 0⟩

/-- A disjunction with a map in which no value was ever given is read as true where, without it, it
is read as false. -/
theorem reads_true_with_unset_map :
    (compile ⟨.letters, .standard, false⟩
      (.group 0 .any [.map [("a", .unset)], .map [("b", .null)]] none)).result =
      .ok ⟨"true OR \"b\" IS NULL", []⟩ ∧
    (compile ⟨.letters, .standard, false⟩ (.group 0 .any [.map [("b", .null)]] none)).result =
      .ok ⟨"\"b\" IS NULL", []⟩ ∧
    Token.written [.always, .joint .or, .atom "\"b\" IS NULL"] = "true OR \"b\" IS NULL" ∧
    Token.read (fun _ ↦ false) [.always, .joint .or, .atom "\"b\" IS NULL"] = some true ∧
    Token.read (fun _ ↦ false) [.atom "\"b\" IS NULL"] = some false :=
  ⟨by rfl, by rfl, by decide, rfl, rfl⟩

end Scope

end Rowmap
