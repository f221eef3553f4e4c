import Rowmap.Proofs.Condition.WellFormed

/-!
# Which trees compile

A tree compiles when the keys of the maps among its nodes are declared and its leaves are
well-formed. The induction is on the parts of values, with the count of bound values beside it: a
tree that compiles binds as many values as its leaves do.
-/

namespace Rowmap

namespace Value

mutual

def nodeKeys : Value → List String
  | .group _ _ items _ => nodesKeys items
  | .list items => nodesKeys items
  | .tuple items => nodesKeys items
  | .map entries => entries.map (·.1)
  | _ => []
termination_by structural v => v

/-- The keys of the maps among several nodes. -/
def nodesKeys : List Value → List String
  | [] => []
  | v :: vs => nodeKeys v ++ nodesKeys vs
termination_by structural vs => vs

end

/-- The keys of the maps among the nodes of a whole tree. The value of a key has no nodes. -/
def treeKeys (tree : Value) (o : CompileOptions) : List String :=
  if o.key.isSome then [] else tree.nodeKeys

theorem nodesKeys_eq_flatMap (vs : List Value) : nodesKeys vs = vs.flatMap nodeKeys := by
  induction vs with
  | nil => rfl
  | cons v vs ih => rw [nodesKeys, List.flatMap_cons, ih]

end Value

namespace Condition

/-- Compiling that succeeds just where the keys are declared and the leaves are well-formed, and
that binds what the leaves bind. -/
structure Accepts (t : Table Value) (keys : List String) (leaves : List Place) (b : Int)
    (compiles : Condition → Prop) : Prop where
  exists_iff : (∃ c, compiles c) ↔
    (∀ key ∈ keys, t.declares key = true) ∧ Place.EachAfter Place.IsWellFormed leaves b
  length : ∀ c, compiles c → c.values.length = Place.spans leaves b

variable {t : Table Value}

/-! ## Lists -/

theorem ofNodes_eq_ok {s : Scope} {vs : List Value} {c : Option Comparison} {b : Int}
    {parts : List Condition} : (ofNodes s vs c b).result = .ok parts ↔
      Threaded (fun v b part ↦ (ofNode s .and v c b).result = .ok part) vs b parts :=
  ⟨threaded_of_ofNodes, ofNodes_of_threaded⟩

theorem ofFieldItems_eq_ok {s : Scope} {key : String} {vs : List Value} {c : Option Comparison}
    {b : Int} {parts : List Condition} : (ofFieldItems s key vs c b).result = .ok parts ↔
      Threaded (fun v b part ↦ (ofField s key v c b).result = .ok part) vs b parts :=
  ⟨threaded_of_ofFieldItems, ofFieldItems_of_threaded⟩

theorem ofEntries_eq_ok {s : Scope} {es : List (String × Value)} {c : Option Comparison} {b : Int}
    {parts : List Condition} : (ofEntries s es c b).result = .ok parts ↔
      Threaded (fun e b part ↦ (∃ field, s.table.field? e.1 = some field) ∧
        (ofField s e.1 e.2 c b).result = .ok part) es b parts :=
  ⟨threaded_of_ofEntries, ofEntries_of_threaded⟩

section

variable {α : Type} {keys : α → List String} {leaves : α → List Place}
  {compiles : α → Int → Condition → Prop} {as : List α}

theorem accepts_threaded
    (each : ∀ a ∈ as, ∀ b, Place.EachAfter Place.IsBindable (leaves a) b →
      Accepts t (keys a) (leaves a) b (compiles a b)) {b : Int}
    (h : Place.EachAfter Place.IsBindable (as.flatMap leaves) b) :
    ((∃ parts, Threaded compiles as b parts) ↔
      (∀ key ∈ as.flatMap keys, t.declares key = true) ∧
        Place.EachAfter Place.IsWellFormed (as.flatMap leaves) b) ∧
    ∀ parts, Threaded compiles as b parts →
      (partValues parts).length = Place.spans (as.flatMap leaves) b := by
  induction as generalizing b with
  | nil =>
    refine ⟨⟨fun _ ↦ ⟨by simp, trivial⟩, fun _ ↦ ⟨[], .nil b⟩⟩, ?_⟩
    rintro _ ⟨⟩
    rfl
  | cons a as ih =>
    rw [List.flatMap_cons, Place.eachAfter_append] at h
    rw [List.forall_mem_cons] at each
    obtain ⟨hhead, hheadLength⟩ := each.1 b h.1
    obtain ⟨htail, htailLength⟩ := ih each.2 h.2
    simp only [List.flatMap_cons, List.forall_mem_append, Place.eachAfter_append,
      Place.spans_append]
    refine ⟨⟨?_, ?_⟩, ?_⟩
    · rintro ⟨_, hthreaded⟩
      cases hthreaded with
      | cons head tail =>
        rw [hheadLength _ head] at tail
        obtain ⟨hkeys, hleaves⟩ := hhead.mp ⟨_, head⟩
        obtain ⟨hkeys', hleaves'⟩ := htail.mp ⟨_, tail⟩
        exact ⟨⟨hkeys, hkeys'⟩, hleaves, hleaves'⟩
    · rintro ⟨⟨hkeys, hkeys'⟩, hleaves, hleaves'⟩
      obtain ⟨part, head⟩ := hhead.mpr ⟨hkeys, hleaves⟩
      obtain ⟨parts, tail⟩ := htail.mpr ⟨hkeys', hleaves'⟩
      exact ⟨part :: parts, .cons head (by rwa [hheadLength _ head])⟩
    · intro _ hthreaded
      cases hthreaded with
      | cons head tail =>
        have hpart := hheadLength _ head
        rw [hpart] at tail
        rw [partValues, List.length_append, hpart, htailLength _ tail]

theorem Accepts.of_threaded
    (each : ∀ a ∈ as, ∀ b, Place.EachAfter Place.IsBindable (leaves a) b →
      Accepts t (keys a) (leaves a) b (compiles a b)) {b : Int}
    (h : Place.EachAfter Place.IsBindable (as.flatMap leaves) b)
    {whole : List Condition → Condition} (hwhole : ∀ parts, (whole parts).values = partValues parts)
    {x : Logged (List Condition)}
    (hx : ∀ parts, x.result = .ok parts ↔ Threaded compiles as b parts) :
    Accepts t (as.flatMap keys) (as.flatMap leaves) b
      (fun c ↦ (whole <$> x).result = .ok c) := by
  obtain ⟨hexists, hlength⟩ := accepts_threaded each h
  constructor
  · rw [← hexists]
    constructor
    · rintro ⟨c, hc⟩
      obtain ⟨parts, hparts, -⟩ := Logged.map_eq_ok.mp hc
      exact ⟨parts, (hx parts).mp hparts⟩
    · rintro ⟨parts, hparts⟩
      exact ⟨_, Logged.map_eq_ok.mpr ⟨parts, (hx parts).mpr hparts, rfl⟩⟩
  · intro c hc
    obtain ⟨parts, hparts, rfl⟩ := Logged.map_eq_ok.mp hc
    rw [hwhole, hlength _ ((hx parts).mp hparts)]

end

/-! ## Values -/

/-- A value that is accepted at the position of a node, and under each declared key. -/
structure AcceptedEverywhere (t : Table Value) (v : Value) : Prop where
  node : ∀ top c b, Place.EachAfter Place.IsBindable (v.nodeLeaves false c) b →
    Accepts t v.nodeKeys (v.nodeLeaves false c) b
      (fun condition ↦ (ofNode ⟨t, .standard, false⟩ top v c b).result = .ok condition)
  field : ∀ key c b, t.declares key = true →
    Place.EachAfter Place.IsBindable (v.fieldLeaves false key c) b →
    Accepts t [] (v.fieldLeaves false key c) b
      (fun condition ↦ (ofField ⟨t, .standard, false⟩ key v c b).result = .ok condition)

theorem accepts_bare {v : Value} (hkind : v.kind = .value) {top : Connective}
    {c : Option Comparison} {b : Int} (hb : (⟨none, v, c⟩ : Place).IsBindable b) :
    Accepts t [] [⟨none, v, c⟩] b
      (fun condition ↦ (ofNode ⟨t, .standard, false⟩ top v c b).result = .ok condition) := by
  have hforce (hv : v.isRenderable = true) : (⟨none, v, c⟩ : Place).inForce = c := by
    cases v <;> first | rfl | exact absurd hv Bool.false_ne_true
  constructor
  · rw [Place.eachAfter_singleton]
    constructor
    · rintro ⟨condition, h⟩
      refine ⟨by simp, ?_⟩
      cases NodeCase.of_ofNode h with
      | wrappedRows htest hright hinner _ => exact ⟨hinner, _, htest, hright⟩
      | rows htest hright hv _ =>
        exact ⟨by rwa [Place.inner_of_isRenderable hv], _, by rw [hforce hv, htest], hright⟩
      | _ => simp [Value.kind] at hkind
    · rintro ⟨-, hinner, test, htest, hright⟩
      obtain ⟨⟨r, hr⟩, -⟩ := hb.renders rfl hinner
      by_cases hwrapped : ∃ inner bind own quote, v = .wrapped inner bind own quote
      · obtain ⟨inner, bind, own, quote, rfl⟩ := hwrapped
        exact ⟨_, NodeCase.ofNode (.wrappedRows htest hright hinner hr)⟩
      · push Not at hwrapped
        rw [Place.rendition, Place.inner_of_not_wrapped hwrapped] at hr
        rw [Place.inner_of_not_wrapped hwrapped] at hinner
        rw [hforce hinner] at htest
        exact ⟨_, NodeCase.ofNode (.rows htest hright hinner hr)⟩
  · intro condition h
    rw [Place.spans_singleton]
    cases NodeCase.of_ofNode h with
    | @wrappedRows inner bind quote own _ _ htest hright hinner hr =>
      exact (Place.span_of_rendition (p := ⟨none, .wrapped inner bind own quote, c⟩)
        rfl hinner hr).symm
    | rows htest hright hv hr =>
      have hinner : (⟨none, v, c⟩ : Place).inner = v := Place.inner_of_isRenderable hv
      exact (Place.span_of_rendition rfl (by rwa [hinner]) (by rwa [Place.rendition, hinner])).symm
    | _ => simp [Value.kind] at hkind

theorem accepts_leaf {v : Value} {key : String} (hkey : t.declares key = true)
    (hgroup : ∀ id groupKind items own, v ≠ .group id groupKind items own)
    (hmap : ∀ entries, v ≠ .map entries) (hunset : v ≠ .unset) {c : Option Comparison} {b : Int}
    (hb : (⟨some key, v, c⟩ : Place).IsBindable b) :
    Accepts t [] [⟨some key, v, c⟩] b
      (fun condition ↦ (ofField ⟨t, .standard, false⟩ key v c b).result = .ok condition) := by
  obtain ⟨field, hfield⟩ := Option.isSome_iff_exists.mp hkey
  constructor
  · rw [Place.eachAfter_singleton]
    have hiff := @Place.exists_leaf_iff v t key field c b hmap hb
    constructor
    · rintro ⟨condition, h⟩
      refine ⟨by simp, hiff.mp ?_⟩
      cases FieldCase.of_ofField h with
      | group => exact absurd rfl (hgroup _ _ _ _)
      | skipped => exact absurd rfl hunset
      | leaf hfield' _ _ _ hleaf hright =>
        obtain rfl := Option.some.inj (hfield'.symm.trans hfield)
        exact ⟨_, .of_standard hleaf, hright⟩
    · rintro ⟨-, h⟩
      obtain ⟨leaf, hleaf, hright⟩ := hiff.mpr h
      exact ⟨_, FieldCase.ofField (.leaf hfield hgroup hmap hunset
        (hleaf.resolve_standard (LeafContext.numbered_of_not_far rfl leaf)) hright)⟩
  · intro condition h
    rw [Place.spans_singleton]
    cases FieldCase.of_ofField h with
    | group => exact absurd rfl (hgroup _ _ _ _)
    | skipped => exact absurd rfl hunset
    | leaf hfield' _ _ _ hleaf hright =>
      exact ((LeafCase.of_standard hleaf).suits (Place.isSeen_leafContext _ _ _ _ _ _)
        hb.bound).values

theorem accepts_nestedMap {entries : List (String × Value)} {key : String} {c : Option Comparison}
    {b : Int} : Accepts t [] [⟨some key, .map entries, c⟩] b
      (fun condition ↦
        (ofField ⟨t, .standard, false⟩ key (.map entries) c b).result = .ok condition) := by
  constructor
  · rw [Place.eachAfter_singleton]
    constructor
    · rintro ⟨_, h⟩
      simp [ofField] at h
    · rintro ⟨-, h⟩
      exact absurd rfl (h.not_map entries)
  · intro _ h
    simp [ofField] at h

theorem accepts_entry {e : String × Value} (ih : AcceptedEverywhere t e.2) {c : Option Comparison}
    {b : Int} (h : Place.EachAfter Place.IsBindable (e.2.fieldLeaves false e.1 c) b) :
    Accepts t [e.1] (e.2.fieldLeaves false e.1 c) b
      (fun condition ↦ (∃ field, t.field? e.1 = some field) ∧
        (ofField ⟨t, .standard, false⟩ e.1 e.2 c b).result = .ok condition) := by
  rw [← Option.isSome_iff_exists]
  by_cases hkey : t.declares e.1 = true
  · obtain ⟨hexists, hlength⟩ := ih.field e.1 c b hkey h
    refine ⟨?_, fun condition h ↦ hlength condition h.2⟩
    simpa [hkey, show (t.field? e.1).isSome = true from hkey] using hexists
  · refine ⟨?_, fun condition h ↦ absurd h.1 hkey⟩
    simp [hkey, show ¬(t.field? e.1).isSome = true from hkey]

theorem accepts_node {v : Value} (ih : ∀ w ∈ v.parts, AcceptedEverywhere t w) (top : Connective)
    (c : Option Comparison) (b : Int)
    (h : Place.EachAfter Place.IsBindable (v.nodeLeaves false c) b) :
    Accepts t v.nodeKeys (v.nodeLeaves false c) b
      (fun condition ↦ (ofNode ⟨t, .standard, false⟩ top v c b).result = .ok condition) := by
  cases v with
  | group id groupKind items own =>
    rw [Value.nodeLeaves, Value.nodesLeaves_eq_flatMap] at h ⊢
    rw [Value.nodeKeys, Value.nodesKeys_eq_flatMap]
    simp only [ofNode]
    exact .of_threaded (fun w hw b hb ↦ (ih w hw).node .and _ b hb) h (fun _ ↦ rfl)
      fun _ ↦ ofNodes_eq_ok
  | list items | tuple items =>
    rw [Value.nodeLeaves, Value.nodesLeaves_eq_flatMap] at h ⊢
    rw [Value.nodeKeys, Value.nodesKeys_eq_flatMap]
    simp only [ofNode]
    exact .of_threaded (fun w hw b hb ↦ (ih w hw).node .and _ b hb) h (fun _ ↦ rfl)
      fun _ ↦ ofNodes_eq_ok
  | map entries =>
    rw [Value.nodeLeaves, Value.entriesLeaves_eq_flatMap] at h ⊢
    rw [Value.nodeKeys, List.map_eq_flatMap]
    simp only [ofNode]
    exact .of_threaded (fun e he b hb ↦ accepts_entry (ih e.2 (List.mem_map_of_mem he)) hb) h
      (fun _ ↦ rfl) fun _ ↦ ofEntries_eq_ok
  | _ => exact accepts_bare rfl ((Place.eachAfter_singleton _ _).mp h)

theorem accepts_field {v : Value} (ih : ∀ w ∈ v.parts, AcceptedEverywhere t w) (key : String)
    (c : Option Comparison) (b : Int) (hkey : t.declares key = true)
    (h : Place.EachAfter Place.IsBindable (v.fieldLeaves false key c) b) :
    Accepts t [] (v.fieldLeaves false key c) b
      (fun condition ↦ (ofField ⟨t, .standard, false⟩ key v c b).result = .ok condition) := by
  cases v with
  | group id groupKind items own =>
    rw [Value.fieldLeaves, Value.itemsLeaves_eq_flatMap] at h ⊢
    simp only [ofField]
    -- there are no further keys under a key
    have hkeys : items.flatMap (fun _ ↦ ([] : List String)) = [] := by simp
    rw [← hkeys]
    exact .of_threaded (fun w hw b hb ↦ (ih w hw).field key _ b hkey hb) h (fun _ ↦ rfl)
      fun _ ↦ ofFieldItems_eq_ok
  | unset =>
    obtain ⟨field, hfield⟩ := Option.isSome_iff_exists.mp hkey
    have hskipped := FieldCase.ofField (s := ⟨t, .standard, false⟩) (c := c) (b := b)
      (.skipped hfield)
    refine ⟨⟨fun _ ↦ ⟨by simp, trivial⟩, fun _ ↦ ⟨_, hskipped⟩⟩, fun condition h ↦ ?_⟩
    obtain rfl := Except.ok.inj (hskipped.symm.trans h)
    rfl
  | map entries => exact accepts_nestedMap
  | _ =>
    exact accepts_leaf hkey (by simp) (by simp) (by simp) ((Place.eachAfter_singleton _ _).mp h)

/-- **Accepted values.** Each value compiles where its keys and its leaves allow it. -/
theorem acceptedEverywhere (t : Table Value) (v : Value) : AcceptedEverywhere t v := by
  induction v using Value.induction_on_parts with
  | step v ih => exact ⟨accepts_node ih, accepts_field ih⟩

end Condition

/-! ## Whole trees -/

/-- **Compiling accepts the well-formed trees.** For a tree without wrappers around parts of the
text, whose sub-queries render, the keys of the maps among its nodes have to be declared and its
leaves well-formed, each after the values of those before it; and that is enough. -/
theorem Scope.exists_compile_iff {t : Table Value} {tree : Value} {o : CompileOptions}
    (hkey : ∀ key, o.key = some key → t.declares key = true)
    (h : Place.EachAfter Place.IsBindable (tree.treeLeaves false o) o.bound) :
    (∃ st, (Scope.compile ⟨t, .standard, false⟩ tree o).result = .ok st) ↔
      (∀ key ∈ tree.treeKeys o, t.declares key = true) ∧
        Place.EachAfter Place.IsWellFormed (tree.treeLeaves false o) o.bound := by
  have hcompile : (∃ st, (Scope.compile ⟨t, .standard, false⟩ tree o).result = .ok st) ↔
      ∃ c, (Scope.condition ⟨t, .standard, false⟩ tree o).result = .ok c := by
    constructor
    · rintro ⟨st, hst⟩
      obtain ⟨c, hc, -⟩ := Logged.bind_eq_ok.mp hst
      exact ⟨c, hc⟩
    · rintro ⟨c, hc⟩
      exact ⟨_, Logged.bind_eq_ok.mpr ⟨c, hc, rfl⟩⟩
  rw [hcompile, Scope.condition, Value.treeKeys]
  rw [Value.treeLeaves] at h ⊢
  cases ho : o.key with
  | some key =>
    rw [ho] at h
    exact ((Condition.acceptedEverywhere t tree).field key _ _ (hkey key ho) h).exists_iff
  | none =>
    rw [ho] at h
    exact ((Condition.acceptedEverywhere t tree).node _ _ _ h).exists_iff

/-- Hand-written SQL as a test for rows beside a map with a list and an ignored marker. -/
def Value.guardedTree : Value :=
  .list [.wrapped (.rawSql 0 "SELECT 1 WHERE $1" [.bool true] none) true (some .hasRow) true,
    .map [("a", .tuple [.int 1, .int 2]), ("b", .wrapped (.marker .notNull) true (some .unknown)
      true)]]

theorem Scope.exists_compile_guardedTree :
    Place.EachAfter Place.IsBindable (Value.guardedTree.treeLeaves false { bound := 3 }) 3 ∧
    ((∃ st, (Scope.compile ⟨.letters, .standard, false⟩ .guardedTree { bound := 3 }).result =
      .ok st) ↔
      (∀ key ∈ Value.guardedTree.treeKeys { bound := 3 }, Table.letters.declares key = true) ∧
        Place.EachAfter Place.IsWellFormed
          (Value.guardedTree.treeLeaves false { bound := 3 }) 3) := by
  have h : Place.EachAfter Place.IsBindable
      (Value.guardedTree.treeLeaves false { bound := 3 }) 3 := by
    refine And.intro ⟨?_, fun _ _ ↦ ⟨⟨_, rfl⟩, fun h ↦ absurd h (by decide)⟩⟩
      (And.intro ⟨?_, fun _ h ↦ absurd h (by decide)⟩
        (And.intro ⟨?_, fun _ h ↦ absurd h (by decide)⟩ trivial))
    all_goals simp
  exact ⟨h, Scope.exists_compile_iff (by simp) h⟩

/-- The marker for non-null compiles under any comparison without a right-hand side, also one that
only its own wrapper gives it. -/
theorem Scope.compiles_notNull_under_unknown :
    ¬((∃ st, (Scope.compile ⟨.letters, .standard, false⟩ .guardedTree).result = .ok st) →
      ∀ p ∈ Value.guardedTree.treeLeaves false {}, p.inner = .marker .notNull →
        p.comparison.any (·.leftOnly) = false →
          p.inForce ∈ [none, some .equal, some .notEqual]) := by
  intro h
  have hmem := h ⟨_, rfl⟩ ⟨some "b", .wrapped (.marker .notNull) true (some .unknown) true, none⟩
    (by simp [Value.guardedTree, Value.treeLeaves, Value.nodeLeaves, Value.nodesLeaves,
      Value.entriesLeaves, Value.fieldLeaves]) rfl rfl
  simp [Place.inForce, Place.own?] at hmem

end Rowmap
