import Rowmap.Proofs.Condition.Placeholders
import Rowmap.Proofs.Condition.WellFormed

/-!
# The values of trees

The values that a tree binds are those of its leaves, one leaf after the other, and of the leaves
inside sub-queries with them. That takes nothing from the texts: unlike the placeholders, which are
right only where hand-written SQL numbers its own values, the values are the same whatever is
written.
-/

namespace Rowmap

namespace Place

/-- The values that leaves bind one after the other. -/
def bindFrom : List Place → Int → List Value
  | [], _ => []
  | p :: places, b => p.ownValues b ++ bindFrom places (b + (p.ownValues b).length)

theorem bindFrom_append (places places' : List Place) (b : Int) :
    bindFrom (places ++ places') b =
      bindFrom places b ++ bindFrom places' (b + (bindFrom places b).length) := by
  induction places generalizing b with
  | nil => simp [bindFrom]
  | cons p places ih =>
    rw [List.cons_append, bindFrom, bindFrom, ih, List.append_assoc, List.length_append,
      Int.natCast_add, Int.add_assoc]

end Place

/-! ## The values of leaves -/

/-- What a sub-query binds: its own values, or those of its leaves. -/
def Value.renderedValues (v : Value) (b : Int) : List Value :=
  v.rowValues b ++ Place.bindFrom (v.rowLeaves true) (b + (v.rowValues b).length)

namespace Place

variable {p : Place} {b : Int} {leaf : Leaf}

/-- A leaf with those inside it, where it is a sub-query. -/
theorem bindFrom_cons_rowLeaves {v : Value} (h : p.ownValues b = v.rowValues b) :
    bindFrom (p :: v.rowLeaves true) b = v.renderedValues b := by
  rw [bindFrom, h]
  rfl

theorem bindFrom_singleton (p : Place) (b : Int) : bindFrom [p] b = p.ownValues b :=
  List.append_nil _

end Place

/-- **A leaf binds its own values**, and those of the leaves inside it. -/
theorem Place.Becomes.values_eq {ctx : LeafContext} {leaf : Leaf} {p : Place}
    (h : p.Becomes ctx leaf) (hrows : p.inner.isRenderable = true → p.isIgnored = false →
      ∀ r, (ctx.render ctx.bound).result = .ok r → r.values = p.inner.renderedValues ctx.bound) :
    leaf.values =
      Place.bindFrom (p :: if p.isIgnored then [] else p.inner.rowLeaves true) ctx.bound := by
  cases h with
  | ignored hignored hleaf =>
    rw [if_pos hignored, Place.bindFrom_singleton, Place.ownValues_of_isIgnored hignored, hleaf]
    rfl
  | rows hnot hinner hr h =>
    rw [hnot, if_neg Bool.false_ne_true,
      Place.bindFrom_cons_rowLeaves (Place.ownValues_of_isRenderable hnot hinner _),
      Leaf.values_of_splice h, hrows hinner hnot _ hr]
  | alone hnot hinner hvalues =>
    rw [hnot, if_neg Bool.false_ne_true, Value.rowLeaves_of_not_isRenderable hinner,
      Place.bindFrom_singleton, hvalues]

/-! ## The values of trees -/

namespace Condition

theorem partValues_of_threaded {α : Type} {compiles : α → Int → Condition → Prop}
    {leaves : α → List Place} {as : List α} {b : Int} {parts : List Condition}
    (h : Threaded compiles as b parts)
    (each : ∀ a ∈ as, ∀ b part, compiles a b part → part.values = Place.bindFrom (leaves a) b) :
    partValues parts = Place.bindFrom (as.flatMap leaves) b := by
  induction h with
  | nil => rfl
  | cons head tail ih =>
    rw [List.forall_mem_cons] at each
    rw [partValues, ih each.2, each.1 _ _ head, List.flatMap_cons, Place.bindFrom_append]

/-- A value that binds the values of its leaves wherever it stands: as a node, under a key and as a
sub-query. -/
structure BindsEverywhere (v : Value) : Prop where
  node : ∀ {t isFar top c b condition},
    (ofNode ⟨t, .standard, isFar⟩ top v c b).result = .ok condition →
      condition.values = Place.bindFrom (v.nodeLeaves true c) b
  field : ∀ {t isFar key c b condition},
    (ofField ⟨t, .standard, isFar⟩ key v c b).result = .ok condition →
      condition.values = Place.bindFrom (v.fieldLeaves true key c) b
  rows : ∀ {isFar b r}, (render isFar v b).result = .ok r → r.values = v.renderedValues b

variable {t : Table Value} {isFar : Bool} {c : Option Comparison} {b : Int}
  {parts : List Condition}

theorem partValues_nodes {vs : List Value} (ih : ∀ v ∈ vs, BindsEverywhere v)
    (h : Threaded (fun v i part ↦ (ofNode ⟨t, .standard, isFar⟩ .and v c i).result = .ok part)
      vs b parts) : partValues parts = Place.bindFrom (Value.nodesLeaves true vs c) b := by
  rw [Value.nodesLeaves_eq_flatMap]
  exact partValues_of_threaded h fun v hv _ _ hpart ↦ (ih v hv).node hpart

theorem partValues_items {key : String} {vs : List Value} (ih : ∀ v ∈ vs, BindsEverywhere v)
    (h : Threaded (fun v i part ↦ (ofField ⟨t, .standard, isFar⟩ key v c i).result = .ok part)
      vs b parts) : partValues parts = Place.bindFrom (Value.itemsLeaves true key vs c) b := by
  rw [Value.itemsLeaves_eq_flatMap]
  exact partValues_of_threaded h fun v hv _ _ hpart ↦ (ih v hv).field hpart

theorem partValues_entries {es : List (String × Value)} (ih : ∀ e ∈ es, BindsEverywhere e.2)
    (h : Threaded (fun e i part ↦ (∃ field, t.field? e.1 = some field) ∧
      (ofField ⟨t, .standard, isFar⟩ e.1 e.2 c i).result = .ok part) es b parts) :
    partValues parts = Place.bindFrom (Value.entriesLeaves true es c) b := by
  rw [Value.entriesLeaves_eq_flatMap]
  exact partValues_of_threaded h fun e he _ _ hpart ↦ (ih e he).field hpart.2

/-- Hand-written SQL and a caller's own sub-query bring their own values. -/
theorem values_of_renderPlain {v : Value} {r : Rendition}
    (h : (renderPlain v b).result = .ok r) : r.values = v.renderedValues b := by
  rw [renderPlain.eq_def] at h
  split at h
  · split at h
    · obtain rfl := Except.ok.inj h
      exact (List.append_nil _).symm
    · cases h
  · have hr : Rendition.ofValue _ = .ok r := h
    rw [Value.renderedValues, Value.rowValues, hr]
    exact (List.append_nil _).symm
  · split at h <;> cases h

theorem binds_rows {v : Value} (ih : ∀ w ∈ v.parts, BindsEverywhere w) {r : Rendition}
    (h : (render isFar v b).result = .ok r) : r.values = v.renderedValues b := by
  obtain ⟨id, select, st, rfl, hst, rfl⟩ | ⟨-, h⟩ := of_render h
  · have hleaves : (Value.query id select).rowLeaves true =
        Value.nodesLeaves true select.wheres none := selectLeaves_eq select
    have hvalues : (Value.query id select).renderedValues b =
        Place.bindFrom (Value.nodesLeaves true select.wheres none) b := by
      rw [Value.renderedValues, hleaves]
      simp [Value.rowValues]
    rw [hvalues]
    obtain ⟨columns, name, tail, -, -, -, ⟨hwheres, rfl⟩ | ⟨w, hw, rfl⟩⟩ :=
      Select.exists_of_assemble hst
    · rw [hwheres]
      rfl
    · obtain ⟨parts, hparts, rfl⟩ := of_whereOf hw
      exact partValues_nodes ih hparts
  · exact values_of_renderPlain h

theorem binds_node {v : Value} (ih : ∀ w ∈ v.parts, BindsEverywhere w) {top : Connective}
    {condition : Condition} (h : (ofNode ⟨t, .standard, isFar⟩ top v c b).result = .ok condition) :
    condition.values = Place.bindFrom (v.nodeLeaves true c) b := by
  cases NodeCase.of_ofNode h with
  | group hitems => exact partValues_nodes ih hitems
  | list hitems => exact partValues_nodes ih hitems
  | tuple hitems => exact partValues_nodes ih hitems
  | @map entries parts hentries =>
    have hes : ∀ e ∈ entries, BindsEverywhere e.2 := fun e he ↦ ih e.2 (List.mem_map_of_mem he)
    exact partValues_entries hes hentries
  | @wrappedRows inner bind quote own test r htest hright hinner hr =>
    have hinner' : (⟨none, .wrapped inner bind own quote, c⟩ : Place).inner.isRenderable = true :=
      hinner
    have hown := Place.ownValues_of_isRenderable (isIgnored_none _ _) hinner' b
    exact ((ih inner List.mem_cons_self).rows hr).trans (Place.bindFrom_cons_rowLeaves hown).symm
  | @rows _ test r htest hright hv hr =>
    have hinner : (⟨none, v, c⟩ : Place).inner = v := Place.inner_of_isRenderable hv
    have hown := Place.ownValues_of_isRenderable (isIgnored_none v c) (by rwa [hinner]) b
    rw [hinner] at hown
    rw [nodeLeaves_of_isRenderable hv]
    exact (binds_rows ih hr).trans (Place.bindFrom_cons_rowLeaves hown).symm

theorem binds_field {v : Value} (ih : ∀ w ∈ v.parts, BindsEverywhere w) {key : String}
    {condition : Condition}
    (h : (ofField ⟨t, .standard, isFar⟩ key v c b).result = .ok condition) :
    condition.values = Place.bindFrom (v.fieldLeaves true key c) b := by
  cases FieldCase.of_ofField h with
  | group hitems => exact partValues_items ih hitems
  | skipped => rfl
  | leaf hfield hgroup hmap hunset hleaf hright =>
    rw [Value.fieldLeaves_eq hgroup hunset]
    generalize hp : (⟨some key, v, c⟩ : Place) = p
    refine ((LeafCase.of_standard hleaf).becomes hp.symm).values_eq fun _ _ r hr ↦ ?_
    have hvalue : p.value = v := by rw [← hp]
    have hrender : (render isFar p.inner b).result = .ok r := by
      rw [← renderInner_eq, hvalue]
      exact hr
    -- what renders inside a leaf is the value itself, or what it wraps
    obtain hself | hmem := inner_eq_or_mem_parts p
    · rw [hself, hvalue] at hrender ⊢
      exact binds_rows ih hrender
    · rw [hvalue] at hmem
      exact (ih p.inner hmem).rows hrender

theorem bindsEverywhere (v : Value) : BindsEverywhere v := by
  induction v using Value.induction_on_parts with
  | step v ih => exact ⟨binds_node ih, binds_field ih, binds_rows ih⟩

end Condition

theorem Scope.values_of_condition {t : Table Value} {isFar : Bool} {tree : Value}
    {o : CompileOptions} {c : Condition}
    (h : (Scope.condition ⟨t, .standard, isFar⟩ tree o).result = .ok c) :
    c.values = Place.bindFrom (tree.treeLeaves true o) o.bound := by
  rw [condition] at h
  rw [Value.treeLeaves]
  cases hkey : o.key with
  | some key =>
    rw [hkey] at h
    exact (Condition.bindsEverywhere tree).field h
  | none =>
    rw [hkey] at h
    exact (Condition.bindsEverywhere tree).node h

end Rowmap
