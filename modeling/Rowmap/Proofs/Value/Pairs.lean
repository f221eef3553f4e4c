import Rowmap.Proofs.Value.Equality
import Rowmap.Value.Pairs

/-!
# Entries and pairs

Putting values under keys, said by the keys and by what is looked up. Entries whose keys are given
once each are determined by the two, so entries that are put over all keys of others take their
place in the same order.

Pairs whose keys are all texts are entries: putting and finding agree on both sides, whatever kind
of value each text is.
-/

namespace Rowmap

/-! ## Entries -/

namespace Entries

/-- The keys with one more, if it is not among them. -/
def addKey (keys : List String) (key : String) : List String :=
  if key ∈ keys then keys else keys ++ [key]

/-- What a function says of some keys. -/
def graph (f : String → Value) (keys : List String) : Entries := keys.map fun key ↦ (key, f key)

theorem keys_graph (f : String → Value) (keys : List String) : (graph f keys).keys = keys := by
  rw [Entries.keys, graph, List.map_map]
  exact List.map_id keys

theorem keys_put (es : Entries) (key : String) (v : Value) :
    (es.put key v).keys = addKey es.keys key := by
  rw [addKey]
  induction es with
  | nil => simp [put, keys]
  | cons e es ih =>
    obtain ⟨k, w⟩ := e
    rw [put]
    by_cases hk : k = key
    · simp [hk, keys]
    · have hne : ¬key = k := fun h ↦ hk h.symm
      simp only [keys, List.map_cons] at ih ⊢
      by_cases hmem : key ∈ es.map (·.1)
      · simp [hk, hne, ih, hmem]
      · simp [hk, hne, ih, hmem]

theorem nodup_addKey {keys : List String} (h : keys.Nodup) (key : String) :
    (addKey keys key).Nodup := by
  rw [addKey]
  split
  · exact h
  · rename_i hmem
    exact List.nodup_append.mpr
      ⟨h, by simp, fun a ha b hb ↦ by rintro rfl; simp_all⟩

theorem mem_addKey {keys : List String} {key other : String} :
    other ∈ addKey keys key ↔ other ∈ keys ∨ other = key := by
  rw [addKey]
  split
  · rename_i hmem
    refine ⟨.inl, ?_⟩
    rintro (h | rfl)
    · exact h
    · exact hmem
  · simp

theorem lookup_put (es : Entries) (key other : String) (v : Value) :
    (es.put key v).lookup other = if other = key then some v else es.lookup other := by
  split
  · rename_i h
    rw [h, lookup_put_self]
  · exact lookup_put_of_ne es v ‹_›

theorem lookup_eq_none {es : Entries} {key : String} (h : key ∉ es.keys) :
    es.lookup key = none := by
  induction es with
  | nil => rfl
  | cons e es ih =>
    obtain ⟨k, w⟩ := e
    simp only [keys, List.map_cons, List.mem_cons, not_or] at h
    have hk : (key == k) = false := by simpa using h.1
    rw [List.lookup_cons, hk]
    exact ih h.2

theorem mem_keys_of_lookup {es : Entries} {key : String} {v : Value} (h : es.lookup key = some v) :
    key ∈ es.keys := by
  by_contra hmem
  rw [lookup_eq_none hmem] at h
  exact absurd h.symm (Option.some_ne_none v)

theorem mem_keys_iff {es : Entries} {key : String} :
    key ∈ es.keys ↔ (es.lookup key).isSome = true := by
  constructor
  · intro hmem
    rw [Option.isSome_iff_ne_none, ne_eq, List.lookup_eq_none_iff]
    obtain ⟨e, he, rfl⟩ := List.mem_map.mp hmem
    intro hnone
    simpa using hnone e he
  · intro hsome
    obtain ⟨v, hv⟩ := Option.isSome_iff_exists.mp hsome
    exact mem_keys_of_lookup hv

theorem eq_graph {es : Entries} {f : String → Value} (hnodup : es.keys.Nodup)
    (h : ∀ key ∈ es.keys, es.lookup key = some (f key)) : es = graph f es.keys := by
  induction es with
  | nil => rfl
  | cons e es ih =>
    obtain ⟨k, w⟩ := e
    simp only [keys, List.map_cons, List.nodup_cons] at hnodup
    have hw : w = f k := by
      have hk := h k (by simp [keys])
      rw [List.lookup_cons, beq_self_eq_true] at hk
      exact Option.some.inj hk
    have hrest : es = graph f (keys es) := by
      refine ih hnodup.2 fun key hkey ↦ ?_
      have hne : (key == k) = false := by
        rw [beq_eq_false_iff_ne]
        rintro rfl
        exact hnodup.1 hkey
      have hlookup := h key (by simp only [keys, List.map_cons]; exact List.mem_cons_of_mem _ hkey)
      rwa [List.lookup_cons, hne] at hlookup
    rw [graph, keys, List.map_cons, List.map_cons, hw]
    exact congrArg _ hrest

theorem lookup_graph (f : String → Value) {keys : List String} {key : String} (h : key ∈ keys) :
    (graph f keys).lookup key = some (f key) := by
  induction keys with
  | nil => exact absurd h List.not_mem_nil
  | cons k keys ih =>
    rw [graph, List.map_cons, List.lookup_cons]
    by_cases hk : key = k
    · rw [hk, beq_self_eq_true]
    · rw [beq_eq_false_iff_ne.mpr hk]
      exact ih ((List.mem_cons.mp h).resolve_left hk)

/-! ### Putting several -/

theorem keys_override (es fs : Entries) :
    (es.override fs).keys = fs.keys.foldl addKey es.keys := by
  induction fs generalizing es with
  | nil => rfl
  | cons e fs ih =>
    obtain ⟨k, w⟩ := e
    show ((es.put k w).override fs).keys = _
    rw [ih, keys_put]
    rfl

/-- Entries put over others are found instead of them, when their keys always come with the same
value. -/
theorem lookup_override_graph (es : Entries) (f : String → Value) (names : List String)
    (key : String) : (es.override (graph f names)).lookup key =
      if key ∈ names then some (f key) else es.lookup key := by
  induction names generalizing es with
  | nil => simp [graph, override]
  | cons name names ih =>
    show ((es.put name (f name)).override (graph f names)).lookup key = _
    rw [ih, lookup_put]
    by_cases hmem : key ∈ names
    · simp [hmem]
    · by_cases hkey : key = name
      · simp [hkey]
      · simp [hmem, hkey]

/-- The keys of entries that are put one after the other, each once. -/
def firsts (names : List String) : List String := names.foldl addKey []

theorem nodup_foldl_addKey {keys : List String} (h : keys.Nodup) (names : List String) :
    (names.foldl addKey keys).Nodup := by
  induction names generalizing keys with
  | nil => exact h
  | cons name names ih => exact ih (nodup_addKey h name)

theorem mem_foldl_addKey {keys : List String} {names : List String} {key : String} :
    key ∈ names.foldl addKey keys ↔ key ∈ keys ∨ key ∈ names := by
  induction names generalizing keys with
  | nil => simp
  | cons name names ih => rw [List.foldl_cons, ih, mem_addKey, List.mem_cons, or_assoc]

theorem nodup_firsts (names : List String) : (firsts names).Nodup :=
  nodup_foldl_addKey List.nodup_nil names

theorem mem_firsts {names : List String} {key : String} : key ∈ firsts names ↔ key ∈ names := by
  rw [firsts, mem_foldl_addKey]
  simp

theorem firsts_of_nodup {names : List String} (h : names.Nodup) : firsts names = names := by
  have hfold {keys : List String} (h : (keys ++ names).Nodup) :
      names.foldl addKey keys = keys ++ names := by
    induction names generalizing keys with
    | nil => simp
    | cons name names ih =>
      have hnew : name ∉ keys := by
        intro hmem
        exact (List.nodup_append.mp h).2.2 name hmem name List.mem_cons_self rfl
      have hsplit : keys ++ name :: names = (keys ++ [name]) ++ names := by simp
      rw [List.foldl_cons, addKey, if_neg hnew]
      rw [hsplit] at h ⊢
      exact ih ((List.nodup_append.mp h).2.1) h
  exact hfold h

/-- What a function says of some keys, put one after the other. -/
theorem override_nil (f : String → Value) (names : List String) :
    override [] (graph f names) = graph f (firsts names) := by
  have hkeys : (override [] (graph f names)).keys = firsts names := by
    rw [keys_override, keys_graph]
    rfl
  rw [← hkeys]
  refine eq_graph (hkeys ▸ nodup_firsts names) fun key hkey ↦ ?_
  rw [hkeys, mem_firsts] at hkey
  rw [lookup_override_graph, if_pos hkey]

theorem foldl_addKey_of_subset {keys names : List String} (h : ∀ key ∈ names, key ∈ keys) :
    names.foldl addKey keys = keys := by
  induction names with
  | nil => rfl
  | cons name names ih =>
    rw [List.forall_mem_cons] at h
    rw [List.foldl_cons, addKey, if_pos h.1, ih h.2]

/-- What another function says of the same keys takes the place of what the first one did. -/
theorem override_graph_self (f g : String → Value) {keys : List String} (h : keys.Nodup) :
    (graph g keys).override (graph f keys) = graph f keys := by
  have hkeys : ((graph g keys).override (graph f keys)).keys = keys := by
    rw [keys_override, keys_graph, keys_graph, foldl_addKey_of_subset fun _ h ↦ h]
  conv_rhs => rw [← hkeys]
  refine eq_graph (by rwa [hkeys]) fun key hkey ↦ ?_
  rw [hkeys] at hkey
  rw [lookup_override_graph, if_pos hkey]

end Entries

/-! ## Pairs -/

/-- Values that are the same text are taken for each other. -/
theorem Value.matchesElement_of_asText? {v w : Value} {s : String} (hv : v.asText? = some s)
    (hw : w.asText? = some s) : v.matchesElement w = true := by
  have hnumber {u : Value} (hu : u.asText? = some s) : u.number? = none := by
    rw [Option.eq_none_iff_forall_ne_some]
    intro n hn
    rw [asText?_of_number? hn] at hu
    exact absurd hu.symm (Option.some_ne_none s)
  have hcompare : compare? v w = compareScalar? v w := by
    cases v <;> first | rfl | exact absurd hv.symm (Option.some_ne_none s)
  have hequal : v.equal w = true := by
    rw [equal, hcompare, compareScalar?, hnumber hv, hnumber hw, equalPlain.eq_def, hv, hw]
    simp
  rw [matchesElement, hequal, Bool.or_true]

/-- Values that are texts are taken for each other when they are the same one. -/
theorem Value.matchesElement_iff {v w : Value} {s t : String} (hv : v.asText? = some s)
    (hw : w.asText? = some t) : v.matchesElement w = true ↔ s = t := by
  constructor
  · intro h
    have heq := asText?_eq_of_matchesElement h
    rw [hv, hw] at heq
    exact Option.some.inj heq
  · rintro rfl
    exact matchesElement_of_asText? hv hw

namespace Pairs

/-- Pairs that are entries, because their keys are all texts. -/
def Are (ps : Pairs) (es : Entries) : Prop := ps.split = (es, none)

theorem are_nil : Are [] [] := rfl

theorem are_cons {key v : Value} {name : String} {ps : Pairs} {es : Entries}
    (hkey : key.asText? = some name) (h : ps.Are es) : Are ((key, v) :: ps) ((name, v) :: es) := by
  rw [Are, split, hkey]
  dsimp only
  rw [h]

theorem Are.of_cons {p : Value × Value} {ps : Pairs} {es : Entries} (h : Are (p :: ps) es) :
    ∃ name es', p.1.asText? = some name ∧ es = (name, p.2) :: es' ∧ ps.Are es' := by
  rw [Are, split.eq_def] at h
  dsimp only at h
  split at h
  · rename_i name hname
    obtain ⟨h₁, h₂⟩ := Prod.mk.inj h
    exact ⟨name, _, hname, h₁.symm, Prod.ext rfl h₂⟩
  · exact absurd (Prod.mk.inj h).2 (Option.some_ne_none _)

theorem Are.put {ps : Pairs} {es : Entries} (h : ps.Are es) {key : Value} {name : String}
    (hkey : key.asText? = some name) (v : Value) : (ps.put key v).Are (es.put name v) := by
  induction ps generalizing es with
  | nil =>
    obtain rfl : [] = es := (Prod.mk.inj h).1
    exact are_cons hkey are_nil
  | cons p ps ih =>
    obtain ⟨k, w⟩ := p
    obtain ⟨name', es', hname, rfl, hps⟩ := h.of_cons
    rw [Pairs.put, Entries.put]
    by_cases heq : name' = name
    · rw [if_pos ((Value.matchesElement_iff hname hkey).mpr heq), if_pos (by simpa using heq)]
      exact are_cons hname hps
    · rw [if_neg (mt (Value.matchesElement_iff hname hkey).mp heq), if_neg (by simpa using heq)]
      exact are_cons hname (ih hps)

theorem Are.override {ps qs : Pairs} {es fs : Entries} (h : ps.Are es) (hqs : qs.Are fs) :
    (ps.override qs).Are (es.override fs) := by
  induction qs generalizing ps es fs with
  | nil =>
    obtain rfl : [] = fs := (Prod.mk.inj hqs).1
    exact h
  | cons q qs ih =>
    obtain ⟨name, fs', hname, rfl, htail⟩ := hqs.of_cons
    have hrest : ((ps.put q.1 q.2).override qs).Are ((es.put name q.2).override fs') :=
      ih (h.put hname q.2) htail
    exact hrest

theorem Are.valueAt {ps : Pairs} {es : Entries} (h : ps.Are es) {key : Value} {name : String}
    (hkey : key.asText? = some name) : ps.valueAt key = es.valueAt name := by
  have hfind : ps.find key = es.lookup name := by
    induction ps generalizing es with
    | nil =>
      obtain rfl : [] = es := (Prod.mk.inj h).1
      rfl
    | cons p ps ih =>
      obtain ⟨name', es', hname, rfl, hps⟩ := h.of_cons
      have hrest := ih hps
      rw [find] at hrest ⊢
      rw [List.find?_cons, List.lookup_cons]
      by_cases heq : name' = name
      · rw [(Value.matchesElement_iff hname hkey).mpr heq, heq, beq_self_eq_true]
        rfl
      · have hmatch := mt (Value.matchesElement_iff hname hkey).mp heq
        rw [Bool.not_eq_true] at hmatch
        rw [hmatch, beq_eq_false_iff_ne.mpr (Ne.symm heq)]
        exact hrest
  rw [Pairs.valueAt, hfind]
  rfl

/-! ### Any keys -/

theorem find_put {key : Value} {name : String} (hkey : key.asText? = some name) (ps : Pairs)
    (k v : Value) :
    (ps.put k v).find key = if k.asText? = some name then some v else ps.find key := by
  have hmatch {k : Value} : k.matchesElement key = true ↔ k.asText? = some name := by
    refine ⟨fun h ↦ (Value.asText?_eq_of_matchesElement h).trans hkey, fun h ↦ ?_⟩
    exact Value.matchesElement_of_asText? h hkey
  induction ps with
  | nil =>
    by_cases hk : k.asText? = some name
    · simp [put, find, hmatch, hk]
    · simp [put, find, hmatch, hk]
  | cons p ps ih =>
    obtain ⟨k', w⟩ := p
    rw [find] at ih ⊢
    rw [put]
    by_cases heq : k'.matchesElement k = true
    · have htext := Value.asText?_eq_of_matchesElement heq
      rw [if_pos heq]
      by_cases hk : k.asText? = some name
      · simp [hmatch, htext, hk]
      · simp [find, hmatch, htext, hk]
    · rw [if_neg heq]
      by_cases hk' : k'.asText? = some name
      · have hk : ¬k.asText? = some name := fun hk ↦
          heq (Value.matchesElement_of_asText? hk' hk)
        simp [find, hmatch, hk, hk']
      · simp [find, hmatch, hk', ih]

/-- What is put over pairs is found instead of them, when a text always comes with one value. -/
theorem find_override {key w : Value} {name : String} (hkey : key.asText? = some name)
    {qs : Pairs} (h : ∀ q ∈ qs, q.1.asText? = some name → q.2 = w) (ps : Pairs) :
    (ps.override qs).find key =
      if ∃ q ∈ qs, q.1.asText? = some name then some w else ps.find key := by
  induction qs generalizing ps with
  | nil => simp [override]
  | cons q qs ih =>
    rw [List.forall_mem_cons] at h
    show ((ps.put q.1 q.2).override qs).find key = _
    rw [ih h.2, find_put hkey]
    by_cases hq : q.1.asText? = some name
    · have hmem : ∃ q' ∈ q :: qs, q'.1.asText? = some name := ⟨q, List.mem_cons_self, hq⟩
      rw [if_pos hq, if_pos hmem, h.1 hq, ite_self]
    · have hmem : (∃ q' ∈ q :: qs, q'.1.asText? = some name) ↔
          ∃ q' ∈ qs, q'.1.asText? = some name := by
        rw [List.exists_mem_cons_iff]
        exact or_iff_right hq
      rw [if_neg hq, if_congr hmem rfl rfl]

/-- What holds of each value and the text of its key, where a key may be no text, holds of a value
put under another key if it holds of that key. -/
theorem forall_mem_put {Q : Option String → Value → Prop} {ps : Pairs}
    (h : ∀ p ∈ ps, Q p.1.asText? p.2) {key v : Value} (hv : Q key.asText? v) :
    ∀ p ∈ ps.put key v, Q p.1.asText? p.2 := by
  induction ps with
  | nil => simpa [put] using hv
  | cons p ps ih =>
    rw [List.forall_mem_cons] at h
    rw [put]
    split
    · rename_i heq
      rw [List.forall_mem_cons]
      exact ⟨by rwa [Value.asText?_eq_of_matchesElement heq], h.2⟩
    · rw [List.forall_mem_cons]
      exact ⟨h.1, ih h.2⟩

theorem forall_mem_override {Q : Option String → Value → Prop} {ps qs : Pairs}
    (h : ∀ p ∈ ps, Q p.1.asText? p.2) (hqs : ∀ q ∈ qs, Q q.1.asText? q.2) :
    ∀ p ∈ ps.override qs, Q p.1.asText? p.2 := by
  induction qs generalizing ps with
  | nil => exact h
  | cons q qs ih =>
    rw [List.forall_mem_cons] at hqs
    have hfirst := forall_mem_put h hqs.1
    exact ih hfirst hqs.2

theorem valueAt_eq_null {ps : Pairs} (h : ∀ p ∈ ps, p.1.asText? = none → p.2 = .null)
    {key : Value} (hkey : key.asText? = none) : ps.valueAt key = .null := by
  rw [valueAt, find]
  cases hfind : List.find? (fun p ↦ p.1.matchesElement key) ps with
  | none => rfl
  | some p =>
    have hmatch := List.find?_some hfind
    have hnone := (Value.asText?_eq_of_matchesElement hmatch).trans hkey
    exact h p (List.mem_of_find?_eq_some hfind) hnone

end Pairs

end Rowmap
