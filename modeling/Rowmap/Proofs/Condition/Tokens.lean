import Rowmap.Proofs.Condition.Reading

/-!
# Conditions as tokens

A condition's text again, written as tokens by the same rule. The tokens spell the text, their atoms
are the condition's, and they are read as the condition's own value: parentheses are written
wherever the precedence of the connectives asks for them.
-/

namespace Rowmap

namespace Token

/-! ## Joined texts -/

def Spelled (ts : List Token) : Prop := ∀ a ∈ ts.filterMap atom?, a ≠ ""

theorem filterMap_atom?_intercalate (connective : Connective) (tss : List (List Token)) :
    ([.joint connective].intercalate tss).filterMap atom? =
      tss.flatMap (·.filterMap atom?) := by
  induction tss with
  | nil => rfl
  | cons ts tss ih =>
    cases tss with
    | nil => simp
    | cons us tss =>
      rw [List.intercalate_cons_cons, List.filterMap_append, List.filterMap_append, ih]
      simp [atom?]

theorem filterMap_atom?_joinParts (parts : List (List Token)) (connective : Connective)
    (siblings : Int) : (joinParts parts connective siblings).filterMap atom? =
      parts.flatMap (·.filterMap atom?) := by
  have hkept : (parts.filter (!·.isEmpty)).flatMap (·.filterMap atom?) =
      parts.flatMap (·.filterMap atom?) := by
    induction parts with
    | nil => rfl
    | cons ts parts ih => cases ts <;> simp_all
  rw [joinParts, ← hkept, ← filterMap_atom?_intercalate connective]
  split
  · simp [List.filterMap_cons, atom?]
  · rfl

theorem text_ne_empty {t : Token} (h : ∀ a, t.atom? = some a → a ≠ "") : t.text ≠ "" := by
  cases t with
  | atom text => exact h text rfl
  | joint c => cases c <;> decide
  | _ => decide

theorem Spelled.written_ne_empty {ts : List Token} (h : Spelled ts) (hts : ts ≠ []) :
    written ts ≠ "" := by
  cases ts with
  | nil => exact absurd rfl hts
  | cons t ts =>
    have ht : t.text ≠ "" := text_ne_empty fun a ha ↦
      h a (List.mem_filterMap.mpr ⟨t, List.mem_cons_self, ha⟩)
    rw [written_cons]
    intro hempty
    exact ht (String.append_eq_empty_iff.mp hempty).1

theorem written_intercalate (connective : Connective) (tss : List (List Token)) :
    written ([.joint connective].intercalate tss) =
      (" " ++ connective.label ++ " ").intercalate (tss.map written) := by
  induction tss with
  | nil => simp
  | cons ts tss ih =>
    cases tss with
    | nil => simp
    | cons us tss =>
      rw [List.intercalate_cons_cons, written_append, written_append, ih]
      simp [text, String.intercalate_cons_cons, String.append_assoc]

theorem written_joinParts {parts : List (List Token)} (h : ∀ ts ∈ parts, Spelled ts)
    (connective : Connective) (siblings : Int) :
    written (joinParts parts connective siblings) =
      Sql.joinParts (parts.map written) connective.label siblings := by
  -- a part without tokens has no text, and no other part has none, since no atom is empty
  have hkept : (parts.map written).filter (!·.isEmpty) =
      (parts.filter (!·.isEmpty)).map written := by
    rw [List.filter_map]
    congr 1
    refine List.filter_congr fun ts hts ↦ ?_
    cases ts with
    | nil => rfl
    | cons t ts =>
      have hne := (h _ hts).written_ne_empty (List.cons_ne_nil t ts)
      simpa using hne
  rw [joinParts, Sql.joinParts, hkept, List.length_map]
  split <;> simp [text, written_intercalate, String.append_assoc]

end Token

namespace Condition

theorem orAlways_of_ne_empty {text : String} (h : text ≠ "") : orAlways text = text := by
  rw [orAlways, if_neg (by simpa using h)]

theorem orAlways_orAlways (text : String) : orAlways (orAlways text) = orAlways text := by
  by_cases h : text = ""
  · subst h
    rfl
  · rw [orAlways_of_ne_empty h, orAlways_of_ne_empty h]

/-! ## The tokens of a condition -/

mutual

/-- The texts of the leaves and tests for rows of a condition, from left to right. -/
def atoms : Condition → List String
  | .skipped => []
  | .atom text _ => [text]
  | .group _ parts | .fields _ parts => partAtoms parts

def partAtoms : List Condition → List String
  | [] => []
  | part :: parts => part.atoms ++ partAtoms parts

end

/-- Tokens, or the constant truth when there are none. -/
def orAlwaysToken (ts : List Token) : List Token := if ts.isEmpty then [.always] else ts

mutual

/-- The tokens of a condition that stands beside so many others. -/
def tokens : Condition → Int → List Token
  | .skipped, _ => []
  | .atom text _, _ => [.atom text]
  | .group connective parts, siblings =>
    Token.joinParts (partTokens parts (groupSiblings siblings parts.length)) connective siblings
  | .fields connective parts, siblings =>
    orAlwaysToken
      (Token.joinParts (partTokens parts (siblings + parts.length - 1)) connective siblings)

def partTokens : List Condition → Int → List (List Token)
  | [], _ => []
  | part :: parts, siblings => part.tokens siblings :: partTokens parts siblings

end

theorem length_partTokens (parts : List Condition) (s : Int) :
    (partTokens parts s).length = parts.length := by
  induction parts with
  | nil => rfl
  | cons part parts ih => simp [partTokens, ih]

theorem filterMap_atom?_orAlwaysToken (ts : List Token) :
    (orAlwaysToken ts).filterMap Token.atom? = ts.filterMap Token.atom? := by
  cases ts <;> rfl

mutual

theorem filterMap_atom?_tokens : ∀ (c : Condition) (s : Int),
    (c.tokens s).filterMap Token.atom? = c.atoms
  | .skipped, _ => rfl
  | .atom _ _, _ => rfl
  | .group _ parts, _ => by
    rw [tokens, Token.filterMap_atom?_joinParts, flatMap_atom?_partTokens, atoms]
  | .fields _ parts, _ => by
    rw [tokens, filterMap_atom?_orAlwaysToken, Token.filterMap_atom?_joinParts,
      flatMap_atom?_partTokens, atoms]

theorem flatMap_atom?_partTokens : ∀ (parts : List Condition) (s : Int),
    (partTokens parts s).flatMap (·.filterMap Token.atom?) = partAtoms parts
  | [], _ => rfl
  | part :: parts, s => by
    rw [partTokens, List.flatMap_cons, filterMap_atom?_tokens part s,
      flatMap_atom?_partTokens parts s, partAtoms]

end

theorem spelled_of_mem_partTokens {parts : List Condition} (h : ∀ a ∈ partAtoms parts, a ≠ "")
    {s : Int} : ∀ ts ∈ partTokens parts s, Token.Spelled ts := by
  intro ts hts a ha
  refine h a ?_
  rw [← flatMap_atom?_partTokens parts s]
  exact List.mem_flatMap_of_mem hts ha

theorem written_orAlwaysToken {ts : List Token} (h : Token.Spelled ts) :
    Token.written (orAlwaysToken ts) = orAlways (Token.written ts) := by
  cases ts with
  | nil => rfl
  | cons t ts =>
    have hne := h.written_ne_empty (List.cons_ne_nil t ts)
    rw [orAlways_of_ne_empty hne]
    rfl

theorem spelled_joinParts {parts : List Condition} (h : ∀ a ∈ partAtoms parts, a ≠ "")
    (s s' : Int) (connective : Connective) :
    Token.Spelled (Token.joinParts (partTokens parts s) connective s') := by
  intro a ha
  rw [Token.filterMap_atom?_joinParts, flatMap_atom?_partTokens] at ha
  exact h a ha

mutual

/-- **The tokens of a condition spell its text.** -/
theorem written_tokens : ∀ (c : Condition) (s : Int), (∀ a ∈ c.atoms, a ≠ "") →
    Token.written (c.tokens s) = c.text s
  | .skipped, _, _ => by simp [tokens, text]
  | .atom _ _, _, _ => by simp [tokens, text, Token.text]
  | .group _ parts, s, h => by
    rw [atoms] at h
    rw [tokens, text, Token.written_joinParts (spelled_of_mem_partTokens h),
      map_written_partTokens parts _ h]
  | .fields _ parts, s, h => by
    rw [atoms] at h
    rw [tokens, text, written_orAlwaysToken (spelled_joinParts h _ _ _),
      Token.written_joinParts (spelled_of_mem_partTokens h), map_written_partTokens parts _ h]

theorem map_written_partTokens : ∀ (parts : List Condition) (s : Int),
    (∀ a ∈ partAtoms parts, a ≠ "") →
      (partTokens parts s).map Token.written = partTexts parts s
  | [], _, _ => rfl
  | part :: parts, s, h => by
    rw [partAtoms] at h
    rw [partTokens, partTexts, List.map_cons,
      written_tokens part s fun a ha ↦ h a (List.mem_append_left _ ha),
      map_written_partTokens parts s fun a ha ↦ h a (List.mem_append_right _ ha)]

end

/-- The tokens of a whole condition, or of the constant truth, spell its statement part. -/
theorem written_statement (c : Condition) (s : Int) (h : ∀ a ∈ c.atoms, a ≠ "") :
    Token.written (orAlwaysToken (c.tokens s)) = (c.statement s).text := by
  have hspelled : Token.Spelled (c.tokens s) := by
    intro a ha
    rw [filterMap_atom?_tokens] at ha
    exact h a ha
  rw [written_orAlwaysToken hspelled, written_tokens c s h]
  rfl

/-! ## The value of a condition -/

mutual

/-- The value of a condition whose atoms, numbered from a given one on, have given truth values, and
the number after its last atom. -/
def value (truth : Nat → Bool) : Condition → Nat → Option Bool × Nat
  | .skipped, n => (none, n)
  | .atom _ _, n => (some (truth n), n + 1)
  | .group connective parts, n => (partsValue truth parts n).map connective.join id
  | .fields connective parts, n =>
    (partsValue truth parts n).map (fun vs ↦ some ((connective.join vs).getD true)) id

def partsValue (truth : Nat → Bool) : List Condition → Nat → List (Option Bool) × Nat
  | [], n => ([], n)
  | part :: parts, n =>
    let first := part.value truth n
    (partsValue truth parts first.2).map (first.1 :: ·) id

end

theorem isPart_orAlwaysToken {truth : Nat → Bool} {s : Int} {ts : List Token} {n m : Nat}
    {v : Option Bool} (h : Token.IsPart truth s ts n v m) :
    Token.IsPart truth s (orAlwaysToken ts) n (some (v.getD true)) m := by
  cases v with
  | none =>
    obtain ⟨rfl, rfl⟩ := h
    exact Token.isOperand_always.isPart (by simp [orAlwaysToken])
  | some b =>
    have hts : orAlwaysToken ts = ts := by simp [orAlwaysToken, h.1]
    rw [hts]
    exact h

/-- How many siblings the parts of a group and of a map of fields are written for: enough of them,
though a lone part of a group gets no more than the group has. -/
structure Suffices (s s' : Int) (count : Nat) : Prop where
  nonneg : 0 < count → 0 ≤ s'
  lone : 0 < s → 0 < count → 0 < s'
  several : 1 < count → 0 < s'

theorem suffices_groupSiblings {s : Int} (hs : 0 ≤ s) (count : Nat) :
    Suffices s (groupSiblings s count) count := by
  constructor <;> grind [groupSiblings]

theorem suffices_fieldSiblings {s : Int} (hs : 0 ≤ s) (count : Nat) :
    Suffices s (s + count - 1) count := by
  constructor <;> omega

theorem isPart_joinParts {truth : Nat → Bool} {s s' : Int} {parts : List Condition} {n m : Nat}
    {vs : List (Option Bool)} (h : Token.AreParts truth s' (partTokens parts s') n vs m)
    (hs : Suffices s s' parts.length) (connective : Connective) :
    Token.IsPart truth s (Token.joinParts (partTokens parts s') connective s) n
      (connective.join vs) m := by
  refine h.isPart_joinParts connective (fun h hne ↦ hs.lone h ?_) fun h ↦ hs.several ?_
  · rw [← length_partTokens parts s']
    exact List.length_pos_iff.mpr hne
  · rwa [length_partTokens] at h

mutual

/-- **The tokens of a condition are read as its value.** -/
theorem isPart_tokens (truth : Nat → Bool) : ∀ (c : Condition) (s : Int) (n : Nat), 0 ≤ s →
    Token.IsPart truth s (c.tokens s) n (c.value truth n).1 (c.value truth n).2
  | .skipped, _, _, _ => ⟨rfl, rfl⟩
  | .atom text _, _, _, _ => (Token.isOperand_atom text).isPart (List.cons_ne_nil _ _)
  | .group connective parts, _, n, hs =>
    have hcount := suffices_groupSiblings hs parts.length
    isPart_joinParts (areParts_partTokens truth parts _ n hcount.nonneg) hcount connective
  | .fields connective parts, _, n, hs =>
    have hcount := suffices_fieldSiblings hs parts.length
    isPart_orAlwaysToken
      (isPart_joinParts (areParts_partTokens truth parts _ n hcount.nonneg) hcount connective)

theorem areParts_partTokens (truth : Nat → Bool) : ∀ (parts : List Condition) (s : Int) (n : Nat),
    (0 < parts.length → 0 ≤ s) → Token.AreParts truth s (partTokens parts s) n
      (partsValue truth parts n).1 (partsValue truth parts n).2
  | [], _, n, _ => .nil n
  | part :: parts, s, n, hs =>
    have hs' : 0 ≤ s := hs (Nat.succ_pos _)
    .cons (isPart_tokens truth part s n hs') (areParts_partTokens truth parts s _ fun _ ↦ hs')

end

theorem read_tokens (truth : Nat → Bool) (c : Condition) {s : Int} (hs : 0 ≤ s) :
    Token.read truth (orAlwaysToken (c.tokens s)) = some ((c.value truth 0).1.getD true) := by
  obtain ⟨-, hlevel, -⟩ := isPart_orAlwaysToken (isPart_tokens truth c s 0 hs)
  exact hlevel.read_eq

end Condition

end Rowmap
