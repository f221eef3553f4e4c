import Mathlib.Data.List.ReduceOption
import Mathlib.Tactic.Common
import Rowmap.Condition.Tree

/-!
# Reading conditions back

The text of a condition is read as a sequence of tokens: atoms, which nothing looks into, the
constant truth, parentheses and connectives. Reading follows the precedence of the language:
parentheses first, then `AND`, then `OR`. The reader knows nothing of the tree that was written, so
a text that is read as the tree says has its parentheses in the right places.

Parentheses are written by a count of siblings that is handed down the tree before empty parts are
left out. The count may be too high, never too low: a part that stands beside others has a positive
one, and a part with a positive count is an operand, whatever stands around it.
-/

namespace Rowmap

/-! ## Tokens -/

/-- A token of a written condition. -/
inductive Token where
  | atom (text : String)
  | always
  | joint (c : Connective)
  | opening
  | closing
  deriving DecidableEq, Repr

namespace Token

def text : Token → String
  | .atom text => text
  | .always => Condition.always
  | .joint c => " " ++ c.label ++ " "
  | .opening => "("
  | .closing => ")"

def atom? : Token → Option String
  | .atom text => some text
  | _ => none

def written (ts : List Token) : String := String.join (ts.map text)

@[simp] theorem written_nil : written [] = "" := by simp [written]

@[simp] theorem written_cons (t : Token) (ts : List Token) :
    written (t :: ts) = t.text ++ written ts := by simp [written]

@[simp] theorem written_append (ts us : List Token) :
    written (ts ++ us) = written ts ++ written us := by
  induction ts with
  | nil => simp
  | cons t ts ih => simp [ih, String.append_assoc]

/-! ## The reader -/

/-- A level of parentheses as far as it has been read: whether a conjunction before the last `OR`
holds, whether the conjunction since then does, and whether the last token ends an operand. -/
structure Level where
  earlier : Bool := false
  current : Bool := true
  complete : Bool := false
  deriving DecidableEq, Repr

def Level.value (l : Level) : Bool := l.earlier || l.current

def Level.take (l : Level) (b : Bool) : Option Level :=
  if l.complete then none else some ⟨l.earlier, l.current && b, true⟩

/-- How far reading has come: the number of atoms so far, the level being read, and those around it.
-/
structure Reader where
  next : Nat := 0
  level : Level := {}
  outer : List Level := []
  deriving DecidableEq, Repr

/-- A reader after one more operand, which took some atoms. -/
def Reader.take (r : Reader) (b : Bool) (next : Nat) : Option Reader :=
  (r.level.take b).map fun level ↦ ⟨next, level, r.outer⟩

/-- Reads one token; the `n`-th atom has the truth value `truth n`. -/
def step (truth : Nat → Bool) (r : Reader) : Token → Option Reader
  | .atom _ => r.take (truth r.next) (r.next + 1)
  | .always => r.take true r.next
  | .joint .and =>
    if r.level.complete then some ⟨r.next, ⟨r.level.earlier, r.level.current, false⟩, r.outer⟩
    else none
  | .joint .or =>
    if r.level.complete then some ⟨r.next, ⟨r.level.value, true, false⟩, r.outer⟩ else none
  | .opening => if r.level.complete then none else some ⟨r.next, {}, r.level :: r.outer⟩
  | .closing =>
    match r.outer with
    | [] => none
    | level :: outer =>
      if r.level.complete then Reader.take ⟨r.next, level, outer⟩ r.level.value r.next else none

/-- The truth value that tokens have, when they can be read at all. -/
def read (truth : Nat → Bool) (ts : List Token) : Option Bool := do
  let r ← ts.foldlM (step truth) {}
  if r.level.complete && r.outer.isEmpty then some r.level.value else none

/-- `AND` binds more tightly than `OR`, on either side. -/
example : (List.range 8).map (fun i ↦ read i.testBit [.atom "a", .joint .or, .atom "b", .joint .and,
    .atom "c"]) =
    (List.range 8).map (fun i ↦ some (i.testBit 0 || (i.testBit 1 && i.testBit 2))) := by decide

/-! ## Operands and expressions -/

/-- Tokens that are read as one operand, wherever they stand. -/
def IsOperand (truth : Nat → Bool) (ts : List Token) (n : Nat) (b : Bool) (m : Nat) : Prop :=
  ∀ level outer, level.complete = false →
    ts.foldlM (step truth) ⟨n, level, outer⟩ =
      some ⟨m, ⟨level.earlier, level.current && b, true⟩, outer⟩

def IsLevel (truth : Nat → Bool) (ts : List Token) (n : Nat) (b : Bool) (m : Nat) : Prop :=
  ∀ outer, ∃ level : Level, level.complete = true ∧ level.value = b ∧
    ts.foldlM (step truth) ⟨n, {}, outer⟩ = some ⟨m, level, outer⟩

variable {truth : Nat → Bool} {ts : List Token} {n m : Nat} {b : Bool}

theorem IsOperand.isLevel (h : IsOperand truth ts n b m) : IsLevel truth ts n b m := fun outer ↦
  ⟨⟨false, b, true⟩, rfl, rfl, by simpa using h {} outer rfl⟩

theorem IsLevel.read_eq (h : IsLevel truth ts 0 b m) : read truth ts = some b := by
  obtain ⟨level, hcomplete, hvalue, hrun⟩ := h []
  have hrun' : ts.foldlM (step truth) {} = some ⟨m, level, []⟩ := hrun
  simp [read, hrun', hcomplete, hvalue]

theorem isOperand_atom (text : String) : IsOperand truth [.atom text] n (truth n) (n + 1) := by
  intro level outer hlevel
  simp [step, Reader.take, Level.take, hlevel]

theorem isOperand_always : IsOperand truth [.always] n true n := by
  intro level outer hlevel
  simp [step, Reader.take, Level.take, hlevel]

theorem IsLevel.parenthesized (h : IsLevel truth ts n b m) :
    IsOperand truth (.opening :: ts ++ [.closing]) n b m := by
  intro level outer hlevel
  obtain ⟨inner, hcomplete, hvalue, hrun⟩ := h (level :: outer)
  have hopen : step truth ⟨n, level, outer⟩ .opening = some ⟨n, {}, level :: outer⟩ := by
    simp [step, hlevel]
  have hclose : step truth ⟨m, inner, level :: outer⟩ .closing =
      some ⟨m, ⟨level.earlier, level.current && b, true⟩, outer⟩ := by
    simp [step, hcomplete, hvalue, Reader.take, Level.take, hlevel]
  rw [List.cons_append, List.foldlM_cons, hopen, Option.bind_eq_bind, Option.bind_some,
    List.foldlM_append, hrun, Option.bind_eq_bind, Option.bind_some, List.foldlM_cons, hclose]
  rfl

/-! ## Operands in a row -/

/-- Operands one after the other, with their values. -/
inductive AreOperands (truth : Nat → Bool) : List (List Token) → Nat → List Bool → Nat → Prop where
  | nil (n : Nat) : AreOperands truth [] n [] n
  | cons {ts : List Token} {tss : List (List Token)} {n k m : Nat} {b : Bool} {bs : List Bool}
      (head : IsOperand truth ts n b k) (tail : AreOperands truth tss k bs m) :
      AreOperands truth (ts :: tss) n (b :: bs) m

namespace AreOperands

variable {tss : List (List Token)} {bs : List Bool}

theorem isOperand_and (h : AreOperands truth (ts :: tss) n (b :: bs) m) :
    IsOperand truth ([.joint .and].intercalate (ts :: tss)) n (b && bs.all id) m := by
  induction tss generalizing ts n b bs with
  | nil =>
    cases h with
    | cons head tail =>
      cases tail
      simpa using head
  | cons us tss ih =>
    cases h with
    | cons head tail =>
      cases bs with
      | nil => cases tail
      | cons d ds =>
        intro level outer hlevel
        -- the rest goes on from the conjunction that the first operand is part of
        have hrest := ih tail ⟨level.earlier, level.current && b, false⟩ outer rfl
        rw [List.intercalate_cons_cons, List.append_assoc, List.foldlM_append,
          head level outer hlevel]
        simpa [step, Bool.and_assoc] using hrest

/-- Operands with `OR` between them, read after conjunctions of which one may hold. -/
theorem foldlM_or (h : AreOperands truth (ts :: tss) n (b :: bs) m) (earlier : Bool)
    (outer : List Level) : ∃ level : Level, level.complete = true ∧
      level.value = (earlier || (b || bs.any id)) ∧
      ([.joint .or].intercalate (ts :: tss)).foldlM (step truth)
        ⟨n, ⟨earlier, true, false⟩, outer⟩ = some ⟨m, level, outer⟩ := by
  induction tss generalizing ts n b bs earlier with
  | nil =>
    cases h with
    | cons head tail =>
      cases tail
      refine ⟨⟨earlier, b, true⟩, rfl, by simp [Level.value], ?_⟩
      simpa using head ⟨earlier, true, false⟩ outer rfl
  | cons us tss ih =>
    cases h with
    | cons head tail =>
      cases bs with
      | nil => cases tail
      | cons d ds =>
        -- at `OR` the conjunction read so far joins those before it
        obtain ⟨level, hcomplete, hvalue, hrun⟩ := ih tail (earlier || b)
        refine ⟨level, hcomplete, by simp [hvalue, Bool.or_assoc], ?_⟩
        rw [List.intercalate_cons_cons, List.append_assoc, List.foldlM_append,
          head ⟨earlier, true, false⟩ outer rfl]
        simpa [step, Level.value] using hrun

theorem isLevel_or (h : AreOperands truth (ts :: tss) n (b :: bs) m) :
    IsLevel truth ([.joint .or].intercalate (ts :: tss)) n (b || bs.any id) m := fun outer ↦ by
  simpa using h.foldlM_or false outer

end AreOperands

end Token

/-! ## Joined parts -/

/-- The value of parts under a connective. Parts without a value are left out, and where none is
left there is no value. -/
def Connective.join (c : Connective) (values : List (Option Bool)) : Option Bool :=
  match c, values.reduceOption with
  | _, [] => none
  | .and, b :: bs => some (b && bs.all id)
  | .or, b :: bs => some (b || bs.any id)

namespace Token

variable {truth : Nat → Bool} {n m : Nat}

/-- The parts that are not empty, joined by a connective, in parentheses when there are several of
them and the group has siblings. -/
def joinParts (parts : List (List Token)) (connective : Connective) (siblings : Int) :
    List Token :=
  let parts := parts.filter (!·.isEmpty)
  let joined := [.joint connective].intercalate parts
  if 1 < parts.length && 0 < siblings then .opening :: joined ++ [.closing] else joined

/-- Tokens that are read as a part with an optional value: no tokens when there is none, and an
operand when the part may stand beside others. -/
def IsPart (truth : Nat → Bool) (siblings : Int) (ts : List Token) (n : Nat) (v : Option Bool)
    (m : Nat) : Prop :=
  match v with
  | none => ts = [] ∧ m = n
  | some b => ts ≠ [] ∧ IsLevel truth ts n b m ∧ (0 < siblings → IsOperand truth ts n b m)

theorem IsPart.mono {s s' : Int} {ts : List Token} {v : Option Bool}
    (h : IsPart truth s ts n v m) (hs : 0 < s' → 0 < s) : IsPart truth s' ts n v m := by
  cases v with
  | none => exact h
  | some b => exact ⟨h.1, h.2.1, fun hs' ↦ h.2.2 (hs hs')⟩

theorem IsOperand.isPart {s : Int} {ts : List Token} {b : Bool} (hts : ts ≠ [])
    (h : IsOperand truth ts n b m) : IsPart truth s ts n (some b) m := ⟨hts, h.isLevel, fun _ ↦ h⟩

/-- Parts one after the other, with their values. -/
inductive AreParts (truth : Nat → Bool) (siblings : Int) :
    List (List Token) → Nat → List (Option Bool) → Nat → Prop where
  | nil (n : Nat) : AreParts truth siblings [] n [] n
  | cons {ts : List Token} {tss : List (List Token)} {n k m : Nat} {v : Option Bool}
      {vs : List (Option Bool)} (head : IsPart truth siblings ts n v k)
      (tail : AreParts truth siblings tss k vs m) :
      AreParts truth siblings (ts :: tss) n (v :: vs) m

namespace AreParts

variable {s : Int} {tss : List (List Token)} {vs : List (Option Bool)}

/-- Parts that may stand beside others are operands, once those without a value are left out. -/
theorem areOperands (hs : 0 < s) (h : AreParts truth s tss n vs m) :
    AreOperands truth (tss.filter (!·.isEmpty)) n vs.reduceOption m := by
  induction h with
  | nil n => exact .nil n
  | @cons ts tss n k m v vs head tail ih =>
    cases v with
    | none =>
      obtain ⟨rfl, rfl⟩ := head
      simpa using ih
    | some b =>
      have hts : ts ≠ [] := head.1
      rw [List.filter_cons_of_pos (by simpa using hts), List.reduceOption_cons_of_some]
      exact .cons (head.2.2 hs) ih

end AreParts

theorem intercalate_ne_nil {ts : List Token} {tss : List (List Token)} {sep : List Token}
    (hts : ts ≠ []) : sep.intercalate (ts :: tss) ≠ [] := by
  cases tss with
  | nil => simpa using hts
  | cons us tss => simp [List.intercalate_cons_cons, hts]

theorem IsPart.joinParts_singleton {s : Int} {ts : List Token} {v : Option Bool}
    (h : IsPart truth s ts n v m) (connective : Connective) :
    IsPart truth s (joinParts [ts] connective s) n (connective.join [v]) m := by
  cases v with
  | none =>
    obtain ⟨rfl, rfl⟩ := h
    cases connective <;> exact ⟨rfl, rfl⟩
  | some b =>
    have hjoin : connective.join [some b] = some b := by
      cases connective <;> simp [Connective.join, List.reduceOption]
    have hts : ts ≠ [] := h.1
    have hparts : joinParts [ts] connective s = ts := by
      rw [joinParts, List.filter_cons_of_pos (by simpa using hts)]
      simp
    rw [hjoin, hparts]
    exact h

theorem AreOperands.isPart_joinParts {tss : List (List Token)} {vs : List (Option Bool)}
    (h : AreOperands truth (tss.filter (!·.isEmpty)) n vs.reduceOption m)
    (connective : Connective) (s : Int) :
    IsPart truth s (joinParts tss connective s) n (connective.join vs) m := by
  rw [joinParts, Connective.join.eq_def]
  have hne : ∀ ts ∈ tss.filter (!·.isEmpty), ts ≠ [] := fun ts hts ↦ by
    simpa using (List.mem_filter.mp hts).2
  -- from here on only what is left of the parts, and of their values, matters
  generalize tss.filter (!·.isEmpty) = kept at h hne ⊢
  generalize vs.reduceOption = values at h ⊢
  cases h with
  | nil => cases connective <;> exact ⟨rfl, rfl⟩
  | @cons ts tss n k m b bs head tail =>
    have hts : ts ≠ [] := hne ts List.mem_cons_self
    have hjoined := @intercalate_ne_nil ts tss [.joint connective] hts
    cases tail with
    | nil =>
      have hpart : IsPart truth s ts n (some b) m := head.isPart hts
      cases connective <;> simpa using hpart
    | @cons us tss _ _ _ d ds next tail =>
      have hall : AreOperands truth (ts :: us :: tss) n (b :: d :: ds) m :=
        .cons head (.cons next tail)
      -- without siblings there are no parentheses, and a disjunction is only read as a whole level
      by_cases hs : 0 < s
      · cases connective with
        | and =>
          simpa [hs] using
            IsOperand.isPart (by simp) (hall.isOperand_and.isLevel.parenthesized)
        | or => simpa [hs] using IsOperand.isPart (by simp) hall.isLevel_or.parenthesized
      · cases connective with
        | and => simpa [hs] using IsOperand.isPart hjoined hall.isOperand_and
        | or => simpa [hs] using ⟨hjoined, hall.isLevel_or, fun h ↦ absurd h hs⟩

/-- **Joining keeps the meaning** of parts that were written for at least as many siblings as they
get. -/
theorem AreParts.isPart_joinParts {s s' : Int} {tss : List (List Token)}
    {vs : List (Option Bool)} (h : AreParts truth s' tss n vs m) (connective : Connective)
    (hlone : 0 < s → tss ≠ [] → 0 < s') (hseveral : 1 < tss.length → 0 < s') :
    IsPart truth s (joinParts tss connective s) n (connective.join vs) m := by
  cases h with
  | nil => cases connective <;> exact ⟨rfl, rfl⟩
  | cons head tail =>
    cases tail with
    | nil => exact (head.mono fun hs ↦ hlone hs (by simp)).joinParts_singleton connective
    | cons next tail =>
      -- several parts were each written as operands, however many of them are empty
      have hpos : 0 < s' := hseveral (by simp)
      exact ((AreParts.cons head (.cons next tail)).areOperands hpos).isPart_joinParts connective s

end Token

end Rowmap
