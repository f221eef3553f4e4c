import Rowmap.Proofs.Sql.ReadBack
import Rowmap.Proofs.Sql.Renumbering

/-!
# Tests of a row

What a database makes of the text of a simple test: it reads an operand and what that is compared
with, and says for a row whether the test holds, does not or has no answer. Null compares with
nothing, so a comparison with it has no answer, and neither has its negation. A row is selected only
by a test that holds.

A text is read by its tokens, so it means one thing at most. The reading knows the operands and
comparisons that equality, its negation and membership are written with.
-/

namespace Rowmap.Sql

/-- What a test compares: a column by its name as it is written, a parameter by its number, the
present moment, or a truth value. -/
inductive Operand where
  | column (name : String)
  | parameter (number : Nat)
  | now
  | truth (b : Bool)
  deriving DecidableEq, Repr

inductive Test where
  | isNull (left : Operand)
  | isNotNull (left : Operand)
  | equal (left right : Operand)
  | unequal (left right : Operand)
  | oneOf (left : Operand) (numbers : List Nat)
  deriving DecidableEq, Repr

/-! ## Reading -/

def number? (token : String) : Option Nat :=
  if isPlaceholder token.toList then some (Text.digitsValue token.toList.tail) else none

/-- An operand that is written in words, and what stands behind it. -/
def wordedOperand? : List String → Option (Operand × List String)
  | "NOW" :: "(" :: ")" :: rest => some (.now, rest)
  | "true" :: rest => some (.truth true, rest)
  | "false" :: rest => some (.truth false, rest)
  | _ => none

/-- The operand that several tokens start with, and what stands behind it. -/
def operand? : List String → Option (Operand × List String)
  | [] => none
  | token :: rest =>
    if token.toList.head? = some '"' then some (.column token, rest)
    else
      match number? token with
      | some n => some (.parameter n, rest)
      | none => wordedOperand? (token :: rest)

/-- The numbers of placeholders with commas between them, up to the end of parentheses that are the
last token. -/
def numbersInParentheses? : List String → Option (List Nat)
  | [token, ")"] => (number? token).map ([·])
  | token :: "," :: rest => (number? token).bind fun n ↦ (numbersInParentheses? rest).map (n :: ·)
  | _ => none

def lastOperand? (tokens : List String) : Option Operand :=
  match operand? tokens with
  | some (right, []) => some right
  | _ => none

/-- What the tokens behind the left operand of a test say about it. -/
def testOf? (left : Operand) : List String → Option Test
  | ["IS", "NULL"] => some (.isNull left)
  | ["IS", "NOT", "NULL"] => some (.isNotNull left)
  | "=" :: rest => (lastOperand? rest).map (.equal left)
  | "!" :: "=" :: rest => (lastOperand? rest).map (.unequal left)
  | "IN" :: "(" :: rest => (numbersInParentheses? rest).map (.oneOf left)
  | _ => none

/-- The test that a text is, if it is one. -/
def test? (text : String) : Option Test :=
  (operand? ((tokens text.toList).map String.ofList)).bind fun (left, rest) ↦ testOf? left rest

/-! ## Evaluation -/

/-- What a test is evaluated by: the data of the columns and of the parameters, the present moment,
and when data are equal. Truth values are equal only to themselves. -/
structure Row where
  Datum : Type
  column : String → Option Datum
  parameter : Nat → Option Datum
  now : Datum
  truth : Bool → Datum
  equal : Datum → Datum → Bool
  equal_truth : ∀ a b, equal (truth a) (truth b) = (a == b)

/-- What an operand is in a row, or nothing for null. -/
def Operand.datum (w : Row) : Operand → Option w.Datum
  | .column name => w.column name
  | .parameter n => w.parameter n
  | .now => some w.now
  | .truth b => some (w.truth b)

namespace Row

/-- Whether two data are equal, with no answer for null. -/
def equal? (w : Row) (x y : Option w.Datum) : Option Bool := x.bind fun x ↦ y.map (w.equal x)

/-- Whether one of several tests holds, with no answer where one of them has none and none holds. -/
def any? (answers : List (Option Bool)) : Option Bool :=
  if some true ∈ answers then some true else if none ∈ answers then none else some false

end Row

namespace Test

def answer? (w : Row) : Test → Option Bool
  | isNull left => some (left.datum w).isNone
  | isNotNull left => some (left.datum w).isSome
  | equal left right => w.equal? (left.datum w) (right.datum w)
  | unequal left right => (w.equal? (left.datum w) (right.datum w)).map not
  | oneOf left numbers => Row.any? (numbers.map fun n ↦ w.equal? (left.datum w) (w.parameter n))

def Holds (w : Row) (t : Test) : Prop := t.answer? w = some true

theorem isNotNull_holds_iff (w : Row) (left : Operand) :
    (isNotNull left).Holds w ↔ ¬(isNull left).Holds w := by
  simp only [Holds, answer?]
  cases left.datum w <;> simp

/-- Inequality is the negation of equality where nothing is null. -/
theorem unequal_holds_iff {w : Row} {left right : Operand} (hleft : (left.datum w).isSome = true)
    (hright : (right.datum w).isSome = true) :
    (unequal left right).Holds w ↔ ¬(equal left right).Holds w := by
  obtain ⟨x, hx⟩ := Option.isSome_iff_exists.mp hleft
  obtain ⟨y, hy⟩ := Option.isSome_iff_exists.mp hright
  simp only [Holds, answer?, Row.equal?, hx, hy, Option.bind_some, Option.map_some]
  cases w.equal x y <;> simp

end Test

/-! ## Texts of tests -/

theorem lexemes_sign {c : Char} (hc : Lexer.first c = .ended) (cs : List Char) :
    lexemes (c :: cs) = [c] :: lexemes cs := by
  have hstops : cs.head?.bind Lexer.ended.next? = none := by cases cs <;> rfl
  exact lexemes_cons_append (congrArg (Lexer.run? · []) hc) hstops

theorem tokens_sign {c : Char} (hc : Lexer.first c = .ended) (hblank : isBlank c = false)
    (cs : List Char) : tokens (c :: cs) = [c] :: tokens cs := by
  have hgap : isGap [c] = false := by simp [isGap, isComment, hblank]
  exact tokens_of_lexemes (lexemes_sign hc cs) hgap

theorem tokens_blank (cs : List Char) : tokens (' ' :: cs) = tokens cs := by
  rw [tokens, lexemes_sign rfl, List.filter_cons_of_neg (by decide), tokens]

theorem tokens_placeholder (n : Nat) {rest : List Char}
    (hrest : rest.head?.any Char.isDigit = false) :
    tokens ((placeholder n).toList ++ rest) = (placeholder n).toList :: tokens rest := by
  have hchars : (placeholder n).toList = '$' :: (toString n).toList := String.toList_append
  have hrun := Lexer.run?_digits (toList_toString_ne_nil n) (isDigit_of_mem_toString n)
  have hstops : rest.head?.bind Lexer.placeholder.next? = none := by
    cases rest with
    | nil => rfl
    | cons c rest =>
      have hc : c.isDigit = false := hrest
      show (if c.isDigit then some Lexer.placeholder else none) = none
      rw [hc, if_neg Bool.false_ne_true]
  rw [hchars]
  exact tokens_of_lexemes (lexemes_cons_append hrun hstops) rfl

theorem number?_placeholder (n : Nat) : number? (placeholder n) = some n := by
  have hchars : (placeholder n).toList = '$' :: (toString n).toList := String.toList_append
  rw [number?, hchars, if_pos (isPlaceholder_number n), List.tail_cons, digitsValue_toString]

theorem lastOperand?_placeholder (n : Nat) :
    lastOperand? [placeholder n] = some (.parameter n) := by
  have hchars : (placeholder n).toList = '$' :: (toString n).toList := String.toList_append
  have hname : ¬(placeholder n).toList.head? = some '"' := by
    rw [hchars]
    exact fun h ↦ absurd (Option.some.inj h) (by decide)
  rw [lastOperand?, operand?, if_neg hname, number?_placeholder]

theorem test?_column (name text : String) :
    test? (quoteIdentifier name ++ " " ++ text) =
      testOf? (.column (quoteIdentifier name)) ((tokens text.toList).map String.ofList) := by
  have hchars : (quoteIdentifier name ++ " " ++ text).toList =
      (quoteIdentifier name).toList ++ ' ' :: text.toList := by
    rw [String.toList_append, String.toList_append, List.append_assoc]
    rfl
  have hname : (quoteIdentifier name).toList.head? = some '"' := by
    rw [quoteIdentifier, between, toList_enclosed]
    rfl
  rw [test?, hchars, tokens_quoteIdentifier name (by simp), tokens_blank, List.map_cons,
    String.ofList_toList, operand?, if_pos hname, Option.bind_some]

section

variable (name : String)

theorem test?_isNull : test? (quoteIdentifier name ++ " " ++ ("IS" ++ " " ++ "NULL")) =
    some (.isNull (.column (quoteIdentifier name))) := by
  rw [test?_column]
  rfl

theorem test?_isNotNull : test? (quoteIdentifier name ++ " " ++ ("IS NOT" ++ " " ++ "NULL")) =
    some (.isNotNull (.column (quoteIdentifier name))) := by
  rw [test?_column]
  rfl

theorem test?_equal_now : test? (quoteIdentifier name ++ " " ++ ("=" ++ " " ++ "NOW()")) =
    some (.equal (.column (quoteIdentifier name)) .now) := by
  rw [test?_column]
  rfl

theorem test?_unequal_now : test? (quoteIdentifier name ++ " " ++ ("!=" ++ " " ++ "NOW()")) =
    some (.unequal (.column (quoteIdentifier name)) .now) := by
  rw [test?_column]
  rfl

theorem test?_equal_placeholder (n : Nat) :
    test? (quoteIdentifier name ++ " " ++ ("=" ++ " " ++ placeholder n)) =
      some (.equal (.column (quoteIdentifier name)) (.parameter n)) := by
  have hchars : ("=" ++ " " ++ placeholder n).toList =
      '=' :: ' ' :: ((placeholder n).toList ++ []) := by
    rw [List.append_nil, String.toList_append]
    rfl
  rw [test?_column, hchars, tokens_sign rfl rfl, tokens_blank, tokens_placeholder n rfl,
    List.map_cons, List.map_cons, String.ofList_toList]
  show (lastOperand? [placeholder n]).map _ = _
  rw [lastOperand?_placeholder]
  rfl

theorem test?_unequal_placeholder (n : Nat) :
    test? (quoteIdentifier name ++ " " ++ ("!=" ++ " " ++ placeholder n)) =
      some (.unequal (.column (quoteIdentifier name)) (.parameter n)) := by
  have hchars : ("!=" ++ " " ++ placeholder n).toList =
      '!' :: '=' :: ' ' :: ((placeholder n).toList ++ []) := by
    rw [List.append_nil, String.toList_append]
    rfl
  rw [test?_column, hchars, tokens_sign rfl rfl, tokens_sign rfl rfl, tokens_blank,
    tokens_placeholder n rfl, List.map_cons, List.map_cons, List.map_cons, String.ofList_toList]
  show (lastOperand? [placeholder n]).map _ = _
  rw [lastOperand?_placeholder]
  rfl

theorem numbersInParentheses?_placeholders (n : Nat) (ns : List Nat) :
    numbersInParentheses? ((tokens ((", ".intercalate
      ((n :: ns).map fun n : Nat ↦ placeholder n)).toList ++ [')'])).map String.ofList) =
        some (n :: ns) := by
  induction ns generalizing n with
  | nil =>
    rw [List.map_cons, List.map_nil, String.intercalate_singleton, tokens_placeholder n rfl,
      List.map_cons, String.ofList_toList]
    show (number? (placeholder n)).map _ = _
    rw [number?_placeholder]
    rfl
  | cons next ns ih =>
    have hchars : (", ".intercalate ((n :: next :: ns).map fun n : Nat ↦ placeholder n)).toList =
        (placeholder n).toList ++ (',' :: ' ' ::
          (", ".intercalate ((next :: ns).map fun n : Nat ↦ placeholder n)).toList) := by
      rw [List.map_cons, List.map_cons, String.intercalate_cons_cons, String.toList_append,
        String.toList_append, List.append_assoc]
      rfl
    rw [hchars, List.append_assoc, tokens_placeholder n rfl]
    show numbersInParentheses? ((_ :: tokens (',' :: ' ' :: (_ ++ [')']))).map String.ofList) = _
    rw [tokens_sign rfl rfl, tokens_blank, List.map_cons, List.map_cons, String.ofList_toList]
    have hcons (ts : List String) : numbersInParentheses? (placeholder n :: "," :: ts) =
        (number? (placeholder n)).bind fun n ↦ (numbersInParentheses? ts).map (n :: ·) := rfl
    show numbersInParentheses? (placeholder n :: "," :: _) = _
    rw [hcons, ih, number?_placeholder]
    rfl

theorem test?_oneOf (n : Nat) (ns : List Nat) :
    test? (quoteIdentifier name ++ " " ++ ("IN" ++ " " ++ ("(" ++
      ", ".intercalate ((n :: ns).map fun n : Nat ↦ placeholder n) ++ ")"))) =
        some (.oneOf (.column (quoteIdentifier name)) (n :: ns)) := by
  have hread := numbersInParentheses?_placeholders n ns
  generalize ", ".intercalate ((n :: ns).map fun n : Nat ↦ placeholder n) = list at hread ⊢
  have hchars : ("IN" ++ " " ++ ("(" ++ list ++ ")")).toList =
      ['I', 'N'] ++ ' ' :: '(' :: (list.toList ++ [')']) := by
    simp only [String.toList_append]
    rfl
  have hword (cs : List Char) : lexemes (['I', 'N'] ++ ' ' :: cs) =
      ['I', 'N'] :: lexemes (' ' :: cs) :=
    lexemes_cons_append (show (Lexer.first 'I').run? ['N'] = some .word from rfl) rfl
  rw [test?_column, hchars, tokens_of_lexemes (hword _) rfl, tokens_blank, tokens_sign rfl rfl,
    List.map_cons, List.map_cons]
  show (numbersInParentheses? _).map _ = _
  rw [hread]
  rfl

end

end Rowmap.Sql
