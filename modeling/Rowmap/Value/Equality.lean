import Rowmap.Number.Factored
import Rowmap.Value.Basic

/-!
# Equality of values

Numbers of all kinds are equal when they are the same number, and texts when they are the same text.
A list is never a tuple, but a set may be frozen. What is no number differs from everything, itself
included; only as an element of a container is it found again, because containers look for the very
same object first.

A decimal that signals cannot be compared with a number at all. `compare?` says so by giving no
answer, and `equal` holds of values that are compared and found equal.
-/

namespace Rowmap

/-- A number, exactly. -/
inductive Number where
  | exact (x : Factored)
  | infinite (negative : Bool)
  | notANumber (signals : Bool)
  deriving DecidableEq

namespace Number

def signals : Number → Bool
  | .notANumber signals => signals
  | _ => false

/-- Equality of numbers; what is no number equals nothing. -/
def equal : Number → Number → Bool
  | .exact x, .exact y => x == y
  | .infinite a, .infinite b => a == b
  | _, _ => false

/-- Whether two numbers are equal, unless one of them signals. -/
def compare? (x y : Number) : Option Bool :=
  if x.signals || y.signals then none else some (x.equal y)

end Number

def Binary64.number (x : Binary64) : Number :=
  match x, Factored.ofBinary64? x with
  | _, some y => .exact y
  | .infinite negative, none => .infinite negative
  | _, none => .notANumber false

def Decimal.number (x : Decimal) : Number :=
  match x, Factored.ofDecimal? x with
  | _, some y => .exact y
  | .infinite negative, none => .infinite negative
  | .notANumber _ signals _ _, none => .notANumber signals
  | .finite _, none => .notANumber false

namespace Value

/-- The number that a value is; truth values are zero and one. -/
def number? : Value → Option Number
  | .bool b => some (.exact (.ofInt (if b then 1 else 0)))
  | .int n => some (.exact (.ofInt n))
  | .float x => some x.number
  | .decimal x => some x.number
  | _ => none

/-- The number of the object that a value compared by identity is. -/
def identity? : Value → Option Nat
  | .group id .. | .rawSql id .. | .renderable id _ | .query id _ | .object id .. => some id
  | _ => none

/-- Whether two values that are no number, bare or wrapped, are the same object. -/
def same : Value → Value → Bool
  | .float (.notANumber a), .float (.notANumber b) => a == b
  | .decimal (.notANumber _ _ _ a), .decimal (.notANumber _ _ _ b) => a == b
  | .wrapped v b c q, .wrapped v' b' c' q' => same v v' && b == b' && c == c' && q == q'
  | _, _ => false

/-- Equality of values without parts that are no numbers. -/
def equalPlain (a b : Value) : Bool :=
  match a.asText?, b.asText? with
  | some s, some t => s == t
  | none, none =>
    match a, b with
    | .null, .null | .unset, .unset => true
    | .bytes x, .bytes y => x == y
    | .date x, .date y => x == y
    | .time x, .time y => x.equal y
    | .moment x, .moment y => x.equal y
    | .uuid x, .uuid y => x == y
    | .marker x, .marker y => x == y
    | .type x, .type y => x == y
    | .recordType x _, .recordType y _ => x == y
    | x, y =>
      match x.identity?, y.identity? with
      | some i, some j => i == j
      | _, _ => false
  | _, _ => false

/-- Whether values without parts are equal. -/
def compareScalar? (a b : Value) : Option Bool :=
  match a.number?, b.number? with
  | some m, some n => m.compare? n
  | none, none => some (equalPlain a b)
  | _, _ => some false

/-- A second question, asked only when the first is answered by yes. -/
def andThen? (first second : Option Bool) : Option Bool :=
  match first with
  | some true => second
  | answer => answer

mutual

/-- Whether two values are equal, unless comparing them meets a number that signals. -/
def compare? : Value → Value → Option Bool
  | .list xs, .list ys => if xs.length = ys.length then compareItems? xs ys else some false
  | .tuple xs, .tuple ys => compareItems? xs ys
  | .set _ xs, .set _ ys => if xs.length = ys.length then compareEach? xs ys else some false
  | .map es, .map fs => if es.length = fs.length then compareEntries? es fs else some false
  | .wrapped v b c q, .wrapped v' b' c' q' =>
    andThen? (compare? v v') (some (b == b' && c == c' && q == q'))
  | .rendered q vs c, .rendered q' vs' c' =>
    andThen? (some (q == q')) (andThen? (compareItems? vs vs') (some (c == c')))
  | a, b => compareScalar? a b
termination_by structural a => a

/-- Whether the elements of two lists are equal, one by one up to the first difference. -/
def compareItems? : List Value → List Value → Option Bool
  | [], [] => some true
  | x :: xs, y :: ys =>
    andThen? (if same x y then some true else compare? x y) (compareItems? xs ys)
  | _, _ => some false
termination_by structural a => a

/-- Whether each of some elements is among others. -/
def compareEach? : List Value → List Value → Option Bool
  | [], _ => some true
  | x :: xs, ys =>
    andThen? (some (ys.any fun y ↦ same x y || compare? x y == some true)) (compareEach? xs ys)
termination_by structural a => a

/-- Whether each of some entries is among others, with an equal value. -/
def compareEntries? : List (String × Value) → List (String × Value) → Option Bool
  | [], _ => some true
  | (k, x) :: es, fs =>
    andThen?
      (match fs.lookup k with
        | some y => if same x y then some true else compare? x y
        | none => some false)
      (compareEntries? es fs)
termination_by structural a => a

end

def equal (a b : Value) : Bool := compare? a b == some true

/-- Equality as containers see it: the same object, or equal. -/
def matchesElement (a b : Value) : Bool := same a b || equal a b

/-- Whether a value can be an element of a set or a key: lists, sets that are not frozen, maps,
wrapped values and numbers that signal cannot, nor what holds one of them. -/
def hashable : Value → Bool
  | .list _ | .map _ | .wrapped .. | .rendered .. | .decimal (.notANumber _ true _ _) => false
  | .set frozen _ => frozen
  | .tuple xs => allHashable xs
  | _ => true
where
  /-- Whether all of some values can be elements of a set. -/
  allHashable : List Value → Bool
  | [] => true
  | x :: xs => hashable x && allHashable xs

/-- The elements of a set, each once, in order of first appearance. -/
def distinct (xs : List Value) : List Value :=
  xs.foldl (fun seen x ↦ if seen.any (matchesElement x) then seen else seen ++ [x]) []

end Value

end Rowmap
