import Rowmap.Text.Digit
import Rowmap.Text.Quoted

/-!
# JSON with ordered objects

Plain data as callers exchange it: JSON whose objects keep the order of their members, and whose
numbers are whole numbers of any size. Anything else about numbers is said by tagged objects.
-/

namespace Rowmap

inductive Json where
  | null
  | bool (b : Bool)
  | int (n : Int)
  | text (s : String)
  | list (items : List Json)
  | object (members : List (String × Json))
  deriving Inhabited

namespace Json

/-! ## Reading -/

/-- The value of a hexadecimal digit. -/
def hexDigit (c : Char) : Nat := if c.isDigit then c.toNat - 48 else c.toLower.toNat - 87

/-- Whether a character is a hexadecimal digit. -/
def isHexDigit (c : Char) : Bool := c.isDigit || ('a' ≤ c.toLower && c.toLower ≤ 'f')

/-- The number that hexadecimal digits write. -/
def hexValue (cs : List Char) : Nat := cs.foldl (fun n c ↦ 16 * n + hexDigit c) 0

/-- The character that a letter after a backslash stands for. -/
def escaped : Char → Char
  | 'n' => '\n'
  | 't' => '\t'
  | 'r' => '\r'
  | 'b' => Char.ofNat 8
  | 'f' => Char.ofNat 12
  | c => c

/-- The character that two halves of a pair stand for. -/
def pairChar (high low : Nat) : Char :=
  Char.ofNat (0x10000 + (high - 0xd800) * 0x400 + (low - 0xdc00))

/-- Whether a code is the first half of a pair. -/
def isHigh (n : Nat) : Bool := 0xd800 ≤ n && n < 0xdc00

/-- The rest of a text up to its closing quote, and what follows. Two escapes make one character
only when the first is the first half of a pair. -/
def readText : List Char → List Char × List Char
  | '"' :: r => ([], r)
  | '\\' :: 'u' :: a :: b :: c :: d :: '\\' :: 'u' :: e :: f :: g :: h :: r =>
    let code := hexValue [a, b, c, d]
    if isHigh code then
      let (s, r) := readText r
      (pairChar code (hexValue [e, f, g, h]) :: s, r)
    else
      let (s, r) := readText ('\\' :: 'u' :: e :: f :: g :: h :: r)
      (Char.ofNat code :: s, r)
  | '\\' :: 'u' :: a :: b :: c :: d :: r =>
    let (s, r) := readText r
    (Char.ofNat (hexValue [a, b, c, d]) :: s, r)
  | '\\' :: c :: r =>
    let (s, r) := readText r
    (escaped c :: s, r)
  | c :: r =>
    let (s, r) := readText r
    (c :: s, r)
  | [] => ([], [])

/-- What follows after blanks and separators. -/
def skip (cs : List Char) : List Char := cs.dropWhile fun c ↦ c.isWhitespace || c == ',' || c == ':'

/-- A whole number at the start of a text, and what follows. -/
def readInt (negative : Bool) (cs : List Char) : Json × List Char :=
  let n : Int := Text.digitsValue (cs.takeWhile Char.isDigit)
  (.int (if negative then -n else n), cs.dropWhile Char.isDigit)

mutual

/-- A value at the start of a text, and what follows; so many steps are enough for a text that is
shorter. -/
def readValue : Nat → List Char → Json × List Char
  | 0, cs => (.null, cs)
  | fuel + 1, cs =>
    match skip cs with
    | '"' :: r => let (s, r) := readText r; (.text (String.ofList s), r)
    | '[' :: r => let (xs, r) := readItems fuel r; (.list xs, r)
    | '{' :: r => let (es, r) := readMembers fuel r; (.object es, r)
    | 't' :: r => (.bool true, r.drop 3)
    | 'f' :: r => (.bool false, r.drop 4)
    | 'n' :: r => (.null, r.drop 3)
    | '-' :: r => readInt true r
    | r => readInt false r

/-- The items of a list up to its closing bracket, and what follows. -/
def readItems : Nat → List Char → List Json × List Char
  | 0, cs => ([], cs)
  | fuel + 1, cs =>
    match skip cs with
    | [] => ([], [])
    | ']' :: r => ([], r)
    | r =>
      let (x, r) := readValue fuel r
      let (xs, r) := readItems fuel r
      (x :: xs, r)

/-- The members of an object up to its closing brace, and what follows. -/
def readMembers : Nat → List Char → List (String × Json) × List Char
  | 0, cs => ([], cs)
  | fuel + 1, cs =>
    match skip cs with
    | '"' :: r =>
      let (key, r) := readText r
      let (v, r) := readValue fuel r
      let (es, r) := readMembers fuel r
      ((String.ofList key, v) :: es, r)
    | r => ([], r.drop 1)

end

/-- The value that a text writes. -/
def read (s : String) : Json := (readValue (s.length + 1) s.toList).1

/-! ## Writing -/

/-- A character inside a written text. -/
def writeChar (c : Char) : String :=
  if c == '"' then "\\\"" else if c == '\\' then "\\\\"
  else if c.toNat < 32 then "\\u" ++ Text.hex 4 c.toNat else String.singleton c

def writeText (s : String) : String := "\"" ++ String.join (s.toList.map writeChar) ++ "\""

mutual

def write : Json → String
  | .null => "null"
  | .bool b => if b then "true" else "false"
  | .int n => toString n
  | .text s => writeText s
  | .list xs => "[" ++ ",".intercalate (writeItems xs) ++ "]"
  | .object es => "\x7b" ++ ",".intercalate (writeMembers es) ++ "\x7d"

def writeItems : List Json → List String
  | [] => []
  | x :: xs => write x :: writeItems xs

def writeMembers : List (String × Json) → List String
  | [] => []
  | (k, v) :: es => (writeText k ++ ":" ++ write v) :: writeMembers es

end

/-! ## Parts -/

def members : Json → List (String × Json)
  | .object es => es
  | _ => []

def items : Json → List Json
  | .list xs => xs
  | _ => []

def get? (j : Json) (key : String) : Option Json := j.members.lookup key

/-- The member of a name; null for none. -/
def get (j : Json) (key : String) : Json := (j.get? key).getD .null

/-- The text that a value is. -/
def text? : Json → Option String
  | .text s => some s
  | _ => none

/-- The member of a name as a text. -/
def textAt (j : Json) (key : String) (otherwise : String := "") : String :=
  ((j.get key).text?).getD otherwise

/-- Whether a value counts as true. -/
def truthy : Json → Bool
  | .null | .bool false | .int 0 | .text "" | .list [] | .object [] => false
  | _ => true

/-- Whether the member of a name counts as true. -/
def flagAt (j : Json) (key : String) (otherwise : Bool := false) : Bool :=
  ((j.get? key).map truthy).getD otherwise

/-- The member of a name as a whole number. -/
def intAt (j : Json) (key : String) (otherwise : Int := 0) : Int :=
  match j.get key with
  | .int n => n
  | .bool b => if b then 1 else 0
  | _ => otherwise

end Json

end Rowmap
