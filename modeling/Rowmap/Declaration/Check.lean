import Rowmap.Declaration.Numeral
import Rowmap.FieldType
import Rowmap.Number.Factored
import Rowmap.Text.LowerCase
import Rowmap.Value.Basic

/-!
# Checks of declarations

Declared fields and settings come as plain data. A check accepts what plainly stands for a value of
its kind (texts that write numbers and truth values, whole floating-point numbers, bytes that are
text, markers where a text will do) and names what is wrong with anything else. Every part of a
declaration is checked, so all its issues are reported together.
-/

namespace Rowmap

/-- A check: the value of its kind that a value stands for, or what is wrong. -/
abbrev Check (α : Type) := Value → Except Problem α

namespace Check

/-- The text that a value is, bytes included, when they are text. -/
def textLike (v : Value) : Except Problem (Option String) :=
  match v, v.asText? with
  | _, some s => .ok (some s)
  | .bytes bs, _ =>
    match String.fromUTF8? ⟨bs.toArray⟩ with
    | some s => .ok (some s)
    | none => .error .badText
  | _, _ => .ok none

/-- A text; a marker counts as the text that it writes. -/
def text : Check String := fun v ↦ do
  match v, ← textLike v with
  | _, some s => .ok s
  | .marker m, none => .ok m.label
  | _, none => .error .notText

/-! ## Numbers -/

/-- The double nearest to a decimal, unless it signals. -/
def doubleOfDecimal? : Decimal → Option Binary64
  | .finite n => some (.ofScientific n)
  | .infinite negative => some (.infinite negative)
  | .notANumber _ signals _ tag => if signals then none else some (.notANumber tag)

/-- The double that a number which may be fractional stands for. -/
def double? : Value → Option Binary64
  | .float x => some x
  | .decimal x => doubleOfDecimal? x
  | _ => none

/-- The bound within which a fractional number may stand for a whole one. -/
def wholeBound : Int := Int.pow 2 63

def wholeOfDouble (x : Binary64) : Except Problem Int :=
  match Factored.ofBinary64? x with
  | none => .error .notFinite
  | some y =>
    match y.whole? with
    | none => .error .fractional
    | some n => if -wholeBound < n ∧ n < wholeBound then .ok n else .error .intTooLarge

def wholeOfDecimal (x : Decimal) : Except Problem Int :=
  match Factored.ofDecimal? x with
  | none => .error .notFinite
  | some y =>
    match y.whole? with
    | none => .error .fractional
    | some n => .ok n

/-- The words for a truth value. -/
def boolWords : List (String × Bool) :=
  ["0", "off", "f", "false", "n", "no"].map (·, false) ++
    ["1", "on", "t", "true", "y", "yes"].map (·, true)

/-- A whole number as a truth value. -/
def boolOfWhole (n : Int) : Except Problem Bool :=
  if n = 0 then .ok false else if n = 1 then .ok true else .error .badBool

def bool : Check Bool := fun v ↦
  match v with
  | .bool b => .ok b
  | .int n => if -wholeBound ≤ n ∧ n < wholeBound then boolOfWhole n else .error .notBool
  | v =>
    match textLike v with
    | .error _ => .error .badBool
    | .ok (some s) =>
      match boolWords.lookup (Text.lowerAscii s) with
      | some b => .ok b
      | none => .error .badBool
    | .ok none =>
      match (double? v).map wholeOfDouble with
      | some (.ok n) => boolOfWhole n
      | _ => .error .notBool

/-- A whole number; a marker stays as the text that it writes. -/
def whole : Check Value := fun v ↦
  match v with
  | .bool b => .ok (.int (if b then 1 else 0))
  | .int n => .ok (.int n)
  | .float x => .int <$> wholeOfDouble x
  | .decimal x => .int <$> wholeOfDecimal x
  | .marker m => .ok (.text m.label)
  | v =>
    match textLike v with
    | .error _ => .error .badInt
    | .ok (some s) => .int <$> Numeral.read s
    | .ok none => .error .notInt

/-- The floating-point number that a text writes, with blanks around it or with separators inside
it. -/
def floatOfText (s : String) : Except Problem Binary64 :=
  let read (cs : List Char) := Binary64.ofText? 0 (String.ofList cs)
  match read (Text.trimBlank s.toList) <|> read (Numeral.withoutSeparators s.toList) with
  | some x => .ok x
  | none => .error .badFloat

def float : Check Binary64 := fun v ↦
  match v with
  | .bool b => .ok (.ofInt (if b then 1 else 0))
  | .int n =>
    match Binary64.ofInt n with
    | .infinite _ => .error .notFloat
    | x => .ok x
  | v =>
    match double? v, textLike v with
    | some x, _ => .ok x
    | none, .error _ => .error .badFloat
    | none, .ok (some s) => floatOfText s
    | none, .ok none => .error .notFloat

/-! ## Names and absence -/

/-- The name of a column type, exactly as it is written. -/
def fieldType : Check FieldType := fun v ↦
  match textLike v with
  | .ok (some s) =>
    match FieldType.ofLabel? s with
    | some t => .ok t
    | none => .error .notMember
  | _ => .error .notMember

/-- A check that also accepts the absence of a value. -/
def nullable {α : Type} (check : Check α) : Check (Option α) := fun v ↦
  if v.isNull then .ok none else some <$> check v

/-- A check of a value to be kept, which may be null. -/
def orNull (check : Check Value) : Check Value := fun v ↦ if v.isNull then .ok .null else check v

/-! ## Parts of a declaration -/

/-- A part of a declaration that has to be given. -/
def required {α : Type} (entries : List (String × Value)) (key : String) (check : Check α) :
    Except Issue α :=
  match entries.lookup key with
  | some v => (check v).mapError (⟨[key], ·⟩)
  | none => .error ⟨[key], .missing⟩

/-- A part of a declaration with a default. -/
def optional {α : Type} (entries : List (String × Value)) (key : String) (check : Check α)
    (otherwise : α) : Except Issue α :=
  match entries.lookup key with
  | some v => (check v).mapError (⟨[key], ·⟩)
  | none => .ok otherwise

/-- The issue of a part, if it has one. -/
def issue {α : Type} : Except Issue α → List Issue
  | .ok _ => []
  | .error i => [i]

end Check

end Rowmap
