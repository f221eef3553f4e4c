import Rowmap.Number.Shortest
import Rowmap.Text.Quoted
import Rowmap.Value.Basic

/-!
# How values print

Two texts of a value: `printed`, which messages and logs show, and `inline`, which an unquoted value
contributes to a statement. They differ for texts, decimals, dates and the members of vocabularies.
-/

namespace Rowmap

/-- The text of a truth value. -/
def boolText (b : Bool) : String := if b then "True" else "False"

/-- A comparison in messages, or the absence of one. -/
def comparisonText : Option Comparison → String
  | some c => "Comparison." ++ c.memberName
  | none => "None"

def memberText (vocabulary name label : String) : String :=
  "<" ++ vocabulary ++ "." ++ name ++ ": " ++ Text.quoted label ++ ">"

/-- A number in 32 hexadecimal digits, grouped as identifiers of that kind are. -/
def uuidText (n : Nat) : String :=
  let cs := (Text.hex 32 n).toList
  "-".intercalate (([(0, 8), (8, 4), (12, 4), (16, 4), (20, 12)]).map fun (start, size) ↦
    String.ofList ((cs.drop start).take size))

/-- The name of the place where record types are declared, in messages. -/
def recordHome : String := "codec"

def Select.printed {α : Type} (s : Select α) : String :=
  "<RecordQuery " ++ s.table.recordName ++ " output=" ++ s.output.label ++
    (if s.loaded then " loaded>" else " stale>")

namespace Value

mutual

def printed : Value → String
  | .null => "None"
  | .bool b => boolText b
  | .int n => toString n
  | .float x => x.text
  | .decimal x => "Decimal('" ++ x.text ++ "')"
  | .text s => Text.quoted s
  | .bytes bs => Text.quotedBytes bs
  | .date d => d.printed
  | .time t => t.printed
  | .moment m => m.printed
  | .uuid n => "UUID('" ++ uuidText n ++ "')"
  | .list xs => "[" ++ ", ".intercalate (printedItems xs) ++ "]"
  | .tuple xs =>
    "(" ++ ", ".intercalate (printedItems xs) ++ (if xs.length == 1 then ",)" else ")")
  | .set frozen xs =>
    let body := if xs.isEmpty then "" else "\x7b" ++ ", ".intercalate (printedItems xs) ++ "\x7d"
    if frozen then "frozenset(" ++ body ++ ")" else if xs.isEmpty then "set()" else body
  | .map es => "\x7b" ++ ", ".intercalate (printedEntries es) ++ "\x7d"
  | .unset => "UNSET"
  | .marker m => m.memberName
  | .comparison c => memberText "Comparison" c.memberName c.label
  | .direction d => memberText "SortDirection" d.memberName d.label
  | .output o => memberText "OutputType" o.memberName o.label
  | .wrapped v bind own quote =>
    "SqlValue(" ++ printed v ++ ", bind=" ++ boolText bind ++ ", comparison=" ++
      comparisonText own ++ ", quote=" ++ boolText quote ++ ")"
  | .group _ groupKind items own =>
    groupKind.label ++ "(" ++ ", ".intercalate (printedItems items) ++
      (match own with
        | some c => ", comparison=" ++ comparisonText (some c)
        | none => "") ++ ")"
  | .rawSql _ sql values _ =>
    "RawSql(" ++ Text.quoted sql ++ ", [" ++ ", ".intercalate (printedItems values) ++ "])"
  | .rendered sql values own =>
    "RenderedSql(query=" ++ Text.quoted sql ++ ", values=[" ++
      ", ".intercalate (printedItems values) ++ "], comparison=" ++
      (match own with
        | some c => memberText "Comparison" c.memberName c.label
        | none => "None") ++ ")"
  | .renderable .. => "Renderable()"
  | .query _ select => select.printed
  | .type name => "<class '" ++ name ++ "'>"
  | .recordType name _ => "<class '" ++ recordHome ++ "." ++ name ++ "'>"
  | .object _ _ face _ => face

def printedItems : List Value → List String
  | [] => []
  | x :: xs => printed x :: printedItems xs

/-- The entries of a map in messages. -/
def printedEntries : List (String × Value) → List String
  | [] => []
  | (k, x) :: es => (Text.quoted k ++ ": " ++ printed x) :: printedEntries es

end

/-- A value as an unquoted part of a statement. -/
def inline : Value → String
  | .text s => s
  | .decimal x => x.text
  | .date d => d.iso
  | .time t => t.iso
  | .moment m => m.iso " "
  | .uuid n => uuidText n
  | .marker m => "Sentinel." ++ m.memberName
  | .comparison c => "Comparison." ++ c.memberName
  | .direction d => "SortDirection." ++ d.memberName
  | .output o => "OutputType." ++ o.memberName
  | v => v.printed

/-- The text of a value that is a text, and of any other what it is inlined as. -/
def label (v : Value) : String := v.asText?.getD v.inline

end Value

end Rowmap
