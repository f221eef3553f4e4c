import Rowmap.Exchange.Json
import Rowmap.Failure.Basic
import Rowmap.Value.Printed

/-!
# Scalars in exchanged data

Scalars that JSON has no form for are exchanged as a tag and a text. Reading and writing use the
same tags, so a scalar that is written reads back.
-/

namespace Rowmap.Scalar

/-- The number that 32 hexadecimal digits write, with or without hyphens. -/
def uuidOf? (s : String) : Option Nat :=
  let cs := s.toList.filter (· != '-')
  if cs.length == 32 && cs.all Json.isHexDigit then
    some (Json.hexValue cs)
  else none

/-- The bytes that pairs of hexadecimal digits write, with or without blanks between the pairs. -/
def bytesOf? : List Char → Option (List UInt8)
  | [] => some []
  | a :: r =>
    if a.isWhitespace then bytesOf? r
    else
      match r with
      | b :: r =>
        if Json.isHexDigit a && Json.isHexDigit b then
          (bytesOf? r).map (UInt8.ofNat (Json.hexValue [a, b]) :: ·)
        else none
      | [] => none

/-- The scalar that a tag stands for by itself. -/
def ofBareTag? : String → Option Value
  | "UNSET" => some .unset
  | "NOW" => some (.marker .now)
  | "NOT_NULL" => some (.marker .notNull)
  | _ => none

/-- The scalar that a tag and a text stand for; a number tells apart those that are no number. -/
def ofText? (id : Nat) (tag s : String) : Option Value :=
  match tag with
  | "float" => (Binary64.ofText? id (String.ofList (Text.tidied s))).map .float
  | "decimal" => (Decimal.ofText? id s).map .decimal
  | "bytes" => (bytesOf? s.toList).map .bytes
  | "date" => (Date.ofText? s).map .date
  | "datetime" => (Moment.ofText? s).map .moment
  | "time" => (Clock.ofChars? s.toList).map .time
  | "uuid" => (uuidOf? s).map .uuid
  | "comparison" => (Comparison.ofLabel? s).map .comparison
  | "direction" => (SortDirection.ofLabel? s).map .direction
  | "output" => (OutputType.ofLabel? s).map .output
  | _ => none

def textTags : List String := [
  "float", "decimal", "bytes", "date", "datetime", "time", "uuid", "comparison", "direction",
  "output"]

/-- The tags whose text is a number. -/
def isNumeric (tag : String) : Bool := tag == "float" || tag == "decimal"

/-- The scalar that a tag and what goes with it stand for. A whole number may go with the tag of a
number. -/
def ofTag (id : Nat) (tag : String) (v : Option Json) : Except Failure Value :=
  match ofBareTag? tag with
  | some scalar => .ok scalar
  | none =>
    if textTags.contains tag then
      let read (s : String) : Except Failure Value :=
        match ofText? id tag s with
        | some scalar => .ok scalar
        | none => .error (if tag == "decimal" then .signalled else .badValue)
      match v with
      | none => .error .missingKey
      | some (.text s) => read s
      | some (.int n) => if isNumeric tag then read (toString n) else .error (.wrongType none)
      | some _ => .error (.wrongType none)
    else .error .missingKey

def tagged (tag : String) (members : List (String × Json)) : Json :=
  .object (("$", .text tag) :: members)

def tag (tag s : String) : Json := tagged tag [("v", .text s)]

def toJson? : Value → Option Json
  | .null => some .null
  | .bool b => some (.bool b)
  | .int n => some (.int n)
  | .text s => some (.text s)
  | .float x => some (tag "float" x.text)
  | .decimal x => some (tag "decimal" x.text)
  | .bytes bs => some (tag "bytes" (String.join (bs.map fun b ↦ Text.hex 2 b.toNat)))
  | .date d => some (tag "date" d.iso)
  | .time t => some (tag "time" t.iso)
  | .moment m => some (tag "datetime" (m.iso "T"))
  | .uuid n => some (tag "uuid" (uuidText n))
  | .unset => some (tagged "UNSET" [])
  | .marker m => some (tagged m.memberName [])
  | .comparison c => some (tag "comparison" c.label)
  | .direction d => some (tag "direction" d.label)
  | .output o => some (tag "output" o.label)
  | _ => none

end Rowmap.Scalar
