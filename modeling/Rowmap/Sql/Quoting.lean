import Rowmap.Failure.Basic

/-!
# Quoting

Names and literals in the text of a statement. Both double the mark that would end them, and both
double percent signs. A name is always quoted, so any text names a column; a literal exists only for
plain data. Bytes that are a text are written as that text is, but with its percent signs as they
are.
-/

namespace Rowmap.Sql

/-- A text in which some characters are written twice. -/
def doubled (marks : List Char) (cs : List Char) : List Char :=
  cs.flatMap fun c ↦ if marks.contains c then [c, c] else [c]

/-- A text between two marks, with some characters inside it written twice. -/
def enclosed (mark : Char) (marks : List Char) (s : String) : String :=
  String.ofList (mark :: doubled marks s.toList ++ [mark])

/-- A text between two marks, the mark and percent signs inside it written twice. -/
def between (mark : Char) (s : String) : String := enclosed mark [mark, '%'] s

/-- A name as a statement writes it. -/
def quoteIdentifier (name : String) : String := between '"' name

/-- The text that a value is, to be used as a name. -/
def nameOf (v : Value) : Except Failure String :=
  match v, v.asText? with
  | _, some s => .ok s
  | .bytes _, _ | .date _, _ | .time _, _ | .moment _, _ => .error (.wrongType none)
  | _, _ => .error .missingPart

/-- A value as a name that a statement writes. -/
def quoteName (v : Value) : Except Failure String := quoteIdentifier <$> nameOf v

def quoteText (s : String) : String := between '\'' s

/-- Bytes as a literal; they have to be a text. -/
def quoteBytes (bs : List UInt8) : Except Failure String :=
  match String.fromUTF8? ⟨bs.toArray⟩ with
  | some s => .ok (enclosed '\'' ['\''] s)
  | none => .error .noLiteral

/-- A value as a literal: numbers bare, texts and points in time between quotes. -/
def literal : Value → Except Failure String
  | .null => .ok "NULL"
  | .bool b => .ok (if b then "true" else "false")
  | .int n => .ok (toString n)
  | .float x => .ok x.text
  | .decimal x => .ok x.text
  | .text s => .ok (quoteText s)
  | .bytes bs => quoteBytes bs
  | .date d => .ok (quoteText d.iso)
  | .time t => .ok (quoteText t.iso)
  | .moment m => .ok (quoteText (m.iso " "))
  | .uuid n => .ok (quoteText (uuidText n))
  | _ => .error .noLiteral

end Rowmap.Sql
