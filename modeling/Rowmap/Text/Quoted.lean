import Rowmap.Text.Printable

/-!
# Quoted text

How a text or a run of bytes is shown inside a message: between single quotes, or between double
quotes when it holds a single quote and no double one, with a backslash before the closing quote and
the backslash, and escapes for whatever cannot be shown.
-/

namespace Rowmap.Text

/-- A number in lower-case hexadecimal, padded with zeros to a width. -/
def hex (width n : Nat) : String :=
  let ds := Nat.toDigits 16 n
  String.ofList (List.replicate (width - ds.length) '0' ++ ds)

/-- The quote that encloses a text: the double one only when it avoids an escape. -/
def quoteFor (cs : List Char) : Char := if cs.contains '\'' && !cs.contains '"' then '"' else '\''

/-- The escape of a control character, by its code. -/
def escapeControl (n : Nat) : String :=
  if n == 9 then "\\t" else if n == 10 then "\\n" else if n == 13 then "\\r"
  else "\\x" ++ hex 2 n

/-- One character inside quoted text. -/
def quotedChar (quote c : Char) : String :=
  let n := c.toNat
  if c == quote || c == '\\' then String.ofList ['\\', c]
  else if isPrintable c then c.toString
  else if n < 0x80 then escapeControl n
  else if n < 0x100 then "\\x" ++ hex 2 n
  else if n < 0x10000 then "\\u" ++ hex 4 n
  else "\\U" ++ hex 8 n

/-- A text, quoted. -/
def quoted (s : String) : String :=
  let quote := quoteFor s.toList
  quote.toString ++ String.join (s.toList.map (quotedChar quote)) ++ quote.toString

/-- One byte inside quoted bytes: everything outside printable ASCII is escaped. -/
def quotedByte (quote : Char) (b : UInt8) : String :=
  let c := Char.ofNat b.toNat
  if c == quote || c == '\\' then String.ofList ['\\', c]
  else if 0x20 ≤ b.toNat && b.toNat < 0x7f then c.toString
  else escapeControl b.toNat

/-- A run of bytes, quoted and marked as bytes. -/
def quotedBytes (bs : List UInt8) : String :=
  let quote := quoteFor (bs.map fun b ↦ Char.ofNat b.toNat)
  "b" ++ quote.toString ++ String.join (bs.map (quotedByte quote)) ++ quote.toString

end Rowmap.Text
