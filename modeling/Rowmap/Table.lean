import Rowmap.FieldType
import Rowmap.Text.LowerCase

/-!
# Tables

What a statement has to know about a record type: its table, its fields with the columns that hold
them, and its primary key. Fields are in declaration order, which is the order of every column list.
The name of the table and the keys of the primary key are whatever a caller declared, over any type
`α` of values; statements are made only where they are texts.
-/

namespace Rowmap

/-- A declared field. A column name that is absent or empty is derived from the field's key. -/
structure Field where
  type : FieldType
  name : Option String
  primaryKey : Bool
  nullable : Bool
  deriving DecidableEq, Repr

/-- A record type as statements see it. -/
structure Table (α : Type) where
  recordName : String
  name : α
  fields : List (String × Field)
  primaryKey : List α

/-! ## Column names -/

/-- An ASCII capital becomes an underscore and the small letter. -/
def snakeChar (c : Char) : List Char := if c.isUpper then ['_', c.toLower] else [c]

/-- A key in snake case: `aNumber` becomes `a_number`. The first character only changes its case. -/
def snakeCase (key : String) : String :=
  match key.toList with
  | [] => ""
  | c :: rest => String.ofList ((Text.lower c ++ rest).flatMap snakeChar)

def Field.column (f : Field) (key : String) : String :=
  match f.name with
  | some name => if name.isEmpty then snakeCase key else name
  | none => snakeCase key

namespace Table

variable {α : Type}

def field? (t : Table α) (key : String) : Option Field := t.fields.lookup key

def keys (t : Table α) : List String := t.fields.map (·.1)

def declares (t : Table α) (key : String) : Bool := (t.field? key).isSome

end Table

end Rowmap
