import Rowmap.Calendar
import Rowmap.Number.Binary64
import Rowmap.Number.Decimal
import Rowmap.Select

/-!
# Values

The values that stand in condition trees, record fields and bound parameters. They are dynamic,
because callers put anything into a field: plain data, the markers, wrapped values with rendering
instructions, groups of conditions, and whatever renders itself as a sub-query.

Groups, hand-written SQL, sub-queries and live objects are compared by identity, so they carry the
number of the object they are.
-/

namespace Rowmap

/-- The kinds of groups: conjunctions, disjunctions, and groups that join as conjunctions without
saying so. -/
inductive GroupKind where
  | all | any | plain
  deriving DecidableEq, Repr

inductive Value where
  | null
  | bool (b : Bool)
  | int (n : Int)
  | float (x : Binary64)
  | decimal (x : Decimal)
  | text (s : String)
  | bytes (bs : List UInt8)
  | date (d : Date)
  | time (t : Clock)
  | moment (m : Moment)
  | uuid (n : Nat)
  | list (items : List Value)
  | tuple (items : List Value)
  | set (frozen : Bool) (items : List Value)
  | map (entries : List (String × Value))
  | unset
  | marker (m : Marker)
  | comparison (c : Comparison)
  | direction (d : SortDirection)
  | output (o : OutputType)
  /-- A value with rendering instructions: bound or inlined, with a comparison of its own, quoted.
  -/
  | wrapped (value : Value) (bind : Bool) (comparison : Option Comparison) (quote : Bool)
  /-- Conditions joined by one connective, with a default comparison for bare values among them. -/
  | group (id : Nat) (kind : GroupKind) (items : List Value) (comparison : Option Comparison)
  /-- Hand-written SQL, its placeholders numbered from one. -/
  | rawSql (id : Nat) (query : String) (values : List Value) (comparison : Option Comparison)
  /-- A fragment that has been rendered. -/
  | rendered (query : String) (values : List Value) (comparison : Option Comparison)
  /-- A caller's own sub-query: what it renders to after so many bound parameters. -/
  | renderable (id : Nat) (render : Int → Value)
  /-- A query over a record type. -/
  | query (id : Nat) (select : Select Value)
  /-- A type of plain values, by its name. -/
  | type (name : String)
  /-- A record type, by its name, with the names of its accessors. -/
  | recordType (name : String) (accessors : List String)
  /-- Any other live object: its number, the name of its type, how it prints, and those of its
  attributes that a statement may look at. -/
  | object (id : Nat) (typeName printed : String) (attributes : List (String × Value))

namespace Value

/-! ## Kinds of values -/

/-- The name of the attribute by which a value renders itself as a sub-query. -/
def renderName : String := "get_sql"

/-- The name of the attribute by which a comparison says what it writes. -/
def operatorName : String := "value"

/-- Whether a value is taken to render itself as a sub-query. Whatever has an attribute of the right
name is, even if rendering it fails. -/
def isRenderable : Value → Bool
  | .rawSql .. | .renderable .. | .query .. => true
  | .recordType _ accessors => accessors.contains renderName
  | .object _ _ _ attributes => (attributes.lookup renderName).isSome
  | _ => false

/-- The elements of a value that is a list of values when it stands for one: a list, a tuple or a
set. -/
def elements? : Value → Option (List Value)
  | .list xs | .tuple xs | .set _ xs => some xs
  | _ => none

/-- Whether a value is absent. -/
def isNull : Value → Bool
  | .null => true
  | _ => false

/-- Whether a value marks a field that was never given one. -/
def isUnset : Value → Bool
  | .unset => true
  | _ => false

/-- The text of a value that is a text; the members of the text vocabularies are their own text. -/
def asText? : Value → Option String
  | .text s => some s
  | .comparison c => some c.label
  | .direction d => some d.label
  | .output o => some o.label
  | _ => none

/-- Where a value belongs in a condition tree. -/
inductive Kind where
  | connective | sequence | fieldMap | value
  deriving DecidableEq, Repr

def Kind.label : Kind → String
  | .connective => "connective"
  | .sequence => "sequence"
  | .fieldMap => "field_map"
  | .value => "value"

/-- The kind of a value as a node of a condition tree. -/
def kind : Value → Kind
  | .group .. => .connective
  | .list _ | .tuple _ => .sequence
  | .map _ => .fieldMap
  | _ => .value

/-- Whether a value counts as true: zero, the empty and the absent do not. -/
def truthy : Value → Bool
  | .null | .unset => false
  | .bool b => b
  | .int n => n != 0
  | .float x => !x.isZero
  | .decimal x => !x.isZero
  | .text s => !s.isEmpty
  | .bytes bs => !bs.isEmpty
  | .list xs | .tuple xs | .set _ xs => !xs.isEmpty
  | .map es => !es.isEmpty
  | _ => true

/-- The name of the type of a value, in messages. -/
def typeName : Value → String
  | .null => "NoneType"
  | .bool _ => "bool"
  | .int _ => "int"
  | .float _ => "float"
  | .decimal _ => "Decimal"
  | .text _ => "str"
  | .bytes _ => "bytes"
  | .date _ => "date"
  | .time _ => "time"
  | .moment _ => "datetime"
  | .uuid _ => "UUID"
  | .list _ => "list"
  | .tuple _ => "tuple"
  | .set frozen _ => if frozen then "frozenset" else "set"
  | .map _ => "dict"
  | .unset => "_UnsetType"
  | .marker _ => "Sentinel"
  | .comparison _ => "Comparison"
  | .direction _ => "SortDirection"
  | .output _ => "OutputType"
  | .wrapped .. => "SqlValue"
  | .group _ .all _ _ => "And"
  | .group _ .any _ _ => "Or"
  | .group _ .plain _ _ => "ConnectedWheres"
  | .rawSql .. => "RawSql"
  | .rendered .. => "RenderedSql"
  | .renderable .. => "Renderable"
  | .query .. => "RecordQuery"
  | .type _ | .recordType .. => "type"
  | .object _ name .. => name

end Value

/-- How the conditions of a group of a kind are joined. -/
def GroupKind.connective : GroupKind → Connective
  | .any => .or
  | _ => .and

/-- The name of a kind of group in messages. -/
def GroupKind.label : GroupKind → String
  | .all => "And"
  | .any => "Or"
  | .plain => "ConnectedWheres"

end Rowmap
