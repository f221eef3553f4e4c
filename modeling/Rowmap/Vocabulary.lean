/-!
# Vocabularies

The closed vocabularies that condition trees, statements and record types are written in. Each
member has a text, by which statements and declarations name it, and a member name, by which
messages do. The families of comparisons say which side of a comparison is special.
-/

namespace Rowmap

/-! ## Comparisons -/

/-- The comparisons that a condition can use. -/
inductive Comparison where
  | equal | notEqual | greater | greaterEqual | less | lessEqual | distinctFrom | notDistinctFrom
  | oneOf | notOneOf | any | notAny | all | notAll | hasRow | hasNoRow | like | notLike | ilike
  | notIlike | regex | notRegex | iregex | notIregex | similarTo | notSimilarTo | unknown
  | notUnknown
  deriving DecidableEq, Repr

namespace Comparison

/-- Every comparison, in order. -/
def members : List Comparison := [
  .equal, .notEqual, .greater, .greaterEqual, .less, .lessEqual, .distinctFrom,
  .notDistinctFrom, .oneOf, .notOneOf, .any, .notAny, .all, .notAll, .hasRow, .hasNoRow, .like,
  .notLike, .ilike, .notIlike, .regex, .notRegex, .iregex, .notIregex, .similarTo,
  .notSimilarTo, .unknown, .notUnknown]

/-- The operator that a comparison writes. -/
def label : Comparison → String
  | .equal => "="
  | .notEqual => "!="
  | .greater => ">"
  | .greaterEqual => ">="
  | .less => "<"
  | .lessEqual => "<="
  | .distinctFrom => "IS DISTINCT FROM"
  | .notDistinctFrom => "IS NOT DISTINCT FROM"
  | .oneOf => "IN"
  | .notOneOf => "NOT IN"
  | .any => "= ANY"
  | .notAny => "!= ANY"
  | .all => "= ALL"
  | .notAll => "!= ALL"
  | .hasRow => "EXISTS"
  | .hasNoRow => "NOT EXISTS"
  | .like => "LIKE"
  | .notLike => "NOT LIKE"
  | .ilike => "ILIKE"
  | .notIlike => "NOT ILIKE"
  | .regex => "~"
  | .notRegex => "!~"
  | .iregex => "~*"
  | .notIregex => "!~*"
  | .similarTo => "SIMILAR TO"
  | .notSimilarTo => "NOT SIMILAR TO"
  | .unknown => "IS UNKNOWN"
  | .notUnknown => "IS NOT UNKNOWN"

def memberName : Comparison → String
  | .equal => "EQUAL"
  | .notEqual => "NOT_EQUAL"
  | .greater => "GREATER"
  | .greaterEqual => "GREATER_EQUAL"
  | .less => "LESS"
  | .lessEqual => "LESS_EQUAL"
  | .distinctFrom => "DISTINCT_FROM"
  | .notDistinctFrom => "NOT_DISTINCT_FROM"
  | .oneOf => "IN"
  | .notOneOf => "NOT_IN"
  | .any => "ANY"
  | .notAny => "NOT_ANY"
  | .all => "ALL"
  | .notAll => "NOT_ALL"
  | .hasRow => "EXISTS"
  | .hasNoRow => "NOT_EXISTS"
  | .like => "LIKE"
  | .notLike => "NOT_LIKE"
  | .ilike => "ILIKE"
  | .notIlike => "NOT_ILIKE"
  | .regex => "REGEX"
  | .notRegex => "NOT_REGEX"
  | .iregex => "IREGEX"
  | .notIregex => "NOT_IREGEX"
  | .similarTo => "SIMILAR_TO"
  | .notSimilarTo => "NOT_SIMILAR_TO"
  | .unknown => "UNKNOWN"
  | .notUnknown => "NOT_UNKNOWN"

/-- The comparison with a given text. -/
def ofLabel? (s : String) : Option Comparison := members.find? (·.label == s)

/-! ### Families -/

/-- Whether the right-hand side always stands in parentheses. -/
def parenthesizes : Comparison → Bool
  | .all | .any | .hasRow | .oneOf | .notAll | .notAny | .hasNoRow | .notOneOf => true
  | _ => false

/-- Whether a list binds one parameter per element. -/
def bindsEach : Comparison → Bool
  | .oneOf | .notOneOf => true
  | _ => false

/-- Whether a list binds as a single array parameter. -/
def bindsArray : Comparison → Bool
  | .any | .notAny | .all | .notAll => true
  | _ => false

/-- Whether the column is cast to text unless it is text already. -/
def comparesText : Comparison → Bool
  | .ilike | .iregex | .like | .notIlike | .notIregex | .notLike | .notRegex | .notSimilarTo
  | .regex | .similarTo => true
  | _ => false

/-- Whether there is no left-hand side. -/
def rightOnly : Comparison → Bool
  | .hasRow | .hasNoRow => true
  | _ => false

/-- Whether there is no right-hand side. -/
def leftOnly : Comparison → Bool
  | .unknown | .notUnknown => true
  | _ => false

end Comparison

/-! ## Connectives -/

/-- How the conditions of a group are joined. -/
inductive Connective where
  | and | or
  deriving DecidableEq, Repr

namespace Connective

/-- Every connective, in order. -/
def members : List Connective := [.and, .or]

/-- The operator that a connective writes. -/
def label : Connective → String
  | .and => "AND"
  | .or => "OR"

/-- The connective with a given text. -/
def ofLabel? (s : String) : Option Connective := members.find? (·.label == s)

end Connective

/-! ## Sort directions -/

inductive SortDirection where
  | ascending | descending
  deriving DecidableEq, Repr

namespace SortDirection

/-- Every direction, in order. -/
def members : List SortDirection := [.ascending, .descending]

/-- The text of a direction in specifications. -/
def label : SortDirection → String
  | .ascending => "asc"
  | .descending => "desc"

/-- The text of a direction in statements, and its name in messages. -/
def memberName : SortDirection → String
  | .ascending => "ASC"
  | .descending => "DESC"

/-- The direction with a given text. -/
def ofLabel? (s : String) : Option SortDirection := members.find? (·.label == s)

end SortDirection

/-! ## Output types -/

/-- The shape of the rows that a query produces: records, maps from field keys, or single values. -/
inductive OutputType where
  | record | object | value
  deriving DecidableEq, Repr

namespace OutputType

/-- Every output type, in order. -/
def members : List OutputType := [.record, .object, .value]

/-- The text of an output type in options. -/
def label : OutputType → String
  | .record => "record"
  | .object => "object"
  | .value => "value"

def memberName : OutputType → String
  | .record => "RECORD"
  | .object => "OBJECT"
  | .value => "VALUE"

def ofLabel? (s : String) : Option OutputType := members.find? (·.label == s)

end OutputType

/-! ## Markers -/

/-- Values with a fixed text of their own in statements. -/
inductive Marker where
  | notNull | now
  deriving DecidableEq, Repr

namespace Marker

/-- Every marker, in order. -/
def members : List Marker := [.notNull, .now]

/-- The text of a marker in statements. -/
def label : Marker → String
  | .notNull => "NOT NULL"
  | .now => "NOW()"

def memberName : Marker → String
  | .notNull => "NOT_NULL"
  | .now => "NOW"

/-- The marker with a given text. -/
def ofLabel? (s : String) : Option Marker := members.find? (·.label == s)

end Marker

end Rowmap
