/-!
# Issues of declarations

What is wrong with a declared field or a setting: where it stands and which check it failed.
-/

namespace Rowmap

/-- A failed check. -/
inductive Problem where
  | missing
  | notText | badText
  | notMember
  | notBool | badBool
  | notInt | badInt | fractional | intTooLarge | notFinite
  | notFloat | badFloat
  | notModel
  /-- A check of the setting's own failed, in its own words. -/
  | refused (message : String)
  deriving DecidableEq, Repr

namespace Problem

/-- The code of a failed check. -/
def code : Problem → String
  | .missing => "missing"
  | .notText => "string_type"
  | .badText => "string_unicode"
  | .notMember => "enum"
  | .notBool => "bool_type"
  | .badBool => "bool_parsing"
  | .notInt => "int_type"
  | .badInt => "int_parsing"
  | .fractional => "int_from_float"
  | .intTooLarge => "int_parsing_size"
  | .notFinite => "finite_number"
  | .notFloat => "float_type"
  | .badFloat => "float_parsing"
  | .notModel => "model_type"
  | .refused _ => "value_error"

/-- The words of a check of the setting's own. -/
def message? : Problem → Option String
  | .refused message => some ("Value error, " ++ message)
  | _ => none

end Problem

/-- A failed check and the path to what failed it. -/
structure Issue where
  path : List String
  problem : Problem
  deriving DecidableEq, Repr

end Rowmap
