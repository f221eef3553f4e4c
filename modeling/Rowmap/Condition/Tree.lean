import Rowmap.Sql.Joined
import Rowmap.Sql.Statement
import Rowmap.Vocabulary

/-!
# Conditions

A condition tree whose leaves have been resolved. Its text is written by one rule: a group with more
than one part that stands beside other conditions is put in parentheses, a lone child takes the
place of its group, and what renders to nothing is left out.
-/

namespace Rowmap

inductive Condition where
  /-- A field whose value was never given. -/
  | skipped
  /-- A resolved leaf or a test for rows, with its bound values. -/
  | atom (text : String) (values : List Value)
  /-- Conditions joined by a connective. -/
  | group (connective : Connective) (parts : List Condition)
  /-- The conditions of a map of fields. A map always says something. -/
  | fields (connective : Connective) (parts : List Condition)

namespace Condition

mutual

/-- The bound values of a condition, in the order of their placeholders. -/
def values : Condition → List Value
  | .skipped => []
  | .atom _ values => values
  | .group _ parts | .fields _ parts => partValues parts

/-- The bound values of several conditions. -/
def partValues : List Condition → List Value
  | [] => []
  | part :: parts => part.values ++ partValues parts

end

/-- The text of a constant truth. -/
def always : String := "true"

/-- A text, or the constant truth when it is empty. -/
def orAlways (text : String) : String := if text.isEmpty then always else text

/-- How many siblings each part of a group has: a lone part has those of the group. -/
def groupSiblings (siblings : Int) (count : Nat) : Int :=
  if count = 1 then siblings else count - 1

mutual

/-- The text of a condition that stands beside so many others. -/
def text : Condition → Int → String
  | .skipped, _ => ""
  | .atom text _, _ => text
  | .group connective parts, siblings =>
    Sql.joinParts (partTexts parts (groupSiblings siblings parts.length)) connective.label siblings
  | .fields connective parts, siblings =>
    orAlways
      (Sql.joinParts (partTexts parts (siblings + parts.length - 1)) connective.label siblings)

def partTexts : List Condition → Int → List String
  | [], _ => []
  | part :: parts, siblings => part.text siblings :: partTexts parts siblings

end

/-- A whole condition as a statement part; one that says nothing is true. -/
def statement (c : Condition) (siblings : Int) : Statement := ⟨orAlways (c.text siblings), c.values⟩

end Condition

end Rowmap
