import Rowmap.Rendition

/-!
# Statements

A statement, or a part of one that stands by itself, with the values bound in it.
-/

namespace Rowmap

/-- A text and the values of its placeholders, in the order of their numbers. -/
structure Statement where
  text : String
  values : List Value := []

/-- A statement as a sub-query of another. -/
def Statement.rendition (s : Statement) : Rendition := .ofText s.text s.values

end Rowmap
