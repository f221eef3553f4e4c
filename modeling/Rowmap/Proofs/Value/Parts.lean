import Rowmap.Value.Basic

/-!
# Parts of values

The values that stand directly inside a value: the elements of a list, the values of a map, what a
wrapper wraps, the conditions of a selection. A fact about all values follows once it carries over
from the parts of a value to the value, whatever position in a condition tree they stand in.
-/

namespace Rowmap.Value

/-- Plain data that is no container. -/
def isScalar : Value → Bool
  | .bool _ | .int _ | .float _ | .decimal _ | .text _ | .bytes _ | .date _ | .time _ | .moment _
  | .uuid _ => true
  | _ => false

section

variable {v : Value} {items : List Value}

theorem ne_wrapped_of_isRenderable (h : v.isRenderable = true) (inner : Value) (bind : Bool)
    (own : Option Comparison) (quote : Bool) : v ≠ .wrapped inner bind own quote := by
  rintro rfl
  cases h

/-- A list of values is not wrapped. -/
theorem ne_wrapped_of_elements? (h : v.elements? = some items) (inner : Value) (bind : Bool)
    (own : Option Comparison) (quote : Bool) : v ≠ .wrapped inner bind own quote := by
  rintro rfl
  cases h

/-- A list of values is no marker. -/
theorem ne_marker_of_elements? (h : v.elements? = some items) (m : Marker) : v ≠ .marker m := by
  rintro rfl
  cases h

/-- A list of values does not render itself. -/
theorem isRenderable_of_elements? (h : v.elements? = some items) : v.isRenderable = false := by
  cases v <;> first | rfl | cases h

end

/-- The values directly inside a value that a condition tree can look into. -/
def parts : Value → List Value
  | .list items | .tuple items | .group _ _ items _ => items
  | .map entries => entries.map (·.2)
  | .wrapped inner _ _ _ => [inner]
  | .query _ select => select.wheres
  | _ => []

theorem sizeOf_lt_of_mem_parts {v w : Value} (h : w ∈ v.parts) : sizeOf w < sizeOf v := by
  cases v with
  | list items | tuple items | group id kind items own =>
    have hlt := List.sizeOf_lt_of_mem (show w ∈ items from h)
    simp
    omega
  | map entries =>
    obtain ⟨⟨key, x⟩, hmem, rfl⟩ := List.mem_map.mp h
    have hlt := List.sizeOf_lt_of_mem hmem
    simp at hlt ⊢
    omega
  | wrapped inner bind own quote =>
    rw [List.mem_singleton.mp h]
    simp
    omega
  -- the conditions of a selection are smaller than the query around it
  | query id select =>
    obtain ⟨table, wheres, _⟩ := select
    have hlt := List.sizeOf_lt_of_mem (show w ∈ wheres from h)
    simp
    omega
  | _ => exact absurd h List.not_mem_nil

/-- **Induction on parts.** -/
theorem induction_on_parts {P : Value → Prop} (step : ∀ v, (∀ w ∈ v.parts, P w) → P v) :
    ∀ v, P v := fun v ↦ step v fun w _ ↦ induction_on_parts step w
termination_by v => sizeOf v
decreasing_by exact sizeOf_lt_of_mem_parts ‹_›

end Rowmap.Value
