import Rowmap.Value.Basic

/-!
# Entries

Values by key, in the order in which the keys were first put, and plain data as values.
-/

namespace Rowmap

def Value.ofTexts (texts : List String) : Value := .list (texts.map .text)

/-- A text that may be absent as a value. -/
def Value.ofText? (text : Option String) : Value := (text.map .text).getD .null

abbrev Entries := List (String × Value)

namespace Entries

/-- The entries with a value under a key: in its place, or at the end. -/
def put : Entries → String → Value → Entries
  | [], key, v => [(key, v)]
  | (k, w) :: es, key, v => if k == key then (k, v) :: es else (k, w) :: put es key v

/-- The value under a key; null for none. -/
def valueAt (es : Entries) (key : String) : Value := (es.lookup key).getD .null

/-- The value under a key, or the mark for none. -/
def valueOrUnset (es : Entries) (key : String) : Value := (es.lookup key).getD .unset

/-- The entries of one list with those of another put over them. -/
def override (es fs : Entries) : Entries := fs.foldl (fun es (key, v) ↦ es.put key v) es

def without (es : Entries) (key : String) : Entries := es.filter (·.1 != key)

/-- The keys, in order. -/
def keys (es : Entries) : List String := es.map (·.1)

@[simp] theorem lookup_put_self (es : Entries) (key : String) (v : Value) :
    (es.put key v).lookup key = some v := by
  induction es with
  | nil => simp [put]
  | cons e es ih =>
    obtain ⟨k, w⟩ := e
    by_cases h : k = key
    · simp [put, h]
    · have hk : (k == key) = false := by simpa using h
      have hk' : (key == k) = false := by simpa using Ne.symm h
      simp [put, hk, List.lookup_cons, hk', ih]

theorem lookup_put_of_ne (es : Entries) {key other : String} (v : Value) (h : other ≠ key) :
    (es.put key v).lookup other = es.lookup other := by
  have ho : (other == key) = false := by simpa using h
  induction es with
  | nil => simp [put, List.lookup_cons, ho]
  | cons e es ih =>
    obtain ⟨k, w⟩ := e
    by_cases hk : k = key
    · subst hk
      simp [put, List.lookup_cons, ho]
    · have hk' : (k == key) = false := by simpa using hk
      cases hc : other == k <;> simp [put, hk', List.lookup_cons, hc, ih]

end Entries

end Rowmap
