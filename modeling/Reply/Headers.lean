import Reply.Field.Name
import Reply.Field.Value
import Reply.Registry

namespace Reply

/-!
# Header sections

The header section of a message maps each field name to its values, one or
more, in the order they were added.  Setting a field leaves it a single value.
-/

/-- The fields of a message, by name. -/
abbrev Headers :=
  Registry Field.Name (List Field.Value)

namespace Headers

/-- All values of a field, none if it is absent. -/
def values (headers : Headers) (name : Field.Name) : List Field.Value :=
  (headers.get? name).getD []

/-- Give a field a single value. -/
def set
    (headers : Headers)
    (name : Field.Name)
    (value : Field.Value) :
    Headers :=
  headers.put name [value]

/-- Add a value to a field, after those it has. -/
def add
    (headers : Headers)
    (name : Field.Name)
    (value : Field.Value) :
    Headers :=
  headers.put name (headers.values name ++ [value])

/-- Remove a field with all its values. -/
def remove (headers : Headers) (name : Field.Name) : Headers :=
  headers.erase name

/-- The first value of the field a text names, if it can be read as text. -/
def text? (headers : Headers) (name : String) : Option String := do
  let field ← Field.Name.ofText? name
  let value ← (headers.values field).head?
  value.text?

/-- Setting a field leaves it one value and every other field its values. -/
theorem values_set
    (headers : Headers)
    (name other : Field.Name)
    (value : Field.Value) :
    (headers.set name value).values other =
      if other = name then [value] else headers.values other := by
  simp only [values, set, Registry.get?_put]
  split
  · rfl
  · rfl

/-- Adding a value leaves every other field its values. -/
theorem values_add
    (headers : Headers)
    (name other : Field.Name)
    (value : Field.Value) :
    (headers.add name value).values other =
      if other = name then
        headers.values name ++ [value]
      else
        headers.values other := by
  simp only [values, add, Registry.get?_put]
  split
  · rfl
  · rfl

/-- Removing a field leaves every other field its values. -/
theorem values_remove
    (headers : Headers)
    (name other : Field.Name) :
    (headers.remove name).values other =
      if other = name then [] else headers.values other := by
  simp only [values, remove, Registry.get?_erase]
  split
  · rfl
  · rfl

end Headers

end Reply
