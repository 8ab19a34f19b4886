import Reply.Message

namespace Reply

/-!
# Messages that say the same

The fields of a header section are looked up by name, so the order in which the names
came in says nothing.  Two messages agree if they have the same status, version and
body, and the same values under every name.
-/

namespace Headers

theorem get?_set
    (headers : Headers)
    (name other : Field.Name)
    (value : Field.Value) :
    (headers.set name value).get? other =
      if other = name then some [value] else headers.get? other :=
  Registry.get?_put ..

theorem get?_remove
    (headers : Headers)
    (name other : Field.Name) :
    (headers.remove name).get? other =
      if other = name then none else headers.get? other :=
  Registry.get?_erase ..

/-- The same values under every name, in whatever order the names stand. -/
def Agree (left right : Headers) : Prop :=
  ∀ name, left.get? name = right.get? name

/-- The same values under every name but some, in whatever order the names stand. -/
def AgreeBeside
    (names : List Field.Name)
    (left right : Headers) :
    Prop :=
  ∀ name, name ∉ names → left.get? name = right.get? name

section

variable {names : List Field.Name}

theorem agreeBeside_refl (headers : Headers) :
    AgreeBeside names headers headers :=
  fun _ _ => rfl

variable {left right : Headers} {name : Field.Name}

/-- Setting a listed field changes nothing beside the list. -/
theorem AgreeBeside.set
    (agree : AgreeBeside names left right)
    (listed : name ∈ names)
    (value : Field.Value) :
    AgreeBeside names (left.set name value) right := by
  intro other outside
  have different : other ≠ name := fun same => outside (same ▸ listed)
  rw [get?_set, if_neg different, agree other outside]

/-- Removing a listed field changes nothing beside the list. -/
theorem AgreeBeside.remove
    (agree : AgreeBeside names left right)
    (listed : name ∈ names) :
    AgreeBeside names (left.remove name) right := by
  intro other outside
  have different : other ≠ name := fun same => outside (same ▸ listed)
  rw [get?_remove, if_neg different, agree other outside]

end

end Headers

namespace Message

variable {β : Type}

/-- The same status, version and body, and header sections that agree. -/
structure Agrees (left right : Message β) : Prop where
  status : left.status = right.status
  version : left.version = right.version
  headers : left.headers.Agree right.headers
  body : left.body = right.body

namespace Agrees

variable {left right : Message β}

theorem refl (message : Message β) : message.Agrees message :=
  ⟨rfl, rfl, fun _ => rfl, rfl⟩

theorem trans
    {between : Message β}
    (first : left.Agrees between)
    (second : between.Agrees right) :
    left.Agrees right where
  status := first.status.trans second.status
  version := first.version.trans second.version
  headers name := (first.headers name).trans (second.headers name)
  body := first.body.trans second.body

end Agrees

end Message

end Reply
