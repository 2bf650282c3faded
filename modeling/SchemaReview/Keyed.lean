/-!
# Keyed — tables of values by key, in order of first insertion
-/

namespace SchemaReview

/-- Values by key.  A key that is inserted again keeps its place. -/
abbrev Keyed (κ β : Type) := List (κ × β)

namespace Keyed

variable {κ β : Type} [DecidableEq κ]

/-- The value of a key. -/
def get? (m : Keyed κ β) (key : κ) : Option β := m.lookup key

/-- The keys in order. -/
def keys (m : Keyed κ β) : List κ := m.map (·.1)

/-- The values in order. -/
def values (m : Keyed κ β) : List β := m.map (·.2)

/-- Changes the value of a key, if it has one. -/
def modify (m : Keyed κ β) (key : κ) (f : β → β) : Keyed κ β :=
  m.map fun (k, v) => if k = key then (k, f v) else (k, v)

/-- Gives a key its value; a key that is there already keeps its place. -/
def insert (m : Keyed κ β) (key : κ) (value : β) : Keyed κ β :=
  if key ∈ m.keys then m.modify key fun _ => value else m ++ [(key, value)]

/-- Gives a key its value, unless it has one. -/
def insertNew (m : Keyed κ β) (key : κ) (value : β) : Keyed κ β :=
  if key ∈ m.keys then m else m ++ [(key, value)]

end Keyed

end SchemaReview
