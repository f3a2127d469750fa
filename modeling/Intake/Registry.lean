import Intake.Schema

/-!
# Registry — schemas by name

A registry keeps schemas in the order in which they were registered, no two of one name.
-/

namespace Intake

structure Registry where
  schemas  : List Schema
  distinct : (schemas.map (·.name)).Nodup

namespace Registry

def empty : Registry := ⟨[], .nil⟩

def names (r : Registry) : List String := r.schemas.map (·.name)

def size (r : Registry) : Nat := r.schemas.length

def contains (r : Registry) (name : String) : Bool := r.names.contains name

def get? (r : Registry) (name : String) : Option Schema := r.schemas.find? (·.name == name)

/-- A registry with one more schema, unless its name is taken. -/
def register? (r : Registry) (s : Schema) : Option Registry :=
  if h : s.name ∈ r.names then none
  else some ⟨r.schemas ++ [s], by
    simp only [List.map_append, List.map_cons, List.map_nil, List.nodup_append, List.mem_singleton]
    exact ⟨r.distinct, by simp, fun a ha b hb hab => h (by subst hb; subst hab; exact ha)⟩⟩

end Registry

end Intake
