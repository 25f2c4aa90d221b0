import TextTemplate.Error
import TextTemplate.Table
import TextTemplate.Template.Element

/-!
# Registries

Templates by their names. A template keeps its elements when its name is given to another one.
-/

namespace TextTemplate

/-- Templates under their names. -/
structure Registry (δ : Type) where
  templates : Table String (Template δ) := {}

namespace Registry

variable {δ : Type}

/-- The registry without templates. -/
def empty : Registry δ := {}

/-- Stores a template under its name, which must not be empty. -/
def define (r : Registry δ) (name : String) (elements : List (Element δ)) :
    Except Error (Registry δ × Template δ) :=
  if name = "" then .error (.invalidName name)
  else .ok (⟨r.templates.insert name ⟨name, elements⟩⟩, ⟨name, elements⟩)

/-- The template with a name. -/
def lookup (r : Registry δ) (name : String) : Except Error (Template δ) :=
  match r.templates.get? name with
  | some t => .ok t
  | none => .error (.templateNotFound name)

/-- Whether a name has a template. -/
def contains (r : Registry δ) (name : String) : Bool := r.templates.contains name

/-- The names, in ascending order of their code points. -/
def names (r : Registry δ) : List String := r.templates.keys.mergeSort fun a b => decide (a ≤ b)

/-- How many templates there are. -/
def size (r : Registry δ) : Nat := r.templates.size

end Registry

end TextTemplate
