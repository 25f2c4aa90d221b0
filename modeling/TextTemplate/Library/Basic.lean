import TextTemplate.Template.Element

/-!
# Libraries

A library lists scopes and templates. Templates are built in order, so that one can include those
before it.
-/

namespace TextTemplate

/-- A scope to define. -/
structure ScopeSpec where
  name : String
  /-- The pattern of the finder; that of the word finder if absent. -/
  finder : Option String := none
deriving DecidableEq, Repr

/-- An element to build. -/
inductive ElementSpec where
  | text (s : String)
  | point
  | prompt (p : Prompt)
  /-- The region; it is prompted for if there is a prompt. -/
  | region (prompt name : Option String) (always indent : Bool)
  | newline
  | newlineIndent
  | conditionalNewline
  | conditionalNewlineAfter
  | indent
  | saved (name : String)
  | list (elements : List ElementSpec)
  | symbol (name : String)
  | empty
  /-- The elements that a template has when this is built. -/
  | includes (template : String)

/-- A template to define. -/
structure TemplateSpec where
  name : String
  tag : Option String := none
  scope : Option String := none
  elements : List ElementSpec

/-- Scopes and templates to define. -/
structure Library where
  scopes : List ScopeSpec := []
  templates : List TemplateSpec := []

end TextTemplate
