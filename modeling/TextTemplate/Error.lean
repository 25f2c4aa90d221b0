import TextTemplate.Text.Quoted

/-!
# Errors

What can go wrong when templates are defined, looked up and expanded. After each error work can go
on; an expansion that failed leaves the text that it has inserted.
-/

namespace TextTemplate

/-- The cause of a failure. -/
inductive Error where
  /-- A template, a scope or a tag has an empty name. -/
  | invalidName (name : String)
  | templateNotFound (name : String)
  | scopeNotFound (name : String)
  /-- No handler knows a symbol. -/
  | unknownElement (name : String)
  /-- Elements stand deeper inside others than the settings allow. -/
  | recursionLimit (limit : Nat)
  /-- A prompt got no answer. -/
  | promptCancelled (prompt : String)
  /-- A region was asked for in a buffer without a mark. -/
  | missingRegion (buffer : Nat)
  /-- The pattern of a finder is malformed. -/
  | invalidPattern
deriving DecidableEq, Repr

namespace Error

/-- The text of an error. -/
def message : Error → String
  | invalidName name => "invalid name: " ++ Text.quote name
  | templateNotFound name => "template not found: " ++ name
  | scopeNotFound name => "scope not found: " ++ name
  | unknownElement name => "unknown template element: " ++ name
  | recursionLimit limit => "element nesting exceeded the limit of " ++ toString limit
  | promptCancelled prompt => "prompt cancelled: " ++ prompt
  | missingRegion buffer => "no region is active in buffer " ++ toString buffer
  | invalidPattern => "invalid match-finder pattern"

end Error

end TextTemplate
