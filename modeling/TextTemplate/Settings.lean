/-!
# Settings
-/

namespace TextTemplate

/-- What an expansion may do. -/
structure Settings where
  /-- Prompts are asked; otherwise they leave a mark. -/
  interactive : Bool := false
  /-- How deep elements may stand inside others. -/
  maxDepth : Nat := 32
deriving DecidableEq, Repr

end TextTemplate
