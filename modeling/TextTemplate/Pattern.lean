import TextTemplate.Regex.Search

/-!
# Patterns for the end of a text

A `Pattern` finds what it matches at the end of a text, as near to the end as it can start. Its own
first group, if that took part, tells the text found; otherwise all that it matched does.
-/

namespace TextTemplate

/-- A text found in front of point. -/
structure Found where
  text : String
  start : Nat
deriving DecidableEq, Repr

/-- A pattern as written, and ready for a search. -/
structure Pattern where
  source : String
  node : Regex.Node

namespace Pattern

/-- The pattern that is searched for: anything, then what was written, in a group, at the end. -/
def wrap (source : List Char) : List Char :=
  "^(?s:.*)((?:".toList ++ source ++ "))\\z".toList

/-- Reads a pattern. -/
def compile? (source : String) : Option Pattern :=
  (Regex.Node.compile? (wrap source.toList)).map fun node => { source, node }

/-- What is found at the end of a text. -/
def findAtEnd (p : Pattern) (text : List Char) : Option Found := do
  let cs ← p.node.search text
  let c ← Regex.Captures.find? cs 2 <|> Regex.Captures.find? cs 1
  return { text := .ofList ((text.take c.stop).drop c.start), start := c.start }

end Pattern

end TextTemplate
