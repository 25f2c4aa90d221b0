/-!
# Templates and their elements

An element says one thing to do when a template is expanded. Elements that are worked out only when
the expansion reaches them carry a code, and `Deferral.evaluate` makes elements of codes.
-/

namespace TextTemplate

/-- A question to the user. -/
structure Prompt where
  text : String
  /-- The name that the answer is kept under during the expansion. -/
  name : Option String := none
  /-- Whether the question is asked even when the settings are not interactive. -/
  always : Bool := false
deriving DecidableEq, Repr

/-- One step of an expansion; `δ` is the type of the codes of deferred elements. -/
inductive Element (δ : Type) where
  /-- Literal text, which the filters change. -/
  | text (s : String)
  /-- A mark. -/
  | point
  | prompt (p : Prompt)
  /-- The other end of the region, which may be indented; a mark if there is no region. -/
  | regionPoint (indent : Bool)
  /-- A prompt, or the other end of the region if prompts are not asked. -/
  | regionPrompt (p : Prompt) (indent : Bool)
  /-- A line feed unless only blanks stand before point on its line. -/
  | conditionalNewline
  /-- A line feed unless only blanks stand after point on its line. -/
  | conditionalNewlineAfter
  | newline
  /-- A line feed, and the new line indented. -/
  | newlineIndent
  /-- The line of point indented. -/
  | reindent
  /-- The answer kept under a name. -/
  | saved (name : String)
  | list (elements : List (Element δ))
  /-- The elements of another template, whose name is told. -/
  | template (name : String) (elements : List (Element δ))
  /-- What the handlers make of a name. -/
  | symbol (name : String)
  | empty
  /-- An element worked out when it is reached. -/
  | deferred (code : δ)

/-- Elements under a name. -/
structure Template (δ : Type) where
  name : String
  elements : List (Element δ)

/-- What a deferred element can see. -/
structure EvalContext where
  position : Nat
  onRegion : Bool
  /-- The answers kept so far, the last one first. -/
  answers : List (String × String)

/-- The answer kept under a name. -/
def EvalContext.answer? (c : EvalContext) (name : String) : Option String := c.answers.lookup name

/-- Codes that stand for elements. -/
class Deferral (δ : Type) where
  /-- The element of a code, worked out where the expansion has come to. -/
  evaluate : δ → EvalContext → Element δ

/-- There need not be deferred elements at all. -/
instance : Deferral Empty := ⟨fun d => nomatch d⟩

namespace Element

variable {δ : Type}

/-- The kind of an element. -/
def kind : Element δ → String
  | text _ => "text"
  | point => "point"
  | prompt _ => "prompt"
  | regionPoint _ => "region"
  | regionPrompt _ _ => "region-prompt"
  | conditionalNewline => "conditional-newline"
  | conditionalNewlineAfter => "conditional-newline-after"
  | newline => "newline"
  | newlineIndent => "newline-indent"
  | reindent => "reindent"
  | saved _ => "saved"
  | list _ => "list"
  | template _ _ => "template"
  | symbol _ => "symbol"
  | empty => "empty"
  | deferred _ => "deferred"

/-- A template as an element of another one. -/
def ofTemplate (t : Template δ) : Element δ := template t.name t.elements

end Element

end TextTemplate
