import TextTemplate.Engine.Basic
import TextTemplate.Library.Basic

/-!
# Installing libraries

All scopes are defined, then all templates, in the order of the library. The first failure stops
the installation; what is defined until then stays.
-/

namespace TextTemplate

/-- Why a library could not be installed. -/
inductive InstallError where
  /-- The finder of a scope is malformed. -/
  | finder (scope : String)
  | scope (name : String) (cause : Error)
  /-- A template includes one that is not there. -/
  | elements (template : String) (cause : Error)
  | template (name : String) (cause : Error)
deriving DecidableEq, Repr

namespace InstallError

/-- What was being done. -/
def context : InstallError → String
  | finder name => "Invalid finder for scope " ++ name
  | scope name _ => "Failed to define scope " ++ Text.quote name
  | elements name _ => "Failed to build template " ++ name
  | template name _ => "Failed to define template " ++ Text.quote name

/-- What went wrong then. -/
def cause : InstallError → Error
  | finder _ => .invalidPattern
  | scope _ e | elements _ e | template _ e => e

/-- The text of the error. -/
def message (e : InstallError) : String := e.context ++ ": " ++ e.cause.message

end InstallError

namespace ElementSpec

variable {δ : Type}

mutual

/-- Builds an element; templates are looked up in a registry. -/
def build (r : Registry δ) : ElementSpec → Except Error (Element δ)
  | text s => .ok (.text s)
  | point => .ok .point
  | prompt p => .ok (.prompt p)
  | region none _ _ indented => .ok (.regionPoint indented)
  | region (some question) name always indented =>
    .ok (.regionPrompt { text := question, name, always } indented)
  | newline => .ok .newline
  | newlineIndent => .ok .newlineIndent
  | conditionalNewline => .ok .conditionalNewline
  | conditionalNewlineAfter => .ok .conditionalNewlineAfter
  | indent => .ok .reindent
  | saved name => .ok (.saved name)
  | list es => (buildAll r es).map .list
  | symbol name => .ok (.symbol name)
  | empty => .ok .empty
  | includes name => (r.lookup name).map .ofTemplate

/-- Builds elements in order. -/
def buildAll (r : Registry δ) : List ElementSpec → Except Error (List (Element δ))
  | [] => .ok []
  | e :: es => do
    let a ← build r e
    let as ← buildAll r es
    return a :: as

end

end ElementSpec

namespace Engine

variable {δ : Type}

/-- Defines a scope of a library. -/
def installScope (g : Engine δ) (s : ScopeSpec) : Except InstallError (Engine δ) :=
  match s.finder.elim (some .word) Finder.ofPattern? with
  | none => .error (.finder s.name)
  | some finder =>
    match g.defineScope s.name finder with
    | .ok g => .ok g
    | .error e => .error (.scope s.name e)

/-- Builds and defines a template of a library. -/
def installTemplate (g : Engine δ) (t : TemplateSpec) : Engine δ × Option InstallError :=
  match ElementSpec.buildAll g.registry t.elements with
  | .error e => (g, some (.elements t.name e))
  | .ok es =>
    match g.defineTemplate t.name es t.tag t.scope with
    | (g, .ok _) => (g, none)
    | (g, .error e) => (g, some (.template t.name e))

/-- Defines scopes in order until one fails. -/
def installScopes (g : Engine δ) : List ScopeSpec → Engine δ × Option InstallError
  | [] => (g, none)
  | s :: ss =>
    match g.installScope s with
    | .ok g => g.installScopes ss
    | .error e => (g, some e)

/-- Defines templates in order until one fails. -/
def installTemplates (g : Engine δ) : List TemplateSpec → Engine δ × Option InstallError
  | [] => (g, none)
  | t :: ts =>
    match g.installTemplate t with
    | (g, none) => g.installTemplates ts
    | (g, some e) => (g, some e)

/-- Installs a library, and tells how many templates it has. -/
def install (g : Engine δ) (l : Library) : Engine δ × Except InstallError Nat :=
  match g.installScopes l.scopes with
  | (g, some e) => (g, .error e)
  | (g, none) =>
    match g.installTemplates l.templates with
    | (g, some e) => (g, .error e)
    | (g, none) => (g, .ok l.templates.length)

end Engine

end TextTemplate
