import TextTemplate.Json5.Parser
import TextTemplate.Library.Basic

/-!
# Libraries as documents

A library, a scope and a template are written as objects, or as arrays of their fields in order, the
last of which may be missing if they have defaults. An element is written as a string, as an object
with its kind, or as an array that starts with its kind.
-/

namespace TextTemplate

open Json5 (Value)

namespace Json5.Value

/-- The text of a string. -/
def text? : Value → Option String
  | string s => s
  | _ => none

/-- A string, or null for nothing. -/
def optionalText? : Value → Option (Option String)
  | null => some none
  | string (some s) => some (some s)
  | _ => none

/-- A truth value. -/
def flag? : Value → Option Bool
  | bool b => some b
  | _ => none

end Json5.Value

/-- Named values, each name at most once. -/
abbrev Fields := List (String × Value)

namespace Fields

/-- The fields of an object whose keys can be read. -/
def ofPairs? : List (Json5.Chars × Value) → Option Fields
  | [] => some []
  | (none, _) :: _ => none
  | (some k, v) :: r => (ofPairs? r).map ((k, v) :: ·)

/-- The fields with some names, if none of them stands twice. -/
def select? (names : List String) (fs : Fields) : Option Fields :=
  let kept := fs.filter fun f => names.contains f.1
  if (kept.map (·.1)).Nodup then some kept else none

/-- The fields that objects and arrays of a record have. An object has no others. What an array has
more than names is passed over. -/
def ofRecord? (names : List String) : Value → Option Fields
  | .object ps => do
    let fs ← ofPairs? ps
    if fs.all fun f => names.contains f.1 then select? names fs else none
  | .array vs => some (names.zip vs)
  | _ => none

/-- A field that has to be there. -/
def required? {α : Type} (fs : Fields) (name : String) (read : Value → Option α) : Option α :=
  (fs.lookup name).bind read

/-- A field with a default. -/
def optional? {α : Type} (fs : Fields) (name : String) (default : α) (read : Value → Option α) :
    Option α :=
  match fs.lookup name with
  | some v => read v
  | none => some default

end Fields

/-- The values of an array, each of them read. -/
def readArray? {α : Type} (read : Value → Option α) : Value → Option (List α)
  | .array vs => vs.mapM read
  | _ => none

namespace ElementSpec

/-- The names of the fields that each kind of element has, in order. -/
def fieldNames? : String → Option (List String)
  | "prompt" => some ["prompt", "name", "always"]
  | "region" => some ["prompt", "name", "always", "indent"]
  | "saved" | "symbol" => some ["name"]
  | "list" => some ["elements"]
  | "include" => some ["template"]
  | "point" | "newline" | "newline_indent" | "conditional_newline" | "conditional_newline_after"
  | "indent" | "empty" => some []
  | _ => none

/-- The kind and the fields of an element; an object may have other fields, an array may not. -/
def kindAndFields? : Value → Option (String × Fields)
  | .object ps => do
    let fs ← Fields.ofPairs? ps
    let tagged ← Fields.select? ["kind"] fs
    let kind ← Fields.required? tagged "kind" Value.text?
    let names ← fieldNames? kind
    let fields ← Fields.select? names fs
    return (kind, fields)
  | .array (v :: vs) => do
    let kind ← v.text?
    let names ← fieldNames? kind
    if vs.length ≤ names.length then return (kind, names.zip vs) else none
  | _ => none

/-- The element of a kind with its fields, where `read` reads the elements in it. -/
def ofFields? (read : Value → Option ElementSpec) (kind : String) (fs : Fields) :
    Option ElementSpec :=
  match kind with
  | "point" => some point
  | "prompt" => do
    let text ← fs.required? "prompt" Value.text?
    let name ← fs.optional? "name" none Value.optionalText?
    let always ← fs.optional? "always" false Value.flag?
    return prompt { text, name, always }
  | "region" => do
    let prompt ← fs.optional? "prompt" none Value.optionalText?
    let name ← fs.optional? "name" none Value.optionalText?
    let always ← fs.optional? "always" false Value.flag?
    let indent ← fs.optional? "indent" false Value.flag?
    return region prompt name always indent
  | "newline" => some newline
  | "newline_indent" => some newlineIndent
  | "conditional_newline" => some conditionalNewline
  | "conditional_newline_after" => some conditionalNewlineAfter
  | "indent" => some indent
  | "saved" => (fs.required? "name" Value.text?).map saved
  | "list" => (fs.required? "elements" (readArray? read)).map list
  | "symbol" => (fs.required? "name" Value.text?).map symbol
  | "empty" => some empty
  | "include" => (fs.required? "template" Value.text?).map includes
  | _ => none

/-- Reads an element whose elements are nested less deep than a bound. -/
def ofValueWithin? : Nat → Value → Option ElementSpec
  | 0, _ => none
  | _ + 1, .string s => s.map text
  | n + 1, v => (kindAndFields? v).bind fun (kind, fs) => ofFields? (ofValueWithin? n) kind fs

end ElementSpec

mutual

/-- How deep arrays and objects are nested in a value. -/
def Json5.Value.depth : Value → Nat
  | .array vs => depths vs + 1
  | .object fs => fieldDepths fs + 1
  | _ => 0

/-- The largest depth of some values. -/
def Json5.Value.depths : List Value → Nat
  | [] => 0
  | v :: vs => max v.depth (depths vs)

/-- The largest depth of the values of some fields. -/
def Json5.Value.fieldDepths : List (Json5.Chars × Value) → Nat
  | [] => 0
  | (_, v) :: fs => max v.depth (fieldDepths fs)

end

/-- Reads an element; all that is written in it has to be readable. -/
def ElementSpec.ofValue? (v : Value) : Option ElementSpec :=
  if v.readable then ofValueWithin? (v.depth + 1) v else none

/-- Reads a scope. -/
def ScopeSpec.ofValue? (v : Value) : Option ScopeSpec := do
  let fs ← Fields.ofRecord? ["name", "finder"] v
  let name ← fs.required? "name" Value.text?
  let finder ← fs.optional? "finder" none Value.optionalText?
  return { name, finder }

/-- Reads a template. -/
def TemplateSpec.ofValue? (v : Value) : Option TemplateSpec := do
  let fs ← Fields.ofRecord? ["name", "tag", "scope", "elements"] v
  let name ← fs.required? "name" Value.text?
  let tag ← fs.optional? "tag" none Value.optionalText?
  let scope ← fs.optional? "scope" none Value.optionalText?
  let elements ← fs.required? "elements" (readArray? ElementSpec.ofValue?)
  return { name, tag, scope, elements }

namespace Library

/-- Reads a library. -/
def ofValue? (v : Value) : Option Library := do
  let fs ← Fields.ofRecord? ["scopes", "templates"] v
  let scopes ← fs.optional? "scopes" [] (readArray? ScopeSpec.ofValue?)
  let templates ← fs.optional? "templates" [] (readArray? TemplateSpec.ofValue?)
  return { scopes, templates }

/-- Reads the document of a library. -/
def parse? (source : String) : Option Library := (Json5.parse? source).bind ofValue?

end Library

end TextTemplate
