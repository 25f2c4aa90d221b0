import TextTemplate.Buffer
import TextTemplate.Pattern
import TextTemplate.Template.Element
import TextTemplate.Text.Initial

/-!
# Scopes

A scope is a list of tags, each of which stands for a template, with a finder that picks the
candidate in front of point. `Scope.classify` tells how a candidate relates to the tags.
-/

namespace TextTemplate

/-- Picks a candidate for completion. -/
inductive Finder where
  /-- What a pattern finds in front of point. -/
  | pattern (p : Pattern)
  | function (f : Buffer → Option Found)

namespace Finder

/-- The pattern of the word in front of point. -/
def wordPattern : String := "\\b(\\w+)"

/-- The finder of a pattern. -/
def ofPattern? (source : String) : Option Finder := (Pattern.compile? source).map .pattern

/-- The finder of the word in front of point. -/
def word : Finder := (ofPattern? wordPattern).getD (.function fun _ => none)

/-- The candidate in a buffer. -/
def find (f : Finder) (b : Buffer) : Option Found :=
  match f with
  | pattern p => p.findAtEnd (b.slice 0 b.point)
  | function f => f b

end Finder

/-- A tag and its template. -/
structure TagEntry (δ : Type) where
  tag : String
  template : Template δ

/-- How a candidate relates to the tags of a scope. -/
inductive Classification (δ : Type) where
  /-- No tag starts with it. -/
  | none
  /-- It is a tag. -/
  | exact (e : TagEntry δ)
  /-- Just one tag starts with it. -/
  | unique (e : TagEntry δ)
  /-- Several tags start with it, and have this in common. -/
  | ambiguous (shared : String)

/-- Tags under a name. -/
structure Scope (δ : Type) where
  name : String
  finder : Finder
  /-- The tags, in the order in which they were added. -/
  tags : List (TagEntry δ) := []

namespace Scope

variable {δ : Type}

/-- The name of the scope that every buffer falls back to. -/
def globalName : String := "global"

/-- The entry of a tag. -/
def lookup (s : Scope δ) (tag : String) : Option (TagEntry δ) := s.tags.find? (·.tag = tag)

/-- Adds a tag; one that is there already is kept. -/
def addTag (s : Scope δ) (tag : String) (t : Template δ) : Scope δ × Bool :=
  if (s.lookup tag).isSome then (s, false)
  else ({ s with tags := s.tags ++ [⟨tag, t⟩] }, true)

/-- The entries whose tags start with a text. -/
def candidates (s : Scope δ) (lead : String) : List (TagEntry δ) :=
  s.tags.filter fun e => lead.toList.isPrefixOf e.tag.toList

/-- What some tags have in common. -/
def shared (es : List (TagEntry δ)) : String :=
  .ofList (Text.commonInitial (es.map fun e => e.tag.toList))

/-- Tells how a candidate relates to the tags. -/
def classify (s : Scope δ) (candidate : String) : Classification δ :=
  match s.lookup candidate with
  | some e => .exact e
  | none =>
    match s.candidates candidate with
    | [] => .none
    | [e] => .unique e
    | es => .ambiguous (shared es)

end Scope

end TextTemplate
