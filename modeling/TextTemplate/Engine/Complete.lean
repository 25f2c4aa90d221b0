import TextTemplate.Engine.Expand

/-!
# Completion

The first active scope that knows the candidate in front of point decides. A candidate that is a
tag, or that only one tag starts with, gives way to the template of that tag; otherwise it grows to
what the tags that start with it have in common.
-/

namespace TextTemplate

/-- What a completion did. -/
inductive Completion where
  /-- A tag gave way to its template. -/
  | expanded (tag : String) (e : Expansion)
  /-- The candidate grew to what several tags share, which may be no more than it was. -/
  | partially (shared : String) (progressed : Bool)
  | noMatch
deriving DecidableEq, Repr

/-- What is to be done about a candidate. -/
inductive Decision (δ : Type) where
  | expand (e : TagEntry δ) (found : Found)
  | extend (shared : String) (found : Found)

/-- The candidate that a decision is about. -/
def Decision.found {δ : Type} : Decision δ → Found
  | expand _ found => found
  | extend _ found => found

namespace Scope

variable {δ : Type}

/-- What the scope decides in a buffer, if it knows the candidate there. -/
def decision? (s : Scope δ) (b : Buffer) : Option (Decision δ) := do
  let found ← s.finder.find b
  match s.classify found.text with
  | .none => none
  | .exact e => some (.expand e found)
  | .unique e => some (.expand e found)
  | .ambiguous shared => some (.extend shared found)

/-- The entry of the candidate in a buffer, if it is a tag. -/
def exactMatch? (s : Scope δ) (b : Buffer) : Option (TagEntry δ × Found) := do
  let found ← s.finder.find b
  let e ← s.lookup found.text
  return (e, found)

end Scope

namespace Engine

variable {δ : Type} [Deferral δ]

/-- What the first active scope that knows its candidate decides. -/
def decision? (g : Engine δ) (b : Buffer) : Option (Decision δ) :=
  (g.activeScopes b.id).findSome? fun s => s.decision? b

/-- The entry of the first active scope whose candidate is one of its tags. -/
def exactMatch? (g : Engine δ) (b : Buffer) : Option (TagEntry δ × Found) :=
  (g.activeScopes b.id).findSome? fun s => s.exactMatch? b

/-- Deletes a candidate up to point. -/
def deleteCandidate (g : Engine δ) (b : Buffer) (found : Found) : Engine δ × Buffer :=
  if b.point ≤ found.start then (g, b)
  else
    (g.notifyEdit b.id (.delete found.start b.point), b.deleteRange found.start b.point)

/-- Completes the tag in front of point. Unless `silent`, the buffer dings when no scope knows the
candidate and when the candidate does not grow. -/
def completeTag (g : Engine δ) (b : Buffer) (silent : Bool) : Outcome δ Completion :=
  match g.decision? b with
  | none => ⟨g, if silent then b else b.ding, .ok .noMatch⟩
  | some (.expand e found) =>
    let (g, b) := g.deleteCandidate b found
    let o := g.insertTemplate b e.template false
    ⟨o.engine, o.buffer, o.result.map (.expanded e.tag)⟩
  | some (.extend shared found) =>
    let (g, b) := g.deleteCandidate b found
    let s := shared.toList
    let g := g.notifyEdit b.id (.insert b.point s.length)
    let b := b.insertText s
    let progressed := shared ≠ found.text
    ⟨g, if progressed || silent then b else b.ding, .ok (.partially shared progressed)⟩

/-- Expands the tag in front of point if one of the active scopes has just that tag, and tells
whether it did. -/
def expandIfComplete (g : Engine δ) (b : Buffer) : Outcome δ Bool :=
  match g.exactMatch? b with
  | none => ⟨g, b, .ok false⟩
  | some (e, found) =>
    let (g, b) := g.deleteCandidate b found
    let o := g.insertTemplate b e.template false
    ⟨o.engine, o.buffer, o.result.map fun _ => true⟩

end Engine

end TextTemplate
