import TextTemplate.Marks
import TextTemplate.Scope
import TextTemplate.Settings
import TextTemplate.Template.Registry

/-!
# Engines

An engine holds what outlives a single expansion: templates, scopes with their tags, filters for
literal text, handlers of symbols, and for each buffer its marks and the scopes installed on it.
-/

namespace TextTemplate

/-- What an engine keeps for a buffer. -/
structure BufferState where
  marks : Marks := {}
  /-- The installed scopes, the last one installed first. -/
  scopes : List String := []
deriving DecidableEq, Repr

/-- Templates, scopes, hooks and the state of buffers. -/
structure Engine (δ : Type) where
  settings : Settings := {}
  registry : Registry δ := {}
  /-- The scope that every buffer falls back to. -/
  global : Scope δ := { name := Scope.globalName, finder := .word }
  scopes : Table String (Scope δ) := {}
  /-- What literal text passes through, in this order. -/
  filters : List (String → String) := []
  /-- What makes elements of symbols; the first one that does so decides. -/
  handlers : List (String → Option (Element δ)) := []
  buffers : Table BufferId BufferState := {}

namespace Engine

variable {δ : Type}

/-- Forgets everything but the settings. -/
def reset (g : Engine δ) : Engine δ := { settings := g.settings }

/-! ## Scopes -/

/-- The scope with a name. -/
def scope (g : Engine δ) (name : String) : Except Error (Scope δ) :=
  if name = Scope.globalName then .ok g.global
  else
    match g.scopes.get? name with
    | some s => .ok s
    | none => .error (.scopeNotFound name)

/-- Puts a scope in the place of the one with its name. -/
def setScope (g : Engine δ) (name : String) (s : Scope δ) : Engine δ :=
  if name = Scope.globalName then { g with global := s }
  else { g with scopes := g.scopes.insert name s }

/-- Gives a scope its finder; a scope that is not there yet is added without tags. -/
def defineScope (g : Engine δ) (name : String) (finder : Finder) : Except Error (Engine δ) :=
  if name = "" then .error (.invalidName name)
  else
    match g.scope name with
    | .ok s => .ok (g.setScope name { s with finder })
    | .error _ => .ok (g.setScope name { name, finder })

/-- Adds a tag to a scope, and tells whether it was new there. -/
def addTag (g : Engine δ) (tag : String) (t : Template δ) (scope : Option String) :
    Except Error (Engine δ × Bool) := do
  if tag = "" then throw (.invalidName tag)
  let name := scope.getD Scope.globalName
  let s ← g.scope name
  let (s, added) := s.addTag tag t
  return (g.setScope name s, added)

/-! ## Templates -/

/-- The template with a name. -/
def lookup (g : Engine δ) (name : String) : Except Error (Template δ) := g.registry.lookup name

/-- Stores a template and adds its tag, if it has one. A scope that is not there is an error before
the template is stored; an empty tag is one after that. -/
def defineTemplate (g : Engine δ) (name : String) (elements : List (Element δ))
    (tag scope : Option String) : Engine δ × Except Error (Template δ) :=
  match g.scope (scope.getD Scope.globalName) with
  | .error e => (g, .error e)
  | .ok _ =>
    match g.registry.define name elements with
    | .error e => (g, .error e)
    | .ok (registry, t) =>
      let g := { g with registry }
      match tag with
      | none => (g, .ok t)
      | some tag =>
        match g.addTag tag t scope with
        | .error e => (g, .error e)
        | .ok (g, _) => (g, .ok t)

/-! ## Buffers -/

/-- What is kept for a buffer, or nothing yet. -/
def stateOf (g : Engine δ) (id : BufferId) : BufferState := (g.buffers.get? id).getD {}

/-- Keeps a new state for a buffer. -/
def setState (g : Engine δ) (id : BufferId) (s : BufferState) : Engine δ :=
  { g with buffers := g.buffers.insert id s }

/-- Changes the state of a buffer, if there is one. -/
def modifyState (g : Engine δ) (id : BufferId) (f : BufferState → BufferState) : Engine δ :=
  match g.buffers.get? id with
  | some s => g.setState id (f s)
  | none => g

/-- Installs a scope on a buffer above the others; one that is installed keeps its place. -/
def useScope (g : Engine δ) (id : BufferId) (name : String) : Except Error (Engine δ) := do
  let _ ← g.scope name
  if name = Scope.globalName then return g
  let s := g.stateOf id
  return g.setState id (if name ∈ s.scopes then s else { s with scopes := name :: s.scopes })

/-- The scopes for completion in a buffer, in order: the installed ones, then the global one. -/
def activeScopes (g : Engine δ) (id : BufferId) : List (Scope δ) :=
  (g.stateOf id).scopes.filterMap g.scopes.get? ++ [g.global]

/-- The marks of a buffer. -/
def marks (g : Engine δ) (id : BufferId) : Marks := (g.stateOf id).marks

@[simp] theorem stateOf_setState (g : Engine δ) (i j : BufferId) (s : BufferState) :
    (g.setState i s).stateOf j = if j = i then s else g.stateOf j := by
  simp only [stateOf, setState, Table.get?_insert]
  split <;> rfl

@[simp] theorem marks_setState (g : Engine δ) (i j : BufferId) (s : BufferState) :
    (g.setState i s).marks j = if j = i then s.marks else g.marks j := by
  simp only [marks, stateOf_setState]
  split <;> rfl

/-- Removes the marks of a buffer. -/
def clearMarks (g : Engine δ) (id : BufferId) : Engine δ :=
  g.modifyState id fun s => { s with marks := {} }

/-- Moves the marks of a buffer with an edit of its text. -/
def notifyEdit (g : Engine δ) (id : BufferId) (e : Edit) : Engine δ :=
  g.modifyState id fun s => { s with marks := s.marks.apply e }

/-- Forgets a buffer. -/
def forget (g : Engine δ) (id : BufferId) : Engine δ := { g with buffers := g.buffers.erase id }

/-- A change of a state that leaves the empty state empty may as well be made where there is none
yet. -/
theorem stateOf_modifyState (g : Engine δ) (i j : BufferId) {f : BufferState → BufferState}
    (hf : f {} = {}) :
    (g.modifyState i f).stateOf j = if j = i then f (g.stateOf j) else g.stateOf j := by
  unfold modifyState
  split
  · next s hs =>
    rw [stateOf_setState]
    split
    · next hj => rw [hj, stateOf, hs, Option.getD_some]
    · rfl
  · next hs =>
    split
    · next hj => rw [hj, stateOf, hs, Option.getD_none, hf]
    · rfl

@[simp] theorem marks_clearMarks (g : Engine δ) (i j : BufferId) :
    (g.clearMarks i).marks j = if j = i then {} else g.marks j := by
  rw [marks, clearMarks, stateOf_modifyState g i j rfl]
  split <;> rfl

@[simp] theorem marks_notifyEdit (g : Engine δ) (i j : BufferId) (e : Edit) :
    (g.notifyEdit i e).marks j = if j = i then (g.marks j).apply e else g.marks j := by
  rw [marks, notifyEdit, stateOf_modifyState g i j rfl]
  split <;> rfl

@[simp] theorem marks_forget (g : Engine δ) (i j : BufferId) :
    (g.forget i).marks j = if j = i then {} else g.marks j := by
  simp only [marks, stateOf, forget, Table.get?_erase]
  split <;> rfl

/-- What installing a scope leaves: nothing happens for the global scope, and any other one is in
front of those that were installed, unless it was among them. -/
theorem useScope_cases {g g' : Engine δ} {i : BufferId} {name : String}
    (h : g.useScope i name = .ok g') : ∃ s, g.scope name = .ok s ∧
      (name = Scope.globalName ∧ g' = g ∨ name ≠ Scope.globalName ∧
        ∃ scopes, g' = g.setState i { g.stateOf i with scopes } ∧
          scopes = if name ∈ (g.stateOf i).scopes then (g.stateOf i).scopes
            else name :: (g.stateOf i).scopes) := by
  unfold useScope at h
  cases hscope : g.scope name with
  | error e =>
    rw [hscope] at h
    cases h
  | ok s =>
    refine ⟨s, rfl, ?_⟩
    rw [hscope] at h
    simp only [bind, Except.bind, pure, Except.pure] at h
    split at h
    · next hglobal =>
      cases h
      exact .inl ⟨hglobal, rfl⟩
    · next hglobal =>
      cases h
      refine .inr ⟨hglobal, _, ?_, rfl⟩
      split <;> rfl

/-- Installing a scope moves no marks. -/
theorem marks_useScope {g g' : Engine δ} {i : BufferId} {name : String}
    (h : g.useScope i name = .ok g') (j : BufferId) : g'.marks j = g.marks j := by
  obtain ⟨s, -, ⟨-, rfl⟩ | ⟨-, scopes, rfl, -⟩⟩ := useScope_cases h
  · rfl
  · rw [marks_setState]
    split
    · next hj => rw [hj, marks]
    · rfl

/-- Moves point to the next mark, if there is one. -/
def forwardMark (g : Engine δ) (b : Buffer) : Buffer × Option Nat :=
  match (g.marks b.id).forward b.point with
  | some p => (b.moveTo p, some p)
  | none => (b, none)

/-- Moves point to the previous mark, if there is one. -/
def backwardMark (g : Engine δ) (b : Buffer) : Buffer × Option Nat :=
  match (g.marks b.id).backward b.point with
  | some p => (b.moveTo p, some p)
  | none => (b, none)

end Engine

end TextTemplate
