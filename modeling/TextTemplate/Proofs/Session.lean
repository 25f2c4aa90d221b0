import TextTemplate.Engine.Complete
import TextTemplate.Proofs.Effects
import TextTemplate.Proofs.Growth

/-!
# Sessions

A session is an engine with the buffers of its host.  The host creates buffers, sends *requests* to
the engine and gives *commands*, which are about one buffer each.  Commands edit the buffer behind
the engine's back or report what they edit, so that one can say of a run which of its edits were
reported.

A command changes its own buffer and what the engine keeps for it, and nothing else
(`Command.changesOnly_perform`); unless it is about the installed scopes, it changes the marks alone
(`Command.remarks_perform`).  A request changes no buffer.  Unless it resets the engine, it adds to
it (`Request.grows_perform`) and leaves what the engine keeps for buffers
(`Request.buffers_perform`).
-/

namespace TextTemplate

/-! ## Requests and commands -/

/-- An edit that the host makes. -/
inductive HostEdit where
  /-- Characters appear at point. -/
  | insert (s : List Char)
  /-- The characters between two bounds disappear. -/
  | delete (p q : Nat)
  /-- The line of point is indented. -/
  | reindent
deriving DecidableEq, Repr

/-- The buffer after an edit of the host, and the edits to report for it.  A deletion is reported as
the host asked for it and not as it was cut down to the text. -/
def HostEdit.perform (b : Buffer) : HostEdit → Buffer × List Edit
  | insert s => (b.insertText s, [.insert b.point s.length])
  | delete p q => (b.deleteRange p q, [.delete p q])
  | reindent => b.reindentLine

/-- What the host asks of an engine, for all its buffers. -/
inductive Request (δ : Type) where
  | defineTemplate (name : String) (elements : List (Element δ)) (tag scope : Option String)
  | addTag (tag : String) (t : Template δ) (scope : Option String)
  | defineScope (name : String) (finder : Finder)
  | install (l : Library)
  | addFilter (f : String → String)
  | addHandler (h : String → Option (Element δ))
  | configure (s : Settings)
  | reset

/-- What the host does with one buffer. -/
inductive Command (δ : Type) where
  | insertTemplate (t : Template δ) (onRegion : Bool)
  | insertNamed (name : String) (onRegion : Bool)
  | completeTag (silent : Bool)
  | expandIfComplete
  | forwardMark
  | backwardMark
  | useScope (name : String)
  | clearMarks
  | forget
  /-- An edit that the engine is not told of. -/
  | edit (e : HostEdit)
  /-- An edit that is reported. -/
  | report (e : HostEdit)
  /-- A report without an edit. -/
  | notifyEdit (e : Edit)
  | moveTo (p : Nat)
  | setMark (p : Option Nat)
  | ask (prompt : String)
  | ding

/-- What a command answers. -/
inductive Reply where
  | done
  | expansion (e : Expansion)
  | completion (c : Completion)
  | expanded (b : Bool)
  | position (p : Option Nat)
  | answer (s : Option String)
  | edits (es : List Edit)
deriving DecidableEq, Repr

namespace Engine

variable {δ : Type}

/-- Moves the marks of a buffer with some edits in order. -/
def notifyAll (g : Engine δ) (id : BufferId) (es : List Edit) : Engine δ :=
  es.foldl (fun g e => g.notifyEdit id e) g

end Engine

/-- An outcome with another answer. -/
def Outcome.map {δ α β : Type} (f : α → β) (o : Outcome δ α) : Outcome δ β :=
  ⟨o.engine, o.buffer, o.result.map f⟩

/-- The engine after a request.  A request that fails may have done a part of its work. -/
def Request.perform {δ : Type} (g : Engine δ) : Request δ → Engine δ
  | defineTemplate name elements tag scope => (g.defineTemplate name elements tag scope).1
  | addTag tag t scope => ((g.addTag tag t scope).map Prod.fst).toOption.getD g
  | defineScope name finder => (g.defineScope name finder).toOption.getD g
  | install l => (g.install l).1
  | addFilter f => { g with filters := g.filters ++ [f] }
  | addHandler h => { g with handlers := g.handlers ++ [h] }
  | configure settings => { g with settings }
  | reset => g.reset

/-- The engine and the buffer after a command, with its answer. -/
def Command.perform {δ : Type} [Deferral δ] (g : Engine δ) (b : Buffer) :
    Command δ → Outcome δ Reply
  | insertTemplate t onRegion => (g.insertTemplate b t onRegion).map .expansion
  | insertNamed name onRegion => (g.insertNamed b name onRegion).map .expansion
  | completeTag silent => (g.completeTag b silent).map .completion
  | expandIfComplete => (g.expandIfComplete b).map .expanded
  | forwardMark => ⟨g, (g.forwardMark b).1, .ok (.position (g.forwardMark b).2)⟩
  | backwardMark => ⟨g, (g.backwardMark b).1, .ok (.position (g.backwardMark b).2)⟩
  | useScope name =>
    match g.useScope b.id name with
    | .ok g => ⟨g, b, .ok .done⟩
    | .error e => ⟨g, b, .error e⟩
  | clearMarks => ⟨g.clearMarks b.id, b, .ok .done⟩
  | forget => ⟨g.forget b.id, b, .ok .done⟩
  | edit e => ⟨g, (e.perform b).1, .ok (.edits (e.perform b).2)⟩
  | report e =>
    ⟨g.notifyAll b.id (e.perform b).2, (e.perform b).1, .ok (.edits (e.perform b).2)⟩
  | notifyEdit e => ⟨g.notifyEdit b.id e, b, .ok .done⟩
  | moveTo p => ⟨g, b.moveTo p, .ok .done⟩
  | setMark p => ⟨g, b.setMark p, .ok .done⟩
  | ask prompt => ⟨g, (b.ask prompt).1, .ok (.answer (b.ask prompt).2)⟩
  | ding => ⟨g, b.ding, .ok .done⟩

/-! ## Runs -/

/-- An engine and the buffers of its host. -/
structure Session (δ : Type) where
  engine : Engine δ
  buffers : Table BufferId Buffer := {}

/-- One thing that the host does. -/
inductive Action (δ : Type) where
  /-- Creates a buffer, unless its number is taken. -/
  | create (id : BufferId) (text : List Char) (indentWidth : Nat) (answers : List String)
      (prompter : Option Prompter)
  | request (r : Request δ)
  /-- Gives a command to a buffer, if it is there. -/
  | command (id : BufferId) (c : Command δ)

namespace Session

variable {δ : Type}

/-- The session at its start. -/
def start (settings : Settings) : Session δ := { engine := { settings } }

variable [Deferral δ]

/-- The session after an action. -/
def step (s : Session δ) : Action δ → Session δ
  | .create id text indentWidth answers prompter =>
    match s.buffers.get? id with
    | some _ => s
    | none =>
      { s with buffers := s.buffers.insert id { id, text, indentWidth, answers, prompter } }
  | .request r => { s with engine := r.perform s.engine }
  | .command id c =>
    match s.buffers.get? id with
    | some b =>
      let o := c.perform s.engine b
      ⟨o.engine, s.buffers.insert id o.buffer⟩
    | none => s

/-- All that an action can do: nothing, since a number is taken or not there, or it adds a new buffer,
carries out a request, or carries out a command to a buffer. -/
theorem step_cases (s : Session δ) (a : Action δ) :
    s.step a = s ∨
    (∃ b, s.buffers.get? b.id = none ∧ b.point = 0 ∧ b.mark = none ∧
      s.step a = { s with buffers := s.buffers.insert b.id b }) ∨
    (∃ r, a = .request r ∧ s.step a = { s with engine := r.perform s.engine }) ∨
    ∃ id c b, a = .command id c ∧ s.buffers.get? id = some b ∧ s.step a =
      ⟨(c.perform s.engine b).engine, s.buffers.insert id (c.perform s.engine b).buffer⟩ := by
  cases a with
  | create id text indentWidth answers prompter =>
    cases hget : s.buffers.get? id with
    | some b => exact .inl (by simp only [step, hget])
    | none =>
      refine .inr (.inl ⟨{ id, text, indentWidth, answers, prompter }, hget, rfl, rfl, ?_⟩)
      simp only [step, hget]
  | request r => exact .inr (.inr (.inl ⟨r, rfl, rfl⟩))
  | command id c =>
    cases hget : s.buffers.get? id with
    | none => exact .inl (by simp only [step, hget])
    | some b => exact .inr (.inr (.inr ⟨id, c, b, rfl, hget, by simp only [step, hget]⟩))

/-- The session after some actions in order. -/
def run (s : Session δ) (as : List (Action δ)) : Session δ := as.foldl step s

/-- What each action of a list keeps, the list keeps. -/
theorem run_induction {P : Session δ → Prop} {as : List (Action δ)}
    (step : ∀ a ∈ as, ∀ s, P s → P (s.step a)) {s : Session δ} (h : P s) : P (s.run as) := by
  induction as generalizing s with
  | nil => exact h
  | cons a as ih =>
    exact ih (fun c hc => step c (List.mem_cons_of_mem a hc)) (step a List.mem_cons_self s h)

end Session

/-- What a command edits is told to the engine, and the engine is told of no other edits. -/
def Command.Reported {δ : Type} : Command δ → Prop
  | edit _ | notifyEdit _ => False
  | _ => True

/-- An action is no command, or it is one whose edits are reported. -/
def Action.Reported {δ : Type} : Action δ → Prop
  | command _ c => c.Reported
  | _ => True

/-- An action is no command to a buffer, or it is one whose edits are reported. -/
def Action.ReportedAt {δ : Type} (id : BufferId) : Action δ → Prop
  | command i c => i = id → c.Reported
  | _ => True

theorem Action.Reported.reportedAt {δ : Type} {a : Action δ} (h : a.Reported) (id : BufferId) :
    a.ReportedAt id := by
  cases a with
  | command i c => exact fun _ => h
  | create | request => trivial

/-! ## What commands change -/

namespace Engine

variable {δ : Type}

/-- Two engines differ at most in what they keep for one buffer. -/
structure ChangesOnly (id : BufferId) (g g' : Engine δ) : Prop where
  others : ∀ i, i ≠ id → g'.buffers.get? i = g.buffers.get? i
  rest : ∃ t, g' = { g with buffers := t }

namespace ChangesOnly

variable {id : BufferId} {g g' g'' : Engine δ}

theorem refl (id : BufferId) (g : Engine δ) : ChangesOnly id g g := ⟨fun _ _ => rfl, _, rfl⟩

theorem trans (h : ChangesOnly id g g') (h' : ChangesOnly id g' g'') : ChangesOnly id g g'' where
  others i hi := (h'.others i hi).trans (h.others i hi)
  rest := by
    obtain ⟨t, rfl⟩ := h.rest
    obtain ⟨t', rfl⟩ := h'.rest
    exact ⟨t', rfl⟩

theorem stateOf_eq (h : ChangesOnly id g g') {i : BufferId} (hi : i ≠ id) :
    g'.stateOf i = g.stateOf i := by
  rw [stateOf, h.others i hi, stateOf]

theorem marks_eq (h : ChangesOnly id g g') {i : BufferId} (hi : i ≠ id) :
    g'.marks i = g.marks i := by
  rw [marks, h.stateOf_eq hi, marks]

end ChangesOnly

/-- Two engines differ at most in the marks that they keep for one buffer. -/
structure Remarks (id : BufferId) (g g' : Engine δ) : Prop extends ChangesOnly id g g' where
  scopes : (g'.stateOf id).scopes = (g.stateOf id).scopes

namespace Remarks

variable {id : BufferId} {g g' g'' : Engine δ}

theorem refl (id : BufferId) (g : Engine δ) : Remarks id g g := ⟨.refl id g, rfl⟩

theorem trans (h : Remarks id g g') (h' : Remarks id g' g'') : Remarks id g g'' where
  toChangesOnly := h.toChangesOnly.trans h'.toChangesOnly
  scopes := h'.scopes.trans h.scopes

end Remarks

theorem changesOnly_setState (g : Engine δ) (id : BufferId) (s : BufferState) :
    ChangesOnly id g (g.setState id s) where
  others i hi := by rw [setState, Table.get?_insert, if_neg hi]
  rest := ⟨_, rfl⟩

theorem remarks_setState (g : Engine δ) (id : BufferId) {s : BufferState}
    (hs : s.scopes = (g.stateOf id).scopes) : Remarks id g (g.setState id s) where
  toChangesOnly := g.changesOnly_setState id s
  scopes := by rw [stateOf_setState, if_pos rfl, hs]

theorem remarks_modifyState (g : Engine δ) (id : BufferId) {f : BufferState → BufferState}
    (hf : ∀ s, (f s).scopes = s.scopes) : Remarks id g (g.modifyState id f) := by
  unfold modifyState
  split
  · next s hs =>
    refine g.remarks_setState id ?_
    rw [hf, stateOf, hs, Option.getD_some]
  · exact .refl id g

theorem remarks_clearMarks (g : Engine δ) (id : BufferId) : Remarks id g (g.clearMarks id) :=
  g.remarks_modifyState id fun _ => rfl

theorem remarks_notifyEdit (g : Engine δ) (id : BufferId) (e : Edit) :
    Remarks id g (g.notifyEdit id e) := g.remarks_modifyState id fun _ => rfl

theorem remarks_notifyAll (g : Engine δ) (id : BufferId) (es : List Edit) :
    Remarks id g (g.notifyAll id es) := by
  induction es generalizing g with
  | nil => exact .refl id g
  | cons e es ih => exact (g.remarks_notifyEdit id e).trans (ih (g.notifyEdit id e))

theorem changesOnly_forget (g : Engine δ) (id : BufferId) : ChangesOnly id g (g.forget id) where
  others i hi := by rw [forget, Table.get?_erase, if_neg hi]
  rest := ⟨_, rfl⟩

theorem changesOnly_useScope {g g' : Engine δ} {id : BufferId} {name : String}
    (h : g.useScope id name = .ok g') : ChangesOnly id g g' := by
  obtain ⟨s, -, ⟨-, rfl⟩ | ⟨-, scopes, rfl, -⟩⟩ := useScope_cases h
  · exact .refl id g'
  · exact g.changesOnly_setState id _

/-- Finishing an expansion keeps the marks of its buffer. -/
theorem remarks_finish (g : Engine δ) (w : Work) (err : Option Error) :
    Remarks w.buffer.id g (g.finish (w, err)).engine := by
  cases err <;> exact g.remarks_setState w.buffer.id rfl

theorem id_finish (g : Engine δ) (w : Work) (err : Option Error) :
    (g.finish (w, err)).buffer.id = w.buffer.id := by
  cases err <;> rfl

theorem id_deleteCandidate (g : Engine δ) (b : Buffer) (found : Found) :
    (g.deleteCandidate b found).2.id = b.id := by
  unfold deleteCandidate
  split
  · rfl
  · exact b.id_deleteRange _ _

/-- Removing a candidate reports the edit. -/
theorem remarks_deleteCandidate (g : Engine δ) (b : Buffer) (found : Found) :
    Remarks b.id g (g.deleteCandidate b found).1 := by
  unfold deleteCandidate
  split
  · exact .refl b.id g
  · exact g.remarks_notifyEdit b.id _

variable [Deferral δ]

theorem id_insertTemplate (g : Engine δ) (b : Buffer) (t : Template δ) (onRegion : Bool) :
    (g.insertTemplate b t onRegion).buffer.id = b.id := by
  cases hstart : startOfRegion b onRegion with
  | error e => simp only [insertTemplate, hstart]
  | ok p =>
    obtain ⟨c, regionEnd⟩ := p
    obtain ⟨err, hfinish⟩ := g.insertTemplate_eq_finish t hstart
    rw [hfinish, id_finish, Work.id_performAll]
    exact id_startOfRegion hstart

theorem remarks_insertTemplate (g : Engine δ) (b : Buffer) (t : Template δ) (onRegion : Bool) :
    Remarks b.id g (g.insertTemplate b t onRegion).engine := by
  cases hstart : startOfRegion b onRegion with
  | error e =>
    simp only [insertTemplate, hstart]
    exact .refl b.id g
  | ok p =>
    obtain ⟨c, regionEnd⟩ := p
    obtain ⟨err, hfinish⟩ := g.insertTemplate_eq_finish t hstart
    have h := g.remarks_finish
      ((g.startWork c regionEnd).performAll (g.effects b t onRegion)) err
    rw [Work.id_performAll, show (g.startWork c regionEnd).buffer.id = b.id from
      id_startOfRegion hstart] at h
    rw [hfinish]
    exact h

theorem id_insertNamed (g : Engine δ) (b : Buffer) (name : String) (onRegion : Bool) :
    (g.insertNamed b name onRegion).buffer.id = b.id := by
  unfold insertNamed
  split
  · exact g.id_insertTemplate b _ onRegion
  · rfl

theorem remarks_insertNamed (g : Engine δ) (b : Buffer) (name : String) (onRegion : Bool) :
    Remarks b.id g (g.insertNamed b name onRegion).engine := by
  unfold insertNamed
  split
  · exact g.remarks_insertTemplate b _ onRegion
  · exact .refl b.id g

/-- An expansion in the place of a candidate. -/
theorem id_replaceCandidate (g : Engine δ) (b : Buffer) (found : Found) (t : Template δ) :
    let r := g.deleteCandidate b found
    (r.1.insertTemplate r.2 t false).buffer.id = b.id := by
  intro r
  exact (r.1.id_insertTemplate r.2 t false).trans (g.id_deleteCandidate b found)

theorem remarks_replaceCandidate (g : Engine δ) (b : Buffer) (found : Found) (t : Template δ) :
    let r := g.deleteCandidate b found
    Remarks b.id g (r.1.insertTemplate r.2 t false).engine := by
  intro r
  have hins := r.1.remarks_insertTemplate r.2 t false
  rw [show r.2.id = b.id from g.id_deleteCandidate b found] at hins
  exact (g.remarks_deleteCandidate b found).trans hins

theorem id_completeTag (g : Engine δ) (b : Buffer) (silent : Bool) :
    (g.completeTag b silent).buffer.id = b.id := by
  unfold completeTag
  split
  · cases silent <;> rfl
  · next e found _ => exact g.id_replaceCandidate b found e.template
  · next shared found _ =>
    have hgrown : ((g.deleteCandidate b found).2.insertText shared.toList).id = b.id := by
      rw [Buffer.id_insertText, id_deleteCandidate]
    dsimp only
    split <;> exact hgrown

theorem remarks_completeTag (g : Engine δ) (b : Buffer) (silent : Bool) :
    Remarks b.id g (g.completeTag b silent).engine := by
  unfold completeTag
  split
  · exact .refl b.id g
  · next e found _ => exact g.remarks_replaceCandidate b found e.template
  · next shared found _ =>
    have hid := g.id_deleteCandidate b found
    have hins := (g.deleteCandidate b found).1.remarks_notifyEdit
      (g.deleteCandidate b found).2.id
      (.insert (g.deleteCandidate b found).2.point shared.toList.length)
    rw [hid] at hins
    exact (g.remarks_deleteCandidate b found).trans (hid ▸ hins)

theorem id_expandIfComplete (g : Engine δ) (b : Buffer) :
    (g.expandIfComplete b).buffer.id = b.id := by
  unfold expandIfComplete
  split
  · rfl
  · next e found _ => exact g.id_replaceCandidate b found e.template

theorem remarks_expandIfComplete (g : Engine δ) (b : Buffer) :
    Remarks b.id g (g.expandIfComplete b).engine := by
  unfold expandIfComplete
  split
  · exact .refl b.id g
  · next e found _ => exact g.remarks_replaceCandidate b found e.template

end Engine

/-- A command neither installs scopes nor forgets its buffer. -/
def Command.KeepsScopes {δ : Type} : Command δ → Prop
  | useScope _ | forget => False
  | _ => True

section

variable {δ : Type} [Deferral δ] (g : Engine δ) (b : Buffer)

/-- Such a command changes the marks of its buffer, and nothing else in the engine. -/
theorem Command.remarks_perform {c : Command δ} (hc : c.KeepsScopes) :
    g.Remarks b.id (c.perform g b).engine := by
  cases c with
  | insertTemplate t onRegion => exact g.remarks_insertTemplate b t onRegion
  | insertNamed name onRegion => exact g.remarks_insertNamed b name onRegion
  | completeTag silent => exact g.remarks_completeTag b silent
  | expandIfComplete => exact g.remarks_expandIfComplete b
  | clearMarks => exact g.remarks_clearMarks b.id
  | report e => exact g.remarks_notifyAll b.id _
  | notifyEdit e => exact g.remarks_notifyEdit b.id e
  | forwardMark | backwardMark | edit | moveTo | setMark | ask | ding => exact .refl b.id g
  | useScope | forget => exact hc.elim

/-- A command changes what the engine keeps for its buffer, and nothing else in the engine. -/
theorem Command.changesOnly_perform (c : Command δ) :
    g.ChangesOnly b.id (c.perform g b).engine := by
  have hmarks {c : Command δ} (hc : c.KeepsScopes) : g.ChangesOnly b.id (c.perform g b).engine :=
    (Command.remarks_perform g b hc).toChangesOnly
  cases c with
  | useScope name =>
    simp only [perform]
    split
    · next g' h => exact Engine.changesOnly_useScope h
    · exact .refl b.id g
  | forget => exact g.changesOnly_forget b.id
  | _ => exact hmarks trivial

theorem HostEdit.id_perform (e : HostEdit) : (e.perform b).1.id = b.id := by
  cases e with
  | insert s => exact b.id_insertText s
  | delete p q => exact b.id_deleteRange p q
  | reindent => exact b.id_reindentLine

/-- A command keeps the number of its buffer. -/
theorem Command.id_perform (c : Command δ) : (c.perform g b).buffer.id = b.id := by
  cases c with
  | insertTemplate t onRegion => exact g.id_insertTemplate b t onRegion
  | insertNamed name onRegion => exact g.id_insertNamed b name onRegion
  | completeTag silent => exact g.id_completeTag b silent
  | expandIfComplete => exact g.id_expandIfComplete b
  | forwardMark =>
    simp only [perform, Engine.forwardMark]
    split <;> rfl
  | backwardMark =>
    simp only [perform, Engine.backwardMark]
    split <;> rfl
  | useScope name =>
    simp only [perform]
    split <;> rfl
  | edit e | report e => exact e.id_perform b
  | ask prompt => exact b.id_ask prompt
  | clearMarks | forget | notifyEdit | moveTo | setMark | ding => rfl

end

/-- Every buffer of a session is under its own number. -/
def Session.Keyed {δ : Type} (s : Session δ) : Prop :=
  ∀ i b, s.buffers.get? i = some b → b.id = i

namespace Session

variable {δ : Type}

theorem keyed_start (settings : Settings) : (start settings : Session δ).Keyed := by
  intro i b hb
  cases hb

theorem Keyed.insert {s : Session δ} (h : s.Keyed) (g : Engine δ) (b : Buffer) :
    Keyed ⟨g, s.buffers.insert b.id b⟩ := by
  intro i c hc
  rcases Table.get?_insert_cases hc with ⟨rfl, rfl⟩ | ⟨-, hc⟩
  · rfl
  · exact h i c hc

theorem Keyed.step [Deferral δ] {s : Session δ} (h : s.Keyed) (a : Action δ) :
    (s.step a).Keyed := by
  rcases s.step_cases a with
    hs | ⟨b, -, -, -, hs⟩ | ⟨r, rfl, hs⟩ | ⟨id, c, b, rfl, hb, hs⟩ <;> rw [hs]
  · exact h
  · exact h.insert s.engine b
  · exact h
  · obtain rfl := h id b hb
    have hinsert := h.insert (c.perform s.engine b).engine (c.perform s.engine b).buffer
    rwa [c.id_perform s.engine b] at hinsert

theorem keyed_run [Deferral δ] (settings : Settings) (as : List (Action δ)) :
    ((start settings).run as).Keyed :=
  run_induction (fun a _ _ h => h.step a) (keyed_start settings)

end Session

/-! ## What requests change -/

namespace Request

variable {δ : Type}

/-- The tags that a request asks for, if it is granted. -/
def registrations (g : Engine δ) : Request δ → List (Registration δ)
  | defineTemplate name elements tag scope => g.registrations name elements tag scope
  | addTag tag t scope =>
    match g.addTag tag t scope with
    | .ok _ => [⟨scope.getD Scope.globalName, tag, t⟩]
    | .error _ => []
  | install l => g.libraryRegistrations l
  | _ => []

/-- A request that is not a reset adds to the engine. -/
theorem grows_perform (g : Engine δ) {r : Request δ} (hr : r ≠ reset) :
    g.Grows (r.registrations g) (r.perform g) := by
  cases r with
  | defineTemplate name elements tag scope => exact g.grows_defineTemplate name elements tag scope
  | addTag tag t scope =>
    simp only [perform, registrations]
    cases h : g.addTag tag t scope with
    | error e => exact .refl g
    | ok r => exact Engine.grows_addTag h
  | defineScope name finder =>
    simp only [perform, registrations]
    cases h : g.defineScope name finder with
    | error e => exact .refl g
    | ok g' => exact Engine.grows_defineScope h
  | install l => exact g.grows_install l
  | addFilter | addHandler | configure => exact .hooks g _ _ _
  | reset => exact absurd rfl hr

/-- A request that is not a reset leaves what the engine keeps for buffers. -/
theorem buffers_perform (g : Engine δ) (r : Request δ) :
    (r.perform g).buffers = match r with
      | .reset => {}
      | _ => g.buffers := by
  have hother (hr : r ≠ reset) : (r.perform g).buffers = g.buffers := (grows_perform g hr).buffers
  cases r with
  | reset => rfl
  | _ => exact hother (by simp)

end Request

end TextTemplate
