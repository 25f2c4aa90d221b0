import TextTemplate.Engine.Complete
import TextTemplate.Proofs.Effects
import TextTemplate.Proofs.Tracking

/-!
# Text and marks in lockstep

A text changes by edits, and an engine keeps the marks of a buffer by moving them with edits and by
adding new ones.  `Lockstep b m steps c n` says that both are the same thing: the steps `steps` take
the marks `m` to `n`, and the edits among them, in their order, are those by which the text of the
buffer `b` became that of `c` and by which its own mark moved.

Each edit of a buffer is in lockstep with the edits that are reported for it.  From there it goes by
composition to effects, expansions and completions, also those that fail.
-/

namespace TextTemplate

/-! ## Texts -/

/-- An edit turns a text into another one.  The bounds of a deletion may be in either order and lie
beyond the text. -/
inductive Edit.Turns : Edit → List Char → List Char → Prop
  | insert {s : List Char} {p : Nat} (hp : p ≤ s.length) (u : List Char) :
      Turns (.insert p u.length) s (s.take p ++ u ++ s.drop p)
  | delete (s : List Char) (p q : Nat) :
      Turns (.delete p q) s (s.take (min p q) ++ s.drop (max p q))

/-- Some edits in order turn a text into another one. -/
inductive EditedBy : List Edit → List Char → List Char → Prop
  | nil (s : List Char) : EditedBy [] s s
  | cons {e : Edit} {es : List Edit} {s t u : List Char} (he : e.Turns s t) (hes : EditedBy es t u) :
      EditedBy (e :: es) s u

namespace EditedBy

variable {es fs : List Edit} {s t u : List Char}

theorem single {e : Edit} (h : e.Turns s t) : EditedBy [e] s t := .cons h (.nil t)

theorem append (h : EditedBy es s t) (h' : EditedBy fs t u) : EditedBy (es ++ fs) s u := by
  induction h with
  | nil s => exact h'
  | cons he _ ih => exact .cons he (ih h')

end EditedBy

namespace Buffer

/-- One buffer becomes another one by edits that its text and its mark follow. -/
structure Edited (b : Buffer) (es : List Edit) (c : Buffer) : Prop extends b.Follows es c where
  text : EditedBy es b.text c.text

namespace Edited

variable {b c : Buffer} {es : List Edit}

/-- Nothing happens to the text. -/
theorem nothing (h : b.Follows [] c) (htext : c.text = b.text) : b.Edited [] c where
  toFollows := h
  text := by
    rw [htext]
    exact .nil _

theorem unlessQuiet (h : b.Edited es c) (quiet : Bool) :
    b.Edited es (if quiet then c else c.ding) where
  toFollows := h.toFollows.unlessQuiet quiet
  text := by
    cases quiet
    · exact h.text
    · exact h.text

end Edited

variable {b : Buffer}

theorem edited_insertText (hb : b.InBounds) (s : List Char) :
    b.Edited [.insert b.point s.length] (b.insertText s) where
  toFollows := follows_insertText hb s
  text := by
    rw [text_insertText]
    exact .single (.insert hb.point s)

theorem edited_deleteRange (hb : b.InBounds) (p q : Nat) :
    b.Edited [.delete p q] (b.deleteRange p q) where
  toFollows := follows_deleteRange hb p q
  text := by
    rw [text_deleteRange]
    exact .single (.delete b.text p q)

theorem editedBy_removeIndent (b : Buffer) (start n : Nat) :
    EditedBy (b.removeIndent start n).2 b.text (b.removeIndent start n).1.text := by
  unfold removeIndent
  split
  · exact .nil _
  · have h := Edit.Turns.delete b.text start (start + n)
    rw [Nat.min_eq_left (Nat.le_add_right ..), Nat.max_eq_right (Nat.le_add_right ..)] at h
    exact .single h

theorem editedBy_insertIndent {start : Nat} (hstart : start ≤ b.length) (n : Nat) :
    EditedBy (b.insertIndent start n).2 b.text (b.insertIndent start n).1.text := by
  unfold insertIndent
  split
  · exact .nil _
  · have h := Edit.Turns.insert hstart (List.replicate n ' ')
    rw [List.length_replicate] at h
    exact .single h

theorem editedBy_reindentLine (b : Buffer) :
    EditedBy b.reindentLine.2 b.text b.reindentLine.1.text := by
  simp only [reindentLine]
  split
  · exact .nil _
  · have hline := b.line_start_add_indentOf_le
    have hstart : b.line.start ≤
        (b.removeIndent b.line.start (Text.indentOf b.line.content)).1.length := by
      rw [length_removeIndent hline]
      omega
    exact (b.editedBy_removeIndent _ _).append (editedBy_insertIndent hstart _)

theorem edited_reindentLine (hb : b.InBounds) : b.Edited b.reindentLine.2 b.reindentLine.1 where
  toFollows := follows_reindentLine hb
  text := b.editedBy_reindentLine

theorem edited_ask (hb : b.InBounds) (prompt : String) : b.Edited [] (b.ask prompt).1 :=
  .nothing (follows_ask hb prompt) (b.text_ask prompt)

end Buffer

/-! ## Marks -/

/-- What an engine does to the marks of a buffer. -/
inductive MarkStep where
  /-- All marks move with an edit. -/
  | move (e : Edit)
  /-- There is a new mark. -/
  | add (p : Nat)
deriving DecidableEq, Repr

/-- The edits among some steps. -/
def MarkStep.edits (steps : List MarkStep) : List Edit :=
  steps.filterMap fun
    | move e => some e
    | add _ => none

namespace Marks

/-- The marks after a step. -/
def step (m : Marks) : MarkStep → Marks
  | .move e => m.apply e
  | .add p => m.add p

/-- The marks after some steps in order. -/
def replay (steps : List MarkStep) (m : Marks) : Marks := steps.foldl step m

theorem replay_append (steps steps' : List MarkStep) (m : Marks) :
    m.replay (steps ++ steps') = (m.replay steps).replay steps' := List.foldl_append

theorem replay_map_move (es : List Edit) (m : Marks) :
    m.replay (es.map .move) = m.applyAll es := List.foldl_map

end Marks

@[simp] theorem MarkStep.edits_append (steps steps' : List MarkStep) :
    edits (steps ++ steps') = edits steps ++ edits steps' := List.filterMap_append

@[simp] theorem MarkStep.edits_map_move (es : List Edit) : edits (es.map .move) = es := by
  induction es with
  | nil => rfl
  | cons e es ih => exact congrArg (e :: ·) ih

/-! ## Lockstep -/

/-- A buffer becomes another one by the edits among some steps, and these steps take its marks to the
marks of the other one. -/
structure Lockstep (b : Buffer) (m : Marks) (steps : List MarkStep) (c : Buffer) (n : Marks) :
    Prop extends Tracked b m (MarkStep.edits steps) c n where
  text : EditedBy (MarkStep.edits steps) b.text c.text
  marks : n = m.replay steps

theorem Buffer.Edited.lockstep {b c : Buffer} {es : List Edit} (h : b.Edited es c) (m : Marks) :
    Lockstep b m (es.map .move) c (m.applyAll es) where
  toTracked := by
    rw [MarkStep.edits_map_move]
    exact h.toFollows.tracked m
  text := by
    rw [MarkStep.edits_map_move]
    exact h.text
  marks := (m.replay_map_move es).symm

namespace Lockstep

variable {b c d : Buffer} {m n k : Marks} {steps steps' : List MarkStep}

theorem refl (h : b.InBounds) (m : Marks) : Lockstep b m [] b m :=
  (Buffer.Edited.nothing (.refl h) rfl).lockstep m

theorem trans (h : Lockstep b m steps c n) (h' : Lockstep c n steps' d k) :
    Lockstep b m (steps ++ steps') d k where
  toTracked := by
    rw [MarkStep.edits_append]
    exact h.toTracked.trans h'.toTracked
  text := by
    rw [MarkStep.edits_append]
    exact h.text.append h'.text
  marks := by rw [h'.marks, h.marks, Marks.replay_append]

theorem add (h : Lockstep b m steps c n) {p : Nat} (hp : p ≤ c.length) :
    Lockstep b m (steps ++ [.add p]) c (n.add p) := by
  have hedits : MarkStep.edits (steps ++ [.add p]) = MarkStep.edits steps := by
    rw [MarkStep.edits_append]
    exact List.append_nil _
  exact {
    toTracked := by
      rw [hedits]
      exact h.toTracked.add hp
    text := by
      rw [hedits]
      exact h.text
    marks := by
      rw [h.marks, Marks.replay_append]
      rfl }

/-- Point may go anywhere in the end. -/
theorem moveTo (h : Lockstep b m steps c n) (p : Nat) : Lockstep b m steps (c.moveTo p) n where
  toTracked := h.toTracked.moveTo p
  text := h.text
  marks := h.marks

/-- A mark of the buffer that is among the marks stays among them. -/
theorem own_mark (h : Lockstep b m steps c n) {p : Nat} (hp : b.mark = some p)
    (hmem : p ∈ m.positions) : ∃ q, c.mark = some q ∧ q ∈ n.positions := by
  refine ⟨Edit.adjustAll (MarkStep.edits steps) p, ?_, h.kept p hmem⟩
  rw [h.follows.mark, hp, Option.map_some]

end Lockstep

/-! ## Expansions -/

namespace Work

/-- All positions of a work follow some edits in order. -/
theorem foldl_track (w : Work) (es : List Edit) :
    es.foldl track w =
      { w with
        marks := w.marks.applyAll es
        origin := Edit.adjustAll es w.origin
        regionEnd := w.regionEnd.map (Edit.adjustAll es) } := by
  induction es generalizing w with
  | nil =>
    have hend : w.regionEnd.map (Edit.adjustAll []) = w.regionEnd := Option.map_id_apply ..
    rw [hend]
    rfl
  | cons e es ih =>
    have hend : (w.track e).regionEnd.map (Edit.adjustAll es) =
        w.regionEnd.map (Edit.adjustAll (e :: es)) := Option.map_map ..
    rw [List.foldl_cons, ih, hend]
    rfl

/-- An indentation moves all positions of a work with the edits of its buffer. -/
theorem reindent_eq (w : Work) :
    w.reindent =
      { w with
        buffer := w.buffer.reindentLine.1
        marks := w.marks.applyAll w.buffer.reindentLine.2
        origin := Edit.adjustAll w.buffer.reindentLine.2 w.origin
        regionEnd := w.regionEnd.map (Edit.adjustAll w.buffer.reindentLine.2) } :=
  foldl_track ..

/-- An effect leaves the buffer of a work and its marks in lockstep. -/
theorem lockstep_perform {w : Work} (hw : w.buffer.InBounds) (f : Effect) :
    ∃ steps, Lockstep w.buffer w.marks steps (w.perform f).buffer (w.perform f).marks := by
  cases f with
  | insert s =>
    have h := (Buffer.edited_insertText hw s).lockstep w.marks
    rw [perform, buffer_insert, marks_insert]
    exact ⟨_, h⟩
  | mark => exact ⟨_, (Lockstep.refl hw w.marks).add hw.point⟩
  | exchange =>
    refine ⟨[], ?_⟩
    simp only [perform, exchange]
    split
    · next p _ => exact (Lockstep.refl hw w.marks).moveTo p
    · exact .refl hw w.marks
  | reindent =>
    rw [perform, reindent_eq]
    exact ⟨_, (Buffer.edited_reindentLine hw).lockstep w.marks⟩
  | ask prompt => exact ⟨_, (Buffer.edited_ask hw prompt).lockstep w.marks⟩
  | keep name a => exact ⟨_, .refl hw w.marks⟩

theorem lockstep_performAll {w : Work} (hw : w.buffer.InBounds) (fs : List Effect) :
    ∃ steps, Lockstep w.buffer w.marks steps (w.performAll fs).buffer (w.performAll fs).marks := by
  refine performAll_induction
    (P := fun v => ∃ steps, Lockstep w.buffer w.marks steps v.buffer v.marks) ?_
    ⟨[], .refl hw w.marks⟩
  rintro f - v ⟨steps, h⟩
  obtain ⟨steps', h'⟩ := lockstep_perform (h.inBounds hw) f
  exact ⟨steps ++ steps', h.trans h'⟩

end Work

namespace Engine

variable {δ : Type}

/-- The start of an expansion is marked. -/
theorem lockstep_startWork (g : Engine δ) {b c : Buffer} (hb : b.InBounds) {onRegion : Bool}
    {regionEnd : Option Nat} (h : startOfRegion b onRegion = .ok (c, regionEnd)) :
    ∃ steps, Lockstep b (g.marks b.id) steps c (g.startWork c regionEnd).marks := by
  rcases startOfRegion_cases h with ⟨-, rfl, -⟩ | ⟨p, q, -, -, rfl, -⟩
  · exact ⟨_, (Lockstep.refl hb _).add hb.point⟩
  · exact ⟨_, ((Lockstep.refl hb _).moveTo _).add (Nat.min_le_right ..)⟩

/-- Finishing an expansion marks its end and moves point. -/
theorem lockstep_finish (g : Engine δ) {b : Buffer} {m : Marks} {steps : List MarkStep} {w : Work}
    (h : Lockstep b m steps w.buffer w.marks) (err : Option Error) :
    let o := g.finish (w, err)
    ∃ steps, Lockstep b m steps o.buffer (o.engine.marks b.id) := by
  intro o
  rw [← h.follows.id]
  cases err with
  | some e =>
    rw [show o.engine.marks w.buffer.id = w.marks from g.marks_finish_error w e]
    exact ⟨_, h⟩
  | none =>
    rw [show o.engine.marks w.buffer.id = w.markPoint.marks from g.marks_finish_ok w]
    exact ⟨_, (h.add h.follows.point).moveTo _⟩

variable [Deferral δ]

/-- An expansion leaves a buffer and its marks in lockstep, also when it fails. -/
theorem lockstep_insertTemplate (g : Engine δ) {b : Buffer} (hb : b.InBounds) (t : Template δ)
    (onRegion : Bool) :
    let o := g.insertTemplate b t onRegion
    ∃ steps, Lockstep b (g.marks b.id) steps o.buffer (o.engine.marks b.id) := by
  intro o
  cases hstart : startOfRegion b onRegion with
  | error e =>
    have ho : o = ⟨g, b, .error e⟩ := by simp only [o, insertTemplate, hstart]
    rw [ho]
    exact ⟨[], .refl hb _⟩
  | ok p =>
    obtain ⟨c, regionEnd⟩ := p
    obtain ⟨err, hfinish⟩ := g.insertTemplate_eq_finish t hstart
    obtain ⟨steps, hwork⟩ := g.lockstep_startWork hb hstart
    obtain ⟨steps', hrun⟩ := Work.lockstep_performAll (w := g.startWork c regionEnd)
      (hwork.inBounds hb) (g.effects b t onRegion)
    rw [show o = _ from hfinish]
    exact g.lockstep_finish (hwork.trans hrun) err

theorem lockstep_insertNamed (g : Engine δ) {b : Buffer} (hb : b.InBounds) (name : String)
    (onRegion : Bool) :
    let o := g.insertNamed b name onRegion
    ∃ steps, Lockstep b (g.marks b.id) steps o.buffer (o.engine.marks b.id) := by
  intro o
  cases h : g.lookup name with
  | error e =>
    have ho : o = ⟨g, b, .error e⟩ := by simp only [o, insertNamed, h]
    rw [ho]
    exact ⟨[], .refl hb _⟩
  | ok t =>
    have ho : o = g.insertTemplate b t onRegion := by simp only [o, insertNamed, h]
    rw [ho]
    exact g.lockstep_insertTemplate hb t onRegion

/-! ## Completions -/

omit [Deferral δ] in
/-- Removing a candidate is an edit, wherever a finder says that it starts. -/
theorem lockstep_deleteCandidate (g : Engine δ) {b : Buffer} (hb : b.InBounds) (found : Found) :
    let r := g.deleteCandidate b found
    ∃ steps, Lockstep b (g.marks b.id) steps r.2 (r.1.marks b.id) := by
  unfold deleteCandidate
  split
  · exact ⟨[], .refl hb _⟩
  · have h := (Buffer.edited_deleteRange hb found.start b.point).lockstep (g.marks b.id)
    simp only [marks_notifyEdit, if_true]
    exact ⟨_, h⟩

/-- An expansion in the place of a candidate. -/
theorem lockstep_replaceCandidate (g : Engine δ) {b : Buffer} (hb : b.InBounds) (found : Found)
    (t : Template δ) :
    let r := g.deleteCandidate b found
    let o := r.1.insertTemplate r.2 t false
    ∃ steps, Lockstep b (g.marks b.id) steps o.buffer (o.engine.marks b.id) := by
  intro r o
  obtain ⟨steps, hcut⟩ := g.lockstep_deleteCandidate hb found
  obtain ⟨steps', hins⟩ := r.1.lockstep_insertTemplate (hcut.inBounds hb) t false
  rw [show r.2.id = b.id from hcut.follows.id] at hins
  exact ⟨steps ++ steps', hcut.trans hins⟩

theorem lockstep_completeTag (g : Engine δ) {b : Buffer} (hb : b.InBounds) (silent : Bool) :
    let o := g.completeTag b silent
    ∃ steps, Lockstep b (g.marks b.id) steps o.buffer (o.engine.marks b.id) := by
  unfold completeTag
  split
  · have h := Buffer.Edited.nothing (Buffer.Follows.refl hb) rfl
    exact ⟨_, (h.unlessQuiet silent).lockstep _⟩
  · next e found _ => exact g.lockstep_replaceCandidate hb found e.template
  · next shared found _ =>
    obtain ⟨steps, hcut⟩ := g.lockstep_deleteCandidate hb found
    -- The insertion is reported with the point that is left by the removal.
    generalize g.deleteCandidate b found = r at hcut
    have hgrown := (Buffer.edited_insertText (hcut.inBounds hb) shared.toList).unlessQuiet
      (shared ≠ found.text || silent)
    have hmarks := hgrown.lockstep (r.1.marks b.id)
    simp only [marks_notifyEdit, hcut.follows.id, if_true]
    exact ⟨_, hcut.trans hmarks⟩

theorem lockstep_expandIfComplete (g : Engine δ) {b : Buffer} (hb : b.InBounds) :
    let o := g.expandIfComplete b
    ∃ steps, Lockstep b (g.marks b.id) steps o.buffer (o.engine.marks b.id) := by
  unfold expandIfComplete
  split
  · exact ⟨[], .refl hb _⟩
  · next e found _ => exact g.lockstep_replaceCandidate hb found e.template

end Engine

end TextTemplate
