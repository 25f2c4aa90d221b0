import TextTemplate.Proofs.Effects

/-!
# Works that expansions cannot tell apart

An element reads little of its work: point, the kept answers, the next answer to a prompt, and
whether its line is blank before or after point.  Two works that agree on these, and go on to do so
under some effects, make an element do the same that has no others: this is a `SimulationOn` these
effects, and `SimulationOn.run` says that it relates whole runs.  Where all effects keep the agreement
it is a `Simulation`.

The mark of the buffer is not among the things read, so buffers that differ in it alone are expanded
alike (`unmark_simulation`).
-/

namespace TextTemplate

namespace Work

variable {v w : Work} {p : Prompt}

/-- A prompt that gets the same answer has the same effects. -/
theorem askEffects_congr (h : (v.buffer.ask p.text).2 = (w.buffer.ask p.text).2) :
    v.askEffects p = w.askEffects p := by
  rw [askEffects, askEffects, h]

theorem ask_snd_congr (h : (v.buffer.ask p.text).2 = (w.buffer.ask p.text).2) :
    (v.ask p).2 = (w.ask p).2 := by
  cases hw : (w.buffer.ask p.text).2 with
  | none => rw [ask_of_none hw, ask_of_none (h.trans hw)]
  | some a => rw [ask_of_some hw, ask_of_some (h.trans hw)]

end Work

/-- A relation between works that elements cannot tell apart, and that some effects keep. -/
structure SimulationOn (P : Effect → Prop) (R : Work → Work → Prop) : Prop where
  context : ∀ {v w}, R v w → ∀ onRegion, v.context onRegion = w.context onRegion
  blankBefore : ∀ {v w}, R v w →
    Text.allBlank (v.buffer.slice v.buffer.lineBounds.1 v.buffer.point) =
      Text.allBlank (w.buffer.slice w.buffer.lineBounds.1 w.buffer.point)
  blankAfter : ∀ {v w}, R v w →
    Text.allBlank (v.buffer.slice v.buffer.point v.buffer.lineBounds.2) =
      Text.allBlank (w.buffer.slice w.buffer.point w.buffer.lineBounds.2)
  answer : ∀ {v w}, R v w → ∀ prompt, (v.buffer.ask prompt).2 = (w.buffer.ask prompt).2
  perform : ∀ {v w}, R v w → ∀ {f}, P f → R (v.perform f) (w.perform f)

namespace SimulationOn

open Element

variable {P : Effect → Prop} {R : Work → Work → Prop} {δ : Type} {v w : Work}

theorem performAll (h : SimulationOn P R) (hR : R v w) {fs : List Effect} (hfs : ∀ f ∈ fs, P f) :
    R (v.performAll fs) (w.performAll fs) := by
  induction fs generalizing v w with
  | nil => exact hR
  | cons f fs ih =>
    exact ih (h.perform hR (hfs f List.mem_cons_self)) fun g hg => hfs g (List.mem_cons_of_mem f hg)

theorem answers_eq (h : SimulationOn P R) (hR : R v w) : v.answers = w.answers :=
  congrArg EvalContext.answers (h.context hR false)

theorem askEffects_eq (h : SimulationOn P R) (hR : R v w) (p : Prompt) :
    v.askEffects p = w.askEffects p := Work.askEffects_congr (h.answer hR p.text)

theorem ask_snd_eq (h : SimulationOn P R) (hR : R v w) (p : Prompt) :
    (v.ask p).2 = (w.ask p).2 := Work.ask_snd_congr (h.answer hR p.text)

/-- If elements do the same on related works, lists of elements do. -/
theorem runAll (h : SimulationOn P R) {run : Element δ → Work → Work × Option Error}
    {effects : Element δ → Work → List Effect}
    (replay : ∀ e w, (run e w).1 = w.performAll (effects e w))
    (alike : ∀ e {v w}, R v w → (∀ f ∈ effects e w, P f) →
      (run e v).2 = (run e w).2 ∧ effects e v = effects e w)
    (es : List (Element δ)) (hR : R v w) (hP : ∀ f ∈ effectsAll run effects es w, P f) :
    (Element.runAll run es v).2 = (Element.runAll run es w).2 ∧
      effectsAll run effects es v = effectsAll run effects es w := by
  induction es generalizing v w with
  | nil => exact ⟨rfl, rfl⟩
  | cons e es ih =>
    simp only [effectsAll, List.forall_mem_append] at hP
    obtain ⟨hhead, htail⟩ := hP
    obtain ⟨herr, heff⟩ := alike e hR hhead
    have hnext : R (run e v).1 (run e w).1 := by
      rw [replay, replay, heff]
      exact h.performAll hR hhead
    simp only [Element.runAll, effectsAll, heff]
    rcases hv : run e v with ⟨v', _ | err⟩ <;> rcases hw : run e w with ⟨w', _ | err'⟩ <;>
      rw [hv, hw] at herr hnext
    · rw [hw] at htail
      obtain ⟨hsnd, hrest⟩ := ih hnext htail
      exact ⟨hsnd, congrArg (effects e w ++ ·) hrest⟩
    · cases herr
    · cases herr
    · exact ⟨herr, rfl⟩

variable [Deferral δ]

/-- On related works an element ends in the same way and has the same effects, if they are all of
those that keep the relation. -/
theorem run (h : SimulationOn P R) (r : Rules δ) (n : Nat) (e : Element δ) (hR : R v w)
    (hP : ∀ f ∈ effects r n e w, P f) :
    (Element.run r n e v).2 = (Element.run r n e w).2 ∧ effects r n e v = effects r n e w := by
  induction n generalizing e v w with
  | zero => exact ⟨rfl, rfl⟩
  | succ n ih =>
    have hall (es : List (Element δ)) :=
      h.runAll (run_fst r n) (fun e _ _ hR hP => ih e hR hP) es hR
    cases e with
    | text s => exact ⟨rfl, rfl⟩
    | point => exact ⟨rfl, rfl⟩
    | prompt p =>
      simp only [Element.run, effects]
      split
      · exact ⟨h.ask_snd_eq hR p, h.askEffects_eq hR p⟩
      · exact ⟨rfl, rfl⟩
    | regionPoint indent => exact ⟨rfl, rfl⟩
    | regionPrompt p indent =>
      simp only [Element.run, effects]
      split
      · exact ⟨h.ask_snd_eq hR p, h.askEffects_eq hR p⟩
      · exact ⟨rfl, rfl⟩
    | conditionalNewline =>
      simp only [Element.run, effects, Work.newlineEffects, h.blankBefore hR, true_and]
    | conditionalNewlineAfter =>
      simp only [Element.run, effects, Work.newlineEffects, h.blankAfter hR, true_and]
    | newline => exact ⟨rfl, rfl⟩
    | newlineIndent => exact ⟨rfl, rfl⟩
    | reindent => exact ⟨rfl, rfl⟩
    | saved name =>
      simp only [Element.run, effects, h.answers_eq hR, and_true]
      cases w.answers.lookup name <;> rfl
    | list es => exact hall es hP
    | template name es => exact hall es hP
    | symbol name =>
      simp only [Element.run, effects] at hP ⊢
      cases hresolve : r.resolve? name with
      | none => exact ⟨rfl, rfl⟩
      | some e =>
        rw [hresolve] at hP
        exact ih e hR hP
    | empty => exact ⟨rfl, rfl⟩
    | deferred code =>
      simp only [Element.run, effects, h.context hR] at hP ⊢
      exact ih _ hR hP

/-- On related works two expansions finish related works in the same way. -/
theorem insertTemplate (h : SimulationOn P R) (g : Engine δ) {b b' c c' : Buffer} (t : Template δ)
    {onRegion : Bool} {regionEnd regionEnd' : Option Nat}
    (hb : Engine.startOfRegion b onRegion = .ok (c, regionEnd))
    (hb' : Engine.startOfRegion b' onRegion = .ok (c', regionEnd'))
    (hR : R (g.startWork c regionEnd) (g.startWork c' regionEnd'))
    (hP : ∀ f ∈ g.effects b' t onRegion, P f) :
    ∃ v w err, R v w ∧ g.insertTemplate b t onRegion = g.finish (v, err) ∧
      g.insertTemplate b' t onRegion = g.finish (w, err) := by
  let run := Element.run (g.rules onRegion) (g.settings.maxDepth + 1)
  let v := Element.runAll run t.elements (g.startWork c regionEnd)
  let w := Element.runAll run t.elements (g.startWork c' regionEnd')
  have hreplay := run_fst (g.rules onRegion) (g.settings.maxDepth + 1)
  simp only [Engine.effects, hb'] at hP
  obtain ⟨hsnd, heff⟩ := h.runAll hreplay (fun e _ _ hR hP => h.run _ _ e hR hP) t.elements hR hP
  have hfst : R v.1 w.1 := by
    rw [runAll_fst hreplay, runAll_fst hreplay, heff]
    exact h.performAll hR hP
  refine ⟨v.1, w.1, v.2, hfst, ?_, ?_⟩
  · simp only [Engine.insertTemplate, hb]
    rfl
  · simp only [Engine.insertTemplate, hb', show v.2 = w.2 from hsnd]
    rfl

end SimulationOn

/-- A relation between works that elements cannot tell apart, and that all effects keep. -/
abbrev Simulation (R : Work → Work → Prop) : Prop := SimulationOn (fun _ => True) R

/-- On related works two expansions finish related works in the same way, whatever their effects. -/
theorem Simulation.insertTemplate {R : Work → Work → Prop} {δ : Type} [Deferral δ]
    (h : Simulation R) (g : Engine δ) {b b' c c' : Buffer} (t : Template δ)
    {onRegion : Bool} {regionEnd regionEnd' : Option Nat}
    (hb : Engine.startOfRegion b onRegion = .ok (c, regionEnd))
    (hb' : Engine.startOfRegion b' onRegion = .ok (c', regionEnd'))
    (hR : R (g.startWork c regionEnd) (g.startWork c' regionEnd')) :
    ∃ v w err, R v w ∧ g.insertTemplate b t onRegion = g.finish (v, err) ∧
      g.insertTemplate b' t onRegion = g.finish (w, err) :=
  SimulationOn.insertTemplate h g t hb hb' hR fun _ _ => trivial

/-! ## The mark of the buffer -/

/-- The buffer without its mark. -/
def Buffer.unmark (b : Buffer) : Buffer := { b with mark := none }

/-- The work without the mark of its buffer. -/
def Work.unmark (w : Work) : Work := { w with buffer := w.buffer.unmark }

namespace Buffer

theorem unmark_insertText (b : Buffer) (s : List Char) :
    (b.insertText s).unmark = b.unmark.insertText s := by
  unfold insertText
  split <;> rfl

theorem unmark_ask (b : Buffer) (prompt : String) :
    b.unmark.ask prompt = ((b.ask prompt).1.unmark, (b.ask prompt).2) := by
  unfold ask unmark
  dsimp only
  split <;> rfl

theorem unmark_removeIndent (b : Buffer) (start n : Nat) :
    b.unmark.removeIndent start n =
      ((b.removeIndent start n).1.unmark, (b.removeIndent start n).2) := by
  unfold removeIndent
  split <;> rfl

theorem unmark_insertIndent (b : Buffer) (start n : Nat) :
    b.unmark.insertIndent start n =
      ((b.insertIndent start n).1.unmark, (b.insertIndent start n).2) := by
  unfold insertIndent
  split <;> rfl

theorem unmark_reindentLine (b : Buffer) :
    b.unmark.reindentLine = (b.reindentLine.1.unmark, b.reindentLine.2) := by
  have hline : b.unmark.line = b.line := rfl
  have hwidth : b.unmark.indentWidth = b.indentWidth := rfl
  simp only [reindentLine, hline, hwidth, unmark_removeIndent, unmark_insertIndent]
  split <;> rfl

end Buffer

namespace Work

theorem unmark_foldl_track (w : Work) (es : List Edit) :
    (es.foldl track w).unmark = es.foldl track w.unmark := by
  induction es generalizing w with
  | nil => rfl
  | cons e es ih => exact ih (w.track e)

/-- Effects do not read the mark. -/
theorem unmark_perform (w : Work) (f : Effect) : (w.perform f).unmark = w.unmark.perform f := by
  cases f with
  | insert s =>
    simp only [perform, insert]
    split
    · rfl
    · simp only [unmark, track, Buffer.unmark_insertText]
      rfl
  | mark => rfl
  | exchange =>
    simp only [perform, exchange, unmark]
    split <;> rfl
  | reindent =>
    simp only [perform, reindent, unmark_foldl_track]
    simp only [unmark, Buffer.unmark_reindentLine]
  | ask prompt => simp only [perform, unmark, Buffer.unmark_ask]
  | keep name a => rfl

end Work

/-- Buffers that differ in their marks alone are expanded alike. -/
theorem unmark_simulation : Simulation fun v w => v.unmark = w.unmark where
  context {v w} h onRegion := by
    have hpoint : v.buffer.point = w.buffer.point := congrArg (·.buffer.point) h
    have hanswers : v.answers = w.answers := congrArg (·.answers) h
    rw [Work.context, Work.context, hpoint, hanswers]
  blankBefore {v w} h := by
    have hblank := congrArg (fun u : Work =>
      Text.allBlank (u.buffer.slice u.buffer.lineBounds.1 u.buffer.point)) h
    exact hblank
  blankAfter {v w} h := by
    have hblank := congrArg (fun u : Work =>
      Text.allBlank (u.buffer.slice u.buffer.point u.buffer.lineBounds.2)) h
    exact hblank
  answer {v w} h prompt := by
    have hv := congrArg Prod.snd (v.buffer.unmark_ask prompt)
    have hw := congrArg Prod.snd (w.buffer.unmark_ask prompt)
    have hbuffer : v.buffer.unmark = w.buffer.unmark := congrArg (·.buffer) h
    rw [← hv, ← hw, hbuffer]
  perform {v w} h {f} _ := by rw [Work.unmark_perform, Work.unmark_perform, h]

end TextTemplate
