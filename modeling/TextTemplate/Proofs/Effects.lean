import TextTemplate.Engine.Expand

/-!
# The effects of an expansion

What an expansion does to its work is a list of *effects*: insertions, marks, exchanges of the ends
of the region, indentations, prompts and kept answers.  The interpreter decides from the work which
effects come next, and `Element.effects` writes them down; `run_fst` says that the work it leaves is
the replay of that list, also when an element fails.  So an invariant of expansions has one case for
each effect and not one for each kind of element, and what nesting, symbols and deferred elements do
to the order of things is settled here.

`Engine.insertTemplate_eq_finish` says the same of a whole expansion, which ends in one of two ways
after that.
-/

namespace TextTemplate

/-- One change to a work. -/
inductive Effect where
  /-- Characters appear at point. -/
  | insert (s : List Char)
  /-- Point is marked. -/
  | mark
  /-- Point goes to the other end of the region. -/
  | exchange
  /-- The line of point is indented. -/
  | reindent
  /-- A prompt is asked. -/
  | ask (prompt : String)
  /-- An answer is kept under a name. -/
  | keep (name answer : String)
deriving DecidableEq, Repr

namespace Work

/-- The work after an effect. -/
def perform (w : Work) : Effect → Work
  | .insert s => w.insert s
  | .mark => w.markPoint
  | .exchange => w.exchange
  | .reindent => w.reindent
  | .ask prompt => { w with buffer := (w.buffer.ask prompt).1 }
  | .keep name a => { w with answers := (name, a) :: w.answers }

/-- The work after some effects in order. -/
def performAll (w : Work) (fs : List Effect) : Work := fs.foldl perform w

@[simp] theorem performAll_nil (w : Work) : w.performAll [] = w := rfl

@[simp] theorem performAll_cons (w : Work) (f : Effect) (fs : List Effect) :
    w.performAll (f :: fs) = (w.perform f).performAll fs := rfl

@[simp] theorem performAll_append (w : Work) (fs gs : List Effect) :
    w.performAll (fs ++ gs) = (w.performAll fs).performAll gs := List.foldl_append

/-- What each effect of a list keeps, the list keeps. -/
theorem performAll_induction {P : Work → Prop} {fs : List Effect}
    (step : ∀ f ∈ fs, ∀ w, P w → P (w.perform f)) {w : Work} (h : P w) : P (w.performAll fs) := by
  induction fs generalizing w with
  | nil => exact h
  | cons f fs ih =>
    rw [performAll_cons]
    exact ih (fun g hg => step g (List.mem_cons_of_mem f hg)) (step f List.mem_cons_self w h)

theorem id_perform (w : Work) (f : Effect) : (w.perform f).buffer.id = w.buffer.id := by
  cases f with
  | insert s => simp [perform]
  | mark => rfl
  | exchange =>
    simp only [perform, exchange]
    split <;> rfl
  | reindent => simp [perform]
  | ask prompt => exact w.buffer.id_ask prompt
  | keep name a => rfl

@[simp] theorem id_performAll (w : Work) (fs : List Effect) :
    (w.performAll fs).buffer.id = w.buffer.id :=
  performAll_induction (P := fun v => v.buffer.id = w.buffer.id)
    (fun f _ v h => (v.id_perform f).trans h) rfl

theorem dings_perform (w : Work) (f : Effect) :
    (w.perform f).buffer.dings = w.buffer.dings := by
  cases f with
  | insert s => simp [perform]
  | mark => rfl
  | exchange =>
    simp only [perform, exchange]
    split <;> rfl
  | reindent => simp [perform]
  | ask prompt => exact w.buffer.dings_ask prompt
  | keep name a => rfl

@[simp] theorem dings_performAll (w : Work) (fs : List Effect) :
    (w.performAll fs).buffer.dings = w.buffer.dings :=
  performAll_induction (P := fun v => v.buffer.dings = w.buffer.dings)
    (fun f _ v h => (v.dings_perform f).trans h) rfl

/-- The effects of a prompt: an answer is inserted, and then kept if it has a name. -/
def askEffects (w : Work) (p : Prompt) : List Effect :=
  .ask p.text ::
    match (w.buffer.ask p.text).2 with
    | none => []
    | some a => .insert a.toList :: (p.name.map (.keep · a)).toList

/-- The effects of going to the other end of the region. -/
def regionEffects (onRegion indent : Bool) : List Effect :=
  if onRegion then if indent then [.exchange, .reindent] else [.exchange] else [.mark]

/-- The effect of a line feed unless there are only blanks in a text. -/
def newlineEffects (s : List Char) : List Effect :=
  if Text.allBlank s then [] else [.insert ['\n']]

theorem ask_fst (w : Work) (p : Prompt) : (w.ask p).1 = w.performAll (w.askEffects p) := by
  rw [askEffects]
  cases ha : (w.buffer.ask p.text).2 with
  | none =>
    rw [ask_of_none ha]
    rfl
  | some a =>
    rw [ask_of_some ha]
    cases p.name <;> rfl

theorem regionPoint_eq (w : Work) (onRegion indent : Bool) :
    w.regionPoint onRegion indent = w.performAll (regionEffects onRegion indent) := by
  cases onRegion <;> cases indent <;>
    simp [regionPoint, regionEffects, perform]

theorem newlineUnlessBlank_eq (w : Work) (s : List Char) :
    w.newlineUnlessBlank s = w.performAll (newlineEffects s) := by
  unfold newlineUnlessBlank newlineEffects
  split <;> rfl

end Work

namespace Element

variable {δ : Type}

/-- The effects of elements in order, until one fails. -/
def effectsAll (run : Element δ → Work → Work × Option Error)
    (effects : Element δ → Work → List Effect) : List (Element δ) → Work → List Effect
  | [], _ => []
  | e :: es, w =>
    effects e w ++
      match run e w with
      | (w, none) => effectsAll run effects es w
      | (_, some _) => []

/-- The effects of an element where so many more levels are allowed. -/
def effects [Deferral δ] (r : Rules δ) : Nat → Element δ → Work → List Effect
  | 0, _, _ => []
  | n + 1, e, w =>
    match e with
    | text s => [.insert (r.filtered s).toList]
    | point => [.mark]
    | prompt p => if r.asks p then w.askEffects p else [.mark]
    | regionPoint indent => Work.regionEffects r.onRegion indent
    | regionPrompt p indent =>
      if r.settings.interactive then w.askEffects p else Work.regionEffects r.onRegion indent
    | conditionalNewline =>
      Work.newlineEffects (w.buffer.slice w.buffer.lineBounds.1 w.buffer.point)
    | conditionalNewlineAfter =>
      Work.newlineEffects (w.buffer.slice w.buffer.point w.buffer.lineBounds.2)
    | newline => [.insert ['\n']]
    | newlineIndent => [.insert ['\n'], .reindent]
    | reindent => [.reindent]
    | saved name => ((w.answers.lookup name).map fun a => Effect.insert a.toList).toList
    | list es => effectsAll (run r n) (effects r n) es w
    | template _ es => effectsAll (run r n) (effects r n) es w
    | symbol name => (r.resolve? name).elim [] fun e => effects r n e w
    | empty => []
    | deferred code => effects r n (Deferral.evaluate code (w.context r.onRegion)) w

/-- If each element leaves the replay of its effects, a list of elements does. -/
theorem runAll_fst {run : Element δ → Work → Work × Option Error}
    {effects : Element δ → Work → List Effect}
    (h : ∀ e w, (run e w).1 = w.performAll (effects e w)) (es : List (Element δ)) (w : Work) :
    (runAll run es w).1 = w.performAll (effectsAll run effects es w) := by
  induction es generalizing w with
  | nil => rfl
  | cons e es ih =>
    have he := h e w
    rw [runAll, effectsAll, Work.performAll_append, ← he]
    rcases run e w with ⟨v, _ | err⟩
    · exact ih v
    · rfl

@[simp] theorem effectsAll_singleton {run : Element δ → Work → Work × Option Error}
    {effects : Element δ → Work → List Effect} (e : Element δ) (w : Work) :
    effectsAll run effects [e] w = effects e w := by
  rw [effectsAll]
  rcases run e w with ⟨v, _ | err⟩ <;> exact List.append_nil _

/-- The effects of a list go on where those of a part of it have ended. -/
theorem effectsAll_append {run : Element δ → Work → Work × Option Error}
    {effects : Element δ → Work → List Effect} (es fs : List (Element δ)) (w : Work) :
    effectsAll run effects (es ++ fs) w =
      effectsAll run effects es w ++
        match runAll run es w with
        | (v, none) => effectsAll run effects fs v
        | (_, some _) => [] := by
  induction es generalizing w with
  | nil => rfl
  | cons e es ih =>
    rw [List.cons_append, effectsAll, effectsAll, runAll, List.append_assoc]
    congr 1
    rcases run e w with ⟨v, _ | err⟩
    · exact ih v
    · rfl

variable [Deferral δ]

/-- An element leaves the replay of its effects. -/
theorem run_fst (r : Rules δ) (n : Nat) (e : Element δ) (w : Work) :
    (run r n e w).1 = w.performAll (effects r n e w) := by
  -- On the levels, not on the element: symbols and deferred elements give elements that are no parts
  -- of it.
  induction n generalizing e w with
  | zero => rfl
  | succ n ih =>
    cases e with
    | text s => rfl
    | point => rfl
    | prompt p =>
      simp only [run, effects]
      split
      · exact w.ask_fst p
      · rfl
    | regionPoint indent => exact w.regionPoint_eq r.onRegion indent
    | regionPrompt p indent =>
      simp only [run, effects]
      split
      · exact w.ask_fst p
      · exact w.regionPoint_eq r.onRegion indent
    | conditionalNewline => exact w.newlineUnlessBlank_eq _
    | conditionalNewlineAfter => exact w.newlineUnlessBlank_eq _
    | newline => rfl
    | newlineIndent =>
      simp only [run, effects, Work.performAll_cons, Work.performAll_nil, Work.perform]
    | reindent => rfl
    | saved name =>
      simp only [run, effects]
      cases w.answers.lookup name <;> rfl
    | list es => exact runAll_fst ih es w
    | template name es => exact runAll_fst ih es w
    | symbol name =>
      simp only [run, effects]
      cases r.resolve? name with
      | none => rfl
      | some e => exact ih e w
    | empty => rfl
    | deferred code => exact ih _ w

theorem id_runAll (r : Rules δ) (n : Nat) (es : List (Element δ)) (w : Work) :
    (runAll (run r n) es w).1.buffer.id = w.buffer.id := by
  rw [runAll_fst (run_fst r n), Work.id_performAll]

end Element

/-! ## Whole expansions -/

namespace Engine

variable {δ : Type} [Deferral δ]

/-- The effects of the elements of a template on a work. -/
def effectsOn (g : Engine δ) (t : Template δ) (onRegion : Bool) (w : Work) : List Effect :=
  let levels := g.settings.maxDepth + 1
  Element.effectsAll (Element.run (g.rules onRegion) levels)
    (Element.effects (g.rules onRegion) levels) t.elements w

/-- The effects of an expansion; there are none if there is no region where one is needed. -/
def effects (g : Engine δ) (b : Buffer) (t : Template δ) (onRegion : Bool) : List Effect :=
  match startOfRegion b onRegion with
  | .error _ => []
  | .ok (b, regionEnd) => g.effectsOn t onRegion (g.startWork b regionEnd)

/-- Once there is a place to start, an expansion finishes the replay of its effects. -/
theorem insertTemplate_eq_finish (g : Engine δ) {b c : Buffer} (t : Template δ) {onRegion : Bool}
    {regionEnd : Option Nat} (h : startOfRegion b onRegion = .ok (c, regionEnd)) :
    ∃ err, g.insertTemplate b t onRegion =
      g.finish ((g.startWork c regionEnd).performAll (g.effects b t onRegion), err) := by
  simp only [insertTemplate, effects, effectsOn, h]
  rw [← Element.runAll_fst (Element.run_fst _ _)]
  exact ⟨_, rfl⟩

end Engine

end TextTemplate
