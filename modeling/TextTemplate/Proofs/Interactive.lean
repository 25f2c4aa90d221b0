import TextTemplate.Proofs.Depth
import TextTemplate.Proofs.Dialogue

/-!
# Prompts that are always asked

Two kinds of elements look at whether the settings are interactive.  A prompt can rule this out by
being asked always; a prompt for the region cannot, because its flag is not looked at.  So a template
whose prompts are all asked always does what is left of it when each prompt for the region gives way
to what the settings make of it (`Element.settled`), and after that the settings play no part.
`insertTemplate_interactive` says so, and that they play no part from the start just if there is no
prompt for the region.
-/

namespace TextTemplate

/-- The same rules but for whether prompts are asked. -/
def Rules.withInteractive {δ : Type} (r : Rules δ) (on : Bool) : Rules δ :=
  { r with settings := { r.settings with interactive := on } }

/-- The same engine but for whether prompts are asked. -/
def Engine.withInteractive {δ : Type} (g : Engine δ) (on : Bool) : Engine δ :=
  { g with settings := { g.settings with interactive := on } }

namespace Element

variable {δ : Type}

/-! ## Settled elements -/

/-- A prompt that is asked always, unless it is for the region; or no prompt at all. -/
def IsAlways : Element δ → Prop
  | prompt p => p.always = true
  | _ => True

/-- A prompt for the region. -/
def IsRegionPrompt : Element δ → Prop
  | regionPrompt _ _ => True
  | _ => False

mutual

/-- An element in which each prompt for the region gives way to what it comes to: a prompt that is
asked always, or the other end of the region. -/
def settled (on : Bool) : Element δ → Element δ
  | regionPrompt p indent => if on then prompt { p with always := true } else regionPoint indent
  | list es => list (settledAll on es)
  | template name es => template name (settledAll on es)
  | e => e

/-- Some elements settled one by one. -/
def settledAll (on : Bool) : List (Element δ) → List (Element δ)
  | [] => []
  | e :: es => settled on e :: settledAll on es

end

theorem settledAll_eq_map (on : Bool) (es : List (Element δ)) :
    settledAll on es = es.map (settled on) := by
  induction es with
  | nil => rfl
  | cons e es ih => rw [settledAll, ih, List.map_cons]

mutual

/-- Without prompts for the region there is nothing to settle. -/
theorem settled_eq_self {on : Bool} {e : Element δ} (he : ¬ e.IsRegionPrompt)
    (hinside : ∀ (x : Element δ) k, x.Inside e.contents k → ¬ x.IsRegionPrompt) :
    settled on e = e := by
  cases e with
  | regionPrompt p indent => exact absurd trivial he
  | list es => exact congrArg list (settledAll_eq_self hinside)
  | template name es => exact congrArg (template name) (settledAll_eq_self hinside)
  | _ => rfl

theorem settledAll_eq_self {on : Bool} {es : List (Element δ)}
    (h : ∀ (x : Element δ) k, x.Inside es k → ¬ x.IsRegionPrompt) : settledAll on es = es := by
  cases es with
  | nil => rfl
  | cons e es =>
    obtain ⟨he, hinside, hes⟩ := forall_inside_cons.mp h
    rw [settledAll, settled_eq_self he fun x k => hinside x k, settledAll_eq_self hes]

end

/-- A list may be carried out after a change of each element. -/
theorem runAll_map {run run' : Element δ → Work → Work × Option Error} {f : Element δ → Element δ}
    {es : List (Element δ)} (h : ∀ e ∈ es, ∀ w, run' (f e) w = run e w) (w : Work) :
    runAll run' (es.map f) w = runAll run es w := by
  induction es generalizing w with
  | nil => rfl
  | cons e es ih =>
    rw [List.map_cons, runAll, runAll, h e List.mem_cons_self]
    rcases run e w with ⟨v, _ | err⟩
    · exact ih (fun e he => h e (List.mem_cons_of_mem _ he)) v
    · rfl

variable [Deferral δ]

/-- Elements that show what stands inside them, and whose prompts are always asked, do what they do
when settled, whatever the settings are then. -/
theorem runAll_settled (r : Rules δ) (on on' : Bool) {n : Nat} {es : List (Element δ)}
    (h : ∀ (e : Element δ) k, e.Inside es k → e.IsStatic ∧ e.IsAlways) (w : Work) :
    runAll (run (r.withInteractive on') n) (settledAll on es) w =
      runAll (run (r.withInteractive on) n) es w := by
  induction n generalizing es w with
  | zero => cases es <;> rfl
  | succ n ih =>
    rw [settledAll_eq_map]
    refine runAll_map (fun e he w => ?_) w
    obtain ⟨hstatic, halways⟩ := h e 0 (.here he)
    have hinside (x : Element δ) (k : Nat) (hx : x.Inside e.contents k) := h x (k + 1) (.deeper he hx)
    cases e with
    | prompt p =>
      have hasks (on : Bool) : (r.withInteractive on).asks p = true := by
        rw [Rules.asks, show p.always = true from halways, Bool.or_true]
      simp only [settled, run, hasks]
    | regionPrompt p indent => cases on <;> cases on' <;> rfl
    | list es => exact ih hinside w
    | template name es => exact ih hinside w
    | symbol name => exact hstatic.elim
    | deferred code => exact hstatic.elim
    | _ => rfl

end Element

/-! ## Prompts that are answered -/

/-- No answers are waiting, and the prompter has one for every prompt. -/
def Buffer.AnswersAll (b : Buffer) : Prop := b.answers = [] ∧ b.prompter = some fun _ _ => some ""

theorem Buffer.AnswersAll.ask {b : Buffer} (h : b.AnswersAll) (prompt : String) :
    (b.ask prompt).2 = some "" ∧ (b.ask prompt).1.AnswersAll := by
  simp only [Buffer.ask, h.1, h.2, AnswersAll, and_self]

namespace Work

theorem answersAll_perform {w : Work} (h : w.buffer.AnswersAll) (f : Effect) :
    (w.perform f).buffer.AnswersAll := by
  cases hf : f.question? with
  | none =>
    have hsame := w.dialogue_perform hf
    exact ⟨(congrArg Dialogue.answers hsame).trans h.1,
      (congrArg Dialogue.prompter hsame).trans h.2⟩
  | some prompt =>
    cases f with
    | ask prompt' => exact (h.ask prompt').2
    | _ => cases hf

theorem answersAll_performAll {w : Work} (h : w.buffer.AnswersAll) (fs : List Effect) :
    (w.performAll fs).buffer.AnswersAll :=
  performAll_induction (P := fun v => v.buffer.AnswersAll)
    (fun f _ _ hv => answersAll_perform hv f) h

theorem ask_snd_of_answersAll {w : Work} (h : w.buffer.AnswersAll) (p : Prompt) :
    (w.ask p).2 = none := by
  rw [ask_of_some (h.ask p.text).1]

/-- A prompt asks its own text and nothing else, answered or not. -/
theorem questions_askEffects (w : Work) (p : Prompt) :
    (w.askEffects p).filterMap Effect.question? = [p.text] := by
  unfold askEffects
  cases (w.buffer.ask p.text).2 with
  | none => rfl
  | some a => cases p.name <;> rfl

theorem questions_regionEffects (onRegion indent : Bool) :
    (regionEffects onRegion indent).filterMap Effect.question? = [] := by
  cases onRegion <;> cases indent <;> rfl

theorem questions_newlineEffects (s : List Char) :
    (newlineEffects s).filterMap Effect.question? = [] := by
  unfold newlineEffects
  split <;> rfl

end Work

namespace Element

variable {δ : Type}

/-- The prompt of an element that is asked always, unless it is for the region. -/
def question? (on : Bool) : Element δ → Option String
  | prompt p => some p.text
  | regionPrompt p _ => if on then some p.text else none
  | _ => none

/-- Fewer prompts are asked when they need not be. -/
theorem length_questions_le (es : List (Element δ)) :
    (es.filterMap (question? false)).length ≤ (es.filterMap (question? true)).length := by
  induction es with
  | nil => exact Nat.le_refl 0
  | cons e es ih =>
    cases e with
    | prompt p => exact Nat.succ_le_succ ih
    | regionPrompt p indent => exact Nat.le_succ_of_le ih
    | _ => exact ih

/-- A prompt for the region is one that is asked only at times. -/
theorem length_questions_lt {es : List (Element δ)} {e : Element δ} (he : e ∈ es)
    (hregion : e.IsRegionPrompt) :
    (es.filterMap (question? false)).length < (es.filterMap (question? true)).length := by
  obtain ⟨before, after, rfl⟩ := List.append_of_mem he
  have hbefore := length_questions_le before
  have hafter := length_questions_le after
  cases e with
  | regionPrompt p indent =>
    simp only [List.filterMap_append, List.filterMap_cons, question?, List.length_append,
      if_true, List.length_cons]
    simp only [Bool.false_eq_true, if_false]
    omega
  | _ => exact hregion.elim

/-- A leaf that stands inside some elements is among their leaves. -/
theorem mem_leavesAll_of_inside {es : List (Element δ)} {e : Element δ} {k : Nat}
    (h : e.Inside es k) (hleaf : e.IsLeaf) : e ∈ leavesAll es := by
  induction h with
  | here he =>
    rw [leavesAll_eq_flatMap]
    refine List.mem_flatMap.mpr ⟨e, he, ?_⟩
    cases e with
    | list es => exact hleaf.elim
    | template name es => exact hleaf.elim
    | _ => exact List.mem_singleton_self _
  | @deeper es f k hf h ih =>
    rw [leavesAll_eq_flatMap]
    refine List.mem_flatMap.mpr ⟨f, hf, ?_⟩
    cases f with
    | list es => exact ih
    | template name es => exact ih
    | _ => exact absurd h (not_inside_nil e k)

variable [Deferral δ]

/-- Where all prompts are answered, a leaf ends well and asks its prompt. -/
theorem run_of_answersAll (r : Rules δ) (on : Bool) (n : Nat) {e : Element δ} (hleaf : e.IsLeaf)
    (hstatic : e.IsStatic) (halways : e.IsAlways) {w : Work} (hw : w.buffer.AnswersAll) :
    (run (r.withInteractive on) (n + 1) e w).2 = none ∧
      (effects (r.withInteractive on) (n + 1) e w).filterMap Effect.question? =
        (e.question? on).toList := by
  cases e with
  | prompt p =>
    have hasks : (r.withInteractive on).asks p = true := by
      rw [Rules.asks, show p.always = true from halways, Bool.or_true]
    simp only [run, effects, hasks, if_true]
    exact ⟨Work.ask_snd_of_answersAll hw p, w.questions_askEffects p⟩
  | regionPrompt p indent =>
    cases on with
    | true => exact ⟨Work.ask_snd_of_answersAll hw p, w.questions_askEffects p⟩
    | false => exact ⟨rfl, Work.questions_regionEffects r.onRegion indent⟩
  | regionPoint indent => exact ⟨rfl, Work.questions_regionEffects r.onRegion indent⟩
  | conditionalNewline => exact ⟨rfl, Work.questions_newlineEffects _⟩
  | conditionalNewlineAfter => exact ⟨rfl, Work.questions_newlineEffects _⟩
  | saved name =>
    simp only [run, effects]
    cases w.answers.lookup name <;> exact ⟨rfl, rfl⟩
  | list es => exact hleaf.elim
  | template name es => exact hleaf.elim
  | symbol name => exact hstatic.elim
  | deferred code => exact hstatic.elim
  | _ => exact ⟨rfl, rfl⟩

/-- Where all prompts are answered, leaves end well and ask their prompts in order. -/
theorem runAll_of_answersAll (r : Rules δ) (on : Bool) (n : Nat) {es : List (Element δ)}
    (h : ∀ e ∈ es, e.IsLeaf ∧ e.IsStatic ∧ e.IsAlways) {w : Work} (hw : w.buffer.AnswersAll) :
    let p := runAll (run (r.withInteractive on) (n + 1)) es w
    p.2 = none ∧ p.1.buffer.prompts = w.buffer.prompts ++ es.filterMap (question? on) := by
  induction es generalizing w with
  | nil => exact ⟨rfl, (List.append_nil _).symm⟩
  | cons e es ih =>
    obtain ⟨hleaf, hstatic, halways⟩ := h e List.mem_cons_self
    obtain ⟨hsnd, hasked⟩ := run_of_answersAll r on n hleaf hstatic halways hw
    have hfst := run_fst (r.withInteractive on) (n + 1) e w
    have hv := Work.answersAll_performAll hw (effects (r.withInteractive on) (n + 1) e w)
    have hrest := ih (fun e he => h e (List.mem_cons_of_mem _ he)) (hfst ▸ hv)
    rw [hfst, Work.prompts_performAll, hasked, List.append_assoc, ← hfst] at hrest
    have hrun : run (r.withInteractive on) (n + 1) e w =
        ((run (r.withInteractive on) (n + 1) e w).1, none) := Prod.ext rfl hsnd
    rw [runAll, hrun]
    simp only [List.filterMap_eq_flatMap_toList, List.flatMap_cons] at hrest ⊢
    exact hrest

end Element

/-! ## The expansion -/

/-- The same outcome but for whether prompts are asked. -/
def Outcome.withInteractive {δ α : Type} (o : Outcome δ α) (on : Bool) : Outcome δ α :=
  { o with engine := o.engine.withInteractive on }

namespace Engine

variable {δ : Type}

/-- Whether prompts are asked plays no part in what is left of a work. -/
theorem finish_withInteractive (g : Engine δ) (on : Bool) (p : Work × Option Error) :
    (g.withInteractive on).finish p = (g.finish p).withInteractive on := by
  obtain ⟨w, _ | err⟩ := p <;> rfl

theorem prompts_finish (g : Engine δ) (p : Work × Option Error) :
    (g.finish p).buffer.prompts = p.1.buffer.prompts := by
  obtain ⟨w, _ | err⟩ := p <;> rfl

variable [Deferral δ]

/-- The settings being interactive plays no part in how a template expands. -/
def IgnoresInteractive (g : Engine δ) (t : Template δ) (onRegion : Bool) : Prop :=
  ∀ (b : Buffer) (on on' : Bool), (g.withInteractive on').insertTemplate b t onRegion =
    ((g.withInteractive on).insertTemplate b t onRegion).withInteractive on'

/-- A settled template expands as the template does under the settings it was settled for. -/
theorem insertTemplate_settled (g : Engine δ) (b : Buffer) (t : Template δ) (onRegion : Bool)
    (h : ∀ (e : Element δ) k, e.Inside t.elements k → e.IsStatic ∧ e.IsAlways) (on on' : Bool) :
    (g.withInteractive on').insertTemplate b
        { t with elements := Element.settledAll on t.elements } onRegion =
      ((g.withInteractive on).insertTemplate b t onRegion).withInteractive on' := by
  cases hstart : startOfRegion b onRegion with
  | error e =>
    simp only [insertTemplate, hstart]
    rfl
  | ok p =>
    have hrun := Element.runAll_settled (g.rules onRegion) on on' (n := g.settings.maxDepth + 1) h
      (g.startWork p.1 p.2)
    simp only [insertTemplate, hstart]
    rw [← finish_withInteractive]
    exact congrArg (g.withInteractive on').finish hrun

/-- In a buffer where all prompts are answered, an expansion that has levels enough asks for all its
leaves. -/
theorem prompts_insertTemplate (g : Engine δ) {b c : Buffer} {t : Template δ} {onRegion : Bool}
    {regionEnd : Option Nat} (hstart : startOfRegion b onRegion = .ok (c, regionEnd))
    (hanswers : c.AnswersAll) (on : Bool)
    (h : ∀ (e : Element δ) k, e.Inside t.elements k → e.IsStatic ∧ e.IsAlways)
    (hdepth : ∀ (e : Element δ) k, e.Inside t.elements k → k ≤ g.settings.maxDepth) :
    ((g.withInteractive on).insertTemplate b t onRegion).buffer.prompts =
      c.prompts ++ (Element.leavesAll t.elements).filterMap (Element.question? on) := by
  let r := (g.rules onRegion).withInteractive on
  let w := g.startWork c regionEnd
  have hkeeps := Element.not_exceedsLimit_runAll r (n := g.settings.maxDepth + 1)
    (fun e k he => (h e k he).1) (fun e k he => Nat.lt_succ_of_le (hdepth e k he)) w
  have hleaves : ∀ e ∈ Element.leavesAll t.elements, e.IsLeaf ∧ e.IsStatic ∧ e.IsAlways := by
    intro e he
    obtain ⟨k, hk⟩ := Element.inside_of_mem_leavesAll he
    exact ⟨Element.isLeaf_of_mem_leavesAll he, h e k hk⟩
  obtain ⟨-, hprompts⟩ := Element.runAll_of_answersAll (g.rules onRegion) on g.settings.maxDepth
    hleaves (w := w) hanswers
  rw [Element.runAll_leavesAll _ _ _ w hkeeps] at hprompts
  simp only [insertTemplate, hstart]
  exact ((g.withInteractive on).prompts_finish _).trans hprompts

end Engine

variable {δ : Type} [Deferral δ]

/-- Where there are no symbols and deferred elements and all prompts are asked always, a template
expands as it does when settled, and then it makes no difference whether the settings are interactive.
So it makes none for the template itself if there is no prompt for the region in it.  It does make a
difference if there is one, within the limit of levels. -/
theorem insertTemplate_interactive (g : Engine δ) (t : Template δ) (onRegion : Bool)
    (h : ∀ (e : Element δ) k, e.Inside t.elements k → e.IsStatic ∧ e.IsAlways) :
    (∀ (b : Buffer) (on on' : Bool), (g.withInteractive on').insertTemplate b
        { t with elements := Element.settledAll on t.elements } onRegion =
      ((g.withInteractive on).insertTemplate b t onRegion).withInteractive on') ∧
    ((∀ (e : Element δ) k, e.Inside t.elements k → ¬ e.IsRegionPrompt) →
      g.IgnoresInteractive t onRegion) ∧
    ((∀ (e : Element δ) k, e.Inside t.elements k → k ≤ g.settings.maxDepth) →
      g.IgnoresInteractive t onRegion →
      ∀ (e : Element δ) k, e.Inside t.elements k → ¬ e.IsRegionPrompt) := by
  refine ⟨fun b on on' => g.insertTemplate_settled b t onRegion h on on', fun hnone => ?_,
    fun hdepth hignores e k he hregion => ?_⟩
  · intro b on on'
    have hsettled := g.insertTemplate_settled b t onRegion h on on'
    rwa [Element.settledAll_eq_self hnone] at hsettled
  · -- The prompts that a buffer is asked tell the two expansions apart, if it answers all of them.
    let b : Buffer := { id := 0, mark := some 0, prompter := some fun _ _ => some "" }
    obtain ⟨⟨c, regionEnd⟩, hstart⟩ : ∃ p, Engine.startOfRegion b onRegion = .ok p :=
      Engine.exists_startOfRegion fun _ => nofun
    have hanswers : c.AnswersAll := by
      rcases Engine.startOfRegion_cases hstart with ⟨-, rfl, -⟩ | ⟨p, q, -, -, rfl, -⟩
      · exact ⟨rfl, rfl⟩
      · exact ⟨rfl, rfl⟩
    have hleaf : e.IsLeaf := by
      cases e with
      | regionPrompt p indent => trivial
      | _ => exact hregion.elim
    have hlt := Element.length_questions_lt (Element.mem_leavesAll_of_inside he hleaf) hregion
    have hsame := congrArg (·.buffer.prompts) (hignores b false true)
    have hon := g.prompts_insertTemplate hstart hanswers true h hdepth
    have hoff := g.prompts_insertTemplate hstart hanswers false h hdepth
    have heq := List.append_cancel_left (hon.symm.trans (hsame.trans hoff))
    exact absurd (congrArg List.length heq) (Nat.ne_of_gt hlt)

/-- A prompt for the region in a template in a list gives way to the other end of the region, and the
answer that was given before is used there.  If it could be asked, it would be. -/
theorem insertTemplate_interactive_settled :
    let g : Engine Empty := {}
    let b : Buffer :=
      { id := 0, text := ['(', 'a', ')'], point := 2, mark := some 1, answers := ["x", "y"] }
    let question : Prompt := { text := "name?", name := some "n", always := true }
    let other : Prompt := { text := "more?", always := true }
    let t : Template Empty :=
      ⟨"t", [.list [.prompt question, .template "u" [.regionPrompt other false, .saved "n"]]]⟩
    let u : Template Empty :=
      ⟨"t", [.list [.prompt question, .template "u" [.regionPoint false, .saved "n"]]]⟩
    let o := (g.withInteractive false).insertTemplate b t true
    (g.withInteractive true).insertTemplate b u true = o.withInteractive true ∧
      o.buffer.text = ['(', 'x', 'a', 'x', ')'] ∧ ¬ g.IgnoresInteractive t true := by
  intro g b question other t u o
  have shown : ∀ (e : Element Empty) k, e.Inside t.elements k → e.IsStatic ∧ e.IsAlways := by
    simp [t, question, Element.forall_inside_cons, Element.contents, Element.IsStatic,
      Element.IsAlways]
  have shallow : ∀ (e : Element Empty) k, e.Inside t.elements k → k ≤ g.settings.maxDepth := by
    simp [t, g, Element.forall_inside_cons, Element.contents]
  have deepest : (Element.regionPrompt other false).Inside t.elements 2 :=
    .deeper List.mem_cons_self
      (.deeper (List.mem_cons_of_mem _ List.mem_cons_self) (.here List.mem_cons_self))
  obtain ⟨settled, -, differs⟩ := insertTemplate_interactive g t true shown
  exact ⟨settled b false true, by decide, fun h => differs shallow h _ _ deepest trivial⟩

/-- A prompt for the region is not asked if the settings are not interactive, although it is to be
asked always. -/
theorem regionPrompt_always_not_asked :
    let g : Engine Empty := {}
    let b : Buffer := { id := 0, answers := ["yes"] }
    let t : Template Empty :=
      ⟨"t", [.text "[", .regionPrompt { text := "Q? ", always := true } false, .text "]"]⟩
    let o (on : Bool) := (g.withInteractive on).insertTemplate b t false
    (∀ (e : Element Empty) k, e.Inside t.elements k → e.IsStatic ∧
      ∀ p, (e = .prompt p ∨ ∃ indent, e = .regionPrompt p indent) → p.always = true) ∧
      (o true).buffer.text = ['[', 'y', 'e', 's', ']'] ∧ (o true).buffer.prompts = ["Q? "] ∧
      (o false).buffer.text = ['[', ']'] ∧ (o false).buffer.prompts = [] := by
  intro g b t o
  refine ⟨?_, by decide, by decide, by decide, by decide⟩
  simp [t, Element.forall_inside_cons, Element.contents, Element.IsStatic]

end TextTemplate
