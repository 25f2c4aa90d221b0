import TextTemplate.Proofs.Depth
import TextTemplate.Proofs.Effects

/-!
# Expansions that fail

An element that fails ends the expansion then and there: what comes after it makes no difference, and
what was done before it stays done (`insertTemplate_abort`).  If the element itself had no effect that
shows, the text, the mark of the buffer and the marks are those that the elements before it leave by
themselves; only their end is not marked, and point stays there.
-/

namespace TextTemplate

/-- Neither the text nor point nor a mark changes. -/
def Effect.IsSilent : Effect → Prop
  | .insert s => s = []
  | .ask _ | .keep _ _ => True
  | _ => False

namespace Work

/-- Silent effects leave everything in place. -/
theorem performAll_of_silent {fs : List Effect} (hfs : ∀ f ∈ fs, f.IsSilent) (w : Work) :
    let v := w.performAll fs
    v.buffer.text = w.buffer.text ∧ v.buffer.point = w.buffer.point ∧
      v.buffer.mark = w.buffer.mark ∧ v.marks = w.marks := by
  refine performAll_induction (P := fun v => v.buffer.text = w.buffer.text ∧
    v.buffer.point = w.buffer.point ∧ v.buffer.mark = w.buffer.mark ∧ v.marks = w.marks) ?_
    ⟨rfl, rfl, rfl, rfl⟩
  rintro f hf v ⟨htext, hpoint, hmark, hmarks⟩
  cases f with
  | insert s =>
    obtain rfl : s = [] := hfs _ hf
    exact ⟨htext, hpoint, hmark, hmarks⟩
  | ask prompt =>
    exact ⟨(v.buffer.text_ask prompt).trans htext, (v.buffer.point_ask prompt).trans hpoint,
      (v.buffer.mark_ask prompt).trans hmark, hmarks⟩
  | keep name a => exact ⟨htext, hpoint, hmark, hmarks⟩
  | _ => exact (hfs _ hf).elim

/-- A prompt that gets no answer is asked and no more. -/
theorem askEffects_of_cancelled {w : Work} {p : Prompt} {err : Error}
    (h : (w.ask p).2 = some err) : w.askEffects p = [.ask p.text] := by
  cases ha : (w.buffer.ask p.text).2 with
  | none => rw [askEffects, ha]
  | some a =>
    rw [ask_of_some ha] at h
    cases h

end Work

namespace Element

variable {δ : Type}

/-- A list that fails does not come to what follows it. -/
theorem runAll_append_of_fails {run : Element δ → Work → Work × Option Error}
    {es : List (Element δ)} {w : Work} {err : Error} (h : (runAll run es w).2 = some err)
    (rest : List (Element δ)) : runAll run (es ++ rest) w = runAll run es w := by
  rw [runAll_append]
  rcases hv : runAll run es w with ⟨v, _ | err'⟩
  · rw [hv] at h
    cases h
  · rfl

variable [Deferral δ]

/-- A prompt that gets no answer and a symbol that nothing is made of have silent effects only. -/
theorem silent_of_fails {r : Rules δ} {n : Nat} {e : Element δ} {w : Work} {err : Error}
    (he : e.IsPrompt ∨ ∃ name, e = .symbol name ∧ r.resolve? name = none)
    (h : (run r (n + 1) e w).2 = some err) : ∀ f ∈ effects r (n + 1) e w, f.IsSilent := by
  have hask {p : Prompt} (hp : (w.ask p).2 = some err) : ∀ f ∈ w.askEffects p, f.IsSilent := by
    rw [Work.askEffects_of_cancelled hp]
    intro f hf
    rw [List.mem_singleton.mp hf]
    trivial
  rcases he with he | ⟨name, rfl, hname⟩
  · cases e with
    | prompt p =>
      simp only [run, effects] at h ⊢
      split at h
      · next hasks =>
        rw [if_pos hasks]
        exact hask h
      · cases h
    | regionPrompt p indent =>
      simp only [run, effects] at h ⊢
      split at h
      · next hasks =>
        rw [if_pos hasks]
        exact hask h
      · cases h
    | _ => exact he.elim
  · simp only [effects, hname]
    exact List.forall_mem_nil _

end Element

namespace Engine

variable {δ : Type}

/-- What is left when silent effects end in a failure is what is left without them, but for the mark
at the end and the place of point. -/
theorem finish_of_silent (g : Engine δ) {fs : List Effect} (hfs : ∀ f ∈ fs, f.IsSilent) (w : Work)
    (err : Error) :
    let o := g.finish (w.performAll fs, some err)
    let p := g.finish (w, none)
    o.buffer.text = p.buffer.text ∧ o.buffer.point = w.buffer.point ∧
      o.buffer.mark = p.buffer.mark ∧
      p.engine.marks w.buffer.id = (o.engine.marks w.buffer.id).add w.buffer.point := by
  intro o p
  obtain ⟨htext, hpoint, hmark, hmarks⟩ := w.performAll_of_silent hfs
  refine ⟨htext, hpoint, hmark, ?_⟩
  have ho : o.engine.marks w.buffer.id = (w.performAll fs).marks := by
    rw [← w.id_performAll fs]
    exact g.marks_finish_error _ err
  rw [ho, hmarks]
  exact g.marks_finish_ok w

variable [Deferral δ]

/-- An expansion that fails does not come to elements that follow. -/
theorem insertTemplate_append_of_error {g : Engine δ} {b : Buffer} {name : String}
    {es : List (Element δ)} {onRegion : Bool} {err : Error}
    (h : (g.insertTemplate b ⟨name, es⟩ onRegion).result = .error err) (rest : List (Element δ)) :
    g.insertTemplate b ⟨name, es ++ rest⟩ onRegion = g.insertTemplate b ⟨name, es⟩ onRegion := by
  cases hstart : startOfRegion b onRegion with
  | error e => simp only [insertTemplate, hstart]
  | ok start =>
    simp only [insertTemplate, hstart, result_finish_eq_error_iff] at h ⊢
    rw [Element.runAll_append_of_fails h]

/-- Where elements have not failed, one more element goes on from the work that they leave. -/
theorem insertTemplate_concat {g : Engine δ} {b : Buffer} {name : String}
    {before : List (Element δ)} {onRegion : Bool} {x : Expansion}
    (hx : (g.insertTemplate b ⟨name, before⟩ onRegion).result = .ok x) (e : Element δ) :
    let levels := g.settings.maxDepth + 1
    ∃ v : Work, v.buffer.id = b.id ∧
      g.insertTemplate b ⟨name, before⟩ onRegion = g.finish (v, none) ∧
      g.insertTemplate b ⟨name, before ++ [e]⟩ onRegion =
        g.finish (Element.run (g.rules onRegion) levels e v) ∧
      g.effects b ⟨name, before ++ [e]⟩ onRegion =
        g.effects b ⟨name, before⟩ onRegion ++
          Element.effects (g.rules onRegion) levels e v := by
  intro levels
  cases hstart : startOfRegion b onRegion with
  | error err =>
    simp only [insertTemplate, hstart] at hx
    cases hx
  | ok start =>
    obtain ⟨c, regionEnd⟩ := start
    simp only [insertTemplate, effects, effectsOn, hstart] at hx ⊢
    have hid := Element.id_runAll (g.rules onRegion) levels before (g.startWork c regionEnd)
    rw [Element.runAll_append, Element.effectsAll_append]
    rcases hv : Element.runAll (Element.run (g.rules onRegion) levels) before
      (g.startWork c regionEnd) with ⟨v, _ | err⟩
    · rw [hv] at hid
      refine ⟨v, hid.trans (id_startOfRegion hstart), rfl, ?_, ?_⟩
      · exact congrArg g.finish (Element.runAll_singleton e v)
      · exact congrArg (_ ++ ·) (Element.effectsAll_singleton e v)
    · rw [hv] at hx
      cases hx

/-- An expansion of a template `u` does what that of `t` does, and then has silent effects only. -/
def SilentAfter (g : Engine δ) (b : Buffer) (t u : Template δ) (onRegion : Bool) : Prop :=
  ∃ fs, g.effects b u onRegion = g.effects b t onRegion ++ fs ∧ ∀ f ∈ fs, f.IsSilent

end Engine

variable {δ : Type} [Deferral δ]

/-- An expansion that fails does not come to elements that follow.  If the elements before the last
one do not fail, and the last one has silent effects only, the text, the mark of the buffer and the
marks are as the others leave them, but for the mark at their end, and point stays at that end.  This
is so if the last one is a prompt that is cancelled or a symbol that nothing is made of. -/
theorem insertTemplate_abort (g : Engine δ) (b : Buffer) (name : String)
    (es rest : List (Element δ)) (onRegion : Bool) {err : Error}
    (h : (g.insertTemplate b ⟨name, es⟩ onRegion).result = .error err) :
    let o := g.insertTemplate b ⟨name, es⟩ onRegion
    g.insertTemplate b ⟨name, es ++ rest⟩ onRegion = o ∧
      ∀ before e x, es = before ++ [e] →
        let p := g.insertTemplate b ⟨name, before⟩ onRegion
        p.result = .ok x →
        ((e.IsPrompt ∨ ∃ s, e = .symbol s ∧ (g.rules onRegion).resolve? s = none) →
          g.SilentAfter b ⟨name, before⟩ ⟨name, es⟩ onRegion) ∧
        (g.SilentAfter b ⟨name, before⟩ ⟨name, es⟩ onRegion →
          o.buffer.text = p.buffer.text ∧ o.buffer.point = x.stop ∧
            o.buffer.mark = p.buffer.mark ∧
            p.engine.marks b.id = (o.engine.marks b.id).add x.stop) := by
  intro o
  refine ⟨Engine.insertTemplate_append_of_error h rest, ?_⟩
  rintro before e x rfl p hx
  obtain ⟨v, hid, hp, ho, heffects⟩ := Engine.insertTemplate_concat hx e
  have hfails := h
  rw [ho, Engine.result_finish_eq_error_iff] at hfails
  refine ⟨fun he => ⟨_, heffects, Element.silent_of_fails he hfails⟩, ?_⟩
  rintro ⟨fs, hfs, hsilent⟩
  obtain rfl : _ = fs := List.append_cancel_left (heffects.symm.trans hfs)
  have hwork : Element.run (g.rules onRegion) (g.settings.maxDepth + 1) e v =
      (v.performAll _, some err) := Prod.ext (Element.run_fst _ _ e v) hfails
  have hstop : v.buffer.point = x.stop := by
    rw [show p = _ from hp] at hx
    exact congrArg Expansion.stop (Except.ok.inj hx)
  rw [show o = _ from ho, show p = _ from hp, hwork, ← hstop, ← hid]
  exact g.finish_of_silent hsilent v err

/-- The second prompt gets no answer.  What was inserted up to there stays, and so does the mark in
it; the end of it is not marked. -/
theorem insertTemplate_abort_cancelled :
    let g : Engine Empty := { settings := { interactive := true } }
    let b : Buffer := { id := 0, text := ['(', ')'], point := 1, mark := some 2, answers := ["x"] }
    let before : List (Element Empty) :=
      [.text "a", .list [.point, .prompt { text := "x?" }], .text "b"]
    let e : Element Empty := .prompt { text := "y?" }
    let rest : List (Element Empty) := [.text "c", .point]
    let o := g.insertTemplate b ⟨"t", before ++ [e]⟩ false
    let p := g.insertTemplate b ⟨"t", before⟩ false
    (o.result = .error (.promptCancelled "y?") ∧ p.result = .ok ⟨1, 4, 2⟩ ∧ e.IsPrompt) ∧
      g.insertTemplate b ⟨"t", before ++ [e] ++ rest⟩ false = o ∧
      g.SilentAfter b ⟨"t", before⟩ ⟨"t", before ++ [e]⟩ false ∧
      o.buffer.text = p.buffer.text ∧ o.buffer.point = 4 ∧ o.buffer.mark = p.buffer.mark ∧
      p.engine.marks 0 = (o.engine.marks 0).add 4 ∧
      o.buffer.text = ['(', 'a', 'x', 'b', ')'] ∧ (o.engine.marks 0).positions = [1, 2] := by
  intro g b before e rest o p
  have ho : o.result = .error (.promptCancelled "y?") :=
    Engine.result_finish_eq_error_iff.mpr (by decide)
  have hp : p.result = .ok ⟨1, 4, 2⟩ := Outcome.result_eq_ok (by decide)
  obtain ⟨hrest, hlast⟩ := insertTemplate_abort g b "t" (before ++ [e]) rest false ho
  obtain ⟨hsilent, hsame⟩ := hlast before e _ rfl hp
  have hafter := hsilent (.inl trivial)
  obtain ⟨htext, hpoint, hmark, hmarks⟩ := hsame hafter
  exact ⟨⟨ho, hp, trivial⟩, hrest, hafter, htext, hpoint, hmark, hmarks, by decide, by decide⟩

end TextTemplate
