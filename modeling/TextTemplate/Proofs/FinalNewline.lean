import TextTemplate.CommandLine.Run
import TextTemplate.Proofs.Insertions
import TextTemplate.Proofs.Lines
import TextTemplate.Proofs.Shape

/-!
# A final line feed

A line feed at the end of a text, behind point, is nothing to expansion and completion: they do what
they do without it, and it is still there in the end (`CommandLine.finalNewline_transparent`).

That an operation of a buffer does not notice the line feed is one equation for each of them, under
the condition that its positions are in front of it.  Lines need another condition: a carriage return
that gets in front of the line feed makes one break with it.  So the simulation is one on effects that
bring no carriage return, and its invariant is `Unreturned`.
-/

namespace TextTemplate

/-! ## Lines -/

namespace Text

/-- Without carriage returns, where lines start does not depend on what comes then. -/
theorem LineStarts.of_unreturned {s t : List Char} (h : LineStarts s t) (hs : '\r' ∉ s)
    (u : List Char) : LineStarts s u := by
  intro c hc
  have hreturn : c ≠ '\r' := by
    rintro rfl
    exact hs (List.mem_of_getLast? hc)
  simp [endsLine, isLineBreak_of_endsLine (h c hc), hreturn]

/-- Behind the last line a line feed is its break; it goes with the rest of the text behind any other
one. -/
theorem OnLine.append_feed {s before body lineBreak after : List Char} {p : Nat}
    (h : OnLine s p before body lineBreak after) (hs : '\r' ∉ s) (hp : p ≤ s.length) :
    ∃ lineBreak' after', OnLine (s ++ ['\n']) p before body lineBreak' after' ∧
      lineContent lineBreak' = lineContent lineBreak := by
  rw [h.text] at hs
  simp only [List.mem_append, not_or] at hs
  obtain ⟨⟨⟨hbefore, -⟩, hbreak⟩, -⟩ := hs
  by_cases hend : lineBreak = []
  · subst hend
    have hlength := h.length_eq
    have hafter : after = [] := by
      cases h.terminates
      rfl
    subst hafter
    refine ⟨['\n'], [], ⟨?_, h.starts.of_unreturned hbefore _, h.unbroken, .char rfl, h.start_le,
      .inl ?_⟩, rfl⟩
    · simp [h.text]
    · simp at hlength ⊢
      omega
  · refine ⟨lineBreak, after ++ ['\n'], ⟨?_, h.starts.of_unreturned hbefore _, h.unbroken, ?_,
      h.start_le, h.lt_stop⟩, rfl⟩
    · simp [h.text]
    · exact h.terminates.of_lineStarts hend (h.terminates.lineStarts.of_unreturned hbreak _)

/-- A line feed at the end changes at most the break of a line. -/
theorem lineOf_append_feed {s : List Char} {p : Nat} (hs : '\r' ∉ s) (hp : p ≤ s.length) :
    (lineOf (s ++ ['\n']) p).above = (lineOf s p).above ∧
      (lineOf (s ++ ['\n']) p).start = (lineOf s p).start ∧
      (lineOf (s ++ ['\n']) p).content = (lineOf s p).content := by
  obtain ⟨before, body, lineBreak, after, h⟩ := exists_onLine s p
  obtain ⟨lineBreak', after', h', hkept⟩ := h.append_feed hs hp
  rw [h.lineOf_eq, h'.lineOf_eq]
  refine ⟨rfl, rfl, ?_⟩
  rw [Line.content, Line.content, lineContent_unbroken_append h.unbroken,
    lineContent_unbroken_append h.unbroken, hkept]

end Text

/-! ## Buffers -/

namespace Buffer

open Text

/-- The buffer with a line feed behind its text. -/
def withFinalNewline (b : Buffer) : Buffer := { b with text := b.text ++ ['\n'] }

variable {b : Buffer}

@[simp] theorem length_withFinalNewline (b : Buffer) : b.withFinalNewline.length = b.length + 1 :=
  List.length_append

theorem moveTo_withFinalNewline {p : Nat} (hp : p ≤ b.length) :
    b.withFinalNewline.moveTo p = (b.moveTo p).withFinalNewline := by
  rw [moveTo, moveTo, length_withFinalNewline, Nat.min_eq_left hp,
    Nat.min_eq_left (Nat.le_succ_of_le hp)]
  rfl

theorem slice_withFinalNewline (start : Nat) {stop : Nat} (hstop : stop ≤ b.length) :
    b.withFinalNewline.slice start stop = b.slice start stop := by
  rw [slice, slice, withFinalNewline, List.take_append_of_le_length hstop]

theorem insertAt_withFinalNewline {p : Nat} (hp : p ≤ b.length) (s : List Char) :
    b.withFinalNewline.insertAt p s = (b.insertAt p s).withFinalNewline := by
  simp only [insertAt, follow, withFinalNewline, List.take_append_of_le_length hp,
    List.drop_append_of_le_length hp, List.append_assoc]

theorem removeBetween_withFinalNewline {start stop : Nat} (hle : start ≤ stop)
    (hstop : stop ≤ b.length) :
    b.withFinalNewline.removeBetween start stop = (b.removeBetween start stop).withFinalNewline := by
  simp only [removeBetween, follow, withFinalNewline, List.append_assoc,
    List.take_append_of_le_length (Nat.le_trans hle hstop), List.drop_append_of_le_length hstop]

theorem insertText_withFinalNewline (hpoint : b.point ≤ b.length) (s : List Char) :
    b.withFinalNewline.insertText s = (b.insertText s).withFinalNewline := by
  have hinsert := insertAt_withFinalNewline hpoint s
  unfold insertText
  split
  · rfl
  · rw [show b.withFinalNewline.point = b.point from rfl, hinsert]
    rfl

theorem deleteRange_withFinalNewline {p q : Nat} (hp : p ≤ b.length) (hq : q ≤ b.length) :
    b.withFinalNewline.deleteRange p q = (b.deleteRange p q).withFinalNewline := by
  have hstop : max p q ≤ b.length := Nat.max_le.mpr ⟨hp, hq⟩
  simp only [deleteRange, length_withFinalNewline, Nat.min_eq_left hstop,
    Nat.min_eq_left (Nat.le_succ_of_le hstop)]
  split
  · rfl
  · next hlt => exact removeBetween_withFinalNewline (Nat.le_of_not_le hlt) hstop

theorem ask_withFinalNewline (b : Buffer) (prompt : String) :
    b.withFinalNewline.ask prompt = ((b.ask prompt).1.withFinalNewline, (b.ask prompt).2) := by
  unfold ask withFinalNewline
  dsimp only
  split <;> rfl

theorem removeIndent_withFinalNewline {start n : Nat} (h : start + n ≤ b.length) :
    b.withFinalNewline.removeIndent start n =
      ((b.removeIndent start n).1.withFinalNewline, (b.removeIndent start n).2) := by
  unfold removeIndent
  split
  · rfl
  · rw [removeBetween_withFinalNewline (Nat.le_add_right start n) h]

theorem insertIndent_withFinalNewline {start : Nat} (h : start ≤ b.length) (n : Nat) :
    b.withFinalNewline.insertIndent start n =
      ((b.insertIndent start n).1.withFinalNewline, (b.insertIndent start n).2) := by
  unfold insertIndent
  split
  · rfl
  · rw [insertAt_withFinalNewline h]

/-- A line stops within the text. -/
theorem lineBounds_snd_le (b : Buffer) : b.lineBounds.2 ≤ b.length := by
  obtain ⟨before, body, lineBreak, after, h⟩ := exists_onLine b.text b.point
  have hkept := length_lineContent_le lineBreak
  rw [lineBounds_eq h, length, h.length_eq]
  omega

/-- The line of point is the same but for its break. -/
theorem line_withFinalNewline (hpoint : b.point ≤ b.length) (htext : '\r' ∉ b.text) :
    b.withFinalNewline.line.above = b.line.above ∧
      b.withFinalNewline.line.start = b.line.start ∧
      b.withFinalNewline.line.content = b.line.content := lineOf_append_feed htext hpoint

theorem lineBounds_withFinalNewline (hpoint : b.point ≤ b.length) (htext : '\r' ∉ b.text) :
    b.withFinalNewline.lineBounds = b.lineBounds := by
  obtain ⟨-, hstart, hcontent⟩ := line_withFinalNewline hpoint htext
  rw [lineBounds, lineBounds, Line.stop, Line.stop, hstart, hcontent]

theorem reindentLine_withFinalNewline (hpoint : b.point ≤ b.length) (htext : '\r' ∉ b.text) :
    b.withFinalNewline.reindentLine =
      (b.reindentLine.1.withFinalNewline, b.reindentLine.2) := by
  obtain ⟨habove, hstart, hcontent⟩ := line_withFinalNewline hpoint htext
  have hwanted : b.withFinalNewline.line.wantedIndent b.withFinalNewline.indentWidth =
      b.line.wantedIndent b.indentWidth := by
    rw [Line.wantedIndent, Line.wantedIndent, habove, hcontent]
    rfl
  have hindent := b.line_start_add_indentOf_le
  have hlength := length_removeIndent hindent
  have hgrown := insertIndent_withFinalNewline
    (show b.line.start ≤ (b.removeIndent b.line.start (indentOf b.line.content)).1.length by omega)
    (b.line.wantedIndent b.indentWidth)
  simp only [reindentLine, hstart, hcontent, hwanted, removeIndent_withFinalNewline hindent, hgrown]
  split <;> rfl

/-- An indentation brings no carriage return. -/
theorem unreturned_reindentLine (htext : '\r' ∉ b.text) : '\r' ∉ b.reindentLine.1.text := by
  obtain ⟨before, indent, after, hcut, hbefore, hindent, -⟩ := b.text_eq_indentation
  rw [text_reindentLine hcut hbefore hindent]
  split
  · exact htext
  · intro hmem
    simp only [List.mem_append, List.mem_replicate] at hmem
    rw [hcut] at htext
    rcases hmem with (hmem | ⟨-, hblank⟩) | hmem
    · exact htext (by simp [hmem])
    · cases hblank
    · exact htext (by simp [hmem])

end Buffer

/-! ## Expansions -/

namespace Work

/-- The work with a line feed behind its text. -/
def withFinalNewline (w : Work) : Work := { w with buffer := w.buffer.withFinalNewline }

/-- There are no carriage returns in the text of a work, and all positions are positions of the text. -/
structure Unreturned (w : Work) : Prop extends w.Anchored where
  within : w.marks.Within w.buffer.length
  text : '\r' ∉ w.buffer.text

variable {w : Work}

theorem Unreturned.perform (h : w.Unreturned) {f : Effect} (hf : f.Brings ('\r' ∉ ·)) :
    (w.perform f).Unreturned where
  toAnchored := h.toAnchored.perform f
  within := by
    obtain ⟨steps, hsteps⟩ := lockstep_perform h.buffer f
    exact hsteps.within h.within
  text := by
    have htext := h.text
    cases f with
    | insert s =>
      rw [Work.perform, buffer_insert, Buffer.text_insertText, List.mem_append, List.mem_append]
      rintro ((hmem | hmem) | hmem)
      · exact htext (List.mem_of_mem_take hmem)
      · exact hf hmem
      · exact htext (List.mem_of_mem_drop hmem)
    | mark => exact htext
    | exchange =>
      simp only [Work.perform, exchange]
      split <;> exact htext
    | reindent =>
      rw [Work.perform, buffer_reindent]
      exact Buffer.unreturned_reindentLine htext
    | ask prompt => exact (w.buffer.text_ask prompt).symm ▸ htext
    | keep name a => exact htext

/-- Effects do not notice the line feed. -/
theorem perform_withFinalNewline (h : w.Unreturned) (f : Effect) :
    w.withFinalNewline.perform f = (w.perform f).withFinalNewline := by
  cases f with
  | insert s =>
    simp only [perform, insert, withFinalNewline,
      Buffer.insertText_withFinalNewline h.buffer.point]
    split <;> rfl
  | mark => rfl
  | exchange =>
    have hend : w.withFinalNewline.regionEnd = w.regionEnd := rfl
    simp only [perform, exchange, hend]
    split
    · next p hp =>
      simp only [withFinalNewline, Buffer.moveTo_withFinalNewline (h.regionEnd p hp).2]
      rfl
    · rfl
  | reindent =>
    rw [perform, perform, reindent_eq, reindent_eq]
    simp only [withFinalNewline, Buffer.reindentLine_withFinalNewline h.buffer.point h.text]
  | ask prompt => simp only [perform, withFinalNewline, Buffer.ask_withFinalNewline]
  | keep name a => rfl

end Work

/-- Elements do not notice the line feed, as long as they bring no carriage return. -/
theorem finalNewline_simulation :
    SimulationOn (Effect.Brings ('\r' ∉ ·)) fun v w => v = w.withFinalNewline ∧ w.Unreturned where
  context := by
    rintro _ w ⟨rfl, -⟩ onRegion
    rfl
  blankBefore := by
    rintro _ w ⟨rfl, h⟩
    simp only [Work.withFinalNewline, Buffer.lineBounds_withFinalNewline h.buffer.point h.text]
    exact congrArg _ (Buffer.slice_withFinalNewline _ h.buffer.point)
  blankAfter := by
    rintro _ w ⟨rfl, h⟩
    simp only [Work.withFinalNewline, Buffer.lineBounds_withFinalNewline h.buffer.point h.text]
    exact congrArg _ (Buffer.slice_withFinalNewline _ w.buffer.lineBounds_snd_le)
  answer := by
    rintro _ w ⟨rfl, -⟩ prompt
    rw [Work.withFinalNewline, Buffer.ask_withFinalNewline]
  perform := by
    rintro _ w ⟨rfl, h⟩ f hf
    exact ⟨Work.perform_withFinalNewline h f, h.perform hf⟩

/-- The outcome with a line feed behind the text. -/
def Outcome.withFinalNewline {δ α : Type} (o : Outcome δ α) : Outcome δ α :=
  { o with buffer := o.buffer.withFinalNewline }

namespace Engine

variable {δ : Type} {b : Buffer}

/-- The cursor is in front of the line feed. -/
theorem finish_withFinalNewline (g : Engine δ) {w : Work} (h : w.Unreturned) (err : Option Error) :
    g.finish (w.withFinalNewline, err) = (g.finish (w, err)).withFinalNewline := by
  cases err with
  | some e => rfl
  | none =>
    have hwithin : w.markPoint.marks.Within w.buffer.length := by
      intro p hp
      rcases Marks.mem_insertSorted.mp hp with rfl | hp
      · exact h.buffer.point
      · exact h.within p hp
    have hcursor := (w.markPoint.marks.next_forward w.origin).le hwithin
      (Nat.le_trans h.point h.buffer.point)
    exact congrArg (Outcome.mk (g.keepMarks w.markPoint) · _) (Buffer.moveTo_withFinalNewline hcursor)

/-- An expansion starts in front of the line feed. -/
theorem startOfRegion_withFinalNewline (hb : b.InBounds) (onRegion : Bool) :
    startOfRegion b.withFinalNewline onRegion =
      (startOfRegion b onRegion).map fun p => (p.1.withFinalNewline, p.2) := by
  cases onRegion with
  | false => rfl
  | true =>
    have hregion : b.withFinalNewline.region = b.region := rfl
    simp only [startOfRegion, hregion]
    split
    · rfl
    · next p q hpq =>
      obtain ⟨m, -, heq⟩ := Option.map_eq_some_iff.mp hpq
      cases heq
      rw [Buffer.moveTo_withFinalNewline (Nat.le_trans (Nat.min_le_left b.point q) hb.point)]
      rfl

theorem unreturned_startWork (g : Engine δ) (hb : b.InBounds) (hm : (g.marks b.id).Within b.length)
    (htext : '\r' ∉ b.text) {c : Buffer} {onRegion : Bool} {regionEnd : Option Nat}
    (h : startOfRegion b onRegion = .ok (c, regionEnd)) :
    (g.startWork c regionEnd).Unreturned where
  toAnchored := anchored_startWork g hb h
  within := by
    obtain ⟨steps, hsteps⟩ := g.lockstep_startWork hb h
    exact hsteps.within hm
  text := by
    rcases startOfRegion_cases h with ⟨-, rfl, -⟩ | ⟨p, q, -, -, rfl, -⟩
    · exact htext
    · exact htext

variable [Deferral δ]

/-- Expansions do not notice the line feed, as long as they bring no carriage return. -/
theorem insertTemplate_withFinalNewline (g : Engine δ) (hb : b.InBounds)
    (hm : (g.marks b.id).Within b.length) (htext : '\r' ∉ b.text) {t : Template δ} {onRegion : Bool}
    (hbrings : ∀ f ∈ g.effects b t onRegion, f.Brings ('\r' ∉ ·)) :
    g.insertTemplate b.withFinalNewline t onRegion =
      (g.insertTemplate b t onRegion).withFinalNewline := by
  have hstart' := startOfRegion_withFinalNewline hb onRegion
  cases hstart : startOfRegion b onRegion with
  | error e =>
    rw [hstart] at hstart'
    simp only [insertTemplate, hstart, hstart', Except.map]
    rfl
  | ok p =>
    obtain ⟨c, regionEnd⟩ := p
    rw [hstart] at hstart'
    obtain ⟨v, w, err, ⟨rfl, hw⟩, hv, hw'⟩ := finalNewline_simulation.insertTemplate g t hstart' hstart
      ⟨rfl, g.unreturned_startWork hb hm htext hstart⟩ hbrings
    rw [hv, hw', g.finish_withFinalNewline hw]

/-! ## Completions -/

omit [Deferral δ] in
theorem deleteCandidate_withFinalNewline (g : Engine δ) (hpoint : b.point ≤ b.length) (found : Found) :
    g.deleteCandidate b.withFinalNewline found =
      ((g.deleteCandidate b found).1, (g.deleteCandidate b found).2.withFinalNewline) := by
  have hsame : b.withFinalNewline.point = b.point := rfl
  simp only [deleteCandidate, hsame]
  split
  · rfl
  · next hlt =>
    have hstart : found.start ≤ b.length := Nat.le_trans (Nat.le_of_not_le hlt) hpoint
    rw [Buffer.deleteRange_withFinalNewline hstart hpoint]
    rfl

omit [Deferral δ] in
theorem unreturned_deleteCandidate (g : Engine δ) (htext : '\r' ∉ b.text) (found : Found) :
    '\r' ∉ (g.deleteCandidate b found).2.text := by
  rw [text_deleteCandidate, List.mem_append]
  rintro (hmem | hmem)
  · exact htext (List.mem_of_mem_take hmem)
  · exact htext (List.mem_of_mem_drop hmem)

omit [Deferral δ] in
/-- Finders that are patterns read no further than point. -/
theorem decision?_withFinalNewline (g : Engine δ) (hpoint : b.point ≤ b.length)
    (hpatterns : ∀ s ∈ g.activeScopes b.id, ∃ p, s.finder = .pattern p) :
    g.decision? b.withFinalNewline = g.decision? b := by
  have hsame (s : Scope δ) (hs : s ∈ g.activeScopes b.id) :
      s.decision? b.withFinalNewline = s.decision? b := by
    obtain ⟨p, hp⟩ := hpatterns s hs
    have hfind : s.finder.find b.withFinalNewline = s.finder.find b := by
      rw [hp]
      exact congrArg p.findAtEnd (Buffer.slice_withFinalNewline 0 hpoint)
    rw [Scope.decision?, Scope.decision?, hfind]
  rw [decision?, decision?, show b.withFinalNewline.id = b.id from rfl]
  generalize g.activeScopes b.id = ss at hsame
  induction ss with
  | nil => rfl
  | cons s ss ih =>
    rw [List.findSome?_cons, List.findSome?_cons, hsame s List.mem_cons_self,
      ih fun s hs => hsame s (List.mem_cons_of_mem _ hs)]

/-- Completions do not notice the line feed, as long as the template that takes the place of a tag
brings no carriage return. -/
theorem completeTag_withFinalNewline (g : Engine δ) (hb : b.InBounds)
    (hm : (g.marks b.id).Within b.length) (htext : '\r' ∉ b.text)
    (hpatterns : ∀ s ∈ g.activeScopes b.id, ∃ p, s.finder = .pattern p)
    (hbrings : ∀ e found, g.decision? b = some (.expand e found) →
      let r := g.deleteCandidate b found
      ∀ f ∈ r.1.effects r.2 e.template false, f.Brings ('\r' ∉ ·)) (silent : Bool) :
    g.completeTag b.withFinalNewline silent = (g.completeTag b silent).withFinalNewline := by
  have hding {b : Buffer} (quiet : Bool) :
      (if quiet then b.withFinalNewline else b.withFinalNewline.ding) =
        (if quiet then b else b.ding).withFinalNewline := by
    cases quiet <;> rfl
  rw [completeTag, completeTag, g.decision?_withFinalNewline hb.point hpatterns]
  cases hdecision : g.decision? b with
  | none => exact congrArg (Outcome.mk g · _) (hding silent)
  | some d =>
    obtain ⟨steps, hcut⟩ := g.lockstep_deleteCandidate hb d.found
    have hb' := hcut.inBounds hb
    have hm' := hcut.within hm
    have htext' := unreturned_deleteCandidate g htext d.found
    have hdelete := g.deleteCandidate_withFinalNewline hb.point d.found
    cases d with
    | expand e found =>
      have hbrings' := hbrings e found hdecision
      simp only [Decision.found] at hb' hm' htext' hdelete
      rw [← show (g.deleteCandidate b found).2.id = b.id from hcut.follows.id] at hm'
      simp only [hdelete, insertTemplate_withFinalNewline _ hb' hm' htext' hbrings']
      rfl
    | extend shared found =>
      simp only [Decision.found] at hb' hdelete
      simp only [hdelete, Buffer.insertText_withFinalNewline hb'.point, hding]
      rfl

namespace Stocked

variable {g : Engine δ}

theorem insertNamed_withFinalNewline (h : g.Stocked ('\r' ∉ ·)) (hb : b.InBounds)
    (hm : (g.marks b.id).Within b.length) (htext : '\r' ∉ b.text) (hanswers : b.AnswersIn ('\r' ∉ ·))
    (name : String) (onRegion : Bool) :
    g.insertNamed b.withFinalNewline name onRegion =
      (g.insertNamed b name onRegion).withFinalNewline := by
  simp only [insertNamed, lookup, Registry.lookup]
  cases ht : g.registry.templates.get? name with
  | none => rfl
  | some t =>
    exact g.insertTemplate_withFinalNewline hb hm htext
      (h.brings_effects (by decide) hanswers (h.template ht) onRegion)

theorem completeTag_withFinalNewline (h : g.Stocked ('\r' ∉ ·)) (hwell : g.WellFormed)
    (hb : b.InBounds) (hm : (g.marks b.id).Within b.length) (htext : '\r' ∉ b.text)
    (hanswers : b.AnswersIn ('\r' ∉ ·)) (silent : Bool) :
    g.completeTag b.withFinalNewline silent = (g.completeTag b silent).withFinalNewline := by
  refine Engine.completeTag_withFinalNewline g hb hm htext (h.finder_activeScopes hwell b.id) ?_ silent
  intro e found hdecision r
  have hdialogue : r.2.dialogue = b.dialogue := by
    simp only [r, deleteCandidate, Buffer.deleteRange]
    split
    · rfl
    · split <;> rfl
  have hstocked : r.1.Stocked ('\r' ∉ ·) :=
    h.changesOnly (g.remarks_deleteCandidate b found).toChangesOnly
  exact hstocked.brings_effects (by decide) (hanswers.congr hdialogue)
    (h.literalsIn_decision? hwell hdecision) false

end Stocked

end Engine

/-! ## Command lines -/

namespace CommandLine

/-- In front of a final line feed, a buffer is opened where the rest of the text ends. -/
theorem defaultPoint_append_feed {s : List Char} (hs : '\r' ∉ s) :
    defaultPoint (s ++ ['\n']) = s.length := by
  have hreverse : (s ++ ['\n']).reverse = '\n' :: s.reverse := List.reverse_append
  unfold defaultPoint
  split
  · next r hr =>
    rw [hreverse] at hr
    have hmem : '\r' ∈ s.reverse := by
      rw [(List.cons.inj hr).2]
      exact List.mem_cons_self
    exact absurd (List.mem_reverse.mp hmem) hs
  · next r _ hr =>
    rw [hreverse] at hr
    rw [← (List.cons.inj hr).2, List.length_reverse]
  · next hne => exact absurd hreverse (hne _)

/-- Scopes are installed on a buffer by its id. -/
theorem useScopes_congr {b c : Buffer} (h : b.id = c.id) (g : Engine Empty) (scopes : List String) :
    useScopes g b scopes = useScopes g c scopes := by
  induction scopes generalizing g with
  | nil => rfl
  | cons name scopes ih =>
    rw [useScopes, useScopes, h]
    cases g.useScope c.id name with
    | error e => rfl
    | ok g => exact ih g

/-- What installing a scope keeps, installing scopes keeps. -/
theorem useScopes_induction {P : Engine Empty → Prop} {b : Buffer}
    (step : ∀ {g g' : Engine Empty} {name : String}, P g → g.useScope b.id name = .ok g' → P g')
    {g g' : Engine Empty} {scopes : List String} (h : P g) (hg' : useScopes g b scopes = .ok g') :
    P g' := by
  induction scopes generalizing g with
  | nil =>
    cases hg'
    exact h
  | cons name scopes ih =>
    rw [useScopes] at hg'
    split at hg'
    · next hone => exact ih (step h hone) hg'
    · cases hg'

/-- An engine for a command line has what its library brings, is well formed, and has no marks. -/
theorem stocked_useScopes {Q : List Char → Prop} (settings : Settings) {l : Library}
    (hl : ∀ s ∈ l.literals, Q s.toList) {b : Buffer} {scopes : List String} {g : Engine Empty}
    (hg : useScopes (({ settings } : Engine Empty).install l).1 b scopes = .ok g) :
    g.Stocked Q ∧ g.WellFormed ∧ ∀ i, g.marks i = {} := by
  have hgrows := Engine.grows_install ({ settings } : Engine Empty) l
  refine useScopes_induction (P := fun g => g.Stocked Q ∧ g.WellFormed ∧ ∀ i, g.marks i = {}) ?_
    ⟨(Engine.Stocked.new settings).install hl, (Engine.wellFormed_new settings).grows hgrows, ?_⟩ hg
  · rintro g g' name ⟨hstocked, hwell, hmarks⟩ hg'
    have hwell' := hwell.command b (.useScope name)
    simp only [Command.perform, hg'] at hwell'
    exact ⟨hstocked.changesOnly (Engine.changesOnly_useScope hg'), hwell', fun i =>
      (Engine.marks_useScope hg' i).trans (hmarks i)⟩
  · intro i
    rw [Engine.marks, Engine.stateOf, hgrows.buffers]
    rfl

/-- **A final line feed is transparent.**  Where neither the text nor a literal of the library nor an
answer has a carriage return, a command on a text with a line feed behind it, from the default point,
finds the engine that it finds on the text alone, and leaves and answers what it leaves and answers
there, from the end, but for the line feed behind the text that it leaves. -/
theorem finalNewline_transparent (settings : Settings) (l : Library) (b : Buffer) (scopes : List String)
    {g : Engine Empty}
    (hg : useScopes (({ settings } : Engine Empty).install l).1 b scopes = .ok g)
    (hliterals : ∀ s ∈ l.literals, '\r' ∉ s.toList) (htext : '\r' ∉ b.text)
    (hanswers : b.AnswersIn ('\r' ∉ ·)) (hb : b.InBounds) :
    let c := b.moveTo b.length
    let c' := b.withFinalNewline.moveTo (defaultPoint b.withFinalNewline.text)
    useScopes (({ settings } : Engine Empty).install l).1 c' scopes = .ok g ∧
      (∀ name, g.insertNamed c' name false = (g.insertNamed c name false).withFinalNewline) ∧
      ∀ silent, g.completeTag c' silent = (g.completeTag c silent).withFinalNewline := by
  intro c c'
  obtain ⟨hstocked, hwell, hmarks⟩ := stocked_useScopes (Q := ('\r' ∉ ·)) settings hliterals hg
  have hc' : c' = c.withFinalNewline := by
    have hpoint : defaultPoint b.withFinalNewline.text = b.length := defaultPoint_append_feed htext
    simp only [c', c, hpoint, Buffer.moveTo_withFinalNewline (Nat.le_refl b.length)]
  have hc : c.InBounds := ⟨Nat.min_le_right .., hb.mark⟩
  have hm : (g.marks c.id).Within c.length := by
    rw [hmarks]
    exact Marks.within_empty c.length
  have hanswers : c.AnswersIn ('\r' ∉ ·) := hanswers.congr rfl
  have hid : c.withFinalNewline.id = b.id := rfl
  rw [hc']
  exact ⟨(useScopes_congr hid _ scopes).trans hg,
    fun name => hstocked.insertNamed_withFinalNewline hc hm htext hanswers name false,
    fun silent => hstocked.completeTag_withFinalNewline hwell hc hm htext hanswers silent⟩

/-- A tag gives way to a loop, which is indented and asks for its condition. -/
theorem finalNewline_transparent_loop :
    let l : Library := {
      scopes := [{ name := "c" }]
      templates := [{
        name := "while"
        tag := some "wh"
        scope := some "c"
        elements := [.indent, .text "while (", .prompt { text := "condition", always := true },
          .text ") \x7b", .newlineIndent, .point, .newline, .text "\x7d", .indent] }] }
    let b : Buffer := { id := 1, text := "if (x) \x7b\nwh".toList, answers := ["i"] }
    let c := b.moveTo b.length
    let c' := b.withFinalNewline.moveTo (defaultPoint b.withFinalNewline.text)
    ∃ g, (useScopes (({ settings := {} } : Engine Empty).install l).1 b ["c"] = .ok g ∧
        (∀ s ∈ l.literals, '\r' ∉ s.toList) ∧ '\r' ∉ b.text ∧ b.AnswersIn ('\r' ∉ ·) ∧ b.InBounds) ∧
      c'.text = c.text ++ ['\n'] ∧ c'.point = 11 ∧
      g.completeTag c' false = (g.completeTag c false).withFinalNewline ∧
      (g.completeTag c false).buffer.text =
        "if (x) \x7b\n    while (i) \x7b\n        \n    \x7d".toList ∧
      (g.completeTag c false).result.toOption = some (.expanded "wh" ⟨9, 39, 33⟩) := by
  intro l b c c'
  have hanswers : b.AnswersIn ('\r' ∉ ·) := ⟨by decide, nofun⟩
  have hb : b.InBounds := ⟨by decide, nofun⟩
  have hliterals : ∀ s ∈ l.literals, '\r' ∉ s.toList := by decide
  have htext : '\r' ∉ b.text := by decide
  refine ⟨_, ⟨rfl, hliterals, htext, hanswers, hb⟩, rfl, by decide +kernel, ?_, by decide +kernel,
    by decide +kernel⟩
  obtain ⟨-, -, hcomplete⟩ := finalNewline_transparent {} l b ["c"] rfl hliterals htext hanswers hb
  exact hcomplete false

end CommandLine

end TextTemplate
