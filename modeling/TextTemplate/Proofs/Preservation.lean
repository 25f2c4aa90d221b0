import TextTemplate.Proofs.Completion

/-!
# What an expansion keeps of a text

An expansion adds to a text and indents lines of it, so that nothing of the text is lost but spaces
and tabs: what is left of the old text without these is a subsequence of what is left of the new one
(`text_kept`).  An indentation takes out what it finds in front of a line, and that are spaces and tabs
only, wherever point is and whatever breaks the lines.  A completion takes out its candidate first.
-/

namespace TextTemplate

/-! ## Solid characters -/

namespace Text

/-- The characters of a text that are neither spaces nor tabs. -/
def solid (s : List Char) : List Char := s.filter fun c => c ≠ ' ' && c ≠ '\t'

/-- The solid characters of a text are found in another one, in the same order. -/
def Keeps (t s : List Char) : Prop := (solid s).Sublist (solid t)

@[simp] theorem solid_append (s t : List Char) : solid (s ++ t) = solid s ++ solid t :=
  List.filter_append ..

theorem solid_eq_nil {s : List Char} (h : ∀ c ∈ s, c = ' ' ∨ c = '\t') : solid s = [] := by
  refine List.filter_eq_nil_iff.mpr fun c hc => ?_
  rcases h c hc with rfl | rfl <;> decide

namespace Keeps

variable {s t u : List Char}

theorem refl (s : List Char) : Keeps s s := List.Sublist.refl _

theorem trans (h : Keeps t s) (h' : Keeps u t) : Keeps u s := List.Sublist.trans h h'

/-- What is put into a text takes nothing from it. -/
theorem insert (s t u : List Char) : Keeps (s ++ t ++ u) (s ++ u) := by
  simp only [Keeps, solid_append]
  exact (List.sublist_append_left _ _).append (List.Sublist.refl _)

/-- Spaces and tabs may give way to others. -/
theorem replace_blanks {s t t' u : List Char} (ht : ∀ c ∈ t, c = ' ' ∨ c = '\t')
    (ht' : ∀ c ∈ t', c = ' ' ∨ c = '\t') : Keeps (s ++ t' ++ u) (s ++ t ++ u) := by
  simp only [Keeps, solid_append, solid_eq_nil ht, solid_eq_nil ht']
  exact List.Sublist.refl _

end Keeps

end Text

/-! ## Buffers and works -/

namespace Buffer

/-- The text without what stands between the start of a candidate and point.  Nothing does if the
candidate starts at point or behind it. -/
def textWithout (b : Buffer) (c : Found) : List Char :=
  b.text.take (min c.start b.point) ++ b.text.drop b.point

theorem keeps_insertText (b : Buffer) (s : List Char) :
    Text.Keeps (b.insertText s).text b.text := by
  have h := Text.Keeps.insert (b.text.take b.point) s (b.text.drop b.point)
  rwa [List.take_append_drop, ← text_insertText] at h

theorem keeps_reindentLine (b : Buffer) : Text.Keeps b.reindentLine.1.text b.text := by
  obtain ⟨before, indent, after, htext, hbefore, hindent, hblank⟩ := b.text_eq_indentation
  rw [text_reindentLine htext hbefore hindent]
  split
  · exact .refl b.text
  · rw [htext]
    refine .replace_blanks hblank fun c hc => ?_
    exact .inl (List.eq_of_mem_replicate hc)

end Buffer

namespace Work

/-- Every effect keeps the text. -/
theorem keeps_perform (w : Work) (f : Effect) :
    Text.Keeps (w.perform f).buffer.text w.buffer.text := by
  cases f with
  | insert s =>
    rw [perform, buffer_insert]
    exact w.buffer.keeps_insertText s
  | mark => exact .refl _
  | exchange =>
    simp only [perform, exchange]
    split <;> exact .refl _
  | reindent =>
    rw [perform, buffer_reindent]
    exact w.buffer.keeps_reindentLine
  | ask prompt =>
    rw [perform, Buffer.text_ask]
    exact .refl _
  | keep name a => exact .refl _

theorem keeps_performAll (w : Work) (fs : List Effect) :
    Text.Keeps (w.performAll fs).buffer.text w.buffer.text :=
  performAll_induction (P := fun v => Text.Keeps v.buffer.text w.buffer.text)
    (fun f _ v h => h.trans (v.keeps_perform f)) (.refl _)

end Work

/-! ## Expansions and completions -/

namespace Engine

variable {δ : Type} [Deferral δ]

theorem keeps_insertTemplate (g : Engine δ) (b : Buffer) (t : Template δ) (onRegion : Bool) :
    Text.Keeps (g.insertTemplate b t onRegion).buffer.text b.text := by
  cases hstart : startOfRegion b onRegion with
  | error e =>
    simp only [insertTemplate, hstart]
    exact .refl _
  | ok p =>
    obtain ⟨c, regionEnd⟩ := p
    have htext : c.text = b.text := by
      rcases startOfRegion_cases hstart with ⟨-, rfl, -⟩ | ⟨p, q, -, -, rfl, -⟩
      · rfl
      · rfl
    obtain ⟨err, hfinish⟩ := g.insertTemplate_eq_finish t hstart
    have hwork := (g.startWork c regionEnd).keeps_performAll (g.effects b t onRegion)
    rw [hfinish, ← htext]
    cases err <;> exact hwork

/-- An expansion in the place of a candidate keeps what is left without the candidate. -/
theorem keeps_replaceCandidate (g : Engine δ) (b : Buffer) (c : Found) (t : Template δ) :
    let r := g.deleteCandidate b c
    Text.Keeps (r.1.insertTemplate r.2 t false).buffer.text (b.textWithout c) := by
  intro r
  have htext : r.2.text = b.textWithout c := g.text_deleteCandidate b c
  rw [← htext]
  exact r.1.keeps_insertTemplate r.2 t false

theorem keeps_completeTag (g : Engine δ) {b : Buffer} {d : Decision δ}
    (h : g.decision? b = some d) (silent : Bool) :
    Text.Keeps (g.completeTag b silent).buffer.text (b.textWithout d.found) := by
  unfold completeTag
  rw [h]
  cases d with
  | expand e found => exact g.keeps_replaceCandidate b found e.template
  | extend shared found =>
    have htext := g.text_deleteCandidate b found
    have hkeeps := (g.deleteCandidate b found).2.keeps_insertText shared.toList
    rw [htext] at hkeeps
    dsimp only
    split <;> exact hkeeps

theorem keeps_expandIfComplete (g : Engine δ) {b : Buffer} {e : TagEntry δ} {c : Found}
    (h : g.exactMatch? b = some (e, c)) :
    Text.Keeps (g.expandIfComplete b).buffer.text (b.textWithout c) := by
  unfold expandIfComplete
  rw [h]
  exact g.keeps_replaceCandidate b c e.template

end Engine

variable {δ : Type} [Deferral δ]

/-- Whatever an expansion does and however it ends, it keeps the text.  A completion keeps what is left
without the candidate of the scope that decides, and an expansion of an exact tag what is left without
that tag; where no scope decides, the text stays as it is. -/
theorem text_kept (g : Engine δ) (b : Buffer) :
    (∀ t onRegion, Text.Keeps (g.insertTemplate b t onRegion).buffer.text b.text) ∧
      (∀ silent, let o := g.completeTag b silent
        ((∀ s ∈ g.activeScopes b.id, ∀ c, ¬ s.Knows b c) ∧ o.buffer.text = b.text) ∨
          ∃ s c, g.Decides b s c ∧ Text.Keeps o.buffer.text (b.textWithout c)) ∧
      let o := g.expandIfComplete b
      ((∀ s ∈ g.activeScopes b.id, ∀ c, ¬ s.KnowsExactly b c) ∧ o.buffer.text = b.text) ∨
        ∃ s c, g.DecidesExactly b s c ∧ Text.Keeps o.buffer.text (b.textWithout c) := by
  refine ⟨g.keeps_insertTemplate b, fun silent => ?_, ?_⟩
  · cases h : g.decision? b with
    | none =>
      refine .inl ⟨Engine.decision?_eq_none_iff.mp h, ?_⟩
      simp only [Engine.completeTag, h]
      cases silent <;> rfl
    | some d =>
      obtain ⟨s, hs⟩ := Engine.decides_of_decision? h
      exact .inr ⟨s, d.found, hs, g.keeps_completeTag h silent⟩
  · cases h : g.exactMatch? b with
    | none =>
      refine .inl ⟨Engine.exactMatch?_eq_none_iff.mp h, ?_⟩
      simp only [Engine.expandIfComplete, h]
    | some match? =>
      obtain ⟨e, c⟩ := match?
      obtain ⟨s, hs⟩ := Engine.decidesExactly_of_exactMatch? h
      exact .inr ⟨s, c, hs, g.keeps_expandIfComplete h⟩

/-- An indentation takes the tab in front of a line, and what is solid stays. -/
example :
    let b : Buffer := { id := 0, text := [' ', ' ', 'a', '\n', '\t', 'b'], point := 6 }
    let o := ({} : Engine Empty).insertTemplate b ⟨"t", [.text "c", .reindent]⟩ false
    o.buffer.text = [' ', ' ', 'a', '\n', ' ', ' ', 'b', 'c'] ∧
      Text.solid o.buffer.text = ['a', '\n', 'b', 'c'] := by
  decide

end TextTemplate
