import TextTemplate.Proofs.Completion

/-!
# Expansion of exact tags

A completion stops at the first active scope that knows its candidate, and an expansion of an exact
tag stops at the first one that has its candidate as a tag.  The two walks part where a scope knows
its candidate without having it as a tag.  But if the scope that decides a completion has it as a
tag, then no scope above can have its own as a tag either, and both come to the same entry of the
same scope.  This is the first part of `expandIfComplete_agrees`; the rest says which tag is
expanded where no completion is around.
-/

namespace TextTemplate

variable {δ : Type}

/-! ## The scope with the tag -/

namespace Scope

variable {s : Scope δ} {b : Buffer} {c : Found}

/-- A tag starts with itself. -/
theorem KnowsExactly.knows (h : s.KnowsExactly b c) : s.Knows b c := by
  obtain ⟨e, he, htag⟩ := h.tag
  exact ⟨h.found, e, he, htag ▸ List.prefix_rfl⟩

theorem KnowsExactly.exactMatch? (h : s.KnowsExactly b c) :
    ∃ e, s.lookup c.text = some e ∧ s.exactMatch? b = some (e, c) := by
  obtain ⟨e, he, htag⟩ := h.tag
  cases hlookup : s.lookup c.text with
  | none => exact absurd htag (by simpa using List.find?_eq_none.mp hlookup e he)
  | some e' => exact ⟨e', rfl, by simp [Scope.exactMatch?, h.found, hlookup]⟩

end Scope

namespace Engine

variable {g : Engine δ} {b : Buffer} {s : Scope δ} {c : Found}

/-- The entry that is expanded is that of the first scope with its candidate as a tag. -/
theorem DecidesExactly.exactMatch? (h : g.DecidesExactly b s c) :
    g.exactMatch? b = s.exactMatch? b := by
  obtain ⟨above, below, hactive, habove⟩ := h.first
  obtain ⟨e, -, he⟩ := h.knows.exactMatch?
  have hpassed : above.findSome? (fun s => s.exactMatch? b) = none := by
    apply List.findSome?_eq_none_iff.mpr
    intro s' hs'
    exact Scope.exactMatch?_eq_none_iff.mpr (habove s' hs')
  rw [Engine.exactMatch?, hactive, List.findSome?_append, hpassed, Option.none_or,
    List.findSome?_cons, he]

/-- A scope that decides and has its candidate as a tag is the first one that has.  Those above it
do not even know their candidates. -/
theorem Decides.decidesExactly (h : g.Decides b s c) (hc : s.KnowsExactly b c) :
    g.DecidesExactly b s c := by
  obtain ⟨above, below, hactive, habove⟩ := h.first
  refine ⟨hc, above, below, hactive, ?_⟩
  intro s' hs' c' hc'
  exact habove s' hs' c' hc'.knows

/-- If any scope has its candidate as a tag, there is a first one. -/
theorem exists_decidesExactly (h : ∃ s ∈ g.activeScopes b.id, ∃ c, s.KnowsExactly b c) :
    ∃ s c, g.DecidesExactly b s c := by
  obtain ⟨s, hs, c, hc⟩ := h
  cases hexact : g.exactMatch? b with
  | none => exact absurd hc (exactMatch?_eq_none_iff.mp hexact s hs c)
  | some p =>
    obtain ⟨s', hs'⟩ := decidesExactly_of_exactMatch? hexact
    exact ⟨s', p.2, hs'⟩

end Engine

/-! ## The expansion -/

variable [Deferral δ]

/-- What is left and answered by an expansion of an exact tag once a scope has it. -/
structure ExpandsTag (g : Engine δ) (b : Buffer) (s : Scope δ) (c : Found)
    (o : Outcome δ Bool) : Prop where
  /-- The candidate is removed up to point, and point is where it started. -/
  removed : let b' := (g.deleteCandidate b c).2
    b'.text = b.text.take (min c.start b.point) ++ b.text.drop b.point ∧
      (b.point ≤ b.length → b'.point = min c.start b.point)
  /-- The template of the first entry with the candidate as its tag is expanded in its place. -/
  expanded : ∃ before e after, s.tags = before ++ e :: after ∧ e.tag = c.text ∧
    (∀ e' ∈ before, e'.tag ≠ c.text) ∧
    let r := g.deleteCandidate b c
    let x := r.1.insertTemplate r.2 e.template false
    o = ⟨x.engine, x.buffer, x.result.map fun _ => true⟩

/-- An expansion of a tag answers that it was made, or an error. -/
theorem ExpandsTag.result_ne {g : Engine δ} {b : Buffer} {s : Scope δ} {c : Found}
    {o : Outcome δ Bool} (h : ExpandsTag g b s c o) : o.result ≠ .ok false := by
  obtain ⟨before, e, after, -, -, -, ho⟩ := h.expanded
  intro hfalse
  rw [ho] at hfalse
  cases hresult : ((g.deleteCandidate b c).1.insertTemplate (g.deleteCandidate b c).2 e.template
      false).result with
  | error err => simp [hresult, Except.map] at hfalse
  | ok x => simp [hresult, Except.map] at hfalse

namespace Engine

variable {g : Engine δ} {b : Buffer} {s : Scope δ} {c : Found}

theorem DecidesExactly.expands (h : g.DecidesExactly b s c) :
    ExpandsTag g b s c (g.expandIfComplete b) where
  removed := ⟨g.text_deleteCandidate b c, fun hb => g.point_deleteCandidate hb c⟩
  expanded := by
    obtain ⟨e, hlookup, he⟩ := h.knows.exactMatch?
    obtain ⟨before, after, htags, htag, hfirst⟩ := Scope.lookup_eq_some_iff.mp hlookup
    refine ⟨before, e, after, htags, htag, hfirst, ?_⟩
    rw [expandIfComplete, h.exactMatch?, he]

/-- Where no scope has its candidate as a tag, nothing happens. -/
theorem expandIfComplete_of_none (h : ∀ s ∈ g.activeScopes b.id, ∀ c, ¬ s.KnowsExactly b c) :
    g.expandIfComplete b = ⟨g, b, .ok false⟩ := by
  rw [expandIfComplete, exactMatch?_eq_none_iff.mpr h]

theorem result_expandIfComplete_eq_false_iff : (g.expandIfComplete b).result = .ok false ↔
    ∀ s ∈ g.activeScopes b.id, ∀ c, ¬ s.KnowsExactly b c := by
  constructor
  · intro hfalse s hs c hc
    obtain ⟨s', c', h⟩ := exists_decidesExactly ⟨s, hs, c, hc⟩
    exact h.expands.result_ne hfalse
  · intro h
    rw [expandIfComplete_of_none h]

/-- A completion that is decided by a scope with the candidate as a tag leaves what an expansion of
the exact tag leaves, and answers the tag where that answers that it was made. -/
theorem Decides.completeTag_eq (h : g.Decides b s c) (hc : s.KnowsExactly b c) (silent : Bool) :
    let o := g.expandIfComplete b
    let o' := g.completeTag b silent
    o'.engine = o.engine ∧ o'.buffer = o.buffer ∧
      ((∃ x, o'.result = .ok (.expanded c.text x) ∧ o.result = .ok true) ∨
        ∃ err, o'.result = .error err ∧ o.result = .error err) := by
  intro o o'
  obtain ⟨before, e, after, htags, htag, hfirst, ho⟩ := (h.decidesExactly hc).expands.expanded
  have ho' := (h.completes silent).expanded e (.exact htags htag hfirst)
  rw [show o = _ from ho, show o' = _ from ho']
  refine ⟨rfl, rfl, ?_⟩
  dsimp only
  cases ((g.deleteCandidate b c).1.insertTemplate (g.deleteCandidate b c).2 e.template
      false).result with
  | error err => exact .inr ⟨err, rfl, rfl⟩
  | ok x => exact .inl ⟨x, by rw [← htag]; rfl, rfl⟩

end Engine

/-- If the scope that decides a completion has its candidate as a tag, an expansion of the exact tag
comes to the same: it leaves the same engine and the same buffer, with its text, point, mark,
prompts and dings, and it fails where the completion fails.  It answers that there is nothing to
expand exactly if no active scope has its own candidate as a tag, and then it changes nothing.
Otherwise the first active scope that has it expands its entry. -/
theorem expandIfComplete_agrees (g : Engine δ) (b : Buffer) :
    let o := g.expandIfComplete b
    (∀ s c, g.Decides b s c → s.KnowsExactly b c → ∀ silent,
      let o' := g.completeTag b silent
      o'.engine = o.engine ∧ o'.buffer = o.buffer ∧
        ((∃ x, o'.result = .ok (.expanded c.text x) ∧ o.result = .ok true) ∨
          ∃ err, o'.result = .error err ∧ o.result = .error err)) ∧
      ((o.result = .ok false ↔ ∀ s ∈ g.activeScopes b.id, ∀ c, ¬ s.KnowsExactly b c) ∧
        (o.result = .ok false → o.engine = g ∧ o.buffer = b)) ∧
      ((∃ s ∈ g.activeScopes b.id, ∃ c, s.KnowsExactly b c) →
        ∃ s c, g.DecidesExactly b s c ∧ ExpandsTag g b s c o) := by
  intro o
  refine ⟨?_, ⟨Engine.result_expandIfComplete_eq_false_iff, ?_⟩, ?_⟩
  · intro s c h hc silent
    exact h.completeTag_eq hc silent
  · intro hfalse
    have hnone := Engine.result_expandIfComplete_eq_false_iff.mp hfalse
    rw [show o = _ from Engine.expandIfComplete_of_none hnone]
    exact ⟨rfl, rfl⟩
  · intro hsome
    obtain ⟨s, c, h⟩ := Engine.exists_decidesExactly hsome
    exact ⟨s, c, h, h.expands⟩

/-- The candidate of the first scope starts none of its tags.  That of the second one is a tag,
whose template fails when half of it is inserted. -/
theorem expandIfComplete_agrees_failing :
    let t : Template Empty := ⟨"t", [.text "(", .symbol "s", .text ")"]⟩
    let find (c : Found) : Finder := .function fun _ => some c
    let first : Scope Empty := ⟨"first", find ⟨"x", 0⟩, [⟨"a", t⟩]⟩
    let second : Scope Empty := ⟨"second", find ⟨"a", 1⟩, [⟨"ab", ⟨"u", []⟩⟩, ⟨"a", t⟩]⟩
    let g : Engine Empty :=
      { scopes := ⟨[("first", first), ("second", second)]⟩
        buffers := ⟨[(0, { scopes := ["first", "second"] })]⟩ }
    let b : Buffer := { id := 0, text := ['x', 'a', 'y'], point := 2 }
    let o := g.expandIfComplete b
    let o' := g.completeTag b false
    (g.Decides b second ⟨"a", 1⟩ ∧ second.KnowsExactly b ⟨"a", 1⟩) ∧
      o.buffer.text = ['x', '(', 'y'] ∧ o'.buffer = o.buffer ∧
      ∃ err, o'.result = .error err ∧ o.result = .error err := by
  intro t find first second g b o o'
  have exactly : second.KnowsExactly b ⟨"a", 1⟩ := ⟨rfl, ⟨"a", t⟩, by simp [second], rfl⟩
  have decides : g.Decides b second ⟨"a", 1⟩ := by
    refine ⟨exactly.knows, [first], [g.global], rfl, ?_⟩
    intro s hs c hc
    obtain rfl := List.mem_singleton.mp hs
    obtain rfl : ⟨"x", 0⟩ = c := Option.some.inj hc.found
    obtain ⟨e, he, hstarts⟩ := hc.known
    obtain rfl := List.mem_singleton.mp he
    revert hstarts
    decide
  obtain ⟨agrees, -, -⟩ := expandIfComplete_agrees g b
  obtain ⟨hengine, hbuffer, hresult⟩ := agrees second _ decides exactly false
  have htext : o.buffer.text = ['x', '(', 'y'] := by decide
  refine ⟨⟨decides, exactly⟩, htext, hbuffer, ?_⟩
  rcases hresult with ⟨x, -, hok⟩ | herror
  · have hnone : o.result.toOption = none := by decide
    rw [show o.result = .ok true from hok] at hnone
    cases hnone
  · exact herror

/-- Where the first scope knows its candidate but does not have it as a tag, the completion is about
another entry than the expansion of the exact tag. -/
example :
    let find (c : Found) : Finder := .function fun _ => some c
    let first : Scope Empty := ⟨"first", find ⟨"x", 0⟩, [⟨"xy", ⟨"t", [.text "1"]⟩⟩]⟩
    let second : Scope Empty := ⟨"second", find ⟨"a", 1⟩, [⟨"a", ⟨"u", [.text "2"]⟩⟩]⟩
    let g : Engine Empty :=
      { scopes := ⟨[("first", first), ("second", second)]⟩
        buffers := ⟨[(0, { scopes := ["first", "second"] })]⟩ }
    let b : Buffer := { id := 0, text := ['x', 'a'], point := 2 }
    (g.completeTag b false).buffer.text = ['1'] ∧
      (g.expandIfComplete b).buffer.text = ['x', '2'] := by
  decide

end TextTemplate
