import TextTemplate.Proofs.Completion
import TextTemplate.Proofs.LastMatch

/-!
# Candidates that stop in front of point

What a pattern finds stands in the text in front of point, but it need not get to point: a group may
stop before its match does.  A completion that grows such a candidate puts what is new behind it and
removes what stands between it and point (`completeTag_partially`).  So it only adds to the text just
if the candidate gets to point, and that depends on the first group of the pattern alone.
-/

namespace TextTemplate

namespace Regex

/-- What a search notes lies in the text. -/
theorem Node.within_of_search {a : Node} {text : List Char} {cs : Captures}
    (h : a.search text = some cs) {c : Capture} (hc : c ∈ cs) :
    c.start ≤ c.stop ∧ c.stop ≤ text.length := by
  rw [search_eq] at h
  obtain ⟨i, hi, hways⟩ := List.exists_of_findSome?_eq_some h
  obtain ⟨w, hw, rfl⟩ := Option.map_eq_some_iff.mp hways
  have hle : i ≤ text.length := Nat.le_of_lt_succ (List.mem_range.mp hi)
  have hextends := extends_of_mem_ways (List.mem_of_head? hw)
  rcases hextends.captures c hc with hnil | ⟨-, hstart, hstop⟩
  · exact absurd hnil List.not_mem_nil
  · exact ⟨hstart, Nat.le_trans hstop (hextends.le_length hle)⟩

end Regex

namespace Found

/-- Where the text found stops. -/
def stop (c : Found) : Nat := c.start + c.text.length

/-- What was found stands in a text where it is said to. -/
structure StandsIn (c : Found) (text : List Char) : Prop where
  stop_le : c.stop ≤ text.length
  text_eq : (text.take c.stop).drop c.start = c.text.toList

variable {c : Found} {text : List Char}

theorem start_le_stop (c : Found) : c.start ≤ c.stop := Nat.le_add_right ..

/-- What stands in a text parts it there. -/
theorem StandsIn.take_stop (h : c.StandsIn text) :
    text.take c.stop = text.take c.start ++ c.text.toList := by
  have hsplit := List.take_append_drop c.start (text.take c.stop)
  rwa [List.take_take, Nat.min_eq_left c.start_le_stop, h.text_eq, eq_comm] at hsplit

/-- What stands between two positions of a text does so. -/
theorem standsIn_between {p q : Nat} (hpq : p ≤ q) (hq : q ≤ text.length) :
    let c : Found := { text := .ofList ((text.take q).drop p), start := p }
    c.stop = q ∧ c.StandsIn text := by
  intro c
  have hstop : c.stop = q := by
    simp only [c, stop, String.length_ofList, List.length_drop, List.length_take]
    omega
  refine ⟨hstop, hstop ▸ hq, ?_⟩
  rw [hstop, String.toList_ofList]

end Found

namespace Pattern

open Regex

/-- What a pattern finds stands in the text. -/
theorem standsIn_of_findAtEnd {p : Pattern} {text : List Char} {f : Found}
    (h : p.findAtEnd text = some f) : f.StandsIn text := by
  unfold findAtEnd at h
  obtain ⟨cs, hcs, h⟩ := Option.bind_eq_some_iff.mp h
  obtain ⟨c, hc, h⟩ := Option.bind_eq_some_iff.mp h
  have hmem : c ∈ cs := by
    rw [Option.orElse_eq_orElse, Option.orElse_eq_or] at hc
    rcases Option.or_eq_some_iff.mp hc with hc | ⟨-, hc⟩
    · exact List.mem_of_find?_eq_some hc
    · exact List.mem_of_find?_eq_some hc
  obtain ⟨hle, hstop⟩ := Node.within_of_search hcs hmem
  cases h
  exact (Found.standsIn_between hle hstop).2

/-- What the last match tells stops where its first group does, and at the end of the text if that
took no part. -/
theorem stop_ofMatch {a : Node} {text : List Char} {s : Nat} {cs : Captures}
    (h : a.LastMatch text s cs) :
    (Found.ofMatch text s cs).stop = ((Captures.find? cs 1).map (·.stop)).getD text.length := by
  rw [Found.ofMatch]
  split
  · next c hc =>
    obtain ⟨-, hle, hstop⟩ := h.capture_within (List.mem_of_find?_eq_some hc)
    rw [hc]
    exact (Found.standsIn_between hle hstop).1
  · next hc =>
    have hbetween := Found.standsIn_between (Node.le_of_matches h.matches_end) (Nat.le_refl _)
    rw [List.take_length] at hbetween
    rw [hc]
    exact hbetween.1

/-- What a pattern finds gets to the end of the text unless the first group took part and stopped
before that. -/
theorem exists_lastMatch_stop {source : String} {a : Node} {p : Pattern} {text : List Char}
    {f : Found} (ha : Node.compile? source.toList = some a) (hp : compile? source = some p)
    (h : p.findAtEnd text = some f) :
    ∃ s cs, a.LastMatch text s cs ∧
      (f.stop = text.length ↔ ∀ k, Captures.find? cs 1 = some k → k.stop = text.length) := by
  obtain ⟨s, cs, hlast, rfl⟩ := exists_lastMatch_of_findAtEnd ha hp h
  refine ⟨s, cs, hlast, ?_⟩
  rw [stop_ofMatch hlast]
  cases Captures.find? cs 1 with
  | none => simp
  | some k => simp

end Pattern

/-! ## The completion -/

variable {δ : Type} [Deferral δ]

namespace Engine

variable {g : Engine δ} {b : Buffer}

/-- A completion that says that its candidate grew was decided by a scope in which nothing stands for
the candidate. -/
theorem exists_decides_of_partially {silent : Bool} {shared : String} {progressed : Bool}
    (h : (g.completeTag b silent).result = .ok (.partially shared progressed)) :
    ∃ s c, g.Decides b s c ∧ ∀ e, ¬ s.StandsFor c.text e := by
  cases hd : g.decision? b with
  | none =>
    rw [completeTag, hd] at h
    cases h
  | some d =>
    obtain ⟨s, hs⟩ := decides_of_decision? hd
    refine ⟨s, d.found, hs, fun e he => ?_⟩
    rw [(hs.completes silent).expanded e he] at h
    dsimp only at h
    cases hx : (Engine.insertTemplate _ _ e.template false).result with
    | ok x =>
      rw [hx] at h
      cases h
    | error err =>
      rw [hx] at h
      cases h

/-- Where nothing stands for a candidate in front of point, it grows at its end.  What stands between
it and point is removed. -/
theorem Decides.grows {s : Scope δ} {c : Found} (h : g.Decides b s c)
    (hnone : ∀ e, ¬ s.StandsFor c.text e) (hb : b.point ≤ b.length)
    (hstands : c.StandsIn (b.text.take b.point)) (silent : Bool) :
    let o := g.completeTag b silent
    ∃ more, o.result = .ok (.partially (.ofList (c.text.toList ++ more)) (decide (more ≠ []))) ∧
      o.buffer.text = b.text.take c.stop ++ more ++ b.text.drop b.point ∧
      o.buffer.point = c.stop + more.length := by
  intro o
  have hstop : c.stop ≤ b.point := Nat.le_trans hstands.stop_le (List.length_take_le ..)
  have hstart : c.start ≤ b.point := Nat.le_trans c.start_le_stop hstop
  obtain ⟨q, hshares, hresult, hkept⟩ := (h.completes silent).partially hnone
  obtain ⟨htext, hpoint⟩ := hkept hb
  obtain ⟨more, hmore⟩ := hshares.starts h.knows.known
  have hlength : q.length = c.text.length + more.length := by
    rw [← String.length_toList, ← hmore, List.length_append, String.length_toList]
  have htake : b.text.take c.stop = b.text.take c.start ++ c.text.toList := by
    have hsplit := hstands.take_stop
    rwa [List.take_take, List.take_take, Nat.min_eq_left hstop, Nat.min_eq_left hstart] at hsplit
  refine ⟨more, ?_, ?_, ?_⟩
  · have hgrows : c.text.length < q.length ↔ more ≠ [] := by
      rw [hlength, Nat.lt_add_right_iff_pos, List.length_pos_iff]
    rw [hmore, String.ofList_toList, show o.result = _ from hresult]
    simp only [hgrows]
  · rw [show o.buffer.text = _ from htext, Nat.min_eq_left hstart, ← hmore, htake,
      List.append_assoc _ _ more]
  · rw [show o.buffer.point = _ from hpoint, Nat.min_eq_left hstart, hlength, Found.stop,
      Nat.add_assoc]

end Engine

/-- A completion that grows its candidate puts what is new behind it and removes what stands between
the candidate and point.  So nothing is removed just if the candidate gets to point, and if the
candidate does not even grow, text and point stay as they are just then.  The candidate of a pattern
that is valid by itself gets to point unless the first group of the pattern took part in its last
match and stopped before that. -/
theorem completeTag_partially (g : Engine δ) (b : Buffer) (silent : Bool) (hb : b.point ≤ b.length)
    (hpatterns : ∀ s ∈ g.activeScopes b.id, ∃ p, s.finder = .pattern p) {shared : String}
    {progressed : Bool}
    (h : (g.completeTag b silent).result = .ok (.partially shared progressed)) :
    let o := g.completeTag b silent
    let before := b.text.take b.point
    ∃ s c more, g.Decides b s c ∧ c.StandsIn before ∧ shared.toList = c.text.toList ++ more ∧
      o.buffer.text = b.text.take c.stop ++ more ++ b.text.drop b.point ∧
      o.buffer.point = c.stop + more.length ∧
      (o.buffer.text = b.text.take c.stop ++ more ++ b.text.drop c.stop ↔ c.stop = b.point) ∧
      (progressed = false →
        (o.buffer.text = b.text ∧ o.buffer.point = b.point ↔ c.stop = b.point)) ∧
      ∀ source a p, s.finder = .pattern p → Pattern.compile? source = some p →
        Regex.Node.compile? source.toList = some a → ∃ m cs, a.LastMatch before m cs ∧
          (c.stop = b.point ↔ ∀ k, Regex.Captures.find? cs 1 = some k → k.stop = b.point) := by
  intro o before
  have hlength : before.length = b.point := by
    rw [List.length_take]
    exact Nat.min_eq_left hb
  obtain ⟨s, c, hdecides, hnone⟩ := Engine.exists_decides_of_partially h
  obtain ⟨p, hp⟩ : ∃ p, s.finder = .pattern p := by
    obtain ⟨above, below, hactive, -⟩ := hdecides.first
    exact hpatterns s (hactive ▸ List.mem_append_right _ List.mem_cons_self)
  have hfound : p.findAtEnd before = some c := by
    have hfind := hdecides.knows.found
    rwa [hp] at hfind
  have hstands := Pattern.standsIn_of_findAtEnd hfound
  have hstop : c.stop ≤ b.point := hlength ▸ hstands.stop_le
  obtain ⟨more, hresult, htext, hpoint⟩ := hdecides.grows hnone hb hstands silent
  obtain ⟨rfl, rfl⟩ : String.ofList (c.text.toList ++ more) = shared ∧
      decide (more ≠ []) = progressed := by
    simpa only [hresult, Except.ok.injEq, Completion.partially.injEq] using h
  refine ⟨s, c, more, hdecides, hstands, String.toList_ofList, htext, hpoint, ?_, fun hstays => ?_,
    ?_⟩
  · have hlength' : b.point ≤ b.text.length := hb
    rw [htext, List.append_right_inj, List.drop_eq_drop_iff]
    omega
  · obtain rfl : more = [] := by simpa using hstays
    rw [htext, hpoint, List.append_nil, List.length_nil, Nat.add_zero]
    constructor
    · exact fun hsame => hsame.2
    · intro heq
      rw [heq, List.take_append_drop]
      exact ⟨rfl, rfl⟩
  · intro source a p' hp' hsource ha
    obtain rfl : p = p' := Finder.pattern.inj (hp.symm.trans hp')
    obtain ⟨m, cs, hlast, hends⟩ := Pattern.exists_lastMatch_stop ha hsource hfound
    rw [hlength] at hends
    exact ⟨m, cs, hlast, hends⟩

/-- The pattern matches a semicolon behind its group.  The completion makes no progress and removes
the semicolon. -/
theorem completeTag_partially_short : ∃ p, Pattern.compile? "(a);" = some p ∧
    let t : Template Empty := ⟨"t", []⟩
    let g : Engine Empty :=
      { global := ⟨Scope.globalName, .pattern p, [⟨"ab", t⟩, ⟨"ac", t⟩]⟩ }
    let b : Buffer := { id := 0, text := ['x', 'a', ';', 'y'], point := 3 }
    let o := g.completeTag b true
    (b.point ≤ b.length ∧ (∀ s ∈ g.activeScopes b.id, ∃ p, s.finder = .pattern p) ∧
      o.result = .ok (.partially "a" false)) ∧
      (∃ s c, g.Decides b s c ∧ c.StandsIn ['x', 'a', ';'] ∧ c.stop ≠ b.point) ∧
      o.buffer.text = ['x', 'a', 'y'] ∧ o.buffer.point = 2 := by
  have hrun : ((Pattern.compile? "(a);").map fun p =>
      let t : Template Empty := ⟨"t", []⟩
      let g : Engine Empty :=
        { global := ⟨Scope.globalName, .pattern p, [⟨"ab", t⟩, ⟨"ac", t⟩]⟩ }
      let o := g.completeTag { id := 0, text := ['x', 'a', ';', 'y'], point := 3 } true
      (o.result.toOption, o.buffer.text, o.buffer.point)) =
      some (some (.partially "a" false), ['x', 'a', 'y'], 2) := by decide +kernel
  obtain ⟨p, hp, hrun⟩ := Option.map_eq_some_iff.mp hrun
  obtain ⟨hresult, htext, hpoint⟩ : _ = _ ∧ _ = _ ∧ _ = _ := by
    simpa only [Prod.mk.injEq] using hrun
  refine ⟨p, hp, ?_⟩
  intro t g b o
  have hb : b.point ≤ b.length := by decide
  have hpatterns : ∀ s ∈ g.activeScopes b.id, ∃ p, s.finder = .pattern p := by
    intro s hs
    obtain rfl := List.mem_singleton.mp hs
    exact ⟨p, rfl⟩
  have hresult : o.result = .ok (.partially "a" false) := Outcome.result_eq_ok hresult
  obtain ⟨s, c, more, hdecides, hstands, -, -, -, -, hstays, -⟩ :=
    completeTag_partially g b true hb hpatterns hresult
  refine ⟨⟨hb, hpatterns, hresult⟩, ⟨s, c, hdecides, hstands, fun hstop => ?_⟩, htext, hpoint⟩
  have hsame : o.buffer.point = b.point := ((hstays rfl).mpr hstop).2
  rw [show o.buffer.point = 2 from hpoint] at hsame
  cases hsame

/-- A completion that makes no progress changes the text: what stands between the candidate and point
is gone, and point has moved. -/
theorem partially_without_progress_removes :
    ∃ (g : Engine Empty) (b : Buffer), b.point ≤ b.length ∧
      (∀ s ∈ g.activeScopes b.id, ∃ source p, Pattern.compile? source = some p ∧
        s.finder = .pattern p) ∧
      (g.completeTag b true).result.toOption = some (.partially "a" false) ∧
      b.text = ['a', ';'] ∧ (g.completeTag b true).buffer.text = ['a'] ∧
      b.point = 2 ∧ (g.completeTag b true).buffer.point = 1 := by
  have hrun : ((Pattern.compile? "(a);").map fun p =>
      let t : Template Empty := ⟨"t", []⟩
      let g : Engine Empty :=
        { global := ⟨Scope.globalName, .pattern p, [⟨"ab", t⟩, ⟨"ac", t⟩]⟩ }
      let o := g.completeTag { id := 0, text := ['a', ';'], point := 2 } true
      (o.result.toOption, o.buffer.text, o.buffer.point)) =
      some (some (.partially "a" false), ['a'], 1) := by decide +kernel
  obtain ⟨p, hp, hrun⟩ := Option.map_eq_some_iff.mp hrun
  obtain ⟨hresult, htext, hpoint⟩ : _ = _ ∧ _ = _ ∧ _ = _ := by
    simpa only [Prod.mk.injEq] using hrun
  refine ⟨_, _, by decide, fun s hs => ?_, hresult, rfl, htext, rfl, hpoint⟩
  obtain rfl := List.mem_singleton.mp hs
  exact ⟨_, p, hp, rfl⟩

end TextTemplate
