import TextTemplate.Engine.Complete
import TextTemplate.Proofs.Effects

/-!
# What a completion decides

A scope *knows* a candidate if its finder yields it and one of its tags starts with it.  The first
active scope that knows its candidate decides (`Engine.Decides`), and scopes with a candidate that
they do not know are passed over.  A decision is about a single entry where one *stands for* the
candidate, and about what the tags have in common where none does.

None of this mentions `classify` or `decision?`; the main statement `completeTag_decision` says that
`completeTag` comes to the same.
-/

namespace TextTemplate

variable {δ : Type}

/-! ## Candidates and tags -/

namespace Scope

/-- The finder yields a candidate in a buffer, and a tag starts with it. -/
structure Knows (s : Scope δ) (b : Buffer) (c : Found) : Prop where
  found : s.finder.find b = some c
  known : ∃ e ∈ s.tags, c.text.toList <+: e.tag.toList

/-- An entry is the first one with a candidate as its tag, or it is the only one whose tag starts
with the candidate. -/
inductive StandsFor (s : Scope δ) (lead : String) (e : TagEntry δ) : Prop where
  | exact {before after : List (TagEntry δ)} (tags : s.tags = before ++ e :: after)
      (tag : e.tag = lead) (first : ∀ e' ∈ before, e'.tag ≠ lead)
  | only {before after : List (TagEntry δ)} (tags : s.tags = before ++ e :: after)
      (starts : lead.toList <+: e.tag.toList)
      (others : ∀ e' ∈ before ++ after, ¬ lead.toList <+: e'.tag.toList)

/-- A text is the longest one that the tags have in common that start with a candidate. -/
structure Shares (s : Scope δ) (lead p : String) : Prop where
  common : ∀ e ∈ s.tags, lead.toList <+: e.tag.toList → p.toList <+: e.tag.toList
  longest : ∀ q : List Char, (∀ e ∈ s.tags, lead.toList <+: e.tag.toList → q <+: e.tag.toList) →
    q.length ≤ p.length

variable {s : Scope δ} {lead : String} {e : TagEntry δ}

theorem lookup_eq_some_iff : s.lookup lead = some e ↔
    ∃ before after, s.tags = before ++ e :: after ∧ e.tag = lead ∧
      ∀ e' ∈ before, e'.tag ≠ lead := by
  rw [lookup, List.find?_eq_some_iff_append]
  constructor
  · rintro ⟨htag, before, after, htags, hfirst⟩
    exact ⟨before, after, htags, by simpa using htag, fun e' he' => by simpa using hfirst e' he'⟩
  · rintro ⟨before, after, htags, htag, hfirst⟩
    exact ⟨by simpa using htag, before, after, htags, fun e' he' => by simpa using hfirst e' he'⟩

@[simp] theorem mem_candidates {e : TagEntry δ} :
    e ∈ s.candidates lead ↔ e ∈ s.tags ∧ lead.toList <+: e.tag.toList := by
  simp [candidates]

theorem candidates_eq_nil_iff :
    s.candidates lead = [] ↔ ∀ e ∈ s.tags, ¬ lead.toList <+: e.tag.toList := by
  simp [candidates]

theorem candidates_eq_singleton_iff : s.candidates lead = [e] ↔
    ∃ before after, s.tags = before ++ e :: after ∧ lead.toList <+: e.tag.toList ∧
      ∀ e' ∈ before ++ after, ¬ lead.toList <+: e'.tag.toList := by
  rw [candidates, List.filter_eq_cons_iff]
  simp only [List.isPrefixOf_iff_prefix, List.filter_eq_nil_iff, List.forall_mem_append]
  constructor
  · rintro ⟨before, after, htags, hbefore, hstarts, hafter⟩
    exact ⟨before, after, htags, hstarts, hbefore, hafter⟩
  · rintro ⟨before, after, htags, hstarts, hbefore, hafter⟩
    exact ⟨before, after, htags, hbefore, hstarts, hafter⟩

/-! ### Classification -/

theorem classify_eq_none_iff :
    s.classify lead = .none ↔ ∀ e ∈ s.tags, ¬ lead.toList <+: e.tag.toList := by
  rw [← candidates_eq_nil_iff, classify]
  constructor
  · intro h
    split at h
    · cases h
    · split at h
      · assumption
      · cases h
      · cases h
  · intro h
    have hlookup : s.lookup lead = none := by
      refine List.find?_eq_none.mpr fun e he htag => ?_
      have htag : e.tag = lead := by simpa using htag
      exact candidates_eq_nil_iff.mp h e he (htag ▸ List.prefix_rfl)
    rw [hlookup, h]

/-- What stands for a candidate is found, be it as a tag or as the only one that starts so. -/
theorem StandsFor.classify (h : s.StandsFor lead e) :
    s.classify lead = .exact e ∨ s.classify lead = .unique e := by
  cases h with
  | exact tags tag first =>
    left
    rw [Scope.classify, lookup_eq_some_iff.mpr ⟨_, _, tags, tag, first⟩]
  | @only before after tags starts others =>
    rw [Scope.classify]
    cases hlookup : s.lookup lead with
    | none =>
      right
      rw [candidates_eq_singleton_iff.mpr ⟨_, _, tags, starts, others⟩]
    | some e' =>
      -- A tag that is the candidate starts with it, so it is the only one that does.
      left
      obtain ⟨before', after', htags, htag, -⟩ := lookup_eq_some_iff.mp hlookup
      have hmem : e' ∈ before ++ e :: after := by
        rw [← tags, htags]
        exact List.mem_append_right _ List.mem_cons_self
      have hnot : e' ∉ before ++ after := fun hother => others e' hother (htag ▸ List.prefix_rfl)
      rw [List.mem_append, not_or] at hnot
      rw [List.mem_append, List.mem_cons] at hmem
      rcases hmem with hbefore | rfl | hafter
      · exact absurd hbefore hnot.1
      · rfl
      · exact absurd hafter hnot.2

/-- Where tags start with a candidate and none of them stands for it, there are several of them. -/
theorem classify_of_not_standsFor (hknown : ∃ e ∈ s.tags, lead.toList <+: e.tag.toList)
    (hnone : ∀ e, ¬ s.StandsFor lead e) :
    s.classify lead = .ambiguous (shared (s.candidates lead)) := by
  rw [Scope.classify]
  split
  · next e hlookup =>
    obtain ⟨before, after, tags, tag, first⟩ := lookup_eq_some_iff.mp hlookup
    exact absurd (.exact tags tag first) (hnone e)
  · split
    · next hnil =>
      obtain ⟨e, he, hstarts⟩ := hknown
      exact absurd hstarts (candidates_eq_nil_iff.mp hnil e he)
    · next e hone =>
      obtain ⟨before, after, tags, starts, others⟩ := candidates_eq_singleton_iff.mp hone
      exact absurd (.only tags starts others) (hnone e)
    · rfl

/-- What the candidates have in common is the longest such text. -/
theorem prefix_shared_candidates (hknown : ∃ e ∈ s.tags, lead.toList <+: e.tag.toList)
    {q : List Char} : q <+: (shared (s.candidates lead)).toList ↔
      ∀ e ∈ s.tags, lead.toList <+: e.tag.toList → q <+: e.tag.toList := by
  have hne : (s.candidates lead).map (fun e => e.tag.toList) ≠ [] := by
    obtain ⟨e, he, hstarts⟩ := hknown
    exact List.ne_nil_of_mem (List.mem_map_of_mem (mem_candidates.mpr ⟨he, hstarts⟩))
  rw [shared, String.toList_ofList, Text.prefix_commonInitial_iff hne, List.forall_mem_map]
  simp only [mem_candidates, and_imp]

theorem shares_shared_candidates (hknown : ∃ e ∈ s.tags, lead.toList <+: e.tag.toList) :
    s.Shares lead (shared (s.candidates lead)) where
  common := (prefix_shared_candidates hknown).mp List.prefix_rfl
  longest q hq := by
    have h := ((prefix_shared_candidates hknown).mpr hq).length_le
    rwa [String.length_toList] at h

/-- What tags have in common that start with a candidate starts with it, too. -/
theorem Shares.starts {p : String} (h : s.Shares lead p)
    (hknown : ∃ e ∈ s.tags, lead.toList <+: e.tag.toList) : lead.toList <+: p.toList := by
  obtain ⟨e, he, hstarts⟩ := hknown
  refine List.prefix_of_prefix_length_le hstarts (h.common e he hstarts) ?_
  rw [String.length_toList (s := p)]
  exact h.longest lead.toList fun _ _ hstarts => hstarts

/-- What tags have in common that start with a candidate is longer than it or the same. -/
theorem Shares.ne_iff_length_lt {p : String} (h : s.Shares lead p)
    (hknown : ∃ e ∈ s.tags, lead.toList <+: e.tag.toList) :
    p ≠ lead ↔ lead.length < p.length := by
  have hlead := h.starts hknown
  constructor
  · intro hne
    have hle := hlead.length_le
    rw [String.length_toList, String.length_toList] at hle
    refine Nat.lt_of_le_of_ne hle fun hlen => hne ?_
    have heq : lead.toList = p.toList :=
      hlead.eq_of_length (by rw [String.length_toList, String.length_toList, hlen])
    exact (String.toList_inj.mp heq).symm
  · rintro hlt rfl
    exact Nat.lt_irrefl _ hlt

/-! ### Decisions -/

variable {b : Buffer} {c : Found}

theorem decision?_eq_none_iff : s.decision? b = none ↔ ∀ c, ¬ s.Knows b c := by
  unfold decision?
  constructor
  · intro h c hc
    have hnone : s.classify c.text = .none := by
      cases hclass : s.classify c.text <;> simp [hc.found, hclass] at h ⊢
    obtain ⟨e, he, hstarts⟩ := hc.known
    exact classify_eq_none_iff.mp hnone e he hstarts
  · intro h
    cases hfind : s.finder.find b with
    | none => rfl
    | some c =>
      have hnone : s.classify c.text = .none :=
        classify_eq_none_iff.mpr fun e he hstarts => h c ⟨hfind, e, he, hstarts⟩
      simp [hnone]

/-- A scope decides for the entry that stands for its candidate. -/
theorem StandsFor.decision? (h : s.StandsFor c.text e) (hc : s.Knows b c) :
    s.decision? b = some (.expand e c) := by
  unfold Scope.decision?
  rcases h.classify with hclass | hclass <;> simp [hc.found, hclass]

/-- If nothing stands for its candidate, a scope decides for what its tags have in common. -/
theorem decision?_of_not_standsFor (hc : s.Knows b c) (hnone : ∀ e, ¬ s.StandsFor c.text e) :
    s.decision? b = some (.extend (shared (s.candidates c.text)) c) := by
  unfold decision?
  simp [hc.found, classify_of_not_standsFor hc.known hnone]

/-- A scope knows the candidate that it decides about. -/
theorem knows_of_decision? {d : Decision δ} (h : s.decision? b = some d) : s.Knows b d.found := by
  unfold decision? at h
  cases hfind : s.finder.find b with
  | none =>
    rw [hfind] at h
    cases h
  | some c =>
    simp only [hfind, Option.bind_eq_bind, Option.bind_some] at h
    have hfound : d.found = c := by
      split at h <;> cases h <;> rfl
    have hknown : ∃ e ∈ s.tags, c.text.toList <+: e.tag.toList := by
      refine Classical.byContradiction fun hnone => ?_
      have hclass : s.classify c.text = .none :=
        classify_eq_none_iff.mpr fun e he hstarts => hnone ⟨e, he, hstarts⟩
      rw [hclass] at h
      cases h
    exact hfound ▸ ⟨hfind, hknown⟩

/-! ### Candidates that are tags -/

/-- The finder yields a candidate in a buffer, and the candidate is a tag. -/
structure KnowsExactly (s : Scope δ) (b : Buffer) (c : Found) : Prop where
  found : s.finder.find b = some c
  tag : ∃ e ∈ s.tags, e.tag = c.text

theorem exactMatch?_eq_none_iff : s.exactMatch? b = none ↔ ∀ c, ¬ s.KnowsExactly b c := by
  unfold exactMatch?
  constructor
  · rintro h c ⟨hfind, e, he, htag⟩
    have hlookup : s.lookup c.text = none := by
      cases hlookup : s.lookup c.text with
      | none => rfl
      | some e' => simp [hfind, hlookup] at h
    exact List.find?_eq_none.mp hlookup e he (by simpa using htag)
  · intro h
    cases hfind : s.finder.find b with
    | none => rfl
    | some c =>
      have hlookup : s.lookup c.text = none :=
        List.find?_eq_none.mpr fun e he htag => h c ⟨hfind, e, he, by simpa using htag⟩
      simp [hlookup]

theorem knowsExactly_of_exactMatch? {e : TagEntry δ} (h : s.exactMatch? b = some (e, c)) :
    s.KnowsExactly b c := by
  unfold exactMatch? at h
  cases hfind : s.finder.find b with
  | none =>
    rw [hfind] at h
    cases h
  | some c' =>
    cases hlookup : s.lookup c'.text with
    | none => simp [hfind, hlookup] at h
    | some e' =>
      simp only [hfind, hlookup, Option.bind_eq_bind, Option.bind_some, Option.pure_def,
        Option.some.injEq, Prod.mk.injEq] at h
      obtain ⟨rfl, rfl⟩ := h
      refine ⟨hfind, e', List.mem_of_find?_eq_some hlookup, ?_⟩
      simpa using List.find?_some hlookup

end Scope

namespace Engine

/-- A scope is the first active one that knows its candidate. -/
structure Decides (g : Engine δ) (b : Buffer) (s : Scope δ) (c : Found) : Prop where
  knows : s.Knows b c
  first : ∃ above below, g.activeScopes b.id = above ++ s :: below ∧
    ∀ s' ∈ above, ∀ c', ¬ s'.Knows b c'

variable {g : Engine δ} {b : Buffer} {s : Scope δ} {c : Found}

theorem decision?_eq_none_iff :
    g.decision? b = none ↔ ∀ s ∈ g.activeScopes b.id, ∀ c, ¬ s.Knows b c := by
  simp only [decision?, List.findSome?_eq_none_iff, Scope.decision?_eq_none_iff]

/-- The decision is that of the scope that decides. -/
theorem Decides.decision? (h : g.Decides b s c) : g.decision? b = s.decision? b := by
  obtain ⟨above, below, hactive, habove⟩ := h.first
  have hpassed : above.findSome? (fun s => s.decision? b) = none :=
    List.findSome?_eq_none_iff.mpr fun s' hs' => Scope.decision?_eq_none_iff.mpr (habove s' hs')
  have hsome : s.decision? b ≠ none := fun hnone =>
    Scope.decision?_eq_none_iff.mp hnone c h.knows
  obtain ⟨d, hd⟩ := Option.ne_none_iff_exists'.mp hsome
  rw [Engine.decision?, hactive, List.findSome?_append, hpassed, Option.none_or,
    List.findSome?_cons, hd]

/-- What is decided is decided by a scope. -/
theorem decides_of_decision? {d : Decision δ} (h : g.decision? b = some d) :
    ∃ s, g.Decides b s d.found := by
  obtain ⟨above, s, below, hactive, hs, habove⟩ := List.findSome?_eq_some_iff.mp h
  refine ⟨s, Scope.knows_of_decision? hs, above, below, hactive, fun s' hs' => ?_⟩
  exact Scope.decision?_eq_none_iff.mp (habove s' hs')

/-- A scope is the first active one whose candidate is one of its tags. -/
structure DecidesExactly (g : Engine δ) (b : Buffer) (s : Scope δ) (c : Found) : Prop where
  knows : s.KnowsExactly b c
  first : ∃ above below, g.activeScopes b.id = above ++ s :: below ∧
    ∀ s' ∈ above, ∀ c', ¬ s'.KnowsExactly b c'

theorem exactMatch?_eq_none_iff :
    g.exactMatch? b = none ↔ ∀ s ∈ g.activeScopes b.id, ∀ c, ¬ s.KnowsExactly b c := by
  simp only [exactMatch?, List.findSome?_eq_none_iff, Scope.exactMatch?_eq_none_iff]

theorem decidesExactly_of_exactMatch? {e : TagEntry δ} (h : g.exactMatch? b = some (e, c)) :
    ∃ s, g.DecidesExactly b s c := by
  obtain ⟨above, s, below, hactive, hs, habove⟩ := List.findSome?_eq_some_iff.mp h
  refine ⟨s, Scope.knowsExactly_of_exactMatch? hs, above, below, hactive, fun s' hs' => ?_⟩
  exact Scope.exactMatch?_eq_none_iff.mp (habove s' hs')

/-! ### The active order -/

theorem activeScopes_setState (g : Engine δ) (id : BufferId) (st : BufferState) :
    (g.setState id st).activeScopes id = st.scopes.filterMap g.scopes.get? ++ [g.global] := by
  rw [activeScopes, stateOf_setState, if_pos rfl]
  rfl

/-- A scope other than the global one is in the table of scopes. -/
theorem get?_scopes {name : String} (hglobal : name ≠ Scope.globalName)
    (h : g.scope name = .ok s) : g.scopes.get? name = some s := by
  rw [scope, if_neg hglobal] at h
  cases hname : g.scopes.get? name with
  | none => simp [hname] at h
  | some s' => simpa [hname] using h

/-- A scope that is not installed yet is installed in front of the others, and the global one is not
installed at all. -/
theorem activeScopes_useScope {g g' : Engine δ} {id : BufferId} {name : String}
    (h : g.useScope id name = .ok g') : ∃ s, g.scope name = .ok s ∧ g'.activeScopes id =
      if name = Scope.globalName ∨ name ∈ (g.stateOf id).scopes then g.activeScopes id
      else s :: g.activeScopes id := by
  obtain ⟨s, hscope, ⟨hglobal, rfl⟩ | ⟨hglobal, scopes, rfl, hscopes⟩⟩ := useScope_cases h
  · exact ⟨s, hscope, by rw [if_pos (.inl hglobal)]⟩
  · have hget := get?_scopes hglobal hscope
    refine ⟨s, hscope, ?_⟩
    rw [activeScopes_setState]
    simp only [hglobal, false_or, hscopes]
    split
    · rfl
    · rw [List.filterMap_cons_some hget]
      rfl

/-! ### The candidate -/

/-- The text from where the candidate starts to point is removed; nothing is if it starts there or
behind. -/
theorem text_deleteCandidate (g : Engine δ) (b : Buffer) (c : Found) :
    (g.deleteCandidate b c).2.text =
      b.text.take (min c.start b.point) ++ b.text.drop b.point := by
  unfold deleteCandidate
  split
  · next hle => rw [Nat.min_eq_right hle, List.take_append_drop]
  · next hlt =>
    rw [Buffer.text_deleteRange, Nat.max_eq_right (Nat.le_of_not_le hlt)]

/-- Point is where the candidate started. -/
theorem point_deleteCandidate (g : Engine δ) {b : Buffer} (hb : b.point ≤ b.length) (c : Found) :
    (g.deleteCandidate b c).2.point = min c.start b.point := by
  unfold deleteCandidate
  split
  · next hle => rw [Nat.min_eq_right hle]
  · next hlt =>
    have hstart : min c.start b.point = c.start := Nat.min_eq_left (Nat.le_of_not_le hlt)
    have hstop : min (max c.start b.point) b.length = b.point := by omega
    have hne : ¬ b.point ≤ c.start := hlt
    simp only [Buffer.deleteRange, hstart, hstop, if_neg hne, Buffer.removeBetween,
      Buffer.point_follow, Edit.adjust]
    grind

@[simp] theorem dings_deleteCandidate (g : Engine δ) (b : Buffer) (c : Found) :
    (g.deleteCandidate b c).2.dings = b.dings := by
  unfold deleteCandidate
  split
  · rfl
  · exact b.dings_deleteRange _ _

variable [Deferral δ]

/-- Expansions do not ding. -/
@[simp] theorem dings_insertTemplate (g : Engine δ) (b : Buffer) (t : Template δ)
    (onRegion : Bool) : (g.insertTemplate b t onRegion).buffer.dings = b.dings := by
  cases hstart : startOfRegion b onRegion with
  | error e => simp only [insertTemplate, hstart]
  | ok p =>
    obtain ⟨c, regionEnd⟩ := p
    obtain ⟨err, hfinish⟩ := g.insertTemplate_eq_finish t hstart
    have hwork := (g.startWork c regionEnd).dings_performAll (g.effects b t onRegion)
    rw [hfinish]
    cases err <;> exact hwork.trans (dings_startOfRegion hstart)

end Engine

/-! ## The completion -/

/-- Two outcomes differ at most in how often the buffer has dinged. -/
structure Outcome.SameButDings {α : Type} (o o' : Outcome δ α) : Prop where
  engine : o'.engine = o.engine
  buffer : { o'.buffer with dings := o.buffer.dings } = o.buffer
  result : o'.result = o.result

/-- No scope knows its candidate, or the candidate does not grow. -/
def Completion.gotNowhere : Except Error Completion → Bool
  | .ok .noMatch => true
  | .ok (.partially _ progressed) => !progressed
  | _ => false

variable [Deferral δ]

/-- What is left and answered by a completion once a scope has decided about a candidate. -/
structure Completes (g : Engine δ) (b : Buffer) (s : Scope δ) (c : Found)
    (o : Outcome δ Completion) : Prop where
  /-- The candidate is removed up to point, and point is where it started. -/
  removed : let b' := (g.deleteCandidate b c).2
    b'.text = b.text.take (min c.start b.point) ++ b.text.drop b.point ∧
      (b.point ≤ b.length → b'.point = min c.start b.point)
  /-- The template of the entry that stands for the candidate is expanded in its place. -/
  expanded : ∀ e, s.StandsFor c.text e →
    let r := g.deleteCandidate b c
    let x := r.1.insertTemplate r.2 e.template false
    o = ⟨x.engine, x.buffer, x.result.map (.expanded e.tag)⟩
  /-- Otherwise the candidate grows to what tags have in common. -/
  partially : (∀ e, ¬ s.StandsFor c.text e) → ∃ p, s.Shares c.text p ∧
    o.result = .ok (.partially p (decide (c.text.length < p.length))) ∧
    (b.point ≤ b.length →
      o.buffer.text = b.text.take (min c.start b.point) ++ p.toList ++ b.text.drop b.point ∧
        o.buffer.point = min c.start b.point + p.length)

namespace Engine

variable {g : Engine δ} {b : Buffer} {s : Scope δ} {c : Found}

theorem Decides.completes (h : g.Decides b s c) (silent : Bool) :
    Completes g b s c (g.completeTag b silent) where
  removed := ⟨g.text_deleteCandidate b c, fun hb => g.point_deleteCandidate hb c⟩
  expanded e he := by
    rw [completeTag, h.decision?, he.decision? h.knows]
  partially hnone := by
    have hshares := Scope.shares_shared_candidates h.knows.known
    have hgrows := hshares.ne_iff_length_lt h.knows.known
    rw [completeTag, h.decision?, Scope.decision?_of_not_standsFor h.knows hnone]
    refine ⟨_, hshares, by simp only [hgrows], fun hb => ?_⟩
    have hpoint := g.point_deleteCandidate hb c
    have hlen : min c.start b.point = (b.text.take (min c.start b.point)).length := by
      rw [List.length_take]
      exact (Nat.min_eq_left (Nat.le_trans (Nat.min_le_right ..) hb)).symm
    have hins := Buffer.text_insertText_between (g.text_deleteCandidate b c) (hpoint.trans hlen)
      (Scope.shared (s.candidates c.text)).toList
    have hend := (g.deleteCandidate b c).2.point_insertText
      (Scope.shared (s.candidates c.text)).toList
    rw [hpoint, String.length_toList] at hend
    dsimp only
    split <;> exact ⟨hins, hend⟩

/-- Whether a completion is silent shows in the dings alone. -/
theorem completeTag_sameButDings (g : Engine δ) (b : Buffer) (silent silent' : Bool) :
    (g.completeTag b silent).SameButDings (g.completeTag b silent') := by
  unfold completeTag
  rcases g.decision? b with _ | ⟨e, c⟩ | ⟨p, c⟩
  · cases silent <;> cases silent' <;> exact ⟨rfl, rfl, rfl⟩
  · exact ⟨rfl, rfl, rfl⟩
  · refine ⟨rfl, ?_, rfl⟩
    dsimp only
    split <;> split <;> rfl

theorem dings_completeTag (g : Engine δ) (b : Buffer) (silent : Bool) :
    let o := g.completeTag b silent
    o.buffer.dings = b.dings + if !silent && Completion.gotNowhere o.result then 1 else 0 := by
  unfold completeTag
  rcases g.decision? b with _ | ⟨e, c⟩ | ⟨p, c⟩
  · cases silent <;> rfl
  · have hdings : ((g.deleteCandidate b c).1.insertTemplate (g.deleteCandidate b c).2 e.template
        false).buffer.dings = b.dings := by rw [dings_insertTemplate, dings_deleteCandidate]
    have hanswer (r : Except Error Expansion) :
        Completion.gotNowhere (r.map (.expanded e.tag)) = false := by cases r <;> rfl
    simp only [hdings, hanswer, Bool.and_false]
    rfl
  · simp only [Completion.gotNowhere]
    by_cases hp : p = c.text <;> cases silent <;> simp [hp]

end Engine

/-- A completion is decided by the first active scope whose finder yields a candidate that one of its
tags starts with; without such a scope it leaves everything as it is.  The global scope is the last
one, and the scope installed last is the first one.  Whether a completion is silent shows in the
dings alone: there is one more if it is not and the completion gets nowhere. -/
theorem completeTag_decision (g : Engine δ) (b : Buffer) (silent : Bool) :
    let o := g.completeTag b silent
    ((∃ installed, g.activeScopes b.id = installed ++ [g.global]) ∧
      ∀ name g', g.useScope b.id name = .ok g' → ∃ s, g.scope name = .ok s ∧ g'.activeScopes b.id =
        if name = Scope.globalName ∨ name ∈ (g.stateOf b.id).scopes then g.activeScopes b.id
        else s :: g.activeScopes b.id) ∧
      ((∀ s ∈ g.activeScopes b.id, ∀ c, ¬ s.Knows b c) →
        o.result = .ok .noMatch ∧ o.engine = g ∧ o.buffer.text = b.text ∧
          o.buffer.point = b.point ∧ o.buffer.mark = b.mark) ∧
      (∀ s c, g.Decides b s c → Completes g b s c o) ∧
      (∀ silent', o.SameButDings (g.completeTag b silent')) ∧
      o.buffer.dings = b.dings + if !silent && Completion.gotNowhere o.result then 1 else 0 := by
  intro o
  refine ⟨⟨⟨_, rfl⟩, fun name g' h => Engine.activeScopes_useScope h⟩, fun hnone => ?_,
    fun s c h => h.completes silent, fun silent' => g.completeTag_sameButDings b silent silent',
    g.dings_completeTag b silent⟩
  have ho : o = ⟨g, if silent then b else b.ding, .ok .noMatch⟩ := by
    simp only [o, Engine.completeTag, Engine.decision?_eq_none_iff.mpr hnone]
  rw [ho]
  cases silent <;> exact ⟨rfl, rfl, rfl, rfl, rfl⟩

/-- The candidate of the first scope starts none of its tags.  That of the second one is a tag, and
also starts another tag that was added before. -/
theorem completeTag_decision_second_scope :
    let t : Template Empty := ⟨"t", [.text "(", .point, .text ")"]⟩
    let find (c : Found) : Finder := .function fun _ => some c
    let first : Scope Empty := ⟨"first", find ⟨"x", 0⟩, [⟨"a", t⟩]⟩
    let second : Scope Empty := ⟨"second", find ⟨"a", 1⟩, [⟨"ab", ⟨"u", []⟩⟩, ⟨"a", t⟩]⟩
    let g : Engine Empty :=
      { scopes := ⟨[("first", first), ("second", second)]⟩
        buffers := ⟨[(0, { scopes := ["first", "second"] })]⟩ }
    let b : Buffer := { id := 0, text := ['x', 'a', 'y'], point := 2 }
    let o := g.completeTag b false
    g.Decides b second ⟨"a", 1⟩ ∧ second.StandsFor "a" ⟨"a", t⟩ ∧
      o.result.toOption = some (.expanded "a" ⟨1, 3, 2⟩) ∧ o.buffer.text = ['x', '(', ')', 'y'] := by
  intro t find first second g b o
  have decides : g.Decides b second ⟨"a", 1⟩ := by
    refine ⟨⟨rfl, ⟨"a", t⟩, by simp [second], List.prefix_rfl⟩, [first], [g.global], rfl, ?_⟩
    intro s hs c hc
    obtain rfl := List.mem_singleton.mp hs
    obtain rfl : ⟨"x", 0⟩ = c := Option.some.inj hc.found
    obtain ⟨e, he, hstarts⟩ := hc.known
    obtain rfl := List.mem_singleton.mp he
    revert hstarts
    decide
  have tags : second.tags = [⟨"ab", ⟨"u", []⟩⟩] ++ ⟨"a", t⟩ :: [] := rfl
  have stands : second.StandsFor "a" ⟨"a", t⟩ := .exact tags rfl (by simp)
  obtain ⟨-, -, completes, -, -⟩ := completeTag_decision g b false
  have ho := (completes second ⟨"a", 1⟩ decides).expanded _ stands
  refine ⟨decides, stands, ?_, ?_⟩
  · rw [show o = _ from ho]
    decide
  · rw [show o = _ from ho]
    decide

end TextTemplate
