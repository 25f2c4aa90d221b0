import TextTemplate.Proofs.Completion
import TextTemplate.Proofs.Growth
import Mathlib.Data.Finset.Card
import Mathlib.Data.List.Basic

/-!
# What a candidate is

Tags are added one after the other, and of several with one name the first one counts.  What a
scope makes of a candidate depends on nothing else: on the entry that was added first for each tag
(`classify_congr`), and on how many different tags start with the candidate (`classified`).  Where
there are several, the candidate becomes what they have in common, and that is as far as it goes:
classified again, it is a tag or stays what it is (`classify_of_ambiguous`).
-/

namespace TextTemplate

variable {δ : Type}

namespace Scope

/-! ## Adding tags -/

/-- The scope after some tags have been added, in order. -/
def addAll (s : Scope δ) (added : List (TagEntry δ)) : Scope δ :=
  added.foldl (fun s e => (s.addTag e.tag e.template).1) s

/-- The entry that was added first for a tag. -/
def firstAdded? (added : List (TagEntry δ)) (tag : String) : Option (TagEntry δ) :=
  added.find? (·.tag = tag)

/-- The different tags among those added that start with a candidate. -/
def tagsFrom (added : List (TagEntry δ)) (lead : String) : Finset String :=
  (added.map (·.tag)).toFinset.filter (lead.toList <+: ·.toList)

/-- What a candidate is, told by the tags that were added. -/
structure Classified (added : List (TagEntry δ)) (lead : String) (r : Classification δ) :
    Prop where
  /-- It is a tag: what was added first for it is told. -/
  exact : ∀ e, r = .exact e ↔ firstAdded? added lead = some e
  /-- No tag starts with it. -/
  noTag : r = .none ↔ (tagsFrom added lead).card = 0
  /-- It is no tag, but just one starts with it. -/
  oneTag : (∃ e, r = .unique e) ↔ lead ∉ added.map (·.tag) ∧ (tagsFrom added lead).card = 1
  /-- That one is told, with what was added first for it. -/
  theTag : ∀ e, r = .unique e → tagsFrom added lead = {e.tag} ∧ firstAdded? added e.tag = some e
  /-- It is no tag, and several start with it. -/
  moreTags : (∃ p, r = .ambiguous p) ↔ lead ∉ added.map (·.tag) ∧ 2 ≤ (tagsFrom added lead).card
  /-- What these have in common is told: it goes on from the candidate, and it is the longest text
  that they all start with. -/
  shared : ∀ p, r = .ambiguous p → lead.toList <+: p.toList ∧
    ∀ q : List Char, q <+: p.toList ↔ ∀ tag ∈ tagsFrom added lead, q <+: tag.toList

/-- Other tags are added in another order; what is added for one tag keeps its order. -/
def Reordered (added added' : List (TagEntry δ)) : Prop :=
  ∀ tag : String, added'.filter (·.tag = tag) = added.filter (·.tag = tag)

variable {s s' : Scope δ} {added : List (TagEntry δ)} {lead : String}

/-- The tags of a scope all differ. -/
def Distinct (s : Scope δ) : Prop := s.tags.Pairwise fun e e' => e.tag ≠ e'.tag

theorem Distinct.addAll (h : s.Distinct) (added : List (TagEntry δ)) :
    (s.addAll added).Distinct := by
  induction added generalizing s with
  | nil => exact h
  | cons e added ih =>
    refine ih (s := (s.addTag e.tag e.template).1) ?_
    have hnew := pairwise_appendNew TagEntry.sameTag
      (h.imp fun hne => TagEntry.sameTag_eq_false.mpr hne) e
    rw [Distinct, tags_addTag]
    exact hnew.imp TagEntry.sameTag_eq_false.mp

/-- The entry of a tag is the one that was there, or else the one that was added first. -/
theorem lookup_addAll (s : Scope δ) (added : List (TagEntry δ)) (tag : String) :
    (s.addAll added).lookup tag = (s.lookup tag).or (firstAdded? added tag) := by
  induction added generalizing s with
  | nil => rw [firstAdded?, List.find?_nil, Option.or_none]; rfl
  | cons e added ih =>
    have hstep := ih (s.addTag e.tag e.template).1
    rw [lookup_addTag] at hstep
    rw [firstAdded?, List.find?_cons]
    by_cases htag : e.tag = tag
    · subst htag
      rw [if_pos rfl] at hstep
      simp only [decide_true]
      refine hstep.trans ?_
      cases s.lookup e.tag <;> rfl
    · rw [if_neg (Ne.symm htag)] at hstep
      simp only [htag, decide_false]
      exact hstep

/-- In a scope whose tags differ, an entry is the one of its tag. -/
theorem Distinct.mem_tags_iff (h : s.Distinct) {e : TagEntry δ} :
    e ∈ s.tags ↔ s.lookup e.tag = some e := by
  constructor
  · intro he
    obtain ⟨before, after, htags⟩ := List.append_of_mem he
    refine lookup_eq_some_iff.mpr ⟨before, after, htags, rfl, fun e' he' => ?_⟩
    rw [Distinct, htags, List.pairwise_append] at h
    exact h.2.2 e' he' e List.mem_cons_self
  · exact List.mem_of_find?_eq_some

/-! ## Candidates -/

/-- Candidates that have nothing but their order in common share the same. -/
theorem shared_congr {es es' : List (TagEntry δ)} (h : ∀ e, e ∈ es ↔ e ∈ es') :
    shared es = shared es' := by
  have hle {fs fs' : List (TagEntry δ)} (hfs : ∀ e, e ∈ fs ↔ e ∈ fs') (hne : fs ≠ []) :
      Text.commonInitial (fs.map (·.tag.toList)) <+: Text.commonInitial (fs'.map (·.tag.toList)) := by
    have hne' : fs' ≠ [] := by
      obtain ⟨e, he⟩ := List.exists_mem_of_ne_nil fs hne
      exact List.ne_nil_of_mem ((hfs e).mp he)
    have hcommon := (Text.prefix_commonInitial_iff (by simpa using hne)).mp
      (List.prefix_refl (Text.commonInitial (fs.map (·.tag.toList))))
    rw [List.forall_mem_map] at hcommon
    rw [Text.prefix_commonInitial_iff (by simpa using hne'), List.forall_mem_map]
    exact fun e he => hcommon e ((hfs e).mpr he)
  by_cases hne : es = []
  · subst hne
    have hnil : es' = [] := List.eq_nil_iff_forall_not_mem.mpr fun e he => by simpa using (h e).mpr he
    rw [hnil]
  · have hne' : es' ≠ [] := by
      obtain ⟨e, he⟩ := List.exists_mem_of_ne_nil es hne
      exact List.ne_nil_of_mem ((h e).mp he)
    exact congrArg String.ofList
      ((hle h hne).eq_of_length_le (hle (fun e => (h e).symm) hne').length_le)

theorem Distinct.nodup_candidates (h : s.Distinct) (lead : String) :
    (s.candidates lead).Nodup :=
  (h.imp fun hne heq => hne (congrArg TagEntry.tag heq)).sublist List.filter_sublist

theorem Distinct.nodup_map_candidates (h : s.Distinct) (lead : String) :
    ((s.candidates lead).map (·.tag)).Nodup :=
  List.pairwise_map.mpr (h.sublist List.filter_sublist)

theorem classify_eq_exact_iff {e : TagEntry δ} :
    s.classify lead = .exact e ↔ s.lookup lead = some e := by
  rw [classify]
  cases s.lookup lead with
  | some e' => simp
  | none => rcases s.candidates lead with _ | ⟨e₁, _ | ⟨e₂, es⟩⟩ <;> simp

theorem classify_eq_unique_iff {e : TagEntry δ} :
    s.classify lead = .unique e ↔ s.lookup lead = none ∧ s.candidates lead = [e] := by
  rw [classify]
  cases s.lookup lead with
  | some e' => simp
  | none => rcases s.candidates lead with _ | ⟨e₁, _ | ⟨e₂, es⟩⟩ <;> simp

theorem classify_eq_ambiguous_iff {p : String} :
    s.classify lead = .ambiguous p ↔
      s.lookup lead = none ∧ 2 ≤ (s.candidates lead).length ∧ p = shared (s.candidates lead) := by
  rw [classify]
  cases s.lookup lead with
  | some e' => simp
  | none => rcases s.candidates lead with _ | ⟨e₁, _ | ⟨e₂, es⟩⟩ <;> simp [eq_comm]

/-- The order of the candidates does not matter. -/
theorem classify_eq_of_perm (hlookup : s.lookup lead = s'.lookup lead)
    (hperm : (s.candidates lead).Perm (s'.candidates lead)) :
    s.classify lead = s'.classify lead := by
  rw [classify, classify, hlookup]
  cases s'.lookup lead with
  | some e => rfl
  | none =>
    have hshared := shared_congr fun e => hperm.mem_iff (a := e)
    generalize s.candidates lead = es at hperm hshared
    generalize s'.candidates lead = es' at hperm hshared
    rcases es with _ | ⟨e, _ | ⟨e₁, es⟩⟩
    · rw [← hperm.nil_eq]
    · rw [← hperm.singleton_eq]
    · obtain ⟨f, f₁, fs, rfl⟩ : ∃ f f₁ fs, es' = f :: f₁ :: fs := by
        have hlength := hperm.length_eq
        rcases es' with _ | ⟨f, _ | ⟨f₁, fs⟩⟩
        · simp at hlength
        · simp at hlength
        · exact ⟨f, f₁, fs, rfl⟩
      exact congrArg Classification.ambiguous hshared

/-- **A candidate is classified by the entries that are found for tags**, whatever their order. -/
theorem classify_congr (h : s.Distinct) (h' : s'.Distinct)
    (hlookup : ∀ tag, s.lookup tag = s'.lookup tag) (lead : String) :
    s.classify lead = s'.classify lead := by
  refine classify_eq_of_perm (hlookup lead) ?_
  rw [List.perm_ext_iff_of_nodup (h.nodup_candidates lead) (h'.nodup_candidates lead)]
  intro e
  rw [mem_candidates, mem_candidates, h.mem_tags_iff, h'.mem_tags_iff, hlookup]

/-- What tags have in common starts no other tags than the candidate. -/
theorem candidates_shared (hknown : ∃ e ∈ s.tags, lead.toList <+: e.tag.toList) :
    s.candidates (shared (s.candidates lead)) = s.candidates lead := by
  have hstarts := (shares_shared_candidates hknown).starts hknown
  refine List.filter_congr fun e he => ?_
  rw [Bool.eq_iff_iff, List.isPrefixOf_iff_prefix, List.isPrefixOf_iff_prefix]
  exact ⟨hstarts.trans, (shares_shared_candidates hknown).common e he⟩

theorem exists_starts_of_candidates (h : s.candidates lead ≠ []) :
    ∃ e ∈ s.tags, lead.toList <+: e.tag.toList := by
  obtain ⟨e, he⟩ := List.exists_mem_of_ne_nil _ h
  exact ⟨e, mem_candidates.mp he⟩

/-- What tags have in common is a tag, or they have no more in common. -/
theorem classify_of_ambiguous {p : String} (h : s.classify lead = .ambiguous p) :
    (∃ e, e.tag = p ∧ s.classify p = .exact e) ∨ s.classify p = .ambiguous p := by
  obtain ⟨-, hmore, rfl⟩ := classify_eq_ambiguous_iff.mp h
  have hne : s.candidates lead ≠ [] := by
    intro hnil
    simp [hnil] at hmore
  have hsame := candidates_shared (exists_starts_of_candidates hne)
  cases hlookup : s.lookup (shared (s.candidates lead)) with
  | some e =>
    have htag : e.tag = shared (s.candidates lead) := by simpa using List.find?_some hlookup
    exact .inl ⟨e, htag, classify_eq_exact_iff.mpr hlookup⟩
  | none =>
    refine .inr (classify_eq_ambiguous_iff.mpr ⟨hlookup, ?_⟩)
    rw [hsame]
    exact ⟨hmore, rfl⟩

/-! ## What the added tags tell -/

section Added

variable (name : String) (finder : Finder) (added : List (TagEntry δ))

theorem lookup_added (tag : String) :
    (addAll { name, finder } added).lookup tag = firstAdded? added tag := by
  rw [lookup_addAll]
  rfl

theorem distinct_added : (addAll { name, finder } added).Distinct :=
  Distinct.addAll (s := { name, finder }) .nil added

theorem firstAdded?_eq_none_iff {added : List (TagEntry δ)} {tag : String} :
    firstAdded? added tag = none ↔ tag ∉ added.map (·.tag) := by
  simp [firstAdded?, List.mem_map]

/-- The tags that start with a candidate are those of the entries that do. -/
theorem toFinset_candidates (lead : String) :
    (((addAll { name, finder } added).candidates lead).map (·.tag)).toFinset =
      tagsFrom added lead := by
  ext tag
  simp only [tagsFrom, List.mem_toFinset, Finset.mem_filter, List.mem_map, mem_candidates,
    (distinct_added name finder added).mem_tags_iff, lookup_added]
  constructor
  · rintro ⟨e, ⟨he, hstarts⟩, rfl⟩
    exact ⟨⟨e, List.mem_of_find?_eq_some he, rfl⟩, hstarts⟩
  · rintro ⟨⟨e, he, rfl⟩, hstarts⟩
    cases hfirst : firstAdded? added e.tag with
    | none => exact absurd (List.mem_map_of_mem he) (firstAdded?_eq_none_iff.mp hfirst)
    | some f =>
      have htag : f.tag = e.tag := by simpa using List.find?_some hfirst
      exact ⟨f, ⟨by rw [htag, hfirst], htag ▸ hstarts⟩, htag⟩

theorem card_tagsFrom (lead : String) :
    (tagsFrom added lead).card = ((addAll { name, finder } added).candidates lead).length := by
  have hnodup := (distinct_added name finder added).nodup_map_candidates lead
  rw [← toFinset_candidates name finder, List.toFinset_card_of_nodup hnodup, List.length_map]

theorem classified (lead : String) :
    Classified added lead ((addAll { name, finder } added).classify lead) := by
  have hlookup := lookup_added name finder added
  have hcard := card_tagsFrom name finder added lead
  have htags := toFinset_candidates name finder added lead
  have hdistinct := distinct_added name finder added
  generalize addAll { name, finder } added = s at hlookup hcard htags hdistinct
  have htag : lead ∉ added.map (·.tag) ↔ s.lookup lead = none := by
    rw [hlookup, firstAdded?_eq_none_iff]
  have hmem {q : List Char} : (∀ tag ∈ tagsFrom added lead, q <+: tag.toList) ↔
      ∀ e ∈ s.tags, lead.toList <+: e.tag.toList → q <+: e.tag.toList := by
    simp only [← htags, List.mem_toFinset, List.forall_mem_map, mem_candidates, and_imp]
  refine ⟨fun e => ?_, ?_, ?_, fun e he => ?_, ?_, fun p hp => ?_⟩
  · rw [classify_eq_exact_iff, hlookup]
  · rw [classify_eq_none_iff, hcard, List.length_eq_zero_iff, candidates_eq_nil_iff]
  · rw [htag, hcard, List.length_eq_one_iff]
    simp only [classify_eq_unique_iff, exists_and_left]
  · obtain ⟨-, hone⟩ := classify_eq_unique_iff.mp he
    have he : e ∈ s.tags := (mem_candidates.mp (hone ▸ List.mem_singleton_self e)).1
    exact ⟨by rw [← htags, hone]; rfl, by rw [← hlookup, hdistinct.mem_tags_iff.mp he]⟩
  · rw [htag, hcard]
    simp only [classify_eq_ambiguous_iff, exists_and_left, exists_eq, and_true]
  · obtain ⟨-, hmore, rfl⟩ := classify_eq_ambiguous_iff.mp hp
    have hne : s.candidates lead ≠ [] := by
      intro hnil
      simp [hnil] at hmore
    have hknown := exists_starts_of_candidates hne
    refine ⟨(shares_shared_candidates hknown).starts hknown, fun q => ?_⟩
    rw [hmem, prefix_shared_candidates hknown]

end Added

/-- **What a candidate is, is told by the tags that were added**, whatever their order, and what
several of them have in common is as far as a completion can get.  The last part says what it is that
texts have in common: with no texts it is empty, and else the longest text that they all start with;
the first of them is never cut within a character for it. -/
theorem classify_added (name : String) (finder : Finder) (added : List (TagEntry δ))
    (lead : String) :
    let s : Scope δ := addAll { name, finder } added
    Classified added lead (s.classify lead) ∧
    (∀ p, s.classify lead = .ambiguous p →
      (∃ e, e.tag = p ∧ s.classify p = .exact e) ∨ s.classify p = .ambiguous p) ∧
    (∀ (name' : String) (finder' : Finder) (added' : List (TagEntry δ)), Reordered added added' →
      (addAll { name := name', finder := finder' } added').classify lead = s.classify lead) ∧
    (∀ (t : List Char) (ts : List (List Char)),
      (∀ q, q <+: Text.commonInitial (t :: ts) ↔ ∀ u ∈ t :: ts, q <+: u) ∧
        Text.byteLength (Text.commonInitial (t :: ts)) = Text.sharedLength t ts) ∧
    Text.commonInitial [] = [] := by
  intro s
  refine ⟨classified name finder added lead, fun p => classify_of_ambiguous, ?_, ?_, rfl⟩
  · intro name' finder' added' h
    refine classify_congr (distinct_added ..) (distinct_added ..) (fun tag => ?_) lead
    rw [lookup_added, lookup_added, firstAdded?, firstAdded?, ← List.head?_filter,
      ← List.head?_filter, h tag]
  · exact fun t ts =>
      ⟨fun q => Text.prefix_commonInitial_iff (List.cons_ne_nil t ts),
        Text.byteLength_commonInitial t ts⟩

end Scope

end TextTemplate
