import TextTemplate.Proofs.EmptyRegion
import TextTemplate.Proofs.Installation
import TextTemplate.Proofs.Lockstep
import TextTemplate.Proofs.LastWord
import TextTemplate.Proofs.WellFormed

/-!
# What expansions insert

An expansion inserts literals, line feeds and answers, and nothing else.  So what is true of the line
feed, of all literals in reach and of all answers that the buffer can give is true of every text that
is inserted (`Engine.brings_effects`).

The literals in reach of an engine are those of the libraries that were installed in it.  The
invariant is `Engine.Stocked`: an engine has neither filters nor handlers, its finders are patterns,
and its templates have literals of the right kind.  A library with such literals keeps it, also one
whose installation fails halfway (`Engine.Stocked.install`).
-/

namespace TextTemplate

variable {Q : List Char → Prop} {δ : Type}

/-! ## Answers -/

namespace Buffer

/-- All answers that a buffer can give have a property. -/
structure AnswersIn (Q : List Char → Prop) (b : Buffer) : Prop where
  queue : ∀ a ∈ b.answers, Q a.toList
  prompter : ∀ f, b.prompter = some f → ∀ asked prompt a, f asked prompt = some a → Q a.toList

namespace AnswersIn

variable {b c : Buffer}

theorem congr (h : b.AnswersIn Q) (hdialogue : c.dialogue = b.dialogue) : c.AnswersIn Q := by
  obtain ⟨hanswers, hprompter, -, -⟩ := Dialogue.mk.inj hdialogue
  exact ⟨hanswers ▸ h.queue, hprompter ▸ h.prompter⟩

/-- A prompt gets one of these answers, and leaves no others. -/
theorem ask (h : b.AnswersIn Q) (prompt : String) :
    (b.ask prompt).1.AnswersIn Q ∧ ∀ a, (b.ask prompt).2 = some a → Q a.toList := by
  obtain ⟨hqueue, hprompter⟩ := h
  unfold Buffer.ask
  dsimp only
  split
  · next a as hanswers =>
    rw [hanswers, List.forall_mem_cons] at hqueue
    refine ⟨⟨hqueue.2, hprompter⟩, ?_⟩
    rintro _ ⟨⟩
    exact hqueue.1
  · next f _ hf => exact ⟨⟨hqueue, hprompter⟩, hprompter f hf b.asked prompt⟩
  · exact ⟨⟨hqueue, hprompter⟩, nofun⟩

end AnswersIn

end Buffer

/-! ## Effects -/

/-- What an effect inserts has a property, and so has an answer that it keeps for later. -/
def Effect.Brings (Q : List Char → Prop) : Effect → Prop
  | insert s => Q s
  | keep _ a => Q a.toList
  | _ => True

namespace Work

/-- All answers that are kept or can be given have a property. -/
structure Supplied (Q : List Char → Prop) (w : Work) : Prop where
  buffer : w.buffer.AnswersIn Q
  kept : ∀ p ∈ w.answers, Q p.2.toList

theorem brings_regionEffects (onRegion indent : Bool) :
    ∀ f ∈ regionEffects onRegion indent, f.Brings Q := by
  cases onRegion <;> cases indent <;> simp [regionEffects, Effect.Brings]

theorem brings_newlineEffects (hfeed : Q ['\n']) (s : List Char) :
    ∀ f ∈ newlineEffects s, f.Brings Q := by
  unfold newlineEffects
  split
  · exact List.forall_mem_nil _
  · rintro f hf
    rw [List.mem_singleton.mp hf]
    exact hfeed

namespace Supplied

variable {w : Work}

theorem askEffects (h : w.Supplied Q) (p : Prompt) : ∀ f ∈ w.askEffects p, f.Brings Q := by
  have hanswer := (h.buffer.ask p.text).2
  rw [Work.askEffects]
  cases ha : (w.buffer.ask p.text).2 with
  | none => simp [Effect.Brings]
  | some a =>
    have hQ : Q a.toList := hanswer a ha
    simp only [List.forall_mem_cons, Option.mem_toList, Option.map_eq_some_iff]
    refine ⟨trivial, hQ, ?_⟩
    rintro _ ⟨name, -, rfl⟩
    exact hQ

/-- An effect that brings nothing else leaves nothing else for later. -/
theorem perform (h : w.Supplied Q) {f : Effect} (hf : f.Brings Q) : (w.perform f).Supplied Q := by
  cases f with
  | insert s =>
    refine ⟨h.buffer.congr (w.dialogue_perform rfl), ?_⟩
    rw [Work.perform, answers_insert]
    exact h.kept
  | mark => exact ⟨h.buffer, h.kept⟩
  | exchange =>
    refine ⟨h.buffer.congr (w.dialogue_perform rfl), ?_⟩
    simp only [Work.perform, exchange]
    split <;> exact h.kept
  | reindent =>
    refine ⟨h.buffer.congr (w.dialogue_perform rfl), ?_⟩
    rw [Work.perform, Work.reindent_eq]
    exact h.kept
  | ask prompt => exact ⟨(h.buffer.ask prompt).1, h.kept⟩
  | keep name a => exact ⟨h.buffer, List.forall_mem_cons.mpr ⟨hf, h.kept⟩⟩

theorem performAll (h : w.Supplied Q) {fs : List Effect} (hfs : ∀ f ∈ fs, f.Brings Q) :
    (w.performAll fs).Supplied Q :=
  performAll_induction (fun f hf _ hw => hw.perform (hfs f hf)) h

end Supplied

end Work

/-! ## Literals -/

namespace Element

/-- Not deferred, and with a property if it is a literal. -/
def LiteralIn (Q : List Char → Prop) : Element δ → Prop
  | text s => Q s.toList
  | deferred _ => False
  | _ => True

/-- No elements among these are deferred, and all literals have a property. -/
def LiteralsIn (Q : List Char → Prop) (handlers : List (String → Option (Element δ)))
    (es : List (Element δ)) : Prop :=
  ∀ e : Element δ, e.Among handlers es → e.LiteralIn Q

variable {handlers : List (String → Option (Element δ))}

theorem literalsIn_nil : LiteralsIn Q handlers [] := fun e he => absurd he (not_among_nil handlers e)

theorem literalsIn_cons {e : Element δ} {es : List (Element δ)} :
    LiteralsIn Q handlers (e :: es) ↔
      e.LiteralIn Q ∧ LiteralsIn Q handlers (e.parts handlers) ∧ LiteralsIn Q handlers es :=
  forall_among_cons

end Element

namespace Rules

/-- The filters leave a property to a literal. -/
def Keeps (Q : List Char → Prop) (r : Rules δ) : Prop :=
  ∀ f ∈ r.filters, ∀ s, Q s.toList → Q (f s).toList

theorem Keeps.filtered {r : Rules δ} (h : r.Keeps Q) {s : String} (hs : Q s.toList) :
    Q (r.filtered s).toList := by
  unfold Rules.filtered
  unfold Keeps at h
  generalize r.filters = fs at h
  induction fs generalizing s with
  | nil => exact hs
  | cons f fs ih =>
    rw [List.forall_mem_cons] at h
    exact ih (h.1 s hs) h.2

end Rules

namespace Work.Supplied

open Element

variable {w : Work}

/-- If all effects of elements have a property, those of a list of elements have it. -/
theorem effectsAll {run : Element δ → Work → Work × Option Error}
    {effects : Element δ → Work → List Effect}
    (replay : ∀ e w, (run e w).1 = w.performAll (effects e w)) {es : List (Element δ)}
    (brings : ∀ e ∈ es, ∀ {w : Work}, w.Supplied Q → ∀ f ∈ effects e w, f.Brings Q)
    (h : w.Supplied Q) : ∀ f ∈ Element.effectsAll run effects es w, f.Brings Q := by
  induction es generalizing w with
  | nil => exact List.forall_mem_nil _
  | cons e es ih =>
    have hhead := brings e List.mem_cons_self h
    rw [Element.effectsAll, List.forall_mem_append]
    refine ⟨hhead, ?_⟩
    have hnext : (run e w).1.Supplied Q := by
      rw [replay]
      exact h.performAll hhead
    rcases hrun : run e w with ⟨v, _ | err⟩ <;> rw [hrun] at hnext
    · exact ih (fun e he => brings e (List.mem_cons_of_mem _ he)) hnext
    · exact List.forall_mem_nil _

variable [Deferral δ]

/-- What an element inserts is a literal in its reach, a line feed or an answer. -/
theorem effects {r : Rules δ} (hfilters : r.Keeps Q) (hfeed : Q ['\n']) (n : Nat)
    {es : List (Element δ)} {e : Element δ} (he : e ∈ es) (hreach : LiteralsIn Q r.handlers es)
    (h : w.Supplied Q) : ∀ f ∈ Element.effects r n e w, f.Brings Q := by
  -- The list is not fixed: the next depth has the parts of an element as its own.
  induction n generalizing es e w with
  | zero => exact List.forall_mem_nil _
  | succ n ih =>
    have hparts : LiteralsIn Q r.handlers (e.parts r.handlers) :=
      fun x hx => hreach x (.deeper he hx)
    have hall : ∀ f ∈ Element.effectsAll (run r n) (Element.effects r n) (e.parts r.handlers) w,
        f.Brings Q :=
      h.effectsAll (run_fst r n) fun e' he' _ hw => ih he' hparts hw
    have hliteral := hreach e (.here he)
    cases e with
    | text s =>
      intro f hf
      rw [List.mem_singleton.mp hf]
      exact hfilters.filtered hliteral
    | point => simp [Element.effects, Effect.Brings]
    | prompt p =>
      rw [Element.effects]
      split
      · exact h.askEffects p
      · simp [Effect.Brings]
    | regionPoint indent => exact brings_regionEffects r.onRegion indent
    | regionPrompt p indent =>
      rw [Element.effects]
      split
      · exact h.askEffects p
      · exact brings_regionEffects r.onRegion indent
    | conditionalNewline => exact brings_newlineEffects hfeed _
    | conditionalNewlineAfter => exact brings_newlineEffects hfeed _
    | newline => simpa [Element.effects, Effect.Brings] using hfeed
    | newlineIndent => simpa [Element.effects, Effect.Brings] using hfeed
    | reindent => simp [Element.effects, Effect.Brings]
    | saved name =>
      rw [Element.effects]
      cases hsaved : w.answers.lookup name with
      | none => exact List.forall_mem_nil _
      | some a =>
        intro f hf
        obtain ⟨before, after, hanswers, -⟩ := List.lookup_eq_some_iff.mp hsaved
        rw [List.mem_singleton.mp hf]
        exact h.kept (name, a) (hanswers ▸ by simp)
    | list es => exact hall
    | template name es => exact hall
    | symbol name =>
      rw [Element.effects]
      cases hresolve : r.resolve? name with
      | none => exact List.forall_mem_nil _
      | some e' =>
        refine ih (List.mem_singleton_self e') ?_ h
        rw [parts, show r.handlers.findSome? (· name) = some e' from hresolve] at hparts
        exact hparts
    | empty => exact List.forall_mem_nil _
    | deferred code => exact hliteral.elim

end Work.Supplied

/-- What an expansion inserts has a property, if line feeds have it, and all literals in reach of the
template and all answers. -/
theorem Engine.brings_effects [Deferral δ] (g : Engine δ) {b : Buffer} {t : Template δ}
    (onRegion : Bool) (hfilters : (g.rules onRegion).Keeps Q) (hfeed : Q ['\n'])
    (ht : Element.LiteralsIn Q g.handlers t.elements) (hb : b.AnswersIn Q) :
    ∀ f ∈ g.effects b t onRegion, f.Brings Q := by
  unfold effects
  cases hstart : startOfRegion b onRegion with
  | error e => exact nofun
  | ok p =>
    obtain ⟨c, regionEnd⟩ := p
    have hwork : (g.startWork c regionEnd).Supplied Q := by
      refine ⟨hb.congr ?_, nofun⟩
      rcases startOfRegion_cases hstart with ⟨-, rfl, -⟩ | ⟨p, q, -, -, rfl, -⟩
      · rfl
      · rfl
    exact hwork.effectsAll (Element.run_fst _ _) fun e he _ hw =>
      hw.effects hfilters hfeed _ he ht

/-! ## Libraries -/

namespace ElementSpec

mutual

/-- The literals of an element, at any depth. -/
def literals : ElementSpec → List String
  | text s => [s]
  | list es => literalsAll es
  | _ => []

/-- The literals of elements. -/
def literalsAll : List ElementSpec → List String
  | [] => []
  | e :: es => literals e ++ literalsAll es

end

section

open Element

variable {find? : String → Option (Template δ)}

mutual

/-- An element that is built has the literals of its spec and of what it includes. -/
theorem literalsIn_bind (hfind : ∀ {n t}, find? n = some t → LiteralsIn Q [] t.elements)
    (e : ElementSpec) (he : ∀ s ∈ literals e, Q s.toList) : LiteralsIn Q [] [bind find? e] := by
  rw [literalsIn_cons]
  cases e with
  | text s => exact ⟨he s List.mem_cons_self, literalsIn_nil, literalsIn_nil⟩
  | list es => exact ⟨trivial, literalsIn_bindAll hfind es he, literalsIn_nil⟩
  | includes name =>
    rw [bind]
    cases hname : find? name with
    | none => exact ⟨trivial, literalsIn_nil, literalsIn_nil⟩
    | some t => exact ⟨trivial, hfind hname, literalsIn_nil⟩
  | region question name always indented =>
    cases question <;> exact ⟨trivial, literalsIn_nil, literalsIn_nil⟩
  | _ => exact ⟨trivial, literalsIn_nil, literalsIn_nil⟩

theorem literalsIn_bindAll (hfind : ∀ {n t}, find? n = some t → LiteralsIn Q [] t.elements)
    (es : List ElementSpec) (hes : ∀ s ∈ literalsAll es, Q s.toList) :
    LiteralsIn Q [] (bindAll find? es) := by
  cases es with
  | nil => exact literalsIn_nil
  | cons e es =>
    rw [literalsAll, List.forall_mem_append] at hes
    have hfirst := literalsIn_cons.mp (literalsIn_bind hfind e hes.1)
    rw [bindAll, literalsIn_cons]
    exact ⟨hfirst.1, hfirst.2.1, literalsIn_bindAll hfind es hes.2⟩

end

end

end ElementSpec

/-- The literals of a library. -/
def Library.literals (l : Library) : List String :=
  l.templates.flatMap fun t => ElementSpec.literalsAll t.elements

/-- There is nothing in an engine but what libraries bring: no filters, no handlers, finders that are
patterns, and templates whose literals have a property. -/
structure Engine.Stocked (Q : List Char → Prop) (g : Engine δ) : Prop where
  filters : g.filters = []
  handlers : g.handlers = []
  template : ∀ {n t}, g.registry.templates.get? n = some t → Element.LiteralsIn Q [] t.elements
  finder : ∀ {n s}, g.scope n = .ok s → ∃ p, s.finder = .pattern p
  tag : ∀ {n s}, g.scope n = .ok s → ∀ e ∈ s.tags, Element.LiteralsIn Q [] e.template.elements

theorem Finder.exists_word_eq : ∃ p, word = .pattern p := by
  obtain ⟨p, hp⟩ := Option.isSome_iff_exists.mp compile?_wordPattern_isSome
  exact ⟨p, by rw [word, ofPattern?, hp]; rfl⟩

/-- The finders that libraries give to scopes are patterns. -/
theorem ScopeSpec.exists_pattern_eq {d : ScopeSpec} {finder : Finder} (h : d.finder? = some finder) :
    ∃ p, finder = .pattern p := by
  unfold finder? at h
  cases hd : d.finder with
  | none =>
    rw [hd] at h
    obtain rfl := Option.some.inj h
    exact Finder.exists_word_eq
  | some source =>
    rw [hd] at h
    obtain ⟨p, -, rfl⟩ := Option.map_eq_some_iff.mp h
    exact ⟨p, rfl⟩

/-- The entry of a decision is one of those of the scope. -/
theorem Scope.mem_tags_of_decision? {s : Scope δ} {b : Buffer} {e : TagEntry δ} {found : Found}
    (h : s.decision? b = some (.expand e found)) : e ∈ s.tags := by
  have hknows := knows_of_decision? h
  by_cases hstands : ∃ e', s.StandsFor found.text e'
  · obtain ⟨e', he'⟩ := hstands
    rw [he'.decision? hknows] at h
    cases h
    cases he' with
    | exact tags => rw [tags]; exact List.mem_append_right _ List.mem_cons_self
    | only tags => rw [tags]; exact List.mem_append_right _ List.mem_cons_self
  · rw [decision?_of_not_standsFor hknows (not_exists.mp hstands)] at h
    cases h

namespace Engine.Stocked

variable {g g' : Engine δ}

theorem new (settings : Settings) : Stocked Q ({ settings } : Engine δ) where
  filters := rfl
  handlers := rfl
  template h := by cases h
  finder {n s} h := by
    unfold scope at h
    split at h
    · cases h
      exact Finder.exists_word_eq
    · cases h
  tag h e he := by
    rw [(scope_new h).2.2] at he
    cases he

/-- A scope gives way to another one that a library brings. -/
theorem setScope (h : g.Stocked Q) (name : String) {s : Scope δ} (hfinder : ∃ p, s.finder = .pattern p)
    (htags : ∀ e ∈ s.tags, Element.LiteralsIn Q [] e.template.elements) :
    (g.setScope name s).Stocked Q := by
  have hscope {n : String} {s' : Scope δ} (hs' : (g.setScope name s).scope n = .ok s') :
      s' = s ∨ g.scope n = .ok s' := by
    rw [scope_setScope] at hs'
    split at hs'
    · exact .inl (Except.ok.inj hs').symm
    · exact .inr hs'
  obtain ⟨hfilters, hhandlers, hregistry⟩ : (g.setScope name s).filters = g.filters ∧
      (g.setScope name s).handlers = g.handlers ∧ (g.setScope name s).registry = g.registry := by
    unfold Engine.setScope
    split <;> exact ⟨rfl, rfl, rfl⟩
  refine ⟨hfilters.trans h.filters, hhandlers.trans h.handlers, hregistry ▸ h.template, ?_, ?_⟩
  · intro n s' hs'
    rcases hscope hs' with rfl | hs'
    · exact hfinder
    · exact h.finder hs'
  · intro n s' hs'
    rcases hscope hs' with rfl | hs'
    · exact htags
    · exact h.tag hs'

theorem defineScope (h : g.Stocked Q) {name : String} {finder : Finder}
    (hfinder : ∃ p, finder = .pattern p) (hg' : g.defineScope name finder = .ok g') :
    g'.Stocked Q := by
  unfold Engine.defineScope at hg'
  split at hg'
  · cases hg'
  · split at hg'
    · next hs =>
      cases hg'
      have htags := h.tag hs
      exact h.setScope name hfinder htags
    · cases hg'
      exact h.setScope name hfinder nofun

theorem installScope (h : g.Stocked Q) {d : ScopeSpec} (hg' : g.installScope d = .ok g') :
    g'.Stocked Q := by
  unfold Engine.installScope at hg'
  split at hg'
  · cases hg'
  · next hfinder =>
    split at hg'
    · next hdefine =>
      cases hg'
      exact h.defineScope (ScopeSpec.exists_pattern_eq hfinder) hdefine
    · cases hg'

theorem store (h : g.Stocked Q) {t : Template δ} (ht : Element.LiteralsIn Q [] t.elements) :
    (g.store t).Stocked Q := by
  refine ⟨h.filters, h.handlers, ?_, h.finder, h.tag⟩
  intro n t' hn
  simp only [Engine.store, Table.get?_insert] at hn
  split at hn
  · obtain rfl := Option.some.inj hn
    exact ht
  · exact h.template hn

theorem withTag (h : g.Stocked Q) {name : String} {s : Scope δ} (hs : g.scope name = .ok s)
    {t : Template δ} (ht : Element.LiteralsIn Q [] t.elements) (tag : Option String) :
    (g.withTag name s t tag).Stocked Q := by
  cases tag with
  | none => exact h
  | some x =>
    refine h.setScope name ((s.finder_addTag x t).symm ▸ h.finder hs) ?_
    intro e he
    have hentry := Scope.tags_addTag s ⟨x, t⟩
    rw [hentry] at he
    rcases mem_appendNew _ he with he | rfl
    · exact h.tag hs e he
    · exact ht

/-- A template with literals of the right kind keeps the others, whether or not it is installed. -/
theorem installTemplate (h : g.Stocked Q) {t : TemplateSpec}
    (ht : ∀ s ∈ ElementSpec.literalsAll t.elements, Q s.toList) : (g.installTemplate t).1.Stocked Q := by
  unfold Engine.installTemplate
  rcases ElementSpec.buildAll_cases (r := g.registry) (fun n => rfl) t.elements with
    ⟨-, hbuild⟩ | ⟨-, err, hbuild⟩
  · have helements : Element.LiteralsIn Q []
        (ElementSpec.bindAll g.registry.templates.get? t.elements) :=
      ElementSpec.literalsIn_bindAll h.template t.elements ht
    rw [hbuild]
    generalize ElementSpec.bindAll g.registry.templates.get? t.elements = es at helements
    have hdefine : (g.defineTemplate t.name es t.tag t.scope).1.Stocked Q := by
      rcases g.defineTemplate_cases t.name es t.tag t.scope with
        ⟨e, -, hr⟩ | ⟨s, hs, ⟨-, hr⟩ | ⟨-, -, hr⟩ | ⟨-, -, hr⟩⟩ <;> rw [hr]
      · exact h
      · exact h
      · exact h.store helements
      · exact (h.store helements).withTag hs helements t.tag
    dsimp only
    split
    · next heq => rwa [heq] at hdefine
    · next heq => rwa [heq] at hdefine
  · rw [hbuild]
    exact h

theorem installScopes (h : g.Stocked Q) (ds : List ScopeSpec) : (g.installScopes ds).1.Stocked Q := by
  induction ds generalizing g with
  | nil => exact h
  | cons d ds ih =>
    rw [Engine.installScopes]
    split
    · next hg' => exact ih (h.installScope hg')
    · exact h

theorem installTemplates (h : g.Stocked Q) (ts : List TemplateSpec)
    (hts : ∀ t ∈ ts, ∀ s ∈ ElementSpec.literalsAll t.elements, Q s.toList) :
    (g.installTemplates ts).1.Stocked Q := by
  induction ts generalizing g with
  | nil => exact h
  | cons t ts ih =>
    rw [List.forall_mem_cons] at hts
    have hone := h.installTemplate hts.1
    rw [Engine.installTemplates]
    rcases heq : g.installTemplate t with ⟨g', _ | e⟩ <;> rw [heq] at hone
    · exact ih hone hts.2
    · exact hone

/-- A library with literals of the right kind keeps the others, whether or not all of it is
installed. -/
theorem install (h : g.Stocked Q) {l : Library} (hl : ∀ s ∈ l.literals, Q s.toList) :
    (g.install l).1.Stocked Q := by
  have hscopes := h.installScopes l.scopes
  unfold Engine.install
  rcases heq : g.installScopes l.scopes with ⟨g', _ | e⟩ <;> rw [heq] at hscopes
  · have htemplates := hscopes.installTemplates l.templates fun t ht s hs =>
      hl s (List.mem_flatMap.mpr ⟨t, ht, hs⟩)
    dsimp only
    split
    · next heq => rwa [heq] at htemplates
    · next heq => rwa [heq] at htemplates
  · exact hscopes

/-- What is kept for buffers plays no part. -/
theorem changesOnly (h : g.Stocked Q) {id : BufferId} (hg : g.ChangesOnly id g') : g'.Stocked Q := by
  obtain ⟨t, rfl⟩ := hg.rest
  exact ⟨h.filters, h.handlers, h.template, h.finder, h.tag⟩

/-- Active scopes are scopes of the engine. -/
theorem exists_scope_of_mem_activeScopes (hwell : g.WellFormed) {i : BufferId} {s : Scope δ}
    (hs : s ∈ g.activeScopes i) : ∃ n, g.scope n = .ok s := by
  obtain ⟨installed, hactive, -, hinstalled⟩ := hwell.activeScopes i
  rw [hactive, List.mem_append, List.mem_singleton] at hs
  rcases hs with hs | rfl
  · exact ⟨s.name, hinstalled s hs⟩
  · exact ⟨Scope.globalName, rfl⟩

theorem finder_activeScopes (h : g.Stocked Q) (hwell : g.WellFormed) (i : BufferId) :
    ∀ s ∈ g.activeScopes i, ∃ p, s.finder = .pattern p := by
  intro s hs
  obtain ⟨n, hn⟩ := exists_scope_of_mem_activeScopes hwell hs
  exact h.finder hn

/-- A template that takes the place of a tag has literals of the right kind. -/
theorem literalsIn_decision? (h : g.Stocked Q) (hwell : g.WellFormed) {b : Buffer} {e : TagEntry δ}
    {found : Found} (hdecision : g.decision? b = some (.expand e found)) :
    Element.LiteralsIn Q [] e.template.elements := by
  obtain ⟨s, hs, hd⟩ := List.exists_of_findSome?_eq_some hdecision
  obtain ⟨n, hn⟩ := exists_scope_of_mem_activeScopes hwell hs
  exact h.tag hn e (Scope.mem_tags_of_decision? hd)

variable [Deferral δ]

/-- What an expansion of a template inserts in an engine that has literals of the right kind. -/
theorem brings_effects (h : g.Stocked Q) (hfeed : Q ['\n']) {b : Buffer} (hb : b.AnswersIn Q)
    {t : Template δ} (ht : Element.LiteralsIn Q [] t.elements) (onRegion : Bool) :
    ∀ f ∈ g.effects b t onRegion, f.Brings Q := by
  refine g.brings_effects onRegion ?_ hfeed (h.handlers.symm ▸ ht) hb
  intro f hf
  rw [Engine.rules, h.filters] at hf
  cases hf

end Engine.Stocked

end TextTemplate
