import TextTemplate.Proofs.ExactTags
import TextTemplate.Proofs.Session

/-!
# Names, tags and installed scopes

An engine is *well formed* if its templates and scopes have the names that they are kept under, the
tags of a scope are all different, and the scopes that are installed on a buffer are there.  Growth
keeps this, and so do commands, which reach the scopes of their buffer at most.

A *record* says what an engine was asked for since it was last reset: the tags that it granted and
the scopes that it installed.  It does not say which of them were new, and yet the first occurrences
in it account for all tags and all installed scopes (`Record.Accounts`).  So an entry stays where it
is until the next reset, and goes on expanding the template that it was added with.
-/

namespace TextTemplate

variable {δ : Type}

/-! ## Well-formed engines -/

/-- Names are right, tags differ, and installed scopes are there. -/
structure Engine.WellFormed (g : Engine δ) : Prop where
  template : ∀ {n t}, g.lookup n = .ok t → t.name = n ∧ n ≠ ""
  scope : ∀ {n s}, g.scope n = .ok s → s.name = n ∧ n ≠ ""
  tag : ∀ n, ∀ e ∈ g.tags n, e.tag ≠ ""
  distinct : ∀ n, (g.tags n).Pairwise fun e e' => e.tag ≠ e'.tag
  installed : ∀ i, ∀ n ∈ (g.stateOf i).scopes, n ≠ Scope.globalName ∧ ∃ s, g.scope n = .ok s
  nodup : ∀ i, (g.stateOf i).scopes.Nodup

namespace Engine

/-- At its start, an engine has the global scope only, without tags. -/
theorem scope_new {settings : Settings} {n : String} {s : Scope δ}
    (h : ({ settings } : Engine δ).scope n = .ok s) : n = Scope.globalName ∧ s.name = n ∧
      s.tags = [] := by
  unfold scope at h
  split at h
  · next hn =>
    cases h
    exact ⟨hn, hn.symm, rfl⟩
  · cases h

theorem tags_new (settings : Settings) (n : String) : ({ settings } : Engine δ).tags n = [] := by
  cases h : ({ settings } : Engine δ).scope n with
  | error e => rw [tags, h]
  | ok s => rw [tags_of_scope h, (scope_new h).2.2]

theorem wellFormed_new (settings : Settings) : WellFormed ({ settings } : Engine δ) where
  template h := by cases h
  scope h := by
    obtain ⟨hn, hname, -⟩ := scope_new h
    exact ⟨hname, hn ▸ by decide⟩
  tag n e he := by
    rw [tags_new] at he
    cases he
  distinct n := by
    rw [tags_new]
    exact .nil
  installed i n hn := by cases hn
  nodup i := .nil

/-- What is installed once a scope has been installed. -/
theorem scopes_useScope {g g' : Engine δ} {i : BufferId} {name : String}
    (h : g.useScope i name = .ok g') : ∃ s, g.scope name = .ok s ∧ (g'.stateOf i).scopes =
      if name = Scope.globalName ∨ name ∈ (g.stateOf i).scopes then (g.stateOf i).scopes
      else name :: (g.stateOf i).scopes := by
  obtain ⟨s, hs, ⟨hglobal, rfl⟩ | ⟨hglobal, scopes, rfl, hscopes⟩⟩ := useScope_cases h
  · exact ⟨s, hs, by rw [if_pos (.inl hglobal)]⟩
  · refine ⟨s, hs, ?_⟩
    simp only [stateOf_setState, if_true, hscopes, hglobal, false_or]

theorem scopes_forget (g : Engine δ) (i : BufferId) : ((g.forget i).stateOf i).scopes = [] := by
  rw [stateOf, forget, Table.get?_erase, if_pos rfl]
  rfl

namespace WellFormed

variable {g g' : Engine δ}

/-- A scope gives way to one with the right name and with different tags. -/
theorem setScope (h : g.WellFormed) {name : String} {s : Scope δ} (hname : s.name = name)
    (hne : name ≠ "") (htag : ∀ e ∈ s.tags, e.tag ≠ "")
    (hdistinct : s.tags.Pairwise fun e e' => e.tag ≠ e'.tag) : (g.setScope name s).WellFormed where
  template ht := by
    rw [lookup_setScope] at ht
    exact h.template ht
  scope {n s'} hs := by
    rw [scope_setScope] at hs
    split at hs
    · next hn =>
      cases hs
      exact hn ▸ ⟨hname, hne⟩
    · exact h.scope hs
  tag n := by
    rw [tags_setScope]
    split
    · exact htag
    · exact h.tag n
  distinct n := by
    rw [tags_setScope]
    split
    · exact hdistinct
    · exact h.distinct n
  installed i n hn := by
    rw [stateOf, buffers_setScope] at hn
    obtain ⟨hglobal, s', hs'⟩ := h.installed i n hn
    refine ⟨hglobal, ?_⟩
    rw [scope_setScope]
    split
    · exact ⟨s, rfl⟩
    · exact ⟨s', hs'⟩
  nodup i := by
    rw [stateOf, buffers_setScope]
    exact h.nodup i

theorem grows (h : g.WellFormed) {log : List (Registration δ)} (hg : g.Grows log g') :
    g'.WellFormed := by
  induction hg with
  | refl => exact h
  | trans _ _ ih ih' => exact ih' (ih h)
  | hooks => exact ⟨h.template, h.scope, h.tag, h.distinct, h.installed, h.nodup⟩
  | @store g t ht =>
    refine ⟨?_, h.scope, h.tag, h.distinct, h.installed, h.nodup⟩
    intro n t' hn
    rw [lookup_store] at hn
    split at hn
    · next hname =>
      cases hn
      exact ⟨hname.symm, hname ▸ ht⟩
    · exact h.template hn
  | @register g name s hs e he =>
    obtain ⟨hname, hne⟩ := h.scope hs
    have htag := h.tag name
    have hdistinct := h.distinct name
    rw [tags_of_scope hs] at htag hdistinct
    refine h.setScope ((s.name_addTag ..).trans hname) hne ?_ ?_
    · intro e' he'
      rw [Scope.tags_addTag] at he'
      rcases mem_appendNew _ he' with he' | rfl
      · exact htag e' he'
      · exact he
    · rw [Scope.tags_addTag]
      have h := pairwise_appendNew TagEntry.sameTag
        (hdistinct.imp fun hne => TagEntry.sameTag_eq_false.mpr hne) e
      exact h.imp fun hsame => TagEntry.sameTag_eq_false.mp hsame
  | @refind g name s hs finder =>
    obtain ⟨hname, hne⟩ := h.scope hs
    refine h.setScope (s := { s with finder }) hname hne ?_ ?_
    · exact tags_of_scope hs ▸ h.tag name
    · exact tags_of_scope hs ▸ h.distinct name
  | found hs hname finder => exact h.setScope rfl hname (fun e he => by cases he) .nil

/-- What is kept for one buffer changes, and the scopes that are installed on it are there. -/
theorem changesOnly (h : g.WellFormed) {id : BufferId} (hg : g.ChangesOnly id g')
    (hinstalled : ∀ n ∈ (g'.stateOf id).scopes, n ≠ Scope.globalName ∧ ∃ s, g.scope n = .ok s)
    (hnodup : (g'.stateOf id).scopes.Nodup) : g'.WellFormed := by
  have hothers {i : BufferId} (hi : i ≠ id) : g'.stateOf i = g.stateOf i := hg.stateOf_eq hi
  obtain ⟨t, rfl⟩ := hg.rest
  refine ⟨h.template, h.scope, h.tag, h.distinct, ?_, ?_⟩
  · intro i n hn
    by_cases hi : i = id
    · exact hinstalled n (hi ▸ hn)
    · exact h.installed i n (hothers hi ▸ hn)
  · intro i
    by_cases hi : i = id
    · exact hi ▸ hnodup
    · exact hothers hi ▸ h.nodup i

theorem request (h : g.WellFormed) (r : Request δ) : (r.perform g).WellFormed := by
  have hgrows (hr : r ≠ .reset) : (r.perform g).WellFormed := h.grows (r.grows_perform g hr)
  cases r with
  | reset => exact wellFormed_new g.settings
  | _ => exact hgrows (by simp)

variable [Deferral δ]

theorem command (h : g.WellFormed) (b : Buffer) (c : Command δ) :
    (c.perform g b).engine.WellFormed := by
  have hkept {c : Command δ} (hc : c.KeepsScopes) : (c.perform g b).engine.WellFormed := by
    have hg := c.remarks_perform g b hc
    exact h.changesOnly hg.toChangesOnly (hg.scopes ▸ h.installed b.id) (hg.scopes ▸ h.nodup b.id)
  cases c with
  | useScope name =>
    cases hg' : g.useScope b.id name with
    | error e =>
      simp only [Command.perform, hg']
      exact h
    | ok g' =>
      simp only [Command.perform, hg']
      obtain ⟨s, hs, hscopes⟩ := scopes_useScope hg'
      refine h.changesOnly (changesOnly_useScope hg') ?_ ?_ <;> rw [hscopes] <;> split
      · exact h.installed b.id
      · next hnew =>
        intro n hn
        rcases List.mem_cons.mp hn with rfl | hn
        · exact ⟨fun hglobal => hnew (.inl hglobal), s, hs⟩
        · exact h.installed b.id n hn
      · exact h.nodup b.id
      · next hnew => exact List.nodup_cons.mpr ⟨fun hmem => hnew (.inr hmem), h.nodup b.id⟩
  | forget =>
    simp only [Command.perform]
    refine h.changesOnly (g.changesOnly_forget b.id) ?_ ?_ <;> rw [scopes_forget]
    · intro n hn
      cases hn
    · exact .nil
  | _ => exact hkept trivial

end WellFormed

end Engine

/-- Whatever happens, the engine is well formed. -/
theorem Session.wellFormed_run [Deferral δ] {s : Session δ} (h : s.engine.WellFormed)
    (as : List (Action δ)) : (s.run as).engine.WellFormed := by
  refine run_induction (P := fun s => s.engine.WellFormed) ?_ h
  intro a _ s h
  rcases s.step_cases a with
    hs | ⟨b, -, -, -, hs⟩ | ⟨r, rfl, hs⟩ | ⟨id, c, b, rfl, -, hs⟩ <;> rw [hs]
  · exact h
  · exact h
  · exact h.request r
  · exact h.command b c

/-! ## Records -/

/-- What an engine was asked for since it was last reset. -/
structure Record (δ : Type) where
  /-- The tags, each for a scope. -/
  tags : List (Registration δ) := []
  /-- The scopes but the global one, each for a buffer that was not forgotten since. -/
  installs : List (BufferId × String) := []

namespace Record

/-- The scopes that were installed on one buffer. -/
def installsOn (r : Record δ) (i : BufferId) : List String :=
  (r.installs.filter (·.1 = i)).map (·.2)

/-- Adds the installation of a scope. -/
def install (r : Record δ) (id : BufferId) (name : String) : Record δ :=
  if name = Scope.globalName then r else { r with installs := r.installs ++ [(id, name)] }

/-- Drops what was installed on one buffer. -/
def forget (r : Record δ) (id : BufferId) : Record δ :=
  { r with installs := r.installs.filter (·.1 ≠ id) }

theorem installsOn_install (r : Record δ) (id i : BufferId) {name : String}
    (hname : name ≠ Scope.globalName) :
    (r.install id name).installsOn i =
      if i = id then r.installsOn i ++ [name] else r.installsOn i := by
  rw [install, if_neg hname, installsOn, List.filter_append, List.map_append, ← installsOn]
  by_cases hi : i = id
  · simp [hi]
  · simp [hi, Ne.symm hi]

theorem installsOn_forget (r : Record δ) (id i : BufferId) :
    (r.forget id).installsOn i = if i = id then [] else r.installsOn i := by
  rw [forget, installsOn, List.filter_filter, installsOn]
  by_cases hi : i = id
  · simp [hi]
  · rw [if_neg hi]
    congr 1
    apply List.filter_congr
    intro p _
    by_cases hp : p.1 = i
    · simp [hp, hi]
    · simp [hp]

end Record

/-- The record after a request. -/
def Request.record (g : Engine δ) (r : Record δ) : Request δ → Record δ
  | reset => {}
  | q => { r with tags := r.tags ++ q.registrations g }

/-- The record after a command. -/
def Command.record (g : Engine δ) (b : Buffer) (r : Record δ) : Command δ → Record δ
  | useScope name =>
    match g.useScope b.id name with
    | .ok _ => r.install b.id name
    | .error _ => r
  | forget => r.forget b.id
  | _ => r

/-- The record after an action. -/
def Action.record (s : Session δ) (r : Record δ) : Action δ → Record δ
  | create .. => r
  | request q => q.record s.engine r
  | command id c =>
    match s.buffers.get? id with
    | some b => c.record s.engine b r
    | none => r

/-- The record after some actions in order. -/
def Session.record [Deferral δ] (s : Session δ) (r : Record δ) : List (Action δ) → Record δ
  | [] => r
  | a :: as => (s.step a).record (a.record s r) as

namespace Record

/-- The first occurrences in a record are what is there. -/
structure Accounts (r : Record δ) (g : Engine δ) : Prop where
  tags : ∀ n, g.tags n = (Registration.of n r.tags).eraseDupsBy TagEntry.sameTag
  scopes : ∀ i, (g.stateOf i).scopes.reverse = (r.installsOn i).eraseDups

namespace Accounts

variable {g g' : Engine δ} {r : Record δ}

theorem new (settings : Settings) : Accounts ({} : Record δ) { settings } where
  tags n := Engine.tags_new settings n
  scopes _ := rfl

theorem request (h : r.Accounts g) (q : Request δ) : (q.record g r).Accounts (q.perform g) := by
  have hgrows (hq : q ≠ .reset) :
      Accounts { r with tags := r.tags ++ q.registrations g } (q.perform g) := by
    have hg := q.grows_perform g hq
    refine ⟨?_, ?_⟩
    · intro n
      rw [Registration.of_append]
      exact hg.tags_eq (h.tags n)
    · intro i
      rw [Engine.stateOf, hg.buffers]
      exact h.scopes i
  cases q with
  | reset => exact .new g.settings
  | _ => exact hgrows (by simp)

/-- What is kept for one buffer changes, with the scopes that were installed on it. -/
theorem changesOnly (h : r.Accounts g) {id : BufferId} (hg : g.ChangesOnly id g')
    {r' : Record δ} (htags : r'.tags = r.tags)
    (hothers : ∀ i, i ≠ id → r'.installsOn i = r.installsOn i)
    (hscopes : (g'.stateOf id).scopes.reverse = (r'.installsOn id).eraseDups) :
    r'.Accounts g' := by
  refine ⟨?_, ?_⟩
  · obtain ⟨t, rfl⟩ := hg.rest
    rw [htags]
    exact h.tags
  · intro i
    by_cases hi : i = id
    · exact hi ▸ hscopes
    · rw [hg.stateOf_eq hi, hothers i hi]
      exact h.scopes i

/-- A scope that is installed is new in front of the others where it is new at the end of the
record. -/
theorem useScope (h : r.Accounts g) {id : BufferId} {name : String}
    (hg : g.useScope id name = .ok g') : (r.install id name).Accounts g' := by
  have honly := Engine.changesOnly_useScope hg
  obtain ⟨s, -, hscopes⟩ := Engine.scopes_useScope hg
  by_cases hglobal : name = Scope.globalName
  · rw [if_pos (.inl hglobal)] at hscopes
    rw [Record.install, if_pos hglobal]
    exact h.changesOnly honly rfl (fun _ _ => rfl) (hscopes ▸ h.scopes id)
  · refine h.changesOnly honly ?_ ?_ ?_
    · rw [Record.install, if_neg hglobal]
    · intro i hi
      rw [installsOn_install r id i hglobal, if_neg hi]
    · have hnew : (r.installsOn id ++ [name]).eraseDups =
          appendNew (· == ·) (r.installsOn id).eraseDups name := eraseDupsBy_append _ _ _
      rw [installsOn_install r id id hglobal, if_pos rfl, hnew, ← h.scopes, hscopes, appendNew]
      by_cases hmem : name ∈ (g.stateOf id).scopes
      · simp [hglobal, hmem]
      · simp [hglobal, hmem]

theorem forget (h : r.Accounts g) (id : BufferId) : (r.forget id).Accounts (g.forget id) := by
  refine h.changesOnly (g.changesOnly_forget id) rfl ?_ ?_
  · intro i hi
    rw [installsOn_forget, if_neg hi]
  · rw [installsOn_forget, if_pos rfl, Engine.scopes_forget]
    rfl

theorem command [Deferral δ] (h : r.Accounts g) (b : Buffer) (c : Command δ) :
    (c.record g b r).Accounts (c.perform g b).engine := by
  have hkept {c : Command δ} (hc : c.KeepsScopes) : r.Accounts (c.perform g b).engine := by
    have hg := c.remarks_perform g b hc
    exact h.changesOnly hg.toChangesOnly rfl (fun _ _ => rfl) (hg.scopes ▸ h.scopes b.id)
  cases c with
  | useScope name =>
    cases hg' : g.useScope b.id name with
    | error e =>
      simp only [Command.record, Command.perform, hg']
      exact h
    | ok g' =>
      simp only [Command.record, Command.perform, hg']
      exact h.useScope hg'
  | forget => exact h.forget b.id
  | _ => exact hkept trivial

end Accounts

end Record

namespace Session

variable [Deferral δ]

/-- A record goes on accounting for what is there. -/
theorem accounts_run {s : Session δ} {r : Record δ} (h : r.Accounts s.engine)
    (as : List (Action δ)) : (s.record r as).Accounts (s.run as).engine := by
  induction as generalizing s r with
  | nil => exact h
  | cons a as ih =>
    refine ih (s := s.step a) (r := a.record s r) ?_
    cases a with
    | create id text indentWidth answers prompter =>
      simp only [step, Action.record]
      split <;> exact h
    | request q => exact h.request q
    | command id c =>
      simp only [step, Action.record]
      cases s.buffers.get? id with
      | none => exact h
      | some b => exact h.command b c

/-- Until the next reset, a scope stays and its entries stay in their places. -/
theorem scope_run {s : Session δ} {n : String} {sc : Scope δ} (h : s.engine.scope n = .ok sc)
    {as : List (Action δ)} (has : .request .reset ∉ as) :
    ∃ sc', (s.run as).engine.scope n = .ok sc' ∧ sc.tags <+: sc'.tags := by
  refine run_induction (P := fun s => ∃ sc', s.engine.scope n = .ok sc' ∧ sc.tags <+: sc'.tags)
    ?_ ⟨sc, h, List.prefix_rfl⟩
  rintro a ha s ⟨sc', hsc', hinit⟩
  rcases s.step_cases a with
    hs | ⟨b, -, -, -, hs⟩ | ⟨r, rfl, hs⟩ | ⟨id, c, b, rfl, -, hs⟩ <;> rw [hs]
  · exact ⟨sc', hsc', hinit⟩
  · exact ⟨sc', hsc', hinit⟩
  · have hr : r ≠ .reset := by
      rintro rfl
      exact has ha
    have hg := r.grows_perform s.engine hr
    obtain ⟨sc'', hsc''⟩ := hg.scope_ok hsc'
    have htags := hg.tags_prefix n
    rw [Engine.tags_of_scope hsc', Engine.tags_of_scope hsc''] at htags
    exact ⟨sc'', hsc'', hinit.trans htags⟩
  · obtain ⟨t, ht⟩ := (c.changesOnly_perform s.engine b).rest
    refine ⟨sc', ?_, hinit⟩
    rw [ht]
    exact hsc'

end Session

/-! ## Entries and active scopes -/

namespace Engine

/-- The active scopes of a buffer are those that are installed on it, and the global one. -/
theorem WellFormed.activeScopes {g : Engine δ} (h : g.WellFormed) (i : BufferId) :
    ∃ installed, g.activeScopes i = installed ++ [g.global] ∧
      installed.map (·.name) = (g.stateOf i).scopes ∧
      ∀ s ∈ installed, g.scope s.name = .ok s := by
  refine ⟨_, rfl, ?_⟩
  have hknown := h.installed i
  generalize (g.stateOf i).scopes = names at hknown ⊢
  induction names with
  | nil => exact ⟨rfl, fun s hs => by cases hs⟩
  | cons n ns ih =>
    obtain ⟨hglobal, s, hs⟩ := hknown n List.mem_cons_self
    obtain ⟨hnames, hscopes⟩ := ih fun n hn => hknown n (List.mem_cons_of_mem _ hn)
    have hname := (h.scope hs).1
    rw [List.filterMap_cons_some (get?_scopes hglobal hs)]
    refine ⟨by rw [List.map_cons, hnames, hname], ?_⟩
    intro s' hs'
    rcases List.mem_cons.mp hs' with rfl | hs'
    · exact hname ▸ hs
    · exact hscopes s' hs'

variable [Deferral δ]

/-- Wherever a scope decides about the tag of an entry, the template of this entry is expanded in
the place of the tag. -/
def Expands (g : Engine δ) (s : Scope δ) (e : TagEntry δ) : Prop :=
  ∀ b c, c.text = e.tag →
    let r := g.deleteCandidate b c
    let x := r.1.insertTemplate r.2 e.template false
    (g.Decides b s c → ∀ silent, g.completeTag b silent =
        ⟨x.engine, x.buffer, x.result.map (.expanded e.tag)⟩) ∧
      (g.DecidesExactly b s c → g.expandIfComplete b =
        ⟨x.engine, x.buffer, x.result.map fun _ => true⟩)

/-- Where tags are different, none of them hides another one. -/
theorem expands_of_mem (g : Engine δ) {s : Scope δ} {e : TagEntry δ}
    (hdistinct : s.tags.Pairwise fun e e' => e.tag ≠ e'.tag) (he : e ∈ s.tags) :
    g.Expands s e := by
  obtain ⟨before, after, htags⟩ := List.append_of_mem he
  have hfirst : ∀ e' ∈ before, e'.tag ≠ e.tag := by
    intro e' he'
    rw [htags, List.pairwise_append] at hdistinct
    exact hdistinct.2.2 e' he' e List.mem_cons_self
  intro b c hc
  rw [← hc] at hfirst
  refine ⟨?_, ?_⟩
  · intro h silent
    exact (h.completes silent).expanded e (.exact htags hc.symm hfirst)
  · intro h
    obtain ⟨before', e', after', htags', htag', hfirst', ho⟩ := h.expands.expanded
    have hlookup := Scope.lookup_eq_some_iff.mpr ⟨before, after, htags, hc.symm, hfirst⟩
    have hlookup' := Scope.lookup_eq_some_iff.mpr ⟨before', after', htags', htag', hfirst'⟩
    obtain rfl : e' = e := Option.some.inj (hlookup'.symm.trans hlookup)
    exact ho

end Engine

/-- In every session, the engine is well formed.  The tags of a scope are the first occurrences of
those that were asked for since the last reset, and the installed scopes of a buffer are those of
the scopes that were installed on it since it was last forgotten, the first one at the end.  These
are the active scopes, with the global one behind them.  Until the next reset, every entry stays in
its place and expands its template wherever its scope decides about its tag. -/
theorem Session.run_wellFormed [Deferral δ] (settings : Settings) (as : List (Action δ)) :
    let s := (start settings).run as
    let r := (start settings).record {} as
    s.engine.WellFormed ∧
      (∀ n, s.engine.tags n = (Registration.of n r.tags).eraseDupsBy TagEntry.sameTag) ∧
      (∀ i, (s.engine.stateOf i).scopes = (r.installsOn i).eraseDups.reverse ∧
        ∃ installed, s.engine.activeScopes i = installed ++ [s.engine.global] ∧
          installed.map (·.name) = (s.engine.stateOf i).scopes ∧
          ∀ sc ∈ installed, s.engine.scope sc.name = .ok sc) ∧
      ∀ bs, .request .reset ∉ bs → let s' := s.run bs
        ∀ n sc, s.engine.scope n = .ok sc → ∃ sc', s'.engine.scope n = .ok sc' ∧
          sc.tags <+: sc'.tags ∧ ∀ e ∈ sc.tags, s'.engine.Expands sc' e := by
  intro s r
  have hs : s.engine.WellFormed := wellFormed_run (Engine.wellFormed_new settings) as
  have hr : r.Accounts s.engine := accounts_run (.new settings) as
  refine ⟨hs, hr.tags, ?_, ?_⟩
  · intro i
    exact ⟨by rw [← hr.scopes, List.reverse_reverse], hs.activeScopes i⟩
  · intro bs hbs s' n sc hsc
    obtain ⟨sc', hsc', hinit⟩ := scope_run hsc hbs
    have hdistinct := (wellFormed_run hs bs).distinct n
    rw [Engine.tags_of_scope hsc'] at hdistinct
    refine ⟨sc', hsc', hinit, ?_⟩
    intro e he
    exact s'.engine.expands_of_mem hdistinct (hinit.subset he)

/-- A scope is installed before a reset and another one after it, which has a tag.  Then the
template of the tag is defined again by a definition that fails, and the scope gets another finder.
The tag still stands for the template that it had, and the name for the other one. -/
theorem run_wellFormed_redefined :
    let find : Finder := .function fun _ => some ⟨"t", 0⟩
    let as : List (Action Empty) :=
      [.create 7 ['t'] 2 [] none,
        .request (.defineScope "u" find),
        .command 7 (.useScope "u"),
        .request .reset,
        .request (.defineScope "s" (.function fun _ => none)),
        .request (.defineTemplate "t" [.text "1"] (some "t") (some "s")),
        .command 7 (.useScope "s"),
        .command 7 (.useScope "u")]
    let bs : List (Action Empty) :=
      [.request (.defineTemplate "t" [.text "2"] (some "") none),
        .request (.defineScope "s" find), .command 7 (.useScope "s"), .command 7 (.moveTo 1),
        .command 7 (.completeTag false), .command 7 (.insertNamed "t" false)]
    let s := (Session.start {}).run as
    let s' := s.run bs
    let e : TagEntry Empty := ⟨"t", ⟨"t", [.text "1"]⟩⟩
    s.engine.WellFormed ∧ (s'.engine.activeScopes 7).map (·.name) = ["s", "global"] ∧
      .request .reset ∉ bs ∧ (s'.buffers.get? 7).map (·.text) = some ['1', '2'] ∧
      ∃ sc, s'.engine.scope "s" = .ok sc ∧ [e] <+: sc.tags ∧ s'.engine.Expands sc e := by
  intro find as bs s s' e
  have noReset : .request .reset ∉ bs := by simp [bs]
  have hnames : (s'.engine.activeScopes 7).map (·.name) = ["s", "global"] := by decide +kernel
  have htext : (s'.buffers.get? 7).map (·.text) = some ['1', '2'] := by decide +kernel
  have hsc : s.engine.scope "s" = .ok ⟨"s", .function fun _ => none, [e]⟩ := rfl
  obtain ⟨hwell, -, -, hkept⟩ := Session.run_wellFormed {} as
  obtain ⟨sc, hsc', hinit, hexpands⟩ := hkept bs noReset "s" _ hsc
  exact ⟨hwell, hnames, noReset, htext, sc, hsc', hinit, hexpands e List.mem_cons_self⟩

end TextTemplate
