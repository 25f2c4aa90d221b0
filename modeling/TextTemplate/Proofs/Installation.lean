import TextTemplate.Library.Install
import TextTemplate.Proofs.Definition
import Mathlib.Data.List.Induction

/-!
# What a library installs

The templates that the specs of a library make are worked out one after the other (`bound`): an
include holds what the last template of that name before it holds, and so a template that is given
to the name later does not reach it.  `Library.Installed` says what an engine has of these
templates, of the scopes and of the tags, and `Library.Valid` tells the libraries that can be
installed at all.  Both are followed from the new engine on, one spec at a time: a spec that the
earlier ones allow is installed, and any other one stops the installation.
-/

namespace TextTemplate

variable {δ : Type}

/-! ## Elements -/

namespace ElementSpec

mutual

/-- The templates that an element includes, at any depth. -/
def included : ElementSpec → List String
  | list es => includedAll es
  | includes name => [name]
  | _ => []

/-- The templates that elements include. -/
def includedAll : List ElementSpec → List String
  | [] => []
  | e :: es => included e ++ includedAll es

end

mutual

/-- The element of a spec, where the templates that are included are found under their names. -/
def bind (find? : String → Option (Template δ)) : ElementSpec → Element δ
  | text s => .text s
  | point => .point
  | prompt p => .prompt p
  | region none _ _ indented => .regionPoint indented
  | region (some question) name always indented =>
    .regionPrompt { text := question, name, always } indented
  | newline => .newline
  | newlineIndent => .newlineIndent
  | conditionalNewline => .conditionalNewline
  | conditionalNewlineAfter => .conditionalNewlineAfter
  | indent => .reindent
  | saved name => .saved name
  | list es => .list (bindAll find? es)
  | symbol name => .symbol name
  | empty => .empty
  | includes name => ((find? name).map .ofTemplate).getD .empty

/-- The elements of specs. -/
def bindAll (find? : String → Option (Template δ)) : List ElementSpec → List (Element δ)
  | [] => []
  | e :: es => bind find? e :: bindAll find? es

end

section

variable {r : Registry δ} {find? : String → Option (Template δ)}

mutual

/-- An element is built just if all that it includes is there, and then it is what its spec stands
for. -/
theorem build_cases (hr : ∀ n, r.templates.get? n = find? n) (e : ElementSpec) :
    ((∀ n ∈ included e, (find? n).isSome) ∧ build r e = .ok (bind find? e)) ∨
    ((∃ n ∈ included e, find? n = none) ∧ ∃ err, build r e = .error err) := by
  cases e with
  | list es =>
    rcases buildAll_cases hr es with ⟨hknown, hbuild⟩ | ⟨hunknown, err, hbuild⟩
    · exact .inl ⟨hknown, by rw [build, hbuild, bind]; rfl⟩
    · exact .inr ⟨hunknown, err, by rw [build, hbuild]; rfl⟩
  | includes name =>
    simp only [included, List.mem_singleton, forall_eq, exists_eq_left, build, bind,
      Registry.lookup, hr]
    cases find? name with
    | none => exact .inr ⟨rfl, _, rfl⟩
    | some t => exact .inl ⟨rfl, rfl⟩
  | region question name always indented =>
    cases question <;> exact .inl ⟨List.forall_mem_nil _, rfl⟩
  | _ => exact .inl ⟨List.forall_mem_nil _, rfl⟩

theorem buildAll_cases (hr : ∀ n, r.templates.get? n = find? n) (es : List ElementSpec) :
    ((∀ n ∈ includedAll es, (find? n).isSome) ∧ buildAll r es = .ok (bindAll find? es)) ∨
    ((∃ n ∈ includedAll es, find? n = none) ∧ ∃ err, buildAll r es = .error err) := by
  cases es with
  | nil => exact .inl ⟨List.forall_mem_nil _, rfl⟩
  | cons e es =>
    simp only [includedAll, List.mem_append]
    rcases build_cases hr e with ⟨hknown, hbuild⟩ | ⟨⟨n, hn, hnone⟩, err, hbuild⟩
    · rcases buildAll_cases hr es with ⟨hknown', hbuild'⟩ | ⟨⟨n, hn, hnone⟩, err, hbuild'⟩
      · refine .inl ⟨fun n hn => hn.elim (hknown n) (hknown' n), ?_⟩
        rw [buildAll, hbuild, hbuild', bindAll]
        rfl
      · refine .inr ⟨⟨n, .inr hn, hnone⟩, err, ?_⟩
        rw [buildAll, hbuild, hbuild']
        rfl
    · refine .inr ⟨⟨n, .inl hn, hnone⟩, err, ?_⟩
      rw [buildAll, hbuild]
      rfl

end

end

end ElementSpec

/-! ## Templates -/

/-- The last template with a name. -/
def lastNamed? (ts : List (Template δ)) (name : String) : Option (Template δ) :=
  ts.reverse.find? (·.name = name)

namespace ScopeSpec

/-- The finder of a scope, if its pattern can be read; the word finder if it has none. -/
def finder? (d : ScopeSpec) : Option Finder := d.finder.elim (some .word) Finder.ofPattern?

/-- The finder of the last scope with a name. A scope that is not listed has the word finder. -/
def lastFinder? (ds : List ScopeSpec) (name : String) : Option Finder :=
  (ds.reverse.find? (·.name = name)).elim (some .word) finder?

/-- The scopes that can be defined. -/
structure Fits (d : ScopeSpec) : Prop where
  name : d.name ≠ ""
  finder : ∀ p ∈ d.finder, (Finder.ofPattern? p).isSome

end ScopeSpec

namespace TemplateSpec

/-- The name of the scope that a template asks for. -/
def scopeName (t : TemplateSpec) : String := t.scope.getD Scope.globalName

/-- The template of a spec that comes after some templates: an include holds what the last of them
with its name holds. -/
def bound (earlier : List (Template δ)) (t : TemplateSpec) : Template δ :=
  ⟨t.name, ElementSpec.bindAll (lastNamed? earlier) t.elements⟩

/-- The templates that can be defined after others, where some scopes are there besides the global
one. -/
structure Fits (scopes : List ScopeSpec) (earlier : List TemplateSpec) (t : TemplateSpec) :
    Prop where
  name : t.name ≠ ""
  tag : t.tag ≠ some ""
  scope : t.scopeName = Scope.globalName ∨ ∃ d ∈ scopes, d.name = t.scopeName
  included : ∀ n ∈ ElementSpec.includedAll t.elements, ∃ u ∈ earlier, u.name = n

end TemplateSpec

namespace Library

/-- The templates of specs, in order. -/
def bound (ts : List TemplateSpec) : List (Template δ) :=
  ts.foldl (fun earlier t => earlier ++ [t.bound earlier]) []

/-- The template of the first spec that asks for a tag in a scope. -/
def firstTagged? (ts : List TemplateSpec) (scope tag : String) : Option (Template δ) :=
  ((ts.zip (bound ts)).find? fun p => p.1.scopeName = scope ∧ p.1.tag = some tag).map (·.2)

/-- The libraries that can be installed in a new engine. A template can include those in front of
it only. -/
structure Valid (l : Library) : Prop where
  scope : ∀ d ∈ l.scopes, d.Fits
  template : ∀ (i : Nat) (t : TemplateSpec), l.templates[i]? = some t →
    t.Fits l.scopes (l.templates.take i)

/-- What an engine has once a library is installed in it. -/
structure Installed (l : Library) (g : Engine δ) : Prop where
  /-- The names of the templates, each once. -/
  names : g.registry.templates.keys = (l.templates.map (·.name)).eraseDups
  /-- A name has the last template that was given to it. -/
  template : ∀ n, g.registry.templates.get? n = lastNamed? (bound l.templates) n
  scope : ∀ n, (∃ s, g.scope n = .ok s) ↔ n = Scope.globalName ∨ ∃ d ∈ l.scopes, d.name = n
  finder : ∀ {n s}, g.scope n = .ok s → some s.finder = ScopeSpec.lastFinder? l.scopes n
  tag : ∀ {n s}, g.scope n = .ok s → ∀ x,
    s.lookup x = (firstTagged? l.templates n x).map fun t => ⟨x, t⟩

theorem bound_append (ts : List TemplateSpec) (t : TemplateSpec) :
    (bound (ts ++ [t]) : List (Template δ)) = bound ts ++ [t.bound (bound ts)] := by
  rw [bound, List.foldl_append]
  rfl

/-- A name that is given to another template later means the earlier one in between. -/
example : (Library.bound [
      { name := "a", elements := [.text "old"] },
      { name := "b", elements := [.list [.includes "a"]] },
      { name := "a", elements := [.text "new"] }] : List (Template Empty)).map (·.elements) =
    [[.text "old"], [.list [.template "a" [.text "old"]]], [.text "new"]] := rfl

theorem names_bound (ts : List TemplateSpec) :
    (bound ts : List (Template δ)).map (·.name) = ts.map (·.name) := by
  induction ts using List.reverseRecOn with
  | nil => rfl
  | append_singleton ts t ih =>
    rw [bound_append, List.map_append, List.map_append, ih]
    rfl

theorem length_bound (ts : List TemplateSpec) : (bound ts : List (Template δ)).length = ts.length := by
  have h := congrArg List.length (names_bound (δ := δ) ts)
  rwa [List.length_map, List.length_map] at h

/-- The last template with a name after one more. -/
theorem lastNamed?_append (ts : List TemplateSpec) (t : TemplateSpec) (n : String) :
    lastNamed? (bound (ts ++ [t]) : List (Template δ)) n =
      if t.name = n then some (t.bound (bound ts)) else lastNamed? (bound ts) n := by
  rw [bound_append, lastNamed?, List.reverse_append, List.reverse_singleton, List.singleton_append,
    List.find?_cons]
  by_cases h : t.name = n
  · simp [TemplateSpec.bound, h]
  · simp [TemplateSpec.bound, h, lastNamed?]

theorem isSome_lastNamed? (ts : List TemplateSpec) (n : String) :
    (lastNamed? (bound ts : List (Template δ)) n).isSome ↔ ∃ u ∈ ts, u.name = n := by
  have hnames : n ∈ (bound ts : List (Template δ)).map (·.name) ↔ n ∈ ts.map (·.name) := by
    rw [names_bound]
  rw [List.mem_map, List.mem_map] at hnames
  rw [← hnames, lastNamed?, List.find?_isSome]
  simp

theorem firstTagged?_append (ts : List TemplateSpec) (t : TemplateSpec) (n x : String) :
    (firstTagged? (ts ++ [t]) n x : Option (Template δ)) =
      (firstTagged? ts n x).or
        (if t.scopeName = n ∧ t.tag = some x then some (t.bound (bound ts)) else none) := by
  rw [firstTagged?, bound_append, List.zip_append (length_bound ts).symm, List.find?_append,
    Option.map_or, ← firstTagged?]
  congr 1
  by_cases h : t.scopeName = n ∧ t.tag = some x
  · simp [h]
  · rw [if_neg h]
    simpa using h

end Library

/-! ## Installing one after the other -/

namespace Library.Installed

variable {g : Engine δ} {ss : List ScopeSpec} {ts : List TemplateSpec}

theorem new (settings : Settings) : Installed ⟨[], []⟩ ({ settings } : Engine δ) where
  names := rfl
  template _ := rfl
  scope n := by
    simp only [List.not_mem_nil, false_and, exists_false, or_false]
    constructor
    · rintro ⟨s, hs⟩
      unfold Engine.scope at hs
      split at hs
      · next hn => exact hn
      · cases hs
    · rintro rfl
      exact ⟨_, rfl⟩
  finder {n s} hs := by
    unfold Engine.scope at hs
    split at hs
    · cases hs
      rfl
    · cases hs
  tag {n s} hs x := by
    unfold Engine.scope at hs
    split at hs
    · cases hs
      rfl
    · cases hs

/-- What a scope adds when it is defined. -/
theorem setScope (h : Installed ⟨ss, []⟩ g) {d : ScopeSpec} {s : Scope δ}
    (hfinder : d.finder? = some s.finder) (htags : ∀ x, s.lookup x = none) :
    Installed ⟨ss ++ [d], []⟩ (g.setScope d.name s) := by
  have hregistry : (g.setScope d.name s).registry = g.registry := by
    unfold Engine.setScope
    split <;> rfl
  refine ⟨hregistry ▸ h.names, hregistry ▸ h.template, ?_, ?_, ?_⟩
  · intro n
    rw [Engine.scope_setScope]
    split
    · next hn => exact ⟨fun _ => .inr ⟨d, by simp, hn.symm⟩, fun _ => ⟨s, rfl⟩⟩
    · next hn =>
      rw [h.scope n]
      simp [or_and_right, exists_or, Ne.symm hn]
  · intro n s' hs'
    rw [Engine.scope_setScope] at hs'
    rw [ScopeSpec.lastFinder?, List.reverse_append, List.reverse_singleton, List.singleton_append,
      List.find?_cons]
    split at hs'
    · next hn =>
      cases hs'
      simp [hn, hfinder]
    · next hn =>
      simp only [Ne.symm hn, decide_false]
      exact h.finder hs'
  · intro n s' hs' x
    rw [Engine.scope_setScope] at hs'
    split at hs'
    · cases hs'
      exact htags x
    · exact h.tag hs' x

/-- A scope is defined, or stops the installation. -/
theorem installScope (h : Installed ⟨ss, []⟩ g) (d : ScopeSpec) :
    (d.Fits ∧ ∃ g', g.installScope d = .ok g' ∧ Installed ⟨ss ++ [d], []⟩ g') ∨
    (¬ d.Fits ∧ ∃ e, g.installScope d = .error e) := by
  unfold Engine.installScope
  cases hfinder : d.finder? with
  | none =>
    refine .inr ⟨fun hfits => ?_, .finder d.name, by rw [← ScopeSpec.finder?, hfinder]⟩
    unfold ScopeSpec.finder? at hfinder
    cases hd : d.finder with
    | none =>
      rw [hd] at hfinder
      cases hfinder
    | some p =>
      have hsome := hfits.finder p hd
      rw [hd, Option.elim_some] at hfinder
      rw [hfinder] at hsome
      cases hsome
  | some finder =>
    rw [← ScopeSpec.finder?, hfinder]
    dsimp only
    unfold Engine.defineScope
    by_cases hname : d.name = ""
    · rw [if_pos hname]
      exact .inr ⟨fun hfits => hfits.name hname, _, rfl⟩
    have hfits : d.Fits := by
      refine ⟨hname, fun p hp => ?_⟩
      rw [ScopeSpec.finder?, hp, Option.elim_some] at hfinder
      rw [hfinder]
      rfl
    rw [if_neg hname]
    cases hs : g.scope d.name with
    | ok s => exact .inl ⟨hfits, _, rfl, h.setScope hfinder fun x => h.tag hs x⟩
    | error e => exact .inl ⟨hfits, _, rfl, h.setScope hfinder fun x => rfl⟩

theorem eraseDups_append_singleton (ns : List String) (n : String) :
    (ns ++ [n]).eraseDups =
      if n ∈ ns.eraseDups then ns.eraseDups else ns.eraseDups ++ [n] := by
  rw [List.eraseDups_append]
  by_cases h : n ∈ ns
  · simp [List.removeAll, h, List.mem_eraseDups]
  · simp [List.removeAll, h, List.mem_eraseDups, List.eraseDups_cons]

/-- What a template adds when it is defined. -/
theorem withTag (h : Installed ⟨ss, ts⟩ g) {t : TemplateSpec} {s : Scope δ}
    (hs : g.scope t.scopeName = .ok s) :
    Installed ⟨ss, ts ++ [t]⟩
      ((g.store (t.bound (bound ts))).withTag t.scopeName s (t.bound (bound ts)) t.tag) := by
  have hscope := Engine.scope_withTag (g := g.store (t.bound (bound ts))) hs (t.bound (bound ts)) t.tag
  refine ⟨?_, ?_, ?_, ?_, ?_⟩
  · rw [Engine.registry_withTag, List.map_append, List.map_singleton, eraseDups_append_singleton,
      ← h.names]
    exact Table.keys_insert ..
  · intro n
    rw [Engine.registry_withTag, lastNamed?_append, ← h.template n]
    simp only [Engine.store, Table.get?_insert, eq_comm (a := n)]
    rfl
  · intro n
    rw [← h.scope n, hscope]
    split
    · next hn =>
      subst hn
      exact ⟨fun _ => ⟨s, hs⟩, fun _ => ⟨_, rfl⟩⟩
    · rfl
  · intro n s' hs'
    rw [hscope] at hs'
    split at hs'
    · next hn =>
      subst hn
      cases hs'
      rw [← h.finder hs]
      cases t.tag with
      | none => rfl
      | some x => rw [Option.elim_some, Scope.finder_addTag]
    · exact h.finder hs'
  · intro n s' hs' x
    rw [hscope] at hs'
    rw [firstTagged?_append, Option.map_or]
    split at hs'
    · next hn =>
      subst hn
      cases hs'
      rw [← h.tag hs x]
      cases htag : t.tag with
      | none => simp
      | some y =>
        rw [Option.elim_some, Scope.lookup_addTag]
        by_cases hxy : x = y
        · simp [hxy]
        · simp [hxy, Ne.symm hxy]
    · next hn =>
      rw [if_neg fun h => hn h.1.symm, Option.map_none, Option.or_none]
      exact h.tag hs' x

/-- A template is built and defined, or stops the installation. -/
theorem installTemplate (h : Installed ⟨ss, ts⟩ g) (t : TemplateSpec) :
    (t.Fits ss ts ∧ ∃ g', g.installTemplate t = (g', none) ∧ Installed ⟨ss, ts ++ [t]⟩ g') ∨
    (¬ t.Fits ss ts ∧ ∃ g' e, g.installTemplate t = (g', some e)) := by
  have hscope := h.scope t.scopeName
  unfold Engine.installTemplate
  rcases ElementSpec.buildAll_cases h.template t.elements with
    ⟨hknown, hbuild⟩ | ⟨⟨n, hn, hnone⟩, err, hbuild⟩
  · simp only [isSome_lastNamed?] at hknown
    rw [hbuild]
    dsimp only
    rcases g.defineTemplate_cases t.name (ElementSpec.bindAll (lastNamed? (bound ts)) t.elements)
      t.tag t.scope with
      ⟨e, hs, hr⟩ | ⟨s, hs, ⟨hname, hr⟩ | ⟨hname, htag, hr⟩ | ⟨hname, htag, hr⟩⟩
    · refine .inr ⟨fun hfits => ?_, g, _, by rw [hr]⟩
      obtain ⟨s, hs'⟩ := hscope.mpr hfits.scope
      rw [TemplateSpec.scopeName, hs] at hs'
      cases hs'
    · exact .inr ⟨fun hfits => hfits.name hname, g, _, by rw [hr]⟩
    · exact .inr ⟨fun hfits => hfits.tag htag, _, _, by rw [hr]⟩
    · refine .inl ⟨⟨hname, htag, hscope.mp ⟨s, hs⟩, hknown⟩, _, by rw [hr], ?_⟩
      exact h.withTag hs
  · refine .inr ⟨fun hfits => ?_, g, _, by rw [hbuild]⟩
    have hsome := (isSome_lastNamed? (δ := δ) ts n).mpr (hfits.included n hn)
    rw [hnone] at hsome
    cases hsome

/-- Scopes are defined in order, or one of them stops the installation. -/
theorem installScopes (h : Installed ⟨ss, []⟩ g) (ds : List ScopeSpec) :
    ((∀ d ∈ ds, d.Fits) ∧
      ∃ g', g.installScopes ds = (g', none) ∧ Installed ⟨ss ++ ds, []⟩ g') ∨
    ((¬ ∀ d ∈ ds, d.Fits) ∧ ∃ g' e, g.installScopes ds = (g', some e)) := by
  induction ds generalizing g ss with
  | nil => exact .inl ⟨List.forall_mem_nil _, g, rfl, by rwa [List.append_nil]⟩
  | cons d ds ih =>
    rw [List.forall_mem_cons]
    rcases h.installScope d with ⟨hfits, g₁, hg₁, h₁⟩ | ⟨hfits, e, hg₁⟩
    · simp only [Engine.installScopes, hg₁]
      rcases ih h₁ with ⟨hrest, g', hg', h'⟩ | ⟨hrest, g', e, hg'⟩
      · rw [List.append_assoc, List.singleton_append] at h'
        exact .inl ⟨⟨hfits, hrest⟩, g', hg', h'⟩
      · exact .inr ⟨fun hall => hrest hall.2, g', e, hg'⟩
    · exact .inr ⟨fun hall => hfits hall.1, g, e, by simp only [Engine.installScopes, hg₁]⟩

theorem fits_cons_iff {earlier : List TemplateSpec} (t : TemplateSpec) (us : List TemplateSpec) :
    (∀ (i : Nat) (u : TemplateSpec), (t :: us)[i]? = some u →
      u.Fits ss (earlier ++ (t :: us).take i)) ↔
    t.Fits ss earlier ∧ ∀ (i : Nat) (u : TemplateSpec), us[i]? = some u →
      u.Fits ss (earlier ++ [t] ++ us.take i) := by
  constructor
  · intro h
    refine ⟨by simpa using h 0 t rfl, fun i u hu => ?_⟩
    simpa using h (i + 1) u hu
  · rintro ⟨ht, hus⟩ i u hu
    cases i with
    | zero =>
      cases hu
      simpa using ht
    | succ i => simpa using hus i u hu

/-- Templates are built and defined in order, or one of them stops the installation. -/
theorem installTemplates (h : Installed ⟨ss, ts⟩ g) (us : List TemplateSpec) :
    ((∀ (i : Nat) (u : TemplateSpec), us[i]? = some u → u.Fits ss (ts ++ us.take i)) ∧
      ∃ g', g.installTemplates us = (g', none) ∧ Installed ⟨ss, ts ++ us⟩ g') ∨
    ((¬ ∀ (i : Nat) (u : TemplateSpec), us[i]? = some u → u.Fits ss (ts ++ us.take i)) ∧
      ∃ g' e, g.installTemplates us = (g', some e)) := by
  induction us generalizing g ts with
  | nil =>
    refine .inl ⟨?_, g, rfl, by rwa [List.append_nil]⟩
    intro i u hu
    cases hu
  | cons t us ih =>
    rw [fits_cons_iff]
    rcases h.installTemplate t with ⟨hfits, g₁, hg₁, h₁⟩ | ⟨hfits, g', e, hg'⟩
    · simp only [Engine.installTemplates, hg₁]
      rcases ih h₁ with ⟨hrest, g', hg', h'⟩ | ⟨hrest, g', e, hg'⟩
      · rw [List.append_assoc, List.singleton_append] at h'
        exact .inl ⟨⟨hfits, hrest⟩, g', hg', h'⟩
      · exact .inr ⟨fun hall => hrest hall.2, g', e, hg'⟩
    · exact .inr ⟨fun hall => hfits hall.1, g', e, by simp only [Engine.installTemplates, hg']⟩

end Library.Installed

/-- A library is installed in a new engine, or it is not valid. -/
theorem Engine.install_cases (settings : Settings) (l : Library) :
    (l.Valid ∧ ∃ g, ({ settings } : Engine δ).install l = (g, .ok l.templates.length) ∧
      l.Installed g) ∨
    (¬ l.Valid ∧ ∃ g e, ({ settings } : Engine δ).install l = (g, .error e)) := by
  rcases (Library.Installed.new (δ := δ) settings).installScopes l.scopes with
    ⟨hscopes, g, hg, h⟩ | ⟨hscopes, g, e, hg⟩
  · rw [List.nil_append] at h
    rcases h.installTemplates l.templates with ⟨htemplates, g', hg', h'⟩ | ⟨htemplates, g', e, hg'⟩
    · exact .inl ⟨⟨hscopes, htemplates⟩, g', by simp only [install, hg, hg'], h'⟩
    · exact .inr ⟨fun hvalid => htemplates hvalid.template, g', e, by simp only [install, hg, hg']⟩
  · exact .inr ⟨fun hvalid => hscopes hvalid.scope, g, e, by simp only [install, hg]⟩

/-- A library can be installed in a new engine just if it is valid.  Then it is told how many
templates it has, and the engine has them, the scopes and the tags as the library lists them. -/
theorem Engine.install_new (settings : Settings) (l : Library) :
    let r := ({ settings } : Engine δ).install l
    ((∃ n, r.2 = .ok n) ↔ l.Valid) ∧
      ∀ n, r.2 = .ok n → n = l.templates.length ∧ l.Installed r.1 := by
  intro r
  rcases install_cases (δ := δ) settings l with ⟨hvalid, g, hg, h⟩ | ⟨hvalid, g, e, hg⟩
  · have hr : r = (g, .ok l.templates.length) := hg
    rw [hr]
    refine ⟨iff_of_true ⟨_, rfl⟩ hvalid, ?_⟩
    rintro n ⟨⟩
    exact ⟨rfl, h⟩
  · have hr : r = (g, .error e) := hg
    rw [hr]
    refine ⟨iff_of_false ?_ hvalid, ?_⟩
    · rintro ⟨n, ⟨⟩⟩
    · rintro n ⟨⟩

end TextTemplate
