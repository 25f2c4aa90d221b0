import TextTemplate.Library.Install
import TextTemplate.Proofs.Definition

/-!
# Engines grow

Definitions and installations add templates, scopes and tags to an engine, and replace templates and
finders, but they take no tag away.  `Engine.Grows g log g'` says that `g` becomes `g'` by such
steps, and `log` lists the tags that were asked for on the way, each with its scope and its
template, in order.  Every request but a reset is a growth, also one that fails halfway, and so what is to be
shown of definitions and installations is shown once for each kind of step.

The main statement is `Grows.tags_eq`: if the tags of a scope are those that it was asked for until
then, and of several entries with one tag the first one, then they still are at the end.
-/

namespace TextTemplate

/-! ## First occurrences -/

section

variable {α : Type} (r : α → α → Bool)

/-- Appends a value unless there is one like it. -/
def appendNew (as : List α) (a : α) : List α := if as.any (r a) then as else as ++ [a]

theorem eraseDupsBy_loop (as kept : List α) :
    List.eraseDupsBy.loop r as kept = as.foldl (appendNew r) kept.reverse := by
  induction as generalizing kept with
  | nil => rfl
  | cons a as ih =>
    rw [List.eraseDupsBy.loop, List.foldl_cons, appendNew, List.any_reverse]
    split
    · next h => rw [ih, h, if_pos rfl]
    · next h => rw [ih, h, if_neg Bool.false_ne_true, List.reverse_cons]

/-- The first occurrences in a list go on with what is new in the rest of it. -/
theorem eraseDupsBy_append (as bs : List α) :
    (as ++ bs).eraseDupsBy r = bs.foldl (appendNew r) (as.eraseDupsBy r) := by
  rw [List.eraseDupsBy, List.eraseDupsBy, eraseDupsBy_loop, eraseDupsBy_loop, List.foldl_append]

theorem mem_appendNew {as : List α} {a b : α} (h : b ∈ appendNew r as a) : b ∈ as ∨ b = a := by
  unfold appendNew at h
  split at h
  · exact .inl h
  · exact (List.mem_append.mp h).imp_right List.mem_singleton.mp

/-- A value that is new keeps the values different. -/
theorem pairwise_appendNew {as : List α} (h : as.Pairwise fun a b => r b a = false) (a : α) :
    (appendNew r as a).Pairwise fun a b => r b a = false := by
  unfold appendNew
  split
  · exact h
  · next hnew =>
    rw [List.pairwise_append]
    refine ⟨h, List.pairwise_singleton _ a, ?_⟩
    intro b hb c hc
    obtain rfl := List.mem_singleton.mp hc
    simpa using fun hr => hnew (List.any_eq_true.mpr ⟨b, hb, hr⟩)

theorem prefix_foldl_appendNew (as bs : List α) : as <+: bs.foldl (appendNew r) as := by
  induction bs generalizing as with
  | nil => exact List.prefix_rfl
  | cons b bs ih =>
    refine List.IsPrefix.trans ?_ (ih _)
    unfold appendNew
    split
    · exact List.prefix_rfl
    · exact List.prefix_append _ _

end

variable {δ : Type}

/-- Two entries have the same tag. -/
def TagEntry.sameTag (e e' : TagEntry δ) : Bool := e'.tag = e.tag

theorem TagEntry.sameTag_eq_false {e e' : TagEntry δ} :
    e'.sameTag e = false ↔ e.tag ≠ e'.tag := by
  simp [sameTag]

namespace Scope

/-- Adding a tag appends an entry unless the tag has one. -/
theorem tags_addTag (s : Scope δ) (e : TagEntry δ) :
    (s.addTag e.tag e.template).1.tags = appendNew TagEntry.sameTag s.tags e := by
  have hiff : (s.lookup e.tag).isSome = s.tags.any (TagEntry.sameTag e) := by
    rw [Bool.eq_iff_iff, lookup, List.find?_isSome]
    simp [TagEntry.sameTag]
  unfold addTag appendNew
  rw [hiff]
  split <;> rfl

end Scope

/-! ## Growth -/

/-- A tag that is asked for in a scope. -/
structure Registration (δ : Type) where
  scope : String
  entry : TagEntry δ

/-- The entries that are asked for in one scope. -/
def Registration.of (name : String) (log : List (Registration δ)) : List (TagEntry δ) :=
  (log.filter (·.scope = name)).map (·.entry)

@[simp] theorem Registration.of_append (name : String) (log log' : List (Registration δ)) :
    of name (log ++ log') = of name log ++ of name log' := by
  rw [of, List.filter_append, List.map_append]
  rfl

namespace Engine

/-- The entries of a scope; there are none if it is not there. -/
def tags (g : Engine δ) (name : String) : List (TagEntry δ) :=
  match g.scope name with
  | .ok s => s.tags
  | .error _ => []

theorem tags_of_scope {g : Engine δ} {n : String} {s : Scope δ} (h : g.scope n = .ok s) :
    g.tags n = s.tags := by
  rw [tags, h]

theorem buffers_setScope (g : Engine δ) (name : String) (s : Scope δ) :
    (g.setScope name s).buffers = g.buffers := by
  unfold setScope
  split <;> rfl

theorem lookup_setScope (g : Engine δ) (name n : String) (s : Scope δ) :
    (g.setScope name s).lookup n = g.lookup n := by
  unfold setScope
  split <;> rfl

/-- Putting a scope in place is putting its entries in place. -/
theorem tags_setScope (g : Engine δ) (name name' : String) (s : Scope δ) :
    (g.setScope name s).tags name' = if name' = name then s.tags else g.tags name' := by
  rw [tags, scope_setScope]
  by_cases h : name' = name
  · rw [if_pos h, if_pos h]
  · rw [if_neg h, if_neg h, tags]

/-- An engine becomes another one by adding to it, and is asked for some tags on the way. -/
inductive Grows : Engine δ → List (Registration δ) → Engine δ → Prop
  | refl (g : Engine δ) : Grows g [] g
  | trans {g g' g'' : Engine δ} {log log' : List (Registration δ)} (h : Grows g log g')
      (h' : Grows g' log' g'') : Grows g (log ++ log') g''
  | hooks (g : Engine δ) (settings : Settings) (filters : List (String → String))
      (handlers : List (String → Option (Element δ))) :
      Grows g [] { g with settings, filters, handlers }
  | store (g : Engine δ) {t : Template δ} (ht : t.name ≠ "") : Grows g [] (g.store t)
  | register {g : Engine δ} {name : String} {s : Scope δ} (hs : g.scope name = .ok s)
      {e : TagEntry δ} (he : e.tag ≠ "") :
      Grows g [⟨name, e⟩] (g.setScope name (s.addTag e.tag e.template).1)
  | refind {g : Engine δ} {name : String} {s : Scope δ} (hs : g.scope name = .ok s)
      (finder : Finder) : Grows g [] (g.setScope name { s with finder })
  | found {g : Engine δ} {name : String} {err : Error} (hs : g.scope name = .error err)
      (hname : name ≠ "") (finder : Finder) : Grows g [] (g.setScope name { name, finder })

namespace Grows

variable {g g' : Engine δ} {log : List (Registration δ)}

/-- Growth is nothing to the buffers. -/
theorem buffers (h : Grows g log g') : g'.buffers = g.buffers := by
  induction h with
  | refl | hooks | store => rfl
  | trans _ _ ih ih' => exact ih'.trans ih
  | register | refind | found => exact buffers_setScope _ _ _

/-- Scopes stay. -/
theorem scope_ok (h : Grows g log g') {name : String} {s : Scope δ}
    (hs : g.scope name = .ok s) : ∃ s', g'.scope name = .ok s' := by
  have hset (g : Engine δ) {s : Scope δ} (hs : g.scope name = .ok s) (name' : String)
      (s₁ : Scope δ) : ∃ s', (g.setScope name' s₁).scope name = .ok s' := by
    rw [scope_setScope]
    split
    · exact ⟨s₁, rfl⟩
    · exact ⟨s, hs⟩
  induction h generalizing s with
  | refl | hooks | store => exact ⟨s, hs⟩
  | trans _ _ ih ih' =>
    obtain ⟨s', hs'⟩ := ih hs
    exact ih' hs'
  | register | refind | found => exact hset _ hs _ _

/-- What was asked for since is appended to the tags of a scope where it is new. -/
theorem tags_eq_foldl (h : Grows g log g') (name : String) :
    g'.tags name = (Registration.of name log).foldl (appendNew TagEntry.sameTag) (g.tags name) := by
  induction h with
  | refl | hooks | store => rfl
  | trans _ _ ih ih' => rw [Registration.of_append, List.foldl_append, ih', ih]
  | @register g n s hs e he =>
    rw [tags_setScope]
    by_cases hn : name = n
    · subst hn
      rw [if_pos rfl, Scope.tags_addTag, tags_of_scope hs]
      simp [Registration.of]
    · rw [if_neg hn]
      simp [Registration.of, Ne.symm hn]
  | @refind g n s hs finder =>
    rw [tags_setScope]
    split
    · next hn =>
      rw [hn, tags_of_scope hs]
      rfl
    · rfl
  | @found g n err hs hname finder =>
    rw [tags_setScope]
    split
    · next hn => simp [Registration.of, tags, hn, hs]
    · rfl

/-- The entries of a scope stay in their places. -/
theorem tags_prefix (h : Grows g log g') (name : String) : g.tags name <+: g'.tags name := by
  rw [h.tags_eq_foldl]
  exact prefix_foldl_appendNew _ _ _

/-- If the tags of a scope are the first ones of each kind that it was asked for, they stay so. -/
theorem tags_eq (h : Grows g log g') {name : String} {past : List (TagEntry δ)}
    (hpast : g.tags name = past.eraseDupsBy TagEntry.sameTag) :
    g'.tags name = (past ++ Registration.of name log).eraseDupsBy TagEntry.sameTag := by
  rw [h.tags_eq_foldl, hpast, eraseDupsBy_append]

end Grows

/-! ## Definitions and installations -/

/-- The tag that a definition asks for, if it has one and succeeds. -/
def registrations (g : Engine δ) (name : String) (elements : List (Element δ))
    (tag scope : Option String) : List (Registration δ) :=
  match (g.defineTemplate name elements tag scope).2 with
  | .ok t => (tag.map fun tag => ⟨scope.getD Scope.globalName, tag, t⟩).toList
  | .error _ => []

theorem grows_defineTemplate (g : Engine δ) (name : String) (elements : List (Element δ))
    (tag scope : Option String) : Grows g (g.registrations name elements tag scope)
      (g.defineTemplate name elements tag scope).1 := by
  unfold registrations
  rcases g.defineTemplate_cases name elements tag scope with
    ⟨e, -, hr⟩ | ⟨s, hs, ⟨-, hr⟩ | ⟨hname, -, hr⟩ | ⟨hname, htag, hr⟩⟩
  · rw [hr]
    exact .refl g
  · rw [hr]
    exact .refl g
  · rw [hr]
    exact .store g hname
  · rw [hr]
    have hstore : Grows g [] (g.store ⟨name, elements⟩) := .store g hname
    -- The registry is none of the fields that looking up a scope reads.
    have hstored : (g.store ⟨name, elements⟩).scope (scope.getD Scope.globalName) = .ok s := hs
    cases tag with
    | none => exact hstore
    | some x =>
      have hx : x ≠ "" := fun h => htag (congrArg some h)
      exact hstore.trans (.register hstored (e := ⟨x, name, elements⟩) hx)

theorem grows_addTag {g g' : Engine δ} {tag : String} {t : Template δ} {scope : Option String}
    {added : Bool} (h : g.addTag tag t scope = .ok (g', added)) :
    Grows g [⟨scope.getD Scope.globalName, tag, t⟩] g' := by
  unfold addTag at h
  by_cases htag : tag = ""
  · rw [if_pos htag] at h
    cases h
  rw [if_neg htag] at h
  cases hscope : g.scope (scope.getD Scope.globalName) with
  | error e =>
    simp only [hscope] at h
    cases h
  | ok s =>
    simp only [hscope] at h
    cases h
    exact .register hscope (e := ⟨tag, t⟩) htag

theorem grows_defineScope {g g' : Engine δ} {name : String} {finder : Finder}
    (h : g.defineScope name finder = .ok g') : Grows g [] g' := by
  unfold defineScope at h
  split at h
  · cases h
  · next hname =>
    split at h
    · next hs =>
      cases h
      exact .refind hs finder
    · next hs =>
      cases h
      exact .found hs hname finder

theorem grows_installScope {g g' : Engine δ} {s : ScopeSpec} (h : g.installScope s = .ok g') :
    Grows g [] g' := by
  unfold installScope at h
  split at h
  · cases h
  · split at h
    · next hdefine =>
      cases h
      exact grows_defineScope hdefine
    · cases h

theorem grows_installScopes (g : Engine δ) (ss : List ScopeSpec) :
    Grows g [] (g.installScopes ss).1 := by
  induction ss generalizing g with
  | nil => exact .refl g
  | cons s ss ih =>
    rw [installScopes]
    split
    · next g' h => exact (grows_installScope h).trans (ih g')
    · exact .refl g

end Engine

/-- The tag that a template of a library asks for when it is installed. -/
def TemplateSpec.registrations (g : Engine δ) (t : TemplateSpec) : List (Registration δ) :=
  match ElementSpec.buildAll g.registry t.elements with
  | .ok es => g.registrations t.name es t.tag t.scope
  | .error _ => []

namespace Engine

/-- The tags that templates ask for when they are installed one after the other. -/
def templateRegistrations (g : Engine δ) : List TemplateSpec → List (Registration δ)
  | [] => []
  | t :: ts =>
    t.registrations g ++
      match g.installTemplate t with
      | (g, none) => g.templateRegistrations ts
      | (_, some _) => []

/-- The tags that a library asks for when it is installed. -/
def libraryRegistrations (g : Engine δ) (l : Library) : List (Registration δ) :=
  match g.installScopes l.scopes with
  | (g, none) => g.templateRegistrations l.templates
  | (_, some _) => []

theorem grows_installTemplate (g : Engine δ) (t : TemplateSpec) :
    Grows g (t.registrations g) (g.installTemplate t).1 := by
  unfold installTemplate TemplateSpec.registrations
  cases ElementSpec.buildAll g.registry t.elements with
  | error e => exact .refl g
  | ok es =>
    have h := g.grows_defineTemplate t.name es t.tag t.scope
    dsimp only
    split
    · next heq => rwa [heq] at h
    · next heq => rwa [heq] at h

theorem grows_installTemplates (g : Engine δ) (ts : List TemplateSpec) :
    Grows g (g.templateRegistrations ts) (g.installTemplates ts).1 := by
  induction ts generalizing g with
  | nil => exact .refl g
  | cons t ts ih =>
    have hone := g.grows_installTemplate t
    rw [installTemplates, templateRegistrations]
    rcases heq : g.installTemplate t with ⟨g', _ | e⟩
    · rw [heq] at hone
      exact hone.trans (ih g')
    · rw [heq] at hone
      rwa [List.append_nil]

/-- A library grows the engine until its installation ends or fails. -/
theorem grows_install (g : Engine δ) (l : Library) :
    Grows g (g.libraryRegistrations l) (g.install l).1 := by
  have hscopes := g.grows_installScopes l.scopes
  unfold install libraryRegistrations
  rcases heq : g.installScopes l.scopes with ⟨g', _ | e⟩
  · rw [heq] at hscopes
    have h := hscopes.trans (g'.grows_installTemplates l.templates)
    dsimp only
    split
    · next heq => rwa [heq] at h
    · next heq => rwa [heq] at h
  · rwa [heq] at hscopes

end Engine

end TextTemplate
