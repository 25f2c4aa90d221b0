import TextTemplate.Engine.Basic

/-!
# Defining templates

A definition checks the scope, then the name, then stores the template, and then checks the tag.  So
it is all or nothing but for one case: an empty tag is refused when the template is stored already.
`defineTemplate_cases` lists what can happen, and `defineTemplate_atomic_iff` says exactly when a
definition that fails leaves the engine as it was.
-/

namespace TextTemplate

namespace Table

variable {κ α : Type} [DecidableEq κ]

theorem put_eq_self_iff (k : κ) (a : α) (es : List (κ × α)) :
    put k a es = es ↔ es.lookup k = some a := by
  induction es with
  | nil => simp [put]
  | cons e es ih =>
    obtain ⟨k', a'⟩ := e
    rw [put]
    split
    · next h =>
      subst h
      simp [eq_comm]
    · next h =>
      rw [List.lookup_cons, beq_eq_false_iff_ne.mpr h]
      simpa using ih

/-- Setting a value changes the table unless the key has that value. -/
theorem insert_eq_self_iff (t : Table κ α) (k : κ) (a : α) :
    t.insert k a = t ↔ t.get? k = some a := by
  rw [get?, ← put_eq_self_iff, insert]
  constructor
  · exact congrArg entries
  · exact congrArg Table.mk

end Table

variable {δ : Type}

/-- Adding a tag keeps an entry that the tag has, and changes no other tag. -/
theorem Scope.lookup_addTag (s : Scope δ) (tag tag' : String) (t : Template δ) :
    (s.addTag tag t).1.lookup tag' =
      if tag' = tag then (s.lookup tag).or (some ⟨tag, t⟩) else s.lookup tag' := by
  unfold Scope.addTag
  by_cases htag : tag' = tag
  · subst htag
    rw [if_pos rfl]
    split
    · next h =>
      obtain ⟨e, he⟩ := Option.isSome_iff_exists.mp h
      rw [he, Option.some_or]
    · simp [Scope.lookup, List.find?_append]
  · rw [if_neg htag]
    split
    · rfl
    · simp [Scope.lookup, List.find?_append, Ne.symm htag]

theorem Scope.name_addTag (s : Scope δ) (tag : String) (t : Template δ) :
    (s.addTag tag t).1.name = s.name := by
  unfold Scope.addTag
  split <;> rfl

theorem Scope.finder_addTag (s : Scope δ) (tag : String) (t : Template δ) :
    (s.addTag tag t).1.finder = s.finder := by
  unfold Scope.addTag
  split <;> rfl

namespace Engine

/-- Putting a scope in place changes no other scope. -/
theorem scope_setScope (g : Engine δ) (name name' : String) (s : Scope δ) :
    (g.setScope name s).scope name' = if name' = name then .ok s else g.scope name' := by
  unfold setScope scope
  by_cases h : name = Scope.globalName <;> by_cases h' : name' = Scope.globalName
  · simp [h, h']
  · simp [h, h']
  · simp [h, h', Ne.symm h]
  · simp only [h, h', if_false, Table.get?_insert]
    by_cases hname : name' = name
    · simp only [hname, if_true]
    · simp only [hname, if_false]

/-- The engine after a template is stored. -/
def store (g : Engine δ) (t : Template δ) : Engine δ :=
  { g with registry := ⟨g.registry.templates.insert t.name t⟩ }

/-- The engine after a tag of a scope that is there was added. -/
def withTag (g : Engine δ) (name : String) (s : Scope δ) (t : Template δ) :
    Option String → Engine δ
  | none => g
  | some tag => g.setScope name (s.addTag tag t).1

/-- What the engine keeps besides its registry and its scopes. -/
def SameOtherwise (g g' : Engine δ) : Prop :=
  g'.settings = g.settings ∧ g'.filters = g.filters ∧ g'.handlers = g.handlers ∧
    g'.buffers = g.buffers

theorem lookup_store (g : Engine δ) (t : Template δ) (n : String) :
    (g.store t).lookup n = if n = t.name then .ok t else g.lookup n := by
  simp only [lookup, Registry.lookup, store, Table.get?_insert]
  by_cases h : n = t.name
  · simp only [h, if_true]
  · simp only [h, if_false]

/-- Storing a template changes the engine unless the name has this template already. -/
theorem store_eq_self_iff (g : Engine δ) (t : Template δ) :
    g.store t = g ↔ g.registry.templates.get? t.name = some t := by
  rw [← Table.insert_eq_self_iff]
  constructor
  · intro h
    exact congrArg (·.registry.templates) h
  · intro h
    rw [store, h]

theorem scope_withTag {g : Engine δ} {name : String} {s : Scope δ} (h : g.scope name = .ok s)
    (t : Template δ) (tag : Option String) (n : String) :
    (g.withTag name s t tag).scope n =
      if n = name then .ok (tag.elim s fun x => (s.addTag x t).1) else g.scope n := by
  cases tag with
  | none =>
    rw [withTag, Option.elim_none]
    split
    · next hn => rw [hn, h]
    · rfl
  | some x => exact g.scope_setScope name n _

theorem registry_withTag (g : Engine δ) (name : String) (s : Scope δ) (t : Template δ)
    (tag : Option String) : (g.withTag name s t tag).registry = g.registry := by
  cases tag with
  | none => rfl
  | some x =>
    simp only [withTag, setScope]
    split <;> rfl

theorem sameOtherwise_withTag (g : Engine δ) (name : String) (s : Scope δ) (t : Template δ)
    (tag : Option String) : g.SameOtherwise (g.withTag name s t tag) := by
  cases tag with
  | none => exact ⟨rfl, rfl, rfl, rfl⟩
  | some x =>
    simp only [withTag, setScope]
    split <;> exact ⟨rfl, rfl, rfl, rfl⟩

/-- What a definition leaves and answers: it meets an unknown scope, an empty name or an empty tag,
and the first of these that it meets stops it, or it succeeds. -/
theorem defineTemplate_cases (g : Engine δ) (name : String) (elements : List (Element δ))
    (tag scope : Option String) :
    (∃ e, g.scope (scope.getD Scope.globalName) = .error e ∧
      g.defineTemplate name elements tag scope = (g, .error e)) ∨
    ∃ s, g.scope (scope.getD Scope.globalName) = .ok s ∧
      ((name = "" ∧ g.defineTemplate name elements tag scope = (g, .error (.invalidName ""))) ∨
      (name ≠ "" ∧ tag = some "" ∧ g.defineTemplate name elements tag scope =
        (g.store ⟨name, elements⟩, .error (.invalidName ""))) ∨
      (name ≠ "" ∧ tag ≠ some "" ∧ g.defineTemplate name elements tag scope =
        ((g.store ⟨name, elements⟩).withTag (scope.getD Scope.globalName) s ⟨name, elements⟩ tag,
          .ok ⟨name, elements⟩))) := by
  cases hscope : g.scope (scope.getD Scope.globalName) with
  | error e => exact .inl ⟨e, rfl, by simp only [defineTemplate, hscope]⟩
  | ok s =>
    refine .inr ⟨s, rfl, ?_⟩
    by_cases hname : name = ""
    · refine .inl ⟨hname, ?_⟩
      simp only [defineTemplate, hscope, Registry.define, hname, if_true]
    -- The registry is none of the fields that looking up a scope reads.
    have hstored : (g.store ⟨name, elements⟩).scope (scope.getD Scope.globalName) = .ok s := hscope
    rcases tag with _ | tag
    · refine .inr (.inr ⟨hname, Option.some_ne_none _ |>.symm, ?_⟩)
      simp only [defineTemplate, hscope, Registry.define, hname, if_false]
      rfl
    by_cases htag : tag = ""
    · refine .inr (.inl ⟨hname, congrArg some htag, ?_⟩)
      simp only [defineTemplate, hscope, Registry.define, hname, if_false, addTag, htag, if_true]
      rfl
    · refine .inr (.inr ⟨hname, fun h => htag (Option.some.inj h), ?_⟩)
      simp only [defineTemplate, hscope, Registry.define, hname, if_false, addTag, htag]
      simp only [store] at hstored
      simp only [hstored]
      rfl

/-- What a definition that succeeds changes: the name gets the template, the tag gets an entry in
the scope if it has none there, and that is all. -/
structure Defines (g : Engine δ) (name : String) (elements : List (Element δ))
    (tag scope : Option String) (g' : Engine δ) : Prop where
  registry : ∀ n, g'.lookup n = if n = name then .ok ⟨name, elements⟩ else g.lookup n
  chosen : ∃ s s', g.scope (scope.getD Scope.globalName) = .ok s ∧
    g'.scope (scope.getD Scope.globalName) = .ok s' ∧ s'.name = s.name ∧ s'.finder = s.finder ∧
    (∀ x, tag = some x → s'.lookup x = (s.lookup x).or (some ⟨x, ⟨name, elements⟩⟩)) ∧
    ∀ x, tag ≠ some x → s'.lookup x = s.lookup x
  otherScopes : ∀ n, n ≠ scope.getD Scope.globalName → g'.scope n = g.scope n
  rest : g.SameOtherwise g'

theorem defines_withTag {g : Engine δ} {scope : Option String} {s : Scope δ}
    (h : g.scope (scope.getD Scope.globalName) = .ok s) (name : String)
    (elements : List (Element δ)) (tag : Option String) :
    Defines g name elements tag scope
      ((g.store ⟨name, elements⟩).withTag (scope.getD Scope.globalName) s ⟨name, elements⟩ tag) := by
  have hscope := scope_withTag (g := g.store ⟨name, elements⟩) h ⟨name, elements⟩ tag
  refine ⟨fun n => ?_, ⟨s, _, h, by rw [hscope, if_pos rfl], ?_⟩, fun n hn => ?_, ?_⟩
  · rw [lookup, registry_withTag]
    exact g.lookup_store ⟨name, elements⟩ n
  · cases tag with
    | none =>
      refine ⟨rfl, rfl, ?_, fun x _ => rfl⟩
      rintro x ⟨⟩
    | some x =>
      refine ⟨s.name_addTag .., s.finder_addTag .., ?_, fun y hy => ?_⟩
      · rintro y ⟨⟩
        rw [Option.elim_some, Scope.lookup_addTag, if_pos rfl]
      · rw [Option.elim_some, Scope.lookup_addTag, if_neg fun hxy => hy (congrArg some hxy.symm)]
  · rw [hscope, if_neg hn]
    rfl
  · exact sameOtherwise_withTag ..

/-- A definition that fails leaves the engine as it was, except when nothing but its tag is wrong:
then the template has been stored, which shows unless the name had this template before.  One that
succeeds changes only what it should, and it does so when the scope is there and neither the name
nor the tag is empty. -/
theorem defineTemplate_atomic_iff (g : Engine δ) (name : String) (elements : List (Element δ))
    (tag scope : Option String) :
    let r := g.defineTemplate name elements tag scope
    let known := ∃ s, g.scope (scope.getD Scope.globalName) = .ok s
    (∀ e, r.2 = .error e → (r.1 = g ↔ ¬ (known ∧ name ≠ "" ∧ tag = some "" ∧
        g.registry.templates.get? name ≠ some ⟨name, elements⟩))) ∧
      (∀ e, r.2 = .error e → r.1 ≠ g → r.1 = g.store ⟨name, elements⟩ ∧ e = .invalidName "") ∧
      (∀ t, r.2 = .ok t → t = ⟨name, elements⟩ ∧ Defines g name elements tag scope r.1) ∧
      ((∃ t, r.2 = .ok t) ↔ known ∧ name ≠ "" ∧ tag ≠ some "") := by
  intro r known
  rcases g.defineTemplate_cases name elements tag scope with
    ⟨e, hscope, hr⟩ | ⟨s, hscope, ⟨hname, hr⟩ | ⟨hname, htag, hr⟩ | ⟨hname, htag, hr⟩⟩
  · have hknown : ¬ known := by
      rintro ⟨s, hs⟩
      rw [hs] at hscope
      cases hscope
    simp only [r, hr]
    refine ⟨fun _ _ => ⟨fun _ h => hknown h.1, fun _ => trivial⟩, ?_, ?_, ?_, ?_⟩
    · exact fun _ _ h => absurd rfl h
    · rintro t ⟨⟩
    · rintro ⟨t, ⟨⟩⟩
    · exact fun h => absurd h.1 hknown
  · simp only [r, hr]
    refine ⟨fun _ _ => ⟨fun _ h => h.2.1 hname, fun _ => trivial⟩, ?_, ?_, ?_, ?_⟩
    · exact fun _ _ h => absurd rfl h
    · rintro t ⟨⟩
    · rintro ⟨t, ⟨⟩⟩
    · exact fun h => absurd hname h.2.1
  · simp only [r, hr, store_eq_self_iff]
    refine ⟨fun _ _ => ⟨fun h hbad => hbad.2.2.2 h, fun h => ?_⟩, ?_, ?_, ?_, ?_⟩
    · exact Classical.not_not.mp fun hne => h ⟨⟨s, hscope⟩, hname, htag, hne⟩
    · rintro e ⟨⟩ -
      exact ⟨trivial, rfl⟩
    · rintro t ⟨⟩
    · rintro ⟨t, ⟨⟩⟩
    · exact fun h => absurd htag h.2.2
  · simp only [r, hr]
    refine ⟨?_, ?_, ?_, ?_, ?_⟩
    · rintro e ⟨⟩
    · rintro e ⟨⟩
    · rintro t ⟨⟩
      exact ⟨rfl, defines_withTag hscope name elements tag⟩
    · exact fun _ => ⟨⟨s, hscope⟩, hname, htag⟩
    · exact fun _ => ⟨_, rfl⟩

/-- An empty tag is refused, but the template is there. -/
theorem defineTemplate_empty_tag_stores :
    let r := ({} : Engine Empty).defineTemplate "t" [] (some "") none
    r.2 = .error (.invalidName "") ∧ ({} : Engine Empty).registry.contains "t" = false ∧
      r.1.registry.contains "t" = true :=
  ⟨rfl, rfl, rfl⟩

end Engine

end TextTemplate
