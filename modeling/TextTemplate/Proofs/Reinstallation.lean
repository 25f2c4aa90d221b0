import TextTemplate.Proofs.Installation

/-!
# Installing a library again

An installation writes finders and templates under names, and of several writes under one name the
last one stays.  To write them all once more, in the same order, changes nothing in the end
(`Store.writeAll_eq_self`), although in between the earlier ones are there again.  And they are
what is written: when a template is built again, those in front of it have been written again, so its
includes mean what they meant before.  Tags are kept as they are, for all of them are taken.
-/

namespace TextTemplate

/-! ## Writing everything again -/

/-- Values under keys that are read and written; a value keeps its place when it is replaced. -/
structure Store (σ κ α : Type) [DecidableEq κ] where
  read : σ → κ → Option α
  write : σ → κ → α → σ
  read_write : ∀ s k a k', read (write s k a) k' = if k' = k then some a else read s k'
  write_read : ∀ {s k a}, read s k = some a → write s k a = s
  write_write : ∀ s k a b, write (write s k a) k b = write s k b
  write_comm : ∀ {s k k'}, k ≠ k' → (read s k).isSome → ∀ a b,
    write (write s k a) k' b = write (write s k' b) k a

namespace Store

variable {σ κ α ω : Type} [DecidableEq κ] (S : Store σ κ α) (key : ω → κ) (value : ω → α)

/-- The state after some values were written. -/
def writeAll (s : σ) (ws : List ω) : σ := ws.foldl (fun s w => S.write s (key w) (value w)) s

/-- What is read is what was written last. -/
theorem read_writeAll (s : σ) (ws : List ω) (k : κ) :
    S.read (S.writeAll key value s ws) k =
      ((ws.reverse.find? (key · = k)).map value).or (S.read s k) := by
  induction ws using List.reverseRecOn with
  | nil => rfl
  | append_singleton ws w ih =>
    rw [writeAll, List.foldl_append, List.foldl_cons, List.foldl_nil, S.read_write, ← writeAll,
      List.reverse_append, List.reverse_singleton, List.singleton_append, List.find?_cons, ih]
    by_cases hk : key w = k
    · simp [hk]
    · simp [hk, Ne.symm hk]

/-- What is written again later need not be written first. -/
theorem writeAll_write {s : σ} {ws : List ω} {k : κ} (hs : (S.read s k).isSome) (a : α)
    (hk : ∃ w ∈ ws, key w = k) :
    S.writeAll key value (S.write s k a) ws = S.writeAll key value s ws := by
  induction ws generalizing s with
  | nil => simp at hk
  | cons w ws ih =>
    rw [writeAll, List.foldl_cons, writeAll, List.foldl_cons]
    by_cases hw : key w = k
    · rw [hw, S.write_write]
    · rw [S.write_comm (Ne.symm hw) hs]
      refine ih ?_ ?_
      · rw [S.read_write, if_neg (Ne.symm hw)]
        exact hs
      · obtain ⟨w', hw', hk'⟩ := hk
        rcases List.mem_cons.mp hw' with rfl | hw'
        · exact absurd hk' hw
        · exact ⟨w', hw', hk'⟩

/-- **To write everything again changes nothing** where the last writes are what is there. -/
theorem writeAll_eq_self {s : σ} {ws : List ω}
    (h : ∀ k w, ws.reverse.find? (key · = k) = some w → S.read s k = some (value w)) :
    S.writeAll key value s ws = s := by
  induction ws with
  | nil => rfl
  | cons w ws ih =>
    have hlast (k : κ) : (w :: ws).reverse.find? (key · = k) =
        (ws.reverse.find? (key · = k)).or (if key w = k then some w else none) := by
      rw [List.reverse_cons, List.find?_append]
      by_cases hk : key w = k <;> simp [hk]
    have hrest : S.writeAll key value s ws = s := by
      refine ih fun k v hv => h k v ?_
      rw [hlast, hv, Option.some_or]
    rw [writeAll, List.foldl_cons, ← writeAll]
    by_cases hagain : ∃ v ∈ ws, key v = key w
    · have hs : (S.read s (key w)).isSome := by
        rw [← hrest, S.read_writeAll, Option.isSome_or, Option.isSome_map, Bool.or_eq_true,
          List.find?_isSome]
        simpa using .inl hagain
      rw [S.writeAll_write key value hs (value w) hagain, hrest]
    · have hnone : ws.reverse.find? (key · = key w) = none := by
        rw [List.find?_eq_none]
        intro v hv heq
        exact hagain ⟨v, List.mem_reverse.mp hv, by simpa using heq⟩
      have hw : S.read s (key w) = some (value w) := by
        refine h (key w) w ?_
        rw [hlast, hnone, Option.none_or, if_pos rfl]
      rw [S.write_read hw, hrest]

end Store

namespace Table

variable {κ α : Type} [DecidableEq κ]

theorem put_put (k : κ) (a b : α) (es : List (κ × α)) : put k b (put k a es) = put k b es := by
  induction es with
  | nil => simp [put]
  | cons e es ih =>
    obtain ⟨k', a'⟩ := e
    grind [put]

theorem put_comm {k k' : κ} (hk : k ≠ k') (a b : α) {es : List (κ × α)}
    (hes : (es.lookup k).isSome) : put k' b (put k a es) = put k a (put k' b es) := by
  induction es with
  | nil => simp at hes
  | cons e es ih =>
    obtain ⟨k₁, a₁⟩ := e
    rw [List.lookup_cons] at hes
    grind [put]

/-- The values of a table. -/
def store : Store (Table κ α) κ α where
  read := get?
  write := insert
  read_write t k a k' := get?_insert t k k' a
  write_read h := (insert_eq_self_iff _ _ _).mpr h
  write_write t k a b := congrArg Table.mk (put_put k a b t.entries)
  write_comm hk ht a b := congrArg Table.mk (put_comm hk a b ht)

end Table

variable {δ : Type}

namespace Engine

theorem get?_scopes_of_scope {g : Engine δ} {n : String} {s : Scope δ} (h : g.scope n = .ok s)
    (hn : n ≠ Scope.globalName) : g.scopes.get? n = some s := by
  unfold scope at h
  rw [if_neg hn] at h
  split at h
  · next s' hs' =>
    cases h
    exact hs'
  · cases h

/-- A scope in its own place changes nothing. -/
theorem setScope_self {g : Engine δ} {n : String} {s : Scope δ} (h : g.scope n = .ok s) :
    g.setScope n s = g := by
  by_cases hn : n = Scope.globalName
  · rw [scope, if_pos hn] at h
    cases h
    rw [setScope, if_pos hn]
  · have hscopes : g.scopes.insert n s = g.scopes :=
      Table.store.write_read (get?_scopes_of_scope h hn)
    rw [setScope, if_neg hn, hscopes]

theorem setScope_setScope (g : Engine δ) (n : String) (s s' : Scope δ) :
    (g.setScope n s).setScope n s' = g.setScope n s' := by
  unfold setScope
  split
  · rfl
  · exact congrArg (fun scopes => { g with scopes }) (Table.store.write_write g.scopes n s s')

theorem setScope_comm {g : Engine δ} {n n' : String} {s₀ : Scope δ} (hn : n ≠ n')
    (h : g.scope n = .ok s₀) (s s' : Scope δ) :
    (g.setScope n s).setScope n' s' = (g.setScope n' s').setScope n s := by
  unfold setScope
  by_cases hglobal : n = Scope.globalName <;> by_cases hglobal' : n' = Scope.globalName
  · exact absurd (hglobal.trans hglobal'.symm) hn
  · simp only [hglobal, hglobal', if_true, if_false]
  · simp only [hglobal, hglobal', if_true, if_false]
  · have hsome : (g.scopes.get? n).isSome := by rw [get?_scopes_of_scope h hglobal]; rfl
    simp only [hglobal, hglobal', if_false]
    exact congrArg (fun scopes => { g with scopes }) (Table.store.write_comm hn hsome s s')

/-- The finder of a scope. -/
def finder? (g : Engine δ) (n : String) : Option Finder :=
  match g.scope n with
  | .ok s => some s.finder
  | .error _ => none

/-- A scope with another finder; one that is not there yet has no tags. -/
def scopeWith (g : Engine δ) (n : String) (finder : Finder) : Scope δ :=
  match g.scope n with
  | .ok s => { s with finder }
  | .error _ => { name := n, finder }

/-- The engine with a finder for a scope. -/
def withFinder (g : Engine δ) (n : String) (f : Finder) : Engine δ := g.setScope n (g.scopeWith n f)

theorem finder_scopeWith (g : Engine δ) (n : String) (f : Finder) :
    (g.scopeWith n f).finder = f := by
  unfold scopeWith
  split <;> rfl

theorem finder?_setScope (g : Engine δ) (n n' : String) (s : Scope δ) :
    (g.setScope n s).finder? n' = if n' = n then some s.finder else g.finder? n' := by
  rw [finder?, scope_setScope]
  by_cases h : n' = n
  · simp [h]
  · simp [h, finder?]

theorem scopeWith_setScope_of_ne (g : Engine δ) {n n' : String} (h : n' ≠ n) (s : Scope δ)
    (f : Finder) : (g.setScope n s).scopeWith n' f = g.scopeWith n' f := by
  rw [scopeWith, scope_setScope, if_neg h, scopeWith]

theorem scopeWith_withFinder (g : Engine δ) (n : String) (f f' : Finder) :
    (g.withFinder n f).scopeWith n f' = g.scopeWith n f' := by
  rw [withFinder, scopeWith, scope_setScope, if_pos rfl]
  unfold scopeWith
  cases g.scope n <;> rfl

/-- The finders of scopes. -/
def finders : Store (Engine δ) String Finder where
  read := finder?
  write := withFinder
  read_write g n f n' := by rw [withFinder, finder?_setScope, finder_scopeWith]
  write_read {g n f} h := by
    unfold finder? at h
    cases hs : g.scope n with
    | error e => rw [hs] at h; cases h
    | ok s =>
      rw [hs] at h
      cases h
      rw [withFinder, scopeWith, hs]
      exact setScope_self hs
  write_write g n f f' := by
    rw [withFinder, scopeWith_withFinder, withFinder, setScope_setScope, withFinder]
  write_comm {g n n'} hn hg f f' := by
    unfold finder? at hg
    cases hs : g.scope n with
    | error e => rw [hs] at hg; cases hg
    | ok s =>
      rw [withFinder, withFinder, scopeWith_setScope_of_ne g (Ne.symm hn), setScope_comm hn hs,
        withFinder, withFinder, scopeWith_setScope_of_ne g hn]

/-! ## Scopes again -/

end Engine

/-- The finder that a scope is given. -/
def ScopeSpec.ownFinder (d : ScopeSpec) : Finder := d.finder?.getD .word

theorem ScopeSpec.Fits.finder?_eq {d : ScopeSpec} (h : d.Fits) : d.finder? = some d.ownFinder := by
  have hsome : d.finder?.isSome := by
    unfold ScopeSpec.finder?
    cases hd : d.finder with
    | none => rfl
    | some p => exact h.finder p hd
  obtain ⟨f, hf⟩ := Option.isSome_iff_exists.mp hsome
  rw [ownFinder, hf, Option.getD_some]

namespace Engine

theorem installScope_of_fits (g : Engine δ) {d : ScopeSpec} (h : d.Fits) :
    g.installScope d = .ok (g.withFinder d.name d.ownFinder) := by
  unfold installScope
  rw [← ScopeSpec.finder?, h.finder?_eq]
  dsimp only
  unfold defineScope withFinder scopeWith
  rw [if_neg h.name]
  cases g.scope d.name <;> rfl

theorem installScopes_of_fits (g : Engine δ) {ds : List ScopeSpec} (h : ∀ d ∈ ds, d.Fits) :
    g.installScopes ds =
      (finders.writeAll ScopeSpec.name ScopeSpec.ownFinder g ds, none) := by
  induction ds generalizing g with
  | nil => rfl
  | cons d ds ih =>
    obtain ⟨hd, hds⟩ := List.forall_mem_cons.mp h
    simp only [installScopes, g.installScope_of_fits hd]
    exact ih (g.withFinder d.name d.ownFinder) hds

end Engine

namespace Library.Installed

variable {l : Library} {g : Engine δ}

theorem installScopes_again (h : l.Installed g) (hfits : ∀ d ∈ l.scopes, d.Fits) :
    g.installScopes l.scopes = (g, none) := by
  rw [g.installScopes_of_fits hfits, Engine.finders.writeAll_eq_self]
  intro n d hd
  have hmem : d ∈ l.scopes := List.mem_reverse.mp (List.mem_of_find?_eq_some hd)
  have hname : d.name = n := by simpa using List.find?_some hd
  obtain ⟨s, hs⟩ := (h.scope n).mpr (.inr ⟨d, hmem, hname⟩)
  have hfinder := h.finder hs
  rw [ScopeSpec.lastFinder?, hd, Option.elim_some, (hfits d hmem).finder?_eq] at hfinder
  change g.finder? n = _
  rw [Engine.finder?, hs]
  exact hfinder

end Library.Installed

/-! ## Templates again -/

namespace ElementSpec

variable {find? find?' : String → Option (Template δ)}

mutual

/-- An element depends on the templates that it includes only. -/
theorem bind_congr (e : ElementSpec) (h : ∀ n ∈ included e, find? n = find?' n) :
    bind find? e = bind find?' e := by
  cases e with
  | list es => rw [bind, bind, bindAll_congr es h]
  | includes name => rw [bind, bind, h name (List.mem_singleton_self name)]
  | region question name always indented => cases question <;> rfl
  | _ => rfl

theorem bindAll_congr (es : List ElementSpec) (h : ∀ n ∈ includedAll es, find? n = find?' n) :
    bindAll find? es = bindAll find?' es := by
  cases es with
  | nil => rfl
  | cons e es =>
    rw [includedAll, List.forall_mem_append] at h
    rw [bindAll, bindAll, bind_congr e h.1, bindAll_congr es h.2]

end

end ElementSpec

namespace Engine

/-- The engine with some templates stored once more. -/
def storeAll (g : Engine δ) (ts : List (Template δ)) : Engine δ :=
  { g with registry := ⟨Table.store.writeAll Template.name id g.registry.templates ts⟩ }

theorem store_storeAll (g : Engine δ) (ts : List (Template δ)) (t : Template δ) :
    (g.storeAll ts).store t = g.storeAll (ts ++ [t]) := by
  simp only [storeAll, store, Store.writeAll, List.foldl_append, List.foldl_cons, List.foldl_nil]
  rfl

theorem get?_storeAll (g : Engine δ) (ts : List (Template δ)) (n : String) :
    (g.storeAll ts).registry.templates.get? n =
      (lastNamed? ts n).or (g.registry.templates.get? n) := by
  have hread := Table.store.read_writeAll Template.name id g.registry.templates ts n
  rw [Option.map_id] at hread
  exact hread

/-- A tag that is taken stays as it is. -/
theorem withTag_of_known {g : Engine δ} {name : String} {s : Scope δ} (hs : g.scope name = .ok s)
    (t : Template δ) {tag : Option String} (htag : ∀ x ∈ tag, (s.lookup x).isSome) :
    g.withTag name s t tag = g := by
  cases tag with
  | none => rfl
  | some x =>
    rw [withTag, Scope.addTag, if_pos (htag x rfl)]
    exact setScope_self hs

end Engine

namespace Library

theorem isSome_firstTagged? {ts : List TemplateSpec} {t : TemplateSpec} (ht : t ∈ ts) {x : String}
    (hx : t.tag = some x) : (firstTagged? ts t.scopeName x : Option (Template δ)).isSome := by
  obtain ⟨i, hi, rfl⟩ := List.getElem_of_mem ht
  have hlength : i < (bound ts : List (Template δ)).length := by rwa [length_bound]
  have hmem : (ts[i], (bound ts : List (Template δ))[i]) ∈ ts.zip (bound ts) := by
    have hzip : i < (ts.zip (bound ts : List (Template δ))).length := by
      rw [List.length_zip]
      omega
    rw [← List.getElem_zip (h := hzip)]
    exact List.getElem_mem hzip
  rw [firstTagged?, Option.isSome_map, List.find?_isSome]
  exact ⟨_, hmem, by simpa using hx⟩

namespace Installed

variable {l : Library} {g : Engine δ}

/-- To store the templates of a library once more changes nothing in the end. -/
theorem storeAll_again (h : l.Installed g) : g.storeAll (bound l.templates) = g := by
  have hsame : Table.store.writeAll Template.name id g.registry.templates (bound l.templates) =
      g.registry.templates := by
    refine Table.store.writeAll_eq_self Template.name id fun n t ht => ?_
    exact (h.template n).trans ht
  rw [Engine.storeAll, hsame]

/-- A template is built once more as it was, for those that it includes have been stored again. -/
theorem installTemplate_again (h : l.Installed g) {done : List TemplateSpec} {t : TemplateSpec}
    (ht : t ∈ l.templates) (hfits : t.Fits l.scopes done) :
    (g.storeAll (bound done)).installTemplate t = (g.storeAll (bound (done ++ [t])), none) := by
  obtain ⟨s, hs⟩ := (h.scope t.scopeName).mpr hfits.scope
  have hincluded : ∀ n ∈ ElementSpec.includedAll t.elements,
      (lastNamed? (bound done : List (Template δ)) n).isSome :=
    fun n hn => (isSome_lastNamed? done n).mpr (hfits.included n hn)
  have hbuild : ElementSpec.buildAll (g.storeAll (bound done)).registry t.elements =
      .ok (ElementSpec.bindAll (lastNamed? (bound done)) t.elements) := by
    rcases ElementSpec.buildAll_cases (g.get?_storeAll (bound done)) t.elements with
      ⟨-, hbuild⟩ | ⟨⟨n, hn, hnone⟩, -⟩
    · rw [hbuild]
      refine congrArg Except.ok (ElementSpec.bindAll_congr _ fun n hn => ?_)
      exact Option.or_of_isSome (hincluded n hn)
    · have hsome := hincluded n hn
      rw [Option.or_of_isSome hsome] at hnone
      rw [hnone] at hsome
      cases hsome
  have htag : ∀ x ∈ t.tag, (s.lookup x).isSome := by
    intro x hx
    rw [h.tag hs x, Option.isSome_map]
    exact isSome_firstTagged? ht hx
  rw [Engine.installTemplate, hbuild]
  dsimp only
  rcases (g.storeAll (bound done)).defineTemplate_cases t.name
    (ElementSpec.bindAll (lastNamed? (bound done)) t.elements) t.tag t.scope with
    ⟨e, hs', -⟩ | ⟨s', hs', ⟨hname, -⟩ | ⟨-, hempty, -⟩ | ⟨-, -, hr⟩⟩
  · cases hs.symm.trans hs'
  · exact absurd hname hfits.name
  · exact absurd hempty hfits.tag
  · cases hs.symm.trans hs'
    rw [hr, Engine.store_storeAll, bound_append]
    have hstored : (g.storeAll (bound done ++ [t.bound (bound done)])).scope t.scopeName = .ok s :=
      hs
    exact congrArg (·, none) (Engine.withTag_of_known hstored _ htag)

theorem installTemplates_again (h : l.Installed g) (hvalid : l.Valid) :
    g.installTemplates l.templates = (g, none) := by
  have hrest (rest : List TemplateSpec) : ∀ done, l.templates = done ++ rest →
      (g.storeAll (bound done)).installTemplates rest = (g.storeAll (bound l.templates), none) := by
    induction rest with
    | nil =>
      intro done hdone
      rw [hdone, List.append_nil]
      rfl
    | cons t rest ih =>
      intro done hdone
      have hfits : t.Fits l.scopes done := by
        have h := hvalid.template done.length t (by simp [hdone])
        rwa [hdone, List.take_left] at h
      have ht : t ∈ l.templates := by simp [hdone]
      simp only [Engine.installTemplates, h.installTemplate_again ht hfits]
      exact ih (done ++ [t]) (by rw [hdone, List.append_assoc, List.singleton_append])
  have hall := hrest l.templates [] rfl
  rwa [h.storeAll_again] at hall

end Installed

end Library

/-- **To install a library again changes nothing.**  The engine that it was installed in answers the
same number of templates once more, and is as it was: it has the same templates under the same
names, and the same scopes, with their finders and their tags in order. -/
theorem Engine.install_again (settings : Settings) (l : Library) {n : Nat}
    (h : (({ settings } : Engine δ).install l).2 = .ok n) :
    let g := (({ settings } : Engine δ).install l).1
    g.install l = (g, .ok n) := by
  intro g
  rcases install_cases (δ := δ) settings l with ⟨hl, g', hg', hg⟩ | ⟨-, g', e, hg'⟩
  · have hr : g = g' := congrArg Prod.fst hg'
    rw [hg'] at h
    cases h
    rw [hr, install, hg.installScopes_again hl.scope]
    dsimp only
    rw [hg.installTemplates_again hl]
  · rw [hg'] at h
    cases h

/-- A name that is given away twice is included in between, a scope gets two finders, and a tag is
asked for twice. -/
theorem Engine.install_again_redefined :
    let l : Library := {
      scopes := [{ name := "s", finder := some "(<\\w*)" }, { name := "s" }]
      templates := [
        { name := "a", tag := some "x", elements := [.text "old"] },
        { name := "b", tag := some "x", scope := some "s", elements := [.list [.includes "a"]] },
        { name := "a", tag := some "x", elements := [.includes "b", .includes "a"] }] }
    let g := (({} : Engine Empty).install l).1
    (({} : Engine Empty).install l).2 = .ok 3 ∧ g.install l = (g, .ok 3) := by
  intro l g
  have h : (({} : Engine Empty).install l).2 = .ok 3 := by decide +kernel
  exact ⟨h, Engine.install_again {} l h⟩

end TextTemplate
