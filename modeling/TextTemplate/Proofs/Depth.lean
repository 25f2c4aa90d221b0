import TextTemplate.Proofs.Nesting

/-!
# The limit of levels

The settings limit how deep elements may stand inside lists and templates.  Raising the limit changes
nothing about an expansion that has kept to it, and where a template shows all its elements, the limit
is exceeded exactly by those that stand too deep (`insertTemplate_limit`).

Both directions of the latter come from what a run tells of its elements.  A run that ends well has
been through all of them, so none stands deeper than there were levels (`lt_of_runAll_eq_none`); one
that fails has met a cause for its error, and these are listed in `Ends`.
-/

namespace TextTemplate

namespace Element

variable {δ : Type}

/-! ## Elements inside others -/

/-- The elements of a list or a template; other elements have none. -/
def contents : Element δ → List (Element δ)
  | list es => es
  | template _ es => es
  | _ => []

/-- An element stands among some elements, inside so many lists and templates. -/
inductive Inside (e : Element δ) : List (Element δ) → Nat → Prop where
  | here {es : List (Element δ)} (h : e ∈ es) : Inside e es 0
  | deeper {es : List (Element δ)} {f : Element δ} {k : Nat} (hf : f ∈ es)
      (h : Inside e f.contents k) : Inside e es (k + 1)

/-- Neither a symbol nor a deferred element, so that it shows what stands inside it. -/
def IsStatic : Element δ → Prop
  | symbol _ | deferred _ => False
  | _ => True

/-- A prompt, be it one for the region or not. -/
def IsPrompt : Element δ → Prop
  | prompt _ | regionPrompt _ _ => True
  | _ => False

theorem Inside.mono {e : Element δ} {es fs : List (Element δ)} {k : Nat} (h : e.Inside es k)
    (hsub : es ⊆ fs) : e.Inside fs k := by
  cases h with
  | here h => exact .here (hsub h)
  | deeper hf h => exact .deeper (hsub hf) h

@[simp] theorem not_inside_nil (e : Element δ) (k : Nat) : ¬ e.Inside [] k := by
  rintro (h | ⟨h, -⟩) <;> cases h

/-- What holds of all that stands among some elements holds of the first one, of what stands inside
that, and of what stands among the rest. -/
theorem forall_inside_cons {P : Element δ → Nat → Prop} {f : Element δ} {es : List (Element δ)} :
    (∀ e k, e.Inside (f :: es) k → P e k) ↔
      P f 0 ∧ (∀ e k, e.Inside f.contents k → P e (k + 1)) ∧ ∀ e k, e.Inside es k → P e k := by
  constructor
  · intro h
    refine ⟨h f 0 (.here List.mem_cons_self), fun e k he => ?_, fun e k he => ?_⟩
    · exact h e (k + 1) (.deeper List.mem_cons_self he)
    · exact h e k (he.mono (List.subset_cons_self f es))
  · rintro ⟨hf, hcontents, hes⟩ e k (he | ⟨hmem, he⟩)
    · rcases List.mem_cons.mp he with rfl | he
      · exact hf
      · exact hes e 0 (.here he)
    · rcases List.mem_cons.mp hmem with rfl | hmem
      · exact hcontents e _ he
      · exact hes e _ (.deeper hmem he)

mutual

theorem inside_of_mem_leaves {e x : Element δ} (h : x ∈ leaves e) : ∃ k, x.Inside [e] k := by
  cases e with
  | list es =>
    obtain ⟨k, hk⟩ := inside_of_mem_leavesAll h
    exact ⟨k + 1, .deeper (List.mem_singleton_self _) hk⟩
  | template name es =>
    obtain ⟨k, hk⟩ := inside_of_mem_leavesAll h
    exact ⟨k + 1, .deeper (List.mem_singleton_self _) hk⟩
  | _ => exact ⟨0, .here h⟩

/-- The leaves of some elements stand inside them. -/
theorem inside_of_mem_leavesAll {es : List (Element δ)} {x : Element δ} (h : x ∈ leavesAll es) :
    ∃ k, x.Inside es k := by
  cases es with
  | nil => cases h
  | cons e es =>
    rw [leavesAll, List.mem_append] at h
    rcases h with h | h
    · obtain ⟨k, hk⟩ := inside_of_mem_leaves h
      exact ⟨k, hk.mono (List.cons_subset_cons e (List.nil_subset es))⟩
    · obtain ⟨k, hk⟩ := inside_of_mem_leavesAll h
      exact ⟨k, hk.mono (List.subset_cons_self e es)⟩

end

/-! ## What a run tells of its elements -/

section

variable {run : Element δ → Work → Work × Option Error}

/-- The error of a list of elements is the error of one of them. -/
theorem exists_of_runAll_eq_some {es : List (Element δ)} {w : Work} {err : Error}
    (h : (runAll run es w).2 = some err) : ∃ e ∈ es, ∃ v, (run e v).2 = some err := by
  induction es generalizing w with
  | nil => cases h
  | cons e es ih =>
    rw [runAll] at h
    rcases hv : run e w with ⟨v, _ | err'⟩
    · rw [hv] at h
      obtain ⟨f, hf, u, hu⟩ := ih h
      exact ⟨f, List.mem_cons_of_mem e hf, u, hu⟩
    · rw [hv] at h
      exact ⟨e, List.mem_cons_self, w, hv ▸ h⟩

/-- If a list of elements ends well, each of them does. -/
theorem exists_of_runAll_eq_none {es : List (Element δ)} {w : Work}
    (h : (runAll run es w).2 = none) {e : Element δ} (he : e ∈ es) : ∃ v, (run e v).2 = none := by
  induction es generalizing w with
  | nil => cases he
  | cons f fs ih =>
    rw [runAll] at h
    rcases hv : run f w with ⟨v, _ | err⟩
    · rw [hv] at h
      rcases List.mem_cons.mp he with rfl | he
      · exact ⟨w, congrArg Prod.snd hv⟩
      · exact ih h he
    · rw [hv] at h
      cases h

end

/-- How a run can end whose elements all show what stands inside them: well, at a prompt that gets no
answer, or at an element for which there is no level left. -/
inductive Ends (limit n : Nat) (es : List (Element δ)) : Option Error → Prop where
  | well : Ends limit n es none
  | cancelled {e : Element δ} {k : Nat} (he : e.Inside es k) (hprompt : e.IsPrompt) (p : String) :
      Ends limit n es (some (.promptCancelled p))
  | tooDeep {e : Element δ} {k : Nat} (he : e.Inside es k) (hk : n ≤ k) :
      Ends limit n es (some (.recursionLimit limit))

theorem ask_snd (w : Work) (p : Prompt) :
    (w.ask p).2 = none ∨ (w.ask p).2 = some (.promptCancelled p.text) := by
  cases ha : (w.buffer.ask p.text).2 with
  | none => exact .inr (by rw [Work.ask_of_none ha])
  | some a => exact .inl (by rw [Work.ask_of_some ha])

/-- A prompt either ends well or gets no answer. -/
theorem ends_ask {limit n : Nat} {es : List (Element δ)} {e : Element δ} (he : e ∈ es)
    (hprompt : e.IsPrompt) (w : Work) (p : Prompt) : Ends limit n es (w.ask p).2 := by
  rcases ask_snd w p with h | h
  · rw [h]
    exact .well
  · rw [h]
    exact .cancelled (.here he) hprompt p.text

/-- As the contents of an element end, elements can end with it among them that have one more
level. -/
theorem Ends.deeper {limit n : Nat} {es : List (Element δ)} {f : Element δ} {err : Option Error}
    (hf : f ∈ es) (h : Ends limit n f.contents err) : Ends limit (n + 1) es err := by
  cases h with
  | well => exact .well
  | cancelled he hprompt p => exact .cancelled (.deeper hf he) hprompt p
  | tooDeep he hk => exact .tooDeep (.deeper hf he) (Nat.succ_le_succ hk)

variable [Deferral δ]

/-- An element that ends well has been through what it contains. -/
theorem runAll_contents_eq_none {r : Rules δ} {n : Nat} {f : Element δ} {w : Work}
    (h : (run r (n + 1) f w).2 = none) : (runAll (run r n) f.contents w).2 = none := by
  cases f with
  | list es | template name es => exact h
  | _ => rfl

/-- Elements that end well stand no deeper than there are levels. -/
theorem lt_of_runAll_eq_none {r : Rules δ} {e : Element δ} {es : List (Element δ)} {k : Nat}
    (he : e.Inside es k) {n : Nat} {w : Work} (h : (runAll (run r n) es w).2 = none) : k < n := by
  induction he generalizing n w with
  | here hmem =>
    obtain ⟨v, hv⟩ := exists_of_runAll_eq_none h hmem
    cases n with
    | zero => cases hv
    | succ n => exact Nat.succ_pos n
  | deeper hf _ ih =>
    obtain ⟨v, hv⟩ := exists_of_runAll_eq_none h hf
    cases n with
    | zero => cases hv
    | succ n => exact Nat.succ_lt_succ (ih (runAll_contents_eq_none hv))

/-- A run whose elements show what stands inside them ends in one of the ways listed. -/
theorem ends_runAll (r : Rules δ) {n : Nat} {es : List (Element δ)}
    (hstatic : ∀ (e : Element δ) k, e.Inside es k → e.IsStatic) (w : Work) :
    Ends r.settings.maxDepth n es (runAll (run r n) es w).2 := by
  induction n generalizing es w with
  | zero =>
    cases h : (runAll (run r 0) es w).2 with
    | none => exact .well
    | some err =>
      obtain ⟨e, he, v, hv⟩ := exists_of_runAll_eq_some h
      cases hv
      exact .tooDeep (.here he) (Nat.le_refl 0)
  | succ n ih =>
    cases h : (runAll (run r (n + 1)) es w).2 with
    | none => exact .well
    | some err =>
      obtain ⟨e, he, v, hv⟩ := exists_of_runAll_eq_some h
      rw [← hv]
      cases e with
      | list fs =>
        exact .deeper he (ih (fun x k hx => hstatic x (k + 1) (.deeper he hx)) v)
      | template name fs =>
        exact .deeper he (ih (fun x k hx => hstatic x (k + 1) (.deeper he hx)) v)
      | symbol name => exact (hstatic _ 0 (.here he)).elim
      | deferred code => exact (hstatic _ 0 (.here he)).elim
      | prompt p =>
        simp only [run]
        split
        · exact ends_ask he trivial v p
        · exact .well
      | regionPrompt p indent =>
        simp only [run]
        split
        · exact ends_ask he trivial v p
        · exact .well
      | saved name =>
        simp only [run]
        split <;> exact .well
      | _ => exact .well

/-- Elements that stand nowhere deeper than there are levels keep to the limit. -/
theorem not_exceedsLimit_runAll (r : Rules δ) {n : Nat} {es : List (Element δ)}
    (hstatic : ∀ (e : Element δ) k, e.Inside es k → e.IsStatic)
    (hdepth : ∀ (e : Element δ) k, e.Inside es k → k < n) (w : Work) :
    ¬ ExceedsLimit (runAll (run r n) es w) := by
  rintro ⟨limit, hlimit⟩
  have hends := ends_runAll (n := n) r hstatic w
  rw [hlimit] at hends
  cases hends with
  | tooDeep he hk => exact absurd (hdepth _ _ he) (Nat.not_lt.mpr hk)

/-- Without prompts, the limit is exceeded exactly if an element stands too deep. -/
theorem runAll_eq_recursionLimit_iff (r : Rules δ) {n : Nat} {es : List (Element δ)}
    (hstatic : ∀ (e : Element δ) k, e.Inside es k → e.IsStatic)
    (hprompt : ∀ (e : Element δ) k, e.Inside es k → ¬ e.IsPrompt) (w : Work) (limit : Nat) :
    (runAll (run r n) es w).2 = some (.recursionLimit limit) ↔
      limit = r.settings.maxDepth ∧ ∃ (e : Element δ) (k : Nat), e.Inside es k ∧ n ≤ k := by
  have hends := ends_runAll (n := n) r hstatic w
  constructor
  · intro h
    rw [h] at hends
    cases hends with
    | tooDeep he hk => exact ⟨rfl, _, _, he, hk⟩
  · rintro ⟨rfl, e, k, he, hk⟩
    cases herr : (runAll (run r n) es w).2 with
    | none => exact absurd (lt_of_runAll_eq_none he herr) (Nat.not_lt.mpr hk)
    | some err =>
      rw [herr] at hends
      cases hends with
      | cancelled hf hask p => exact absurd hask (hprompt _ _ hf)
      | tooDeep hf hk => rfl

/-! ## Elements that are deferred for ever -/

/-- A code that stands for a deferred element whose code does so too, and so on, whatever there is to
be seen. -/
def Endless (code : δ) : Prop :=
  ∃ P : δ → Prop, P code ∧
    ∀ c, P c → ∀ x : EvalContext, ∃ c', Deferral.evaluate c x = .deferred c' ∧ P c'

/-- What is deferred for ever exceeds every limit and does nothing else. -/
theorem run_deferred_of_endless (r : Rules δ) {code : δ} (h : Endless code) (n : Nat) (w : Work) :
    run r n (.deferred code) w = (w, some (.recursionLimit r.settings.maxDepth)) := by
  obtain ⟨P, hcode, hnext⟩ := h
  induction n generalizing code with
  | zero => rfl
  | succ n ih =>
    obtain ⟨code', heval, hcode'⟩ := hnext code hcode (w.context r.onRegion)
    rw [run, heval]
    exact ih hcode'

end Element

/-! ## Expansions under another limit -/

namespace Engine

variable {δ : Type}

/-- The same engine but for the limit of levels. -/
def withLimit (g : Engine δ) (limit : Nat) : Engine δ :=
  { g with settings := { g.settings with maxDepth := limit } }

/-- The limit plays no part in what is left of a work. -/
theorem finish_withLimit (g : Engine δ) (limit : Nat) (p : Work × Option Error) :
    (g.withLimit limit).finish p =
      ⟨(g.finish p).engine.withLimit limit, (g.finish p).buffer, (g.finish p).result⟩ := by
  obtain ⟨w, _ | err⟩ := p <;> rfl

/-- An expansion can start if there is a region, or none is needed. -/
theorem exists_startOfRegion {b : Buffer} {onRegion : Bool} (h : onRegion = true → b.mark ≠ none) :
    ∃ p, startOfRegion b onRegion = .ok p := by
  cases onRegion with
  | false => exact ⟨_, rfl⟩
  | true =>
    obtain ⟨m, hm⟩ := Option.ne_none_iff_exists'.mp (h rfl)
    simp only [startOfRegion, Buffer.region, hm, Option.map_some]
    exact ⟨_, rfl⟩

variable [Deferral δ]

/-- An expansion that keeps to a limit does the same under a higher one. -/
theorem insertTemplate_withLimit (g : Engine δ) (b : Buffer) (t : Template δ) (onRegion : Bool)
    {limit : Nat} (hle : g.settings.maxDepth ≤ limit)
    (h : ∀ limit, (g.insertTemplate b t onRegion).result ≠ .error (.recursionLimit limit)) :
    let o := g.insertTemplate b t onRegion
    (g.withLimit limit).insertTemplate b t onRegion =
      ⟨o.engine.withLimit limit, o.buffer, o.result⟩ := by
  intro o
  cases hstart : startOfRegion b onRegion with
  | error e =>
    simp only [o, insertTemplate, hstart]
  | ok p =>
    obtain ⟨c, regionEnd⟩ := p
    simp only [o, insertTemplate, hstart] at h ⊢
    have hkeeps := not_exceedsLimit_of_finish h
    have hagrees := Element.run_agrees (g.rules onRegion) limit (Nat.succ_le_succ hle)
    have hrun := hagrees.runAll t.elements _ hkeeps
    rw [← g.finish_withLimit, ← hrun]
    rfl

end Engine

variable {δ : Type} [Deferral δ]

/-- A higher limit makes no difference to an expansion that keeps to a lower one.  Where there are no
symbols, deferred elements and prompts, and a region if one is needed, the limit is exceeded exactly
if an element stands inside more lists and templates than it allows.  What is deferred for ever
exceeds every limit, wherever the expansion comes to it. -/
theorem insertTemplate_limit (g : Engine δ) (b : Buffer) (t : Template δ) (onRegion : Bool)
    (limit : Nat) :
    let o := (g.withLimit limit).insertTemplate b t onRegion
    (∀ limit', limit ≤ limit' → (∀ l, o.result ≠ .error (.recursionLimit l)) →
        (g.withLimit limit').insertTemplate b t onRegion =
          ⟨o.engine.withLimit limit', o.buffer, o.result⟩) ∧
      ((∀ (e : Element δ) k, e.Inside t.elements k → e.IsStatic ∧ ¬ e.IsPrompt) →
        (onRegion = true → b.mark ≠ none) →
        ∀ l, o.result = .error (.recursionLimit l) ↔
          l = limit ∧ ∃ (e : Element δ) (k : Nat), e.Inside t.elements k ∧ limit < k) ∧
      ∀ code, Element.Endless code → ∀ before after x, t.elements = before ++ .deferred code :: after →
        ((g.withLimit limit).insertTemplate b { t with elements := before } onRegion).result = .ok x →
        o.result = .error (.recursionLimit limit) := by
  intro o
  refine ⟨fun limit' hle h => ?_, fun hin hregion l => ?_, fun code hcode before after x ht hx => ?_⟩
  · exact (g.withLimit limit).insertTemplate_withLimit b t onRegion hle h
  · obtain ⟨p, hstart⟩ := Engine.exists_startOfRegion hregion
    have hiff := Element.runAll_eq_recursionLimit_iff ((g.withLimit limit).rules onRegion)
      (n := limit + 1) (fun e k he => (hin e k he).1) (fun e k he => (hin e k he).2)
      ((g.withLimit limit).startWork p.1 p.2) l
    simp only [o, Engine.insertTemplate, hstart, Engine.result_finish_eq_error_iff]
    exact hiff
  · cases hstart : Engine.startOfRegion b onRegion with
    | error e =>
      simp only [Engine.insertTemplate, hstart] at hx
      cases hx
    | ok p =>
      simp only [o, Engine.insertTemplate, hstart, Engine.result_finish_eq_error_iff] at hx ⊢
      rw [ht, Element.runAll_append]
      rcases hv : Element.runAll _ before _ with ⟨v, _ | err⟩
      · simp only [Element.runAll, Element.run_deferred_of_endless _ hcode]
        rfl
      · rw [hv] at hx
        cases hx

/-- An empty list stands on the third level.  Two levels are one too few for it, and with three of
them or more the expansion goes around the region.  A code that stands for itself is deferred for
ever. -/
theorem insertTemplate_limit_boundary :
    let _ : Deferral Unit := ⟨fun code _ => .deferred code⟩
    let g : Engine Unit := {}
    let b : Buffer := { id := 0, text := ['(', 'a', ')'], point := 2, mark := some 1 }
    let t : Template Unit :=
      ⟨"t", [.text "x", .list [.template "u" [.regionPoint false, .list []]], .text "y"]⟩
    let o (limit : Nat) := (g.withLimit limit).insertTemplate b t true
    let u : Template Unit := ⟨"u", [.newline, .deferred (), .newline]⟩
    (o 1).result = .error (.recursionLimit 1) ∧ (o 1).buffer.text = ['(', 'x', 'a', ')'] ∧
      (o 2).result = .ok ⟨1, 4, 4⟩ ∧ (o 9).result = (o 2).result ∧ (o 9).buffer = (o 2).buffer ∧
      ((g.withLimit 9).insertTemplate b u true).result = .error (.recursionLimit 9) := by
  intro _ g b t o u
  have shown : ∀ (e : Element Unit) k, e.Inside t.elements k → e.IsStatic ∧ ¬ e.IsPrompt := by
    simp [t, Element.forall_inside_cons, Element.contents, Element.IsStatic, Element.IsPrompt]
  have deepest : (Element.list [] : Element Unit).Inside t.elements 2 :=
    .deeper (List.mem_cons_of_mem _ List.mem_cons_self)
      (.deeper List.mem_cons_self (.here (List.mem_cons_of_mem _ List.mem_cons_self)))
  have second : (o 2).result = .ok ⟨1, 4, 4⟩ := Outcome.result_eq_ok (by decide)
  have endless : Element.Endless () :=
    ⟨fun _ => True, trivial, fun code _ _ => ⟨code, rfl, trivial⟩⟩
  obtain ⟨-, exceeds, -⟩ := insertTemplate_limit g b t true 1
  obtain ⟨keeps, -, -⟩ := insertTemplate_limit g b t true 2
  obtain ⟨-, -, forever⟩ := insertTemplate_limit g b u true 9
  have ninth := keeps 9 (by decide) fun l h => by cases second.symm.trans h
  refine ⟨?_, by decide, second, ?_, ?_, ?_⟩
  · exact (exceeds shown (fun _ h => by cases h) 1).mpr ⟨rfl, _, _, deepest, by decide⟩
  · rw [show o 9 = _ from ninth]
  · rw [show o 9 = _ from ninth]
  · exact forever () endless [.newline] [.newline] ⟨1, 2, 2⟩ rfl (Outcome.result_eq_ok (by decide))

end TextTemplate
