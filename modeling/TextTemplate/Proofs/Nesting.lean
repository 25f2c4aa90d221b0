import TextTemplate.Engine.Expand

/-!
# Nesting

A list or a template among the elements of a template does what its own elements would do in its
place.  All that nesting costs is levels, so a template and the sequence of its *leaves* expand alike
unless the template exceeds the limit (`insertTemplate_leaves`).

What an element does must not depend on how many levels are left, because the leaves have more of
them: an interpreter with more levels *agrees* with one with fewer, where the latter has enough
(`run_agrees`).  With this the leaves are put together along the elements, an induction on the levels
for what is inside an element and on the list for what stands beside it.
-/

namespace TextTemplate

/-- The same rules but for the limit of levels. -/
def Rules.withLimit {δ : Type} (r : Rules δ) (limit : Nat) : Rules δ :=
  { r with settings := { r.settings with maxDepth := limit } }

namespace Element

variable {δ : Type}

/-! ## Levels -/

/-- The limit of levels was exceeded. -/
def ExceedsLimit (o : Work × Option Error) : Prop := ∃ limit, o.2 = some (.recursionLimit limit)

/-- An interpreter does what another one does, wherever that one keeps to its limit. -/
def Agrees (run' run : Element δ → Work → Work × Option Error) : Prop :=
  ∀ e w, ¬ ExceedsLimit (run e w) → run' e w = run e w

section

variable {run run' : Element δ → Work → Work × Option Error}

@[simp] theorem runAll_singleton (e : Element δ) (w : Work) : runAll run [e] w = run e w := by
  rw [runAll]
  rcases run e w with ⟨v, _ | err⟩ <;> rfl

/-- A list goes on where a part of it has ended. -/
theorem runAll_append (es fs : List (Element δ)) (w : Work) :
    runAll run (es ++ fs) w =
      match runAll run es w with
      | (v, none) => runAll run fs v
      | (v, some err) => (v, some err) := by
  induction es generalizing w with
  | nil => rfl
  | cons e es ih =>
    rw [List.cons_append, runAll, runAll]
    rcases run e w with ⟨v, _ | err⟩
    · exact ih v
    · rfl

/-- If a list of elements keeps to the limit, its first element does. -/
theorem not_exceedsLimit_head {e : Element δ} {es : List (Element δ)} {w : Work}
    (h : ¬ ExceedsLimit (runAll run (e :: es) w)) : ¬ ExceedsLimit (run e w) := by
  rintro ⟨limit, he⟩
  apply h
  rw [runAll]
  rcases hv : run e w with ⟨v, _ | err⟩
  · rw [hv] at he
    cases he
  · rw [hv] at he
    exact ⟨limit, he⟩

/-- If a list of elements keeps to the limit, what comes after its first element does. -/
theorem not_exceedsLimit_tail {e : Element δ} {es : List (Element δ)} {w v : Work}
    (h : ¬ ExceedsLimit (runAll run (e :: es) w)) (hv : run e w = (v, none)) :
    ¬ ExceedsLimit (runAll run es v) := by
  rwa [runAll, hv] at h

/-- A list of elements may be replaced element by element. -/
theorem runAll_flatMap {parts : Element δ → List (Element δ)}
    (hparts : ∀ e w, ¬ ExceedsLimit (run e w) → runAll run' (parts e) w = run e w)
    (es : List (Element δ)) (w : Work) (h : ¬ ExceedsLimit (runAll run es w)) :
    runAll run' (es.flatMap parts) w = runAll run es w := by
  induction es generalizing w with
  | nil => rfl
  | cons e es ih =>
    rw [List.flatMap_cons, runAll_append, hparts e w (not_exceedsLimit_head h), runAll]
    rcases hv : run e w with ⟨v, _ | err⟩
    · exact ih v (not_exceedsLimit_tail h hv)
    · rfl

theorem Agrees.runAll (hagrees : Agrees run' run) (es : List (Element δ)) (w : Work)
    (h : ¬ ExceedsLimit (Element.runAll run es w)) :
    Element.runAll run' es w = Element.runAll run es w := by
  have hparts (e : Element δ) (w : Work) (he : ¬ ExceedsLimit (run e w)) :
      Element.runAll run' [e] w = run e w := by
    rw [runAll_singleton]
    exact hagrees e w he
  have hflat := runAll_flatMap hparts es w h
  rwa [List.flatMap_singleton'] at hflat

end

/-- More levels make no difference where there are enough, and neither does the limit that an error
would tell. -/
theorem run_agrees [Deferral δ] (r : Rules δ) (limit : Nat) {n m : Nat} (hnm : n ≤ m) :
    Agrees (run (r.withLimit limit) m) (run r n) := by
  induction n generalizing m with
  | zero =>
    intro e w h
    exact absurd ⟨_, rfl⟩ h
  | succ n ih =>
    rcases m with _ | m
    · exact absurd hnm (Nat.not_succ_le_zero n)
    have hagrees : Agrees (run (r.withLimit limit) m) (run r n) := ih (Nat.le_of_succ_le_succ hnm)
    intro e w h
    cases e with
    | list es => exact hagrees.runAll es w h
    | template name es => exact hagrees.runAll es w h
    | symbol name =>
      have hsame : (r.withLimit limit).resolve? name = r.resolve? name := rfl
      simp only [run, hsame] at h ⊢
      cases hres : r.resolve? name with
      | none => rfl
      | some e =>
        rw [hres] at h
        exact hagrees e w h
    | deferred code => exact hagrees _ w h
    | _ => rfl

/-! ## Leaves -/

/-- Neither a list nor a template. -/
def IsLeaf : Element δ → Prop
  | list _ | template _ _ => False
  | _ => True

mutual

/-- What is left of an element when each list and each template gives way to its elements. -/
def leaves : Element δ → List (Element δ)
  | list es => leavesAll es
  | template _ es => leavesAll es
  | e => [e]

/-- The leaves of some elements in order. -/
def leavesAll : List (Element δ) → List (Element δ)
  | [] => []
  | e :: es => leaves e ++ leavesAll es

end

theorem leavesAll_eq_flatMap (es : List (Element δ)) : leavesAll es = es.flatMap leaves := by
  induction es with
  | nil => rfl
  | cons e es ih => rw [leavesAll, ih, List.flatMap_cons]

mutual

theorem isLeaf_of_mem_leaves {e x : Element δ} (h : x ∈ leaves e) : x.IsLeaf := by
  cases e with
  | list es => exact isLeaf_of_mem_leavesAll h
  | template name es => exact isLeaf_of_mem_leavesAll h
  | _ =>
    simp only [leaves, List.mem_singleton] at h
    rw [h]
    trivial

/-- Among the leaves there are neither lists nor templates. -/
theorem isLeaf_of_mem_leavesAll {es : List (Element δ)} {x : Element δ} (h : x ∈ leavesAll es) :
    x.IsLeaf := by
  cases es with
  | nil => cases h
  | cons e es =>
    rw [leavesAll, List.mem_append] at h
    rcases h with h | h
    · exact isLeaf_of_mem_leaves h
    · exact isLeaf_of_mem_leavesAll h

end

variable [Deferral δ]

/-- The leaves of an element do what the element does. -/
theorem runAll_leaves (r : Rules δ) {n m : Nat} (hnm : n ≤ m) (e : Element δ) (w : Work)
    (h : ¬ ExceedsLimit (run r n e w)) : runAll (run r m) (leaves e) w = run r n e w := by
  induction n generalizing e w with
  | zero => exact absurd ⟨_, rfl⟩ h
  | succ n ih =>
    have hlist (es : List (Element δ)) (h : ¬ ExceedsLimit (runAll (run r n) es w)) :
        runAll (run r m) (leavesAll es) w = runAll (run r n) es w := by
      rw [leavesAll_eq_flatMap]
      exact runAll_flatMap (ih (Nat.le_of_succ_le hnm)) es w h
    cases e with
    | list es => exact hlist es h
    | template name es => exact hlist es h
    | _ =>
      simp only [leaves, runAll_singleton]
      exact run_agrees r r.settings.maxDepth hnm _ w h

/-- The leaves of some elements do what the elements do. -/
theorem runAll_leavesAll (r : Rules δ) (n : Nat) (es : List (Element δ)) (w : Work)
    (h : ¬ ExceedsLimit (runAll (run r n) es w)) :
    runAll (run r n) (leavesAll es) w = runAll (run r n) es w := by
  rw [leavesAll_eq_flatMap]
  exact runAll_flatMap (runAll_leaves r (Nat.le_refl n)) es w h

end Element

/-! ## The expansion -/

namespace Engine

variable {δ : Type}

/-- An expansion that does not tell of the limit has kept to it. -/
theorem not_exceedsLimit_of_finish {g : Engine δ} {p : Work × Option Error}
    (h : ∀ limit, (g.finish p).result ≠ .error (.recursionLimit limit)) :
    ¬ Element.ExceedsLimit p := by
  rintro ⟨limit, hlimit⟩
  exact h limit (result_finish_eq_error_iff.mpr hlimit)

end Engine

variable {δ : Type} [Deferral δ]

/-- A template that does not exceed the limit and the sequence of its leaves, among which there are
no lists and no templates, expand alike: the same is left of engine and buffer, and the same is
answered.  So it makes no difference on which level an answer is kept and on which it is used. -/
theorem insertTemplate_leaves (g : Engine δ) (b : Buffer) (t : Template δ) (onRegion : Bool)
    (h : ∀ limit, (g.insertTemplate b t onRegion).result ≠ .error (.recursionLimit limit)) :
    let flat : Template δ := { t with elements := Element.leavesAll t.elements }
    (∀ e ∈ flat.elements, e.IsLeaf) ∧
      g.insertTemplate b flat onRegion = g.insertTemplate b t onRegion := by
  intro flat
  refine ⟨fun e he => Element.isLeaf_of_mem_leavesAll he, ?_⟩
  cases hstart : Engine.startOfRegion b onRegion with
  | error e => simp only [Engine.insertTemplate, hstart]
  | ok p =>
    simp only [Engine.insertTemplate, hstart] at h ⊢
    have hkeeps := Engine.not_exceedsLimit_of_finish h
    rw [Element.runAll_leavesAll _ _ t.elements _ hkeeps]

/-- An answer that a template in a list keeps is used outside of both, and the leaves are one level
above the only one allowed. -/
theorem insertTemplate_leaves_saved :
    let g : Engine Empty := { settings := { maxDepth := 2 } }
    let b : Buffer := { id := 0, text := ['(', ')'], point := 1, answers := ["x"] }
    let question : Prompt := { text := "name?", name := some "n", always := true }
    let t : Template Empty :=
      ⟨"t", [.list [.template "u" [.prompt question, .point], .text "="], .saved "n"]⟩
    let flat : Template Empty := ⟨"t", [.prompt question, .point, .text "=", .saved "n"]⟩
    let o := g.insertTemplate b t false
    (∀ limit, o.result ≠ .error (.recursionLimit limit)) ∧
      Element.leavesAll t.elements = flat.elements ∧ (∀ e ∈ flat.elements, e.IsLeaf) ∧
      g.insertTemplate b flat false = o ∧ o.buffer.text = ['(', 'x', '=', 'x', ')'] := by
  intro g b question t flat o
  have kept : ∀ limit, o.result ≠ .error (.recursionLimit limit) := by
    have hok : o.result.toOption = some ⟨1, 4, 2⟩ := by decide
    intro limit hlimit
    rw [hlimit] at hok
    cases hok
  obtain ⟨hleaf, heq⟩ := insertTemplate_leaves g b t false kept
  exact ⟨kept, rfl, hleaf, heq, by decide⟩

end TextTemplate
