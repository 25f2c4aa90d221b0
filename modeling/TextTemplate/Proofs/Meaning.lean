import TextTemplate.Proofs.Depth
import TextTemplate.Proofs.Plain

/-!
# What a plain template says

A plain template has nothing in it that depends on the text around it: literal texts, points, prompts,
new lines, saved answers, and lists and templates of these.  It has a *script*, which lists in order
what is written, asked and repeated, and the script has a text once its prompts are answered.  That is
what an expansion at point inserts (`insertTemplate_meaning`).

The script knows no buffer and no interpreter.  It is made from the leaves of the template, an answer
is repeated by looking back over the prompts before it, and the answers come from the queue as far as
it goes and from the prompter after that.

`Spoken` is what the text, the prompts and the kept answers have in common after a part of the script.
The work of an expansion comes to it part by part, which `Delivers` puts together from the end of the
script backwards, with one case for each kind of part.
-/

namespace TextTemplate

/-! ## Scripts -/

/-- One step of a script. -/
inductive Part where
  /-- A fixed text. -/
  | write (s : List Char)
  /-- The answer to a prompt. -/
  | ask (p : Prompt)
  /-- The answer that was given last to a prompt with a name. -/
  | saved (name : String)

namespace Part

/-- The prompts of a script. -/
def prompts (ps : List Part) : List Prompt :=
  ps.filterMap fun
    | ask p => some p
    | _ => none

/-- What is asked by a script. -/
def questions (ps : List Part) : List String := (prompts ps).map (·.text)

/-- The last answer to a prompt with a name. -/
def latest (name : String) (given : List (Prompt × String)) : Option String :=
  (given.filter fun (p, _) => p.name = some name).getLast?.map (·.2)

/-- The text of a script whose prompts get some answers in order, after others were given. -/
def text (given : List (Prompt × String)) : List Part → List String → List Char
  | write s :: ps, as => s ++ text given ps as
  | saved name :: ps, as => ((latest name given).getD "").toList ++ text given ps as
  | ask p :: ps, a :: as => a.toList ++ text (given ++ [(p, a)]) ps as
  | ask _ :: _, [] => []
  | [], _ => []

@[simp] theorem prompts_nil : prompts [] = [] := rfl
@[simp] theorem prompts_ask (p : Prompt) (ps : List Part) :
    prompts (ask p :: ps) = p :: prompts ps := rfl

/-- Beside their answers, the prompts of a script still ask its questions. -/
theorem map_text_zip {ps : List Part} {as : List String} (h : as.length = (questions ps).length) :
    ((prompts ps).zip as).map (·.1.text) = questions ps := by
  have hle : (prompts ps).length ≤ as.length :=
    Nat.le_of_eq (by rw [h, questions, List.length_map])
  calc ((prompts ps).zip as).map (·.1.text)
    _ = (((prompts ps).zip as).map Prod.fst).map (·.text) := List.map_map.symm
    _ = questions ps := by rw [List.map_fst_zip hle, questions]

/-- The last answer of all counts if its prompt has the name. -/
theorem latest_concat (name : String) (given : List (Prompt × String)) (p : Prompt) (a : String) :
    latest name (given ++ [(p, a)]) = if p.name = some name then some a else latest name given := by
  unfold latest
  split
  · next h => simp [h]
  · next h => simp [h]

end Part

namespace Element

variable {δ : Type}

/-- Whether what an element does is settled by the settings, the filters and the answers. -/
def IsPlain : Element δ → Prop
  | text _ | point | prompt _ | regionPoint _ | regionPrompt _ _ | newline | saved _ | list _
  | template _ _ | empty => True
  | _ => False

/-- What an element adds to a script where there is no region.  A literal text passes through the
filters in their order.  A prompt is asked if prompts are asked at all, or if it always is, which a
prompt for the region cannot be. -/
def part? (g : Engine δ) : Element δ → Option Part
  | text s => some (.write (g.filters.foldl (fun s f => f s) s).toList)
  | newline => some (.write ['\n'])
  | prompt p => if g.settings.interactive || p.always then some (.ask p) else none
  | regionPrompt p _ => if g.settings.interactive then some (.ask p) else none
  | saved name => some (.saved name)
  | _ => none

theorem IsPlain.isStatic {e : Element δ} (h : e.IsPlain) : e.IsStatic := by
  cases e with
  | symbol name => exact h
  | deferred code => exact h
  | _ => trivial

end Element

/-- The script of a template. -/
def Engine.script {δ : Type} (g : Engine δ) (t : Template δ) : List Part :=
  (Element.leavesAll t.elements).filterMap (Element.part? g)

/-! ## Answers -/

/-- What a prompter answers to some prompts in order, if it answers all of them.  It is told what it
was asked before. -/
def Prompter.replies (f : Prompter) (asked : List String) : List String → Option (List String)
  | [] => some []
  | p :: ps => do
    let a ← f asked p
    (replies f (asked ++ [p]) ps).map (a :: ·)

namespace Buffer

/-- The answers to some prompts in order, if all of them are answered: those in the queue, and then
those of the prompter. -/
def replies (b : Buffer) (prompts : List String) : Option (List String) :=
  let f : Prompter := b.prompter.getD fun _ _ => none
  (f.replies b.asked (prompts.drop b.answers.length)).map (b.answers.take prompts.length ++ ·)

/-- A buffer becomes another one in which some more prompts were asked and answered. -/
structure Asked (b : Buffer) (ps : List String) (c : Buffer) : Prop where
  prompts : c.prompts = b.prompts ++ ps
  /-- The first prompts take their answers from the queue. -/
  answers : c.answers = b.answers.drop ps.length
  /-- The prompter is asked the others. -/
  asked : c.asked = b.asked ++ ps.drop b.answers.length

theorem replies_nil (b : Buffer) : b.replies [] = some [] := by simp [replies, Prompter.replies]

/-- The first prompt is asked, and then the others. -/
theorem replies_cons (b : Buffer) (p : String) (ps : List String) :
    b.replies (p :: ps) =
      (b.ask p).2.bind fun a => ((b.ask p).1.replies ps).map (a :: ·) := by
  unfold replies ask
  cases hanswers : b.answers with
  | cons a as => simp [Function.comp_def]
  | nil =>
    cases hprompter : b.prompter with
    | none => simp [Prompter.replies]
    | some f =>
      cases hreply : f b.asked p with
      | none => simp [Prompter.replies, hreply]
      | some a => simp [Prompter.replies, hreply, Function.comp_def]

/-- Each prompt has one answer. -/
theorem length_of_replies {b : Buffer} {ps as : List String} (h : b.replies ps = some as) :
    as.length = ps.length := by
  induction ps generalizing b as with
  | nil =>
    rw [replies_nil] at h
    cases h
    rfl
  | cons p ps ih =>
    rw [replies_cons] at h
    obtain ⟨a, -, h⟩ := Option.bind_eq_some_iff.mp h
    obtain ⟨as, has, rfl⟩ := Option.map_eq_some_iff.mp h
    simp only [List.length_cons, ih has]

theorem replies_insertText (b : Buffer) (s : List Char) (ps : List String) :
    (b.insertText s).replies ps = b.replies ps := by
  unfold insertText
  split <;> rfl

namespace Asked

variable {b c : Buffer} {ps : List String}

theorem refl (b : Buffer) : b.Asked [] b where
  prompts := (List.append_nil _).symm
  answers := rfl
  asked := by rw [List.drop_nil, List.append_nil]

theorem insertText (h : b.Asked ps c) (s : List Char) : b.Asked ps (c.insertText s) := by
  unfold Buffer.insertText
  split
  · exact h
  · exact { h with }

theorem moveTo (h : b.Asked ps c) (p : Nat) : b.Asked ps (c.moveTo p) := { h with }

/-- One more prompt is answered by the queue if there is an answer left, and by the prompter if there
is none. -/
theorem ask (h : b.Asked ps c) {p a : String} (ha : (c.ask p).2 = some a) :
    b.Asked (ps ++ [p]) (c.ask p).1 := by
  have hanswers := h.answers
  have hprompts : c.prompts ++ [p] = b.prompts ++ (ps ++ [p]) := by
    rw [h.prompts, List.append_assoc]
  unfold Buffer.ask at ha ⊢
  cases hqueue : c.answers with
  | cons x xs =>
    rw [hqueue] at hanswers
    have hlt : ps.length < b.answers.length := by
      have := congrArg List.length hanswers
      simp only [List.length_cons, List.length_drop] at this
      omega
    exact {
      prompts := hprompts
      answers := by
        rw [List.length_append, List.length_singleton, ← List.drop_drop, ← hanswers]
        rfl
      asked := by
        have hps : ps.drop b.answers.length = [] := List.drop_of_length_le (Nat.le_of_lt hlt)
        have hps' : (ps ++ [p]).drop b.answers.length = [] :=
          List.drop_of_length_le (by simpa using Nat.succ_le_of_lt hlt)
        rw [hps', ← hps]
        exact h.asked }
  | nil =>
    rw [hqueue] at hanswers
    have hle : b.answers.length ≤ ps.length := List.drop_eq_nil_iff.mp hanswers.symm
    cases hprompter : c.prompter with
    | none => simp [hqueue, hprompter] at ha
    | some f =>
      exact {
        prompts := hprompts
        answers := by
          rw [List.drop_of_length_le (by simpa using Nat.le_succ_of_le hle)]
        asked := by
          rw [List.drop_append_of_le_length hle, ← List.append_assoc, ← h.asked] }

end Asked

end Buffer

/-! ## Leaves and their parts -/

namespace Work

/-- Writes what a part of a script says. -/
def say (w : Work) : Part → Work × Option Error
  | .write s => (w.insert s, none)
  | .ask p => w.ask p
  | .saved name => (w.insert ((w.answers.lookup name).getD "").toList, none)

end Work

namespace Element

variable {δ : Type} [Deferral δ] {g : Engine δ} {e : Element δ}

/-- A leaf that adds a part to the script says it. -/
theorem run_of_part? {p : Part} (h : e.part? g = some p) (n : Nat) (w : Work) :
    run (g.rules false) (n + 1) e w = w.say p := by
  cases e with
  | text s =>
    obtain ⟨⟩ := h
    rfl
  | newline =>
    obtain ⟨⟩ := h
    rfl
  | prompt q =>
    simp only [part?] at h
    split at h
    · next hasks =>
      obtain ⟨⟩ := h
      exact if_pos hasks
    · cases h
  | regionPrompt q indent =>
    simp only [part?] at h
    split at h
    · next hasks =>
      obtain ⟨⟩ := h
      exact if_pos hasks
    · cases h
  | saved name =>
    obtain ⟨⟩ := h
    simp only [run, Work.say]
    cases w.answers.lookup name <;> rfl
  | _ => cases h

/-- A plain leaf that adds no part to the script does nothing, or marks point. -/
theorem run_of_part?_eq_none (hplain : e.IsPlain) (hleaf : e.IsLeaf) (h : e.part? g = none)
    (n : Nat) (w : Work) :
    run (g.rules false) (n + 1) e w = (w, none) ∨
      run (g.rules false) (n + 1) e w = (w.markPoint, none) := by
  cases e with
  | point => exact .inr rfl
  | regionPoint indent => exact .inr rfl
  | empty => exact .inl rfl
  | prompt p =>
    simp only [part?] at h
    split at h
    · cases h
    · next hasks => exact .inr (if_neg hasks)
  | regionPrompt p indent =>
    simp only [part?] at h
    split at h
    · cases h
    · next hasks => exact .inr (if_neg hasks)
  | list es => exact hleaf.elim
  | template name es => exact hleaf.elim
  | text s => cases h
  | newline => cases h
  | saved name => cases h
  | _ => exact hplain.elim

end Element

/-! ## The invariant -/

/-- A work in which `s` has been inserted at the point of a buffer, where some prompts got their
answers and the last answers under their names are kept. -/
structure Spoken (b : Buffer) (old : Marks) (given : List (Prompt × String)) (s : List Char)
    (w : Work) : Prop extends InsertedAt b.text b.point old s w where
  asked : b.Asked (given.map (·.1.text)) w.buffer
  latest : ∀ name, w.answers.lookup name = Part.latest name given

namespace Spoken

variable {b : Buffer} {old : Marks} {given : List (Prompt × String)} {s : List Char} {w : Work}

theorem insert (h : Spoken b old given s w) (u : List Char) :
    Spoken b old given (s ++ u) (w.insert u) where
  toInsertedAt := h.toInsertedAt.insert u
  asked := by
    rw [Work.buffer_insert]
    exact h.asked.insertText u
  latest := by
    rw [Work.answers_insert]
    exact h.latest

theorem markPoint (h : Spoken b old given s w) : Spoken b old given s w.markPoint :=
  { h with toInsertedAt := h.toInsertedAt.markPoint }

/-- An answer is inserted, and it is the last one under its name. -/
theorem ask (h : Spoken b old given s w) {p : Prompt} {a : String}
    (ha : (w.buffer.ask p.text).2 = some a) :
    Spoken b old (given ++ [(p, a)]) (s ++ a.toList) (w.ask p).1 := by
  rw [Work.ask_of_some ha]
  exact {
    toInsertedAt := { (h.toInsertedAt.ask p.text).insert a.toList with }
    asked := by
      rw [List.map_append, Work.buffer_insert]
      exact (h.asked.ask ha).insertText a.toList
    latest := fun name => by
      rw [Part.latest_concat, ← h.latest, Work.answers_insert]
      cases hname : p.name with
      | none => rfl
      | some name' =>
        simp only [Option.map_some, Option.toList_some, List.singleton_append, List.lookup_cons,
          Option.some.injEq]
        by_cases heq : name' = name
        · simp [heq]
        · simp [heq, beq_false_of_ne (Ne.symm heq)] }

end Spoken

/-- At the start of an expansion nothing has been said yet. -/
theorem spoken_startWork {δ : Type} (g : Engine δ) (b : Buffer) :
    Spoken b (g.marks b.id) [] [] (g.startWork b none) where
  toInsertedAt := insertedAt_startWork g b
  asked := .refl b
  latest _ := rfl

/-! ## Runs that deliver a script -/

/-- An outcome delivers a script from a work on: it is the failure of one of the prompts, if not all
of them get answers, and the text of the script is written otherwise. -/
structure Delivers (b : Buffer) (old : Marks) (given : List (Prompt × String)) (s : List Char)
    (w : Work) (ps : List Part) (o : Work × Option Error) : Prop where
  cancelled : w.buffer.replies (Part.questions ps) = none →
    ∃ p ∈ Part.questions ps, o.2 = some (.promptCancelled p)
  answered : ∀ as, w.buffer.replies (Part.questions ps) = some as →
    o.2 = none ∧ Spoken b old (given ++ (Part.prompts ps).zip as) (s ++ Part.text given ps as) o.1

namespace Delivers

variable {b : Buffer} {old : Marks} {given : List (Prompt × String)} {s : List Char} {w : Work}
  {ps : List Part} {o : Work × Option Error}

theorem nil (h : Spoken b old given s w) : Delivers b old given s w [] (w, none) where
  cancelled h := by cases (Buffer.replies_nil w.buffer).symm.trans h
  answered as _ := ⟨rfl, by simpa [Part.text] using h⟩

theorem write {u : List Char} (h : Delivers b old given (s ++ u) (w.insert u) ps o) :
    Delivers b old given s w (.write u :: ps) o := by
  obtain ⟨hcancelled, hanswered⟩ := h
  simp only [Work.buffer_insert, Buffer.replies_insertText, List.append_assoc]
    at hcancelled hanswered
  exact ⟨hcancelled, hanswered⟩

/-- What is saved is written like a fixed text. -/
theorem saved {name : String}
    (h : Delivers b old given s w (.write ((Part.latest name given).getD "").toList :: ps) o) :
    Delivers b old given s w (.saved name :: ps) o := ⟨h.cancelled, h.answered⟩

theorem ask_of_none {p : Prompt} (h : (w.buffer.ask p.text).2 = none)
    (ho : o.2 = some (.promptCancelled p.text)) : Delivers b old given s w (.ask p :: ps) o where
  cancelled _ := ⟨p.text, List.mem_cons_self, ho⟩
  answered as has := by
    rw [Part.questions, Part.prompts_ask, List.map_cons, Buffer.replies_cons, h] at has
    cases has

theorem ask_of_some {p : Prompt} {a : String} (ha : (w.buffer.ask p.text).2 = some a)
    (h : Delivers b old (given ++ [(p, a)]) (s ++ a.toList) (w.ask p).1 ps o) :
    Delivers b old given s w (.ask p :: ps) o := by
  obtain ⟨hcancelled, hanswered⟩ := h
  have hreplies : w.buffer.replies (Part.questions (.ask p :: ps)) =
      ((w.ask p).1.buffer.replies (Part.questions ps)).map (a :: ·) := by
    rw [Part.questions, Part.prompts_ask, List.map_cons, Buffer.replies_cons, ha, Option.bind_some,
      Work.ask_of_some ha, Work.buffer_insert, Buffer.replies_insertText]
    rfl
  constructor
  · intro h
    obtain ⟨q, hq, ho⟩ := hcancelled (Option.map_eq_none_iff.mp (hreplies ▸ h))
    exact ⟨q, List.mem_cons_of_mem _ hq, ho⟩
  · intro as h
    obtain ⟨as, has, rfl⟩ := Option.map_eq_some_iff.mp (hreplies ▸ h)
    obtain ⟨ho, hspoken⟩ := hanswered as has
    exact ⟨ho, by simpa [Part.text] using hspoken⟩

end Delivers

variable {δ : Type} [Deferral δ]

/-- Plain leaves deliver their script. -/
theorem Spoken.delivers_runAll {g : Engine δ} {b : Buffer} {old : Marks}
    {given : List (Prompt × String)} {s : List Char} {w : Work} (h : Spoken b old given s w)
    {es : List (Element δ)} (hes : ∀ e ∈ es, e.IsPlain ∧ e.IsLeaf) (n : Nat) :
    Delivers b old given s w (es.filterMap (Element.part? g))
      (Element.runAll (Element.run (g.rules false) (n + 1)) es w) := by
  -- On the leaves from the front, so that the answers given so far are those of the work; the answers
  -- that the rest needs are the ones that the buffer gives from there on.
  induction es generalizing given s w with
  | nil => exact .nil h
  | cons e es ih =>
    obtain ⟨⟨hplain, hleaf⟩, hes⟩ := List.forall_mem_cons.mp hes
    cases hpart : e.part? g with
    | none =>
      rw [List.filterMap_cons_none hpart, Element.runAll]
      rcases Element.run_of_part?_eq_none hplain hleaf hpart n w with hrun | hrun
      · rw [hrun]
        exact ih h hes
      · rw [hrun]
        have hrest := ih h.markPoint hes
        exact ⟨hrest.cancelled, hrest.answered⟩
    | some p =>
      rw [List.filterMap_cons_some hpart, Element.runAll, Element.run_of_part? hpart]
      cases p with
      | write u => exact .write (ih (h.insert u) hes)
      | saved name =>
        rw [Work.say, h.latest]
        exact .saved (.write (ih (h.insert _) hes))
      | ask p =>
        cases ha : (w.buffer.ask p.text).2 with
        | none =>
          refine .ask_of_none ha ?_
          rw [Work.say, Work.ask_of_none ha]
        | some a =>
          have hask : w.ask p = ((w.ask p).1, none) := by rw [Work.ask_of_some ha]
          rw [Work.say, hask]
          exact .ask_of_some ha (ih (h.ask ha) hes)

/-- The elements of a plain template that keeps to the limit deliver its script. -/
theorem delivers_script {g : Engine δ} {t : Template δ}
    (hplain : ∀ (e : Element δ) k, e.Inside t.elements k → e.IsPlain ∧ k ≤ g.settings.maxDepth)
    (b : Buffer) :
    Delivers b (g.marks b.id) [] [] (g.startWork b none) (g.script t)
      (Element.runAll (Element.run (g.rules false) (g.settings.maxDepth + 1)) t.elements
        (g.startWork b none)) := by
  have hkeeps := Element.not_exceedsLimit_runAll (g.rules false) (n := g.settings.maxDepth + 1)
    (fun e k he => (hplain e k he).1.isStatic) (fun e k he => Nat.lt_succ_of_le (hplain e k he).2)
    (g.startWork b none)
  have hleaves : ∀ e ∈ Element.leavesAll t.elements, e.IsPlain ∧ e.IsLeaf := fun e he => by
    obtain ⟨k, hk⟩ := Element.inside_of_mem_leavesAll he
    exact ⟨(hplain e k hk).1, Element.isLeaf_of_mem_leavesAll he⟩
  rw [← Element.runAll_leavesAll _ _ _ _ hkeeps]
  exact (spoken_startWork g b).delivers_runAll hleaves g.settings.maxDepth

/-! ## The expansion -/

/-- An expansion at point of a plain template that keeps to the limit inserts what its script says
with the answers that the buffer gives to its prompts, and asks these prompts and no others.  If they
do not all get an answer, it fails at one of them.  Which answers there are does not depend on the
text around point. -/
theorem insertTemplate_meaning (g : Engine δ) (b : Buffer) (t : Template δ)
    (hplain : ∀ (e : Element δ) k, e.Inside t.elements k → e.IsPlain ∧ k ≤ g.settings.maxDepth) :
    let script := g.script t
    let o := g.insertTemplate b t false
    (b.replies (Part.questions script) = none →
        ∃ p ∈ Part.questions script, o.result = .error (.promptCancelled p)) ∧
      (∀ as, b.replies (Part.questions script) = some as →
        (∃ x, o.result = .ok x) ∧ InsertsAtPoint g b (Part.text [] script as) o ∧
          b.Asked (Part.questions script) o.buffer) ∧
      ∀ text point mark,
        { b with text, point, mark }.replies (Part.questions script) =
          b.replies (Part.questions script) := by
  intro script o
  have hdelivers := delivers_script hplain b
  have hid := Element.id_runAll (g.rules false) (g.settings.maxDepth + 1) t.elements
    (g.startWork b none)
  have hfinish : o = g.finish (Element.runAll _ t.elements (g.startWork b none)) := rfl
  rcases hrun : Element.runAll _ t.elements (g.startWork b none) with ⟨w, err⟩
  rw [hrun] at hdelivers hid hfinish
  refine ⟨fun h => ?_, fun as has => ?_, fun _ _ _ => rfl⟩
  · obtain ⟨p, hp, herr⟩ := hdelivers.cancelled h
    exact ⟨p, hp, hfinish ▸ Engine.result_finish_eq_error_iff.mpr herr⟩
  · obtain ⟨rfl, hspoken⟩ := hdelivers.answered as has
    have hasked := Part.map_text_zip (Buffer.length_of_replies has)
    rw [hfinish]
    refine ⟨⟨_, rfl⟩, hspoken.toInsertedAt.finish hid none, ?_⟩
    exact hasked ▸ hspoken.asked.moveTo _

/-- A name is asked for twice.  What is repeated is the answer that came last, and nothing before the
first answer; the queue answers both times, and the prompter answers the last prompt. -/
theorem insertTemplate_meaning_repeated :
    let g : Engine Empty :=
      { settings := { interactive := true, maxDepth := 2 }
        filters := [fun s => if s = "=" then ":" else s, fun s => s ++ "!"] }
    let answer : Prompter := fun asked _ => if asked = [] then some "z" else none
    let b : Buffer :=
      { id := 0, text := ['(', ')'], point := 1, answers := ["x", "y"], prompter := some answer }
    let question : Prompt := { text := "name?", name := some "n" }
    let t : Template Empty :=
      ⟨"t", [.saved "n", .list [.prompt question, .template "u" [.text "=", .point]], .saved "n",
        .newline, .prompt question, .saved "n", .regionPrompt { text := "rest?" } true]⟩
    let questions := ["name?", "name?", "rest?"]
    let o := g.insertTemplate b t false
    (∀ (e : Element Empty) k, e.Inside t.elements k → e.IsPlain ∧ k ≤ g.settings.maxDepth) ∧
      b.replies questions = some ["x", "y", "z"] ∧ (∃ x, o.result = .ok x) ∧
      InsertsAtPoint g b ['x', ':', '!', 'x', '\n', 'y', 'y', 'z'] o ∧ b.Asked questions o.buffer := by
  intro g answer b question t questions o
  have plain : ∀ (e : Element Empty) k, e.Inside t.elements k →
      e.IsPlain ∧ k ≤ g.settings.maxDepth := by
    simp [t, g, Element.forall_inside_cons, Element.contents, Element.IsPlain]
  obtain ⟨-, answered, -⟩ := insertTemplate_meaning g b t plain
  have asks : Part.questions (g.script t) = questions := by decide
  have writes : Part.text [] (g.script t) ["x", "y", "z"] =
      ['x', ':', '!', 'x', '\n', 'y', 'y', 'z'] := by decide
  have replies : b.replies questions = some ["x", "y", "z"] := by decide
  rw [asks] at answered
  exact ⟨plain, replies, writes ▸ answered _ replies⟩

end TextTemplate
