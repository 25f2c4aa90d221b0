import TextTemplate.Proofs.Dialogue
import TextTemplate.Proofs.Plain
import TextTemplate.Proofs.Region

/-!
# Expansion around an empty region

An expansion around an empty region is not always the one at point.  The first characters that are
inserted have point behind them and the other end of the region in front of them, because an insertion
moves only what is strictly after it.  From then on they play the part of the region, and what is
inserted after an odd number of exchanges goes in front of them (`aroundFirst`).

The two expansions read different texts, so what they do to their works is compared as a whole: a pair
of lists of effects is `TwoRuns` if they have led to the same dialogue and the same kept answers, and
to the same text as long as the region was not entered.  Each element adds to both lists and keeps
this (`TwoRuns.run`).  `insertTemplate_emptyRegion` draws the conclusions.
-/

namespace TextTemplate

/-! ## Elements in reach -/

namespace Element

variable {δ : Type}

/-- The elements of a list or a template, and what the handlers make of a symbol. -/
def parts (handlers : List (String → Option (Element δ))) : Element δ → List (Element δ)
  | list es => es
  | template _ es => es
  | symbol name => (handlers.findSome? (· name)).toList
  | _ => []

/-- An element is one of some elements, or of their parts, or of the parts of these, and so on. -/
inductive Among (handlers : List (String → Option (Element δ))) (e : Element δ) :
    List (Element δ) → Prop where
  | here {es : List (Element δ)} (h : e ∈ es) : Among handlers e es
  | deeper {es : List (Element δ)} {f : Element δ} (hf : f ∈ es)
      (h : Among handlers e (f.parts handlers)) : Among handlers e es

@[simp] theorem not_among_nil (handlers : List (String → Option (Element δ))) (e : Element δ) :
    ¬ e.Among handlers [] := by
  rintro (h | ⟨h, -⟩) <;> cases h

/-- What holds of all that is among some elements holds of the first one, of what is among its parts,
and of what is among the rest. -/
theorem forall_among_cons {handlers : List (String → Option (Element δ))} {P : Element δ → Prop}
    {f : Element δ} {es : List (Element δ)} :
    (∀ e : Element δ, e.Among handlers (f :: es) → P e) ↔
      P f ∧ (∀ e : Element δ, e.Among handlers (f.parts handlers) → P e) ∧
        ∀ e : Element δ, e.Among handlers es → P e := by
  constructor
  · intro h
    refine ⟨h f (.here List.mem_cons_self), fun e he => h e (.deeper List.mem_cons_self he), ?_⟩
    rintro e (he | ⟨hg, he⟩)
    · exact h e (.here (List.mem_cons_of_mem f he))
    · exact h e (.deeper (List.mem_cons_of_mem f hg) he)
  · rintro ⟨hf, hparts, hes⟩ e (he | ⟨hg, he⟩)
    · rcases List.mem_cons.mp he with rfl | he
      · exact hf
      · exact hes e (.here he)
    · rcases List.mem_cons.mp hg with rfl | hg
      · exact hparts e he
      · exact hes e (.deeper hg he)

/-- Neither deferred nor an element that indents. -/
def IsSteady : Element δ → Prop
  | deferred _ | reindent | newlineIndent | regionPoint true | regionPrompt _ true => False
  | _ => True

/-- A line feed that depends on the text. -/
def IsConditional : Element δ → Prop
  | conditionalNewline | conditionalNewlineAfter => True
  | _ => False

end Element

/-! ## Before anything is inserted -/

/-- A work at an empty region of a text `A ++ B`, where nothing has been inserted. -/
structure Stands (A B : List Char) (w : Work) : Prop where
  text : w.buffer.text = A ++ B
  point : w.buffer.point = A.length
  regionEnd : w.regionEnd = some A.length
  origin : w.origin = A.length

/-- What effects leave in place of an empty region.  The first characters that they insert are what
the others go around. -/
def aroundFirst : List Effect → List Char
  | [] => []
  | f :: fs =>
    if f.inserted = [] then aroundFirst fs
    else insertedAfter false fs ++ f.inserted ++ insertedAfter true fs

namespace Stands

variable {A B : List Char} {w : Work}

/-- Both ends of the region are at one place, so an exchange goes nowhere. -/
theorem exchange (h : Stands A B w) : Stands A B w.exchange := by
  simp only [Work.exchange, h.regionEnd]
  exact { h with
    point := Nat.min_eq_left (by simp [Buffer.length, h.text])
    regionEnd := congrArg some h.point }

theorem perform (h : Stands A B w) {f : Effect} (hf : f ≠ .reindent) (hnone : f.inserted = []) :
    Stands A B (w.perform f) := by
  cases f with
  | insert s =>
    obtain rfl : s = [] := hnone
    exact h
  | mark => exact { h with }
  | exchange => exact h.exchange
  | reindent => exact absurd rfl hf
  | ask prompt =>
    exact { h with
      text := (w.buffer.text_ask prompt).trans h.text
      point := (w.buffer.point_ask prompt).trans h.point }
  | keep name a => exact { h with }

theorem performAll (h : Stands A B w) {fs : List Effect} (hfs : .reindent ∉ fs)
    (hnone : fs.flatMap Effect.inserted = []) : Stands A B (w.performAll fs) :=
  Work.performAll_induction
    (fun f hf _ hw => hw.perform (fun heq => hfs (heq ▸ hf)) (List.flatMap_eq_nil_iff.mp hnone f hf)) h

/-- The first characters that are inserted become the region, and point is behind them. -/
theorem wraps (h : Stands A B w) (u : List Char) :
    Wraps A u B [] [] false (w.insert u).marks (w.insert u) where
  text := by
    rw [Work.buffer_insert, Buffer.text_insertText_between h.text h.point]
    simp
  point := by
    rw [Work.buffer_insert, Buffer.point_insertText, h.point]
    rfl
  regionEnd := by
    rw [Work.regionEnd_insert, h.regionEnd, h.point, Option.map_some, Edit.adjust_insert,
      if_neg (Nat.lt_irrefl _)]
    rfl
  origin := by
    rw [Work.origin_insert, h.origin, h.point, Edit.adjust_insert, if_neg (Nat.lt_irrefl _)]
  marks m hm := by
    rw [List.length_nil, aroundRegion_zero]
    exact hm

/-- Effects without an indentation go around the first characters that they insert. -/
theorem text_performAll (h : Stands A B w) {fs : List Effect} (hfs : .reindent ∉ fs) :
    (w.performAll fs).buffer.text = A ++ aroundFirst fs ++ B := by
  induction fs generalizing w with
  | nil => simpa [aroundFirst] using h.text
  | cons f fs ih =>
    rw [List.mem_cons, not_or] at hfs
    rw [Work.performAll_cons, aroundFirst]
    split
    · next hnone => exact ih (h.perform (Ne.symm hfs.1) hnone) hfs.2
    · next hsome =>
      cases f with
      | insert u =>
        obtain ⟨front, hwraps⟩ := (h.wraps u).performAll hsome hfs.2
        simpa [Effect.inserted, Work.perform] using hwraps.text
      | _ => exact absurd rfl hsome

end Stands

/-! ## Works that are alike -/

/-- Asking a prompt neither leaves point nor indents. -/
theorem Work.ne_of_mem_askEffects {w : Work} {p : Prompt} {f : Effect} (hf : f ∈ w.askEffects p) :
    f ≠ .exchange ∧ f ≠ .reindent := by
  unfold Work.askEffects at hf
  cases ha : (w.buffer.ask p.text).2 with
  | none =>
    rw [ha] at hf
    obtain rfl : f = _ := List.mem_singleton.mp hf
    exact ⟨nofun, nofun⟩
  | some a =>
    rw [ha] at hf
    rcases List.mem_cons.mp hf with rfl | hf
    · exact ⟨nofun, nofun⟩
    rcases List.mem_cons.mp hf with rfl | hf
    · exact ⟨nofun, nofun⟩
    · obtain ⟨name, -, rfl⟩ := Option.map_eq_some_iff.mp (Option.mem_toList.mp hf)
      exact ⟨nofun, nofun⟩

/-- The same prompts have been asked and the same answers kept. -/
structure Alike (v w : Work) : Prop where
  dialogue : v.buffer.dialogue = w.buffer.dialogue
  answers : v.answers = w.answers

namespace Alike

variable {v w : Work}

theorem insert_left (h : Alike v w) (s : List Char) : Alike (v.insert s) w where
  dialogue := by rw [Work.buffer_insert, Buffer.dialogue_insertText, h.dialogue]
  answers := by rw [Work.answers_insert, h.answers]

theorem insert_right (h : Alike v w) (s : List Char) : Alike v (w.insert s) where
  dialogue := by rw [Work.buffer_insert, Buffer.dialogue_insertText, h.dialogue]
  answers := by rw [Work.answers_insert, h.answers]

theorem exchange_left (h : Alike v w) : Alike v.exchange w := by
  unfold Work.exchange
  split <;> exact { h with }

/-- Every effect but an indentation keeps works alike. -/
theorem perform (h : Alike v w) {f : Effect} (hf : f ≠ .reindent) :
    Alike (v.perform f) (w.perform f) := by
  cases f with
  | insert s => exact (h.insert_left s).insert_right s
  | mark => exact { h with }
  | exchange =>
    simp only [Work.perform, Work.exchange]
    split <;> split <;> exact { h with }
  | reindent => exact absurd rfl hf
  | ask prompt => exact { h with dialogue := (Buffer.ask_congr h.dialogue prompt).1 }
  | keep name a => exact { h with answers := congrArg ((name, a) :: ·) h.answers }

theorem askEffects_eq (h : Alike v w) (p : Prompt) : v.askEffects p = w.askEffects p :=
  Work.askEffects_congr (Buffer.ask_congr h.dialogue p.text).2

theorem ask_snd_eq (h : Alike v w) (p : Prompt) : (v.ask p).2 = (w.ask p).2 :=
  Work.ask_snd_congr (Buffer.ask_congr h.dialogue p.text).2

end Alike

/-- The texts are the same, and so is where point is. -/
structure SameText (v w : Work) : Prop where
  text : v.buffer.text = w.buffer.text
  point : v.buffer.point = w.buffer.point

/-- Effects that neither leave point nor indent keep the texts the same. -/
theorem SameText.perform {v w : Work} (h : SameText v w) {f : Effect} (hf : f ≠ .exchange)
    (hcalm : f ≠ .reindent) : SameText (v.perform f) (w.perform f) := by
  cases f with
  | insert s =>
    simp only [Work.perform]
    exact {
      text := by
        rw [Work.buffer_insert, Work.buffer_insert, Buffer.text_insertText, Buffer.text_insertText,
          h.text, h.point]
      point := by
        rw [Work.buffer_insert, Work.buffer_insert, Buffer.point_insertText,
          Buffer.point_insertText, h.point] }
  | mark => exact { h with }
  | exchange => exact absurd rfl hf
  | reindent => exact absurd rfl hcalm
  | ask prompt =>
    simp only [Work.perform]
    exact ⟨by rw [Buffer.text_ask, Buffer.text_ask, h.text],
      by rw [Buffer.point_ask, Buffer.point_ask, h.point]⟩
  | keep name a => exact { h with }

theorem SameText.line {v w : Work} (h : SameText v w) : v.buffer.line = w.buffer.line := by
  rw [Buffer.line, Buffer.line, h.text, h.point]

/-- Where the texts are the same, lines are blank in the same places. -/
theorem SameText.slice {v w : Work} (h : SameText v w) (start stop : Nat) :
    v.buffer.slice start stop = w.buffer.slice start stop := by
  rw [Buffer.slice, Buffer.slice, h.text]

/-! ## Two runs -/

/-- The ends of the region are exchanged after something was inserted. -/
def ExchangesLate (fs : List Effect) : Prop :=
  ∃ before after, fs = before ++ .exchange :: after ∧ before.flatMap Effect.inserted ≠ []

theorem ExchangesLate.append {fs : List Effect} (h : ExchangesLate fs) (gs : List Effect) :
    ExchangesLate (fs ++ gs) := by
  obtain ⟨before, after, rfl, hsome⟩ := h
  exact ⟨before, after ++ gs, by simp, hsome⟩

/-- What an expansion around an empty region has done, and what the one at point has done meanwhile.
If no line feeds depend on the text, both have inserted the same. -/
structure TwoRuns (v₀ w₀ : Work) (unconditional : Prop) (fs gs : List Effect) : Prop where
  calm : .reindent ∉ fs
  calm' : .reindent ∉ gs
  alike : Alike (v₀.performAll fs) (w₀.performAll gs)
  inserted : unconditional → gs.flatMap Effect.inserted = fs.flatMap Effect.inserted
  sameText : ¬ ExchangesLate fs → SameText (v₀.performAll fs) (w₀.performAll gs)

namespace TwoRuns

variable {v₀ w₀ : Work} {unconditional : Prop} {fs gs : List Effect}

/-- Both do the same, which is not an exchange. -/
theorem both (h : TwoRuns v₀ w₀ unconditional fs gs) {f : Effect} (hf : f ≠ .exchange)
    (hcalm : f ≠ .reindent) : TwoRuns v₀ w₀ unconditional (fs ++ [f]) (gs ++ [f]) where
  calm := by simpa [h.calm] using hcalm.symm
  calm' := by simpa [h.calm'] using hcalm.symm
  alike := by
    rw [Work.performAll_append, Work.performAll_append]
    exact h.alike.perform hcalm
  inserted hu := by rw [List.flatMap_append, List.flatMap_append, h.inserted hu]
  sameText hlate := by
    rw [Work.performAll_append, Work.performAll_append]
    exact (h.sameText fun hfs => hlate (hfs.append [f])).perform hf hcalm

theorem insert (h : TwoRuns v₀ w₀ unconditional fs gs) (s : List Char) :
    TwoRuns v₀ w₀ unconditional (fs ++ [.insert s]) (gs ++ [.insert s]) :=
  h.both (by simp) (by simp)

theorem mark (h : TwoRuns v₀ w₀ unconditional fs gs) :
    TwoRuns v₀ w₀ unconditional (fs ++ [.mark]) (gs ++ [.mark]) := h.both (by simp) (by simp)

/-- Both do the same, and there are no exchanges in it. -/
theorem bothAll (h : TwoRuns v₀ w₀ unconditional fs gs) {es : List Effect}
    (hes : ∀ f ∈ es, f ≠ .exchange ∧ f ≠ .reindent) :
    TwoRuns v₀ w₀ unconditional (fs ++ es) (gs ++ es) := by
  induction es generalizing fs gs with
  | nil => simpa using h
  | cons f es ih =>
    obtain ⟨hf, hcalm⟩ := hes f List.mem_cons_self
    rw [List.append_cons fs, List.append_cons gs]
    exact ih (h.both hf hcalm) fun f hf => hes f (List.mem_cons_of_mem _ hf)

/-- An exchange is a mark at point. -/
theorem cross {A B : List Char} (hstart : Stands A B v₀) (h : TwoRuns v₀ w₀ unconditional fs gs) :
    TwoRuns v₀ w₀ unconditional (fs ++ [.exchange]) (gs ++ [.mark]) where
  calm := by simpa using h.calm
  calm' := by simpa using h.calm'
  alike := by
    rw [Work.performAll_append, Work.performAll_append]
    exact { h.alike.exchange_left with }
  inserted hu := by simpa [Effect.inserted] using h.inserted hu
  sameText hlate := by
    have hsame := h.sameText fun hfs => hlate (hfs.append [.exchange])
    have hnone : fs.flatMap Effect.inserted = [] :=
      by_contra fun hsome => hlate ⟨fs, [], rfl, hsome⟩
    have hstands := hstart.performAll h.calm hnone
    have hstands' := hstands.exchange
    rw [Work.performAll_append, Work.performAll_append]
    exact {
      text := hstands'.text.trans (hstands.text.symm.trans hsame.text)
      point := hstands'.point.trans (hstands.point.symm.trans hsame.point) }

/-- After a late exchange one of them may insert something alone. -/
theorem insert_left (h : TwoRuns v₀ w₀ unconditional fs gs) (hu : ¬ unconditional)
    (hlate : ExchangesLate fs) (s : List Char) :
    TwoRuns v₀ w₀ unconditional (fs ++ [.insert s]) gs where
  calm := by simpa using h.calm
  calm' := h.calm'
  alike := by
    rw [Work.performAll_append]
    exact h.alike.insert_left s
  inserted hu' := absurd hu' hu
  sameText hnot := absurd (hlate.append _) hnot

theorem insert_right (h : TwoRuns v₀ w₀ unconditional fs gs) (hu : ¬ unconditional)
    (hlate : ExchangesLate fs) (s : List Char) :
    TwoRuns v₀ w₀ unconditional fs (gs ++ [.insert s]) where
  calm := h.calm
  calm' := by simpa using h.calm'
  alike := by
    rw [Work.performAll_append]
    exact h.alike.insert_right s
  inserted hu' := absurd hu' hu
  sameText hnot := absurd hlate hnot

/-- A line feed depends on texts that are the same until there is a late exchange. -/
theorem newline (h : TwoRuns v₀ w₀ unconditional fs gs) (hu : ¬ unconditional) {s s' : List Char}
    (hblank : SameText (v₀.performAll fs) (w₀.performAll gs) →
      Text.allBlank s = Text.allBlank s') :
    TwoRuns v₀ w₀ unconditional (fs ++ Work.newlineEffects s) (gs ++ Work.newlineEffects s') := by
  have hinsert := h.insert ['\n']
  by_cases hlate : ExchangesLate fs
  · unfold Work.newlineEffects
    split <;> split
    · simpa using h
    · simpa using h.insert_right hu hlate ['\n']
    · simpa using h.insert_left hu hlate ['\n']
    · exact hinsert
  · unfold Work.newlineEffects
    rw [hblank (h.sameText hlate)]
    split
    · simpa using h
    · exact hinsert

variable {δ : Type}

/-- If two interpreters keep to `TwoRuns` with each of some elements, they do so with all of them, and
end in the same way. -/
theorem runAll {run run' : Element δ → Work → Work × Option Error}
    {effects effects' : Element δ → Work → List Effect}
    (replay : ∀ e w, (run e w).1 = w.performAll (effects e w))
    (replay' : ∀ e w, (run' e w).1 = w.performAll (effects' e w)) (es : List (Element δ))
    (keeps : ∀ e ∈ es, ∀ {fs gs}, TwoRuns v₀ w₀ unconditional fs gs →
      (run e (v₀.performAll fs)).2 = (run' e (w₀.performAll gs)).2 ∧
        TwoRuns v₀ w₀ unconditional (fs ++ effects e (v₀.performAll fs))
          (gs ++ effects' e (w₀.performAll gs)))
    (h : TwoRuns v₀ w₀ unconditional fs gs) :
    (Element.runAll run es (v₀.performAll fs)).2 = (Element.runAll run' es (w₀.performAll gs)).2 ∧
      TwoRuns v₀ w₀ unconditional (fs ++ Element.effectsAll run effects es (v₀.performAll fs))
        (gs ++ Element.effectsAll run' effects' es (w₀.performAll gs)) := by
  induction es generalizing fs gs with
  | nil => exact ⟨rfl, by simpa [Element.effectsAll] using h⟩
  | cons e es ih =>
    obtain ⟨herr, hnext⟩ := keeps e List.mem_cons_self h
    have hv := replay e (v₀.performAll fs)
    have hw := replay' e (w₀.performAll gs)
    rw [← Work.performAll_append] at hv hw
    simp only [Element.runAll, Element.effectsAll]
    rcases hrun : run e (v₀.performAll fs) with ⟨v, _ | err⟩ <;>
      rcases hrun' : run' e (w₀.performAll gs) with ⟨w, _ | err'⟩ <;>
      rw [hrun, hrun'] at herr
    · rw [hrun] at hv
      rw [hrun'] at hw
      obtain rfl : v = _ := hv
      obtain rfl : w = _ := hw
      simp only [← List.append_assoc]
      exact ih (fun e he => keeps e (List.mem_cons_of_mem _ he)) hnext
    · cases herr
    · cases herr
    · exact ⟨herr, by simpa using hnext⟩

/-- A prompt that both ask. -/
theorem ask (h : TwoRuns v₀ w₀ unconditional fs gs) (p : Prompt) :
    ((v₀.performAll fs).ask p).2 = ((w₀.performAll gs).ask p).2 ∧
      TwoRuns v₀ w₀ unconditional (fs ++ (v₀.performAll fs).askEffects p)
        (gs ++ (w₀.performAll gs).askEffects p) := by
  refine ⟨h.alike.ask_snd_eq p, ?_⟩
  rw [h.alike.askEffects_eq p]
  exact h.bothAll fun f hf => Work.ne_of_mem_askEffects hf

variable [Deferral δ]

/-- An element does the same to both, but for what a line feed and the ends of the region make of
it. -/
theorem run (g : Engine δ) {A B : List Char} (hstart : Stands A B v₀) (n : Nat)
    {es : List (Element δ)} {e : Element δ} (he : e ∈ es)
    (hreach : ∀ x : Element δ, x.Among g.handlers es →
      x.IsSteady ∧ (unconditional → ¬ x.IsConditional))
    (h : TwoRuns v₀ w₀ unconditional fs gs) :
    (Element.run (g.rules true) n e (v₀.performAll fs)).2 =
        (Element.run (g.rules false) n e (w₀.performAll gs)).2 ∧
      TwoRuns v₀ w₀ unconditional (fs ++ Element.effects (g.rules true) n e (v₀.performAll fs))
        (gs ++ Element.effects (g.rules false) n e (w₀.performAll gs)) := by
  induction n generalizing es e fs gs with
  | zero => exact ⟨rfl, by simpa [Element.effects] using h⟩
  | succ n ih =>
    obtain ⟨hsteady, hcond⟩ := hreach e (.here he)
    have hparts (x : Element δ) (hx : x.Among g.handlers (e.parts g.handlers)) :=
      hreach x (.deeper he hx)
    have hall {fs gs} (h : TwoRuns v₀ w₀ unconditional fs gs) :=
      h.runAll (Element.run_fst (g.rules true) n) (Element.run_fst (g.rules false) n)
        (e.parts g.handlers) fun e' he' _ _ h => ih he' hparts h
    cases e with
    | text s => exact ⟨rfl, h.insert _⟩
    | point => exact ⟨rfl, h.mark⟩
    | prompt p =>
      have hasks : (g.rules false).asks p = (g.rules true).asks p := rfl
      simp only [Element.run, Element.effects, hasks]
      split
      · exact h.ask p
      · exact ⟨rfl, h.mark⟩
    | regionPoint indent =>
      cases indent with
      | true => exact hsteady.elim
      | false => exact ⟨rfl, h.cross hstart⟩
    | regionPrompt p indent =>
      cases indent with
      | true => exact hsteady.elim
      | false =>
        have hsame : (g.rules false).settings = (g.rules true).settings := rfl
        simp only [Element.run, Element.effects, hsame]
        split
        · exact h.ask p
        · exact ⟨rfl, h.cross hstart⟩
    | conditionalNewline =>
      exact ⟨rfl, h.newline (fun hu => hcond hu trivial) fun hsame => by
        rw [hsame.slice, Buffer.lineBounds, Buffer.lineBounds, hsame.line, hsame.point]⟩
    | conditionalNewlineAfter =>
      exact ⟨rfl, h.newline (fun hu => hcond hu trivial) fun hsame => by
        rw [hsame.slice, Buffer.lineBounds, Buffer.lineBounds, hsame.line, hsame.point]⟩
    | newline => exact ⟨rfl, h.insert _⟩
    | newlineIndent => exact hsteady.elim
    | reindent => exact hsteady.elim
    | saved name =>
      simp only [Element.run, Element.effects, h.alike.answers]
      cases (w₀.performAll gs).answers.lookup name with
      | none => exact ⟨rfl, by simpa using h⟩
      | some a => exact ⟨rfl, h.insert _⟩
    | list es => exact hall h
    | template name es => exact hall h
    | symbol name =>
      have hresolve : (g.rules false).resolve? name = (g.rules true).resolve? name := rfl
      simp only [Element.run, Element.effects, hresolve]
      cases hres : (g.rules true).resolve? name with
      | none => exact ⟨rfl, by simpa using h⟩
      | some e' =>
        have he' : e' ∈ (Element.symbol name).parts g.handlers := by
          rw [Element.parts, show g.handlers.findSome? (· name) = some e' from hres]
          exact List.mem_singleton_self e'
        exact ih he' hparts h
    | empty => exact ⟨rfl, by simpa [Element.effects] using h⟩
    | deferred code => exact hsteady.elim

end TwoRuns

/-! ## The expansion -/

namespace Engine

variable {δ : Type}

theorem text_finish (g : Engine δ) (p : Work × Option Error) :
    (g.finish p).buffer.text = p.1.buffer.text := by
  obtain ⟨w, _ | err⟩ := p <;> rfl

/-- Around an empty region an expansion starts at point. -/
theorem startOfRegion_of_empty {b : Buffer} (hmark : b.mark = some b.point)
    (hpoint : b.point ≤ b.length) : startOfRegion b true = .ok (b, some b.point) := by
  have hmove : b.moveTo b.point = b := by rw [Buffer.moveTo, Nat.min_eq_left hpoint]
  simp only [startOfRegion, Buffer.region, hmark, Option.map_some, Nat.min_self, Nat.max_self, hmove]

theorem stands_startWork (g : Engine δ) {b : Buffer} (hpoint : b.point ≤ b.length) :
    Stands (b.text.take b.point) (b.text.drop b.point) (g.startWork b (some b.point)) :=
  have hlen : (b.text.take b.point).length = b.point := List.length_take_of_le hpoint
  { text := (List.take_append_drop ..).symm
    point := hlen.symm
    regionEnd := congrArg some hlen.symm
    origin := hlen.symm }

variable [Deferral δ]

/-- At an empty region, the expansion around it and the one at point end in the same way, and their
effects are `TwoRuns`. -/
theorem exists_twoRuns (g : Engine δ) {b : Buffer} (t : Template δ) (hmark : b.mark = some b.point)
    (hpoint : b.point ≤ b.length)
    (hsteady : ∀ e : Element δ, e.Among g.handlers t.elements → e.IsSteady) :
    let v₀ := g.startWork b (some b.point)
    let w₀ := g.startWork b none
    ∃ err,
      g.insertTemplate b t true = g.finish (v₀.performAll (g.effects b t true), err) ∧
      g.insertTemplate b t false = g.finish (w₀.performAll (g.effects b t false), err) ∧
      TwoRuns v₀ w₀ (∀ e : Element δ, e.Among g.handlers t.elements → ¬ e.IsConditional)
        (g.effects b t true) (g.effects b t false) := by
  intro v₀ w₀
  let levels := g.settings.maxDepth + 1
  let run := Element.run (g.rules true) levels
  let run' := Element.run (g.rules false) levels
  have hstart : TwoRuns v₀ w₀ (∀ e : Element δ, e.Among g.handlers t.elements → ¬ e.IsConditional)
      [] [] := {
    calm := nofun
    calm' := nofun
    alike := ⟨rfl, rfl⟩
    inserted := fun _ => rfl
    sameText := fun _ => ⟨rfl, rfl⟩ }
  have hreplay := Element.run_fst (g.rules true) levels
  have hreplay' := Element.run_fst (g.rules false) levels
  obtain ⟨herr, hruns⟩ := hstart.runAll hreplay hreplay' t.elements fun e he _ _ h =>
    h.run g (g.stands_startWork hpoint) levels he fun x hx => ⟨hsteady x hx, fun hu => hu x hx⟩
  have hregion := startOfRegion_of_empty hmark hpoint
  have heffects : g.effects b t true = g.effectsOn t true v₀ := by rw [effects, hregion]
  have hrun : Element.runAll run t.elements v₀ =
      (v₀.performAll (g.effects b t true), (Element.runAll run t.elements v₀).2) := by
    rw [heffects]
    exact Prod.ext (Element.runAll_fst hreplay t.elements v₀) rfl
  have hrun' : Element.runAll run' t.elements w₀ =
      (w₀.performAll (g.effects b t false), (Element.runAll run t.elements v₀).2) :=
    Prod.ext (Element.runAll_fst hreplay' t.elements w₀) herr.symm
  refine ⟨(Element.runAll run t.elements v₀).2, ?_, congrArg g.finish hrun', ?_⟩
  · rw [← hrun, insertTemplate, hregion]
  · rw [heffects]
    exact hruns

end Engine

variable {δ : Type} [Deferral δ]

/-- Where no element is deferred and none indents, an expansion around an empty region ends as the one
at point does, and leaves `aroundFirst` of its effects in place of the region.  The text is that of
the expansion at point if the ends of the region are not exchanged after something was inserted.  If
no line feeds depend on the text, the expansion at point inserts in order what is inserted around the
region, so the texts are the same just if that is `aroundFirst` too. -/
theorem insertTemplate_emptyRegion (g : Engine δ) (b : Buffer) (t : Template δ)
    (hmark : b.mark = some b.point) (hpoint : b.point ≤ b.length)
    (hsteady : ∀ e : Element δ, e.Among g.handlers t.elements → e.IsSteady) :
    let fs := g.effects b t true
    let inserted := fs.flatMap Effect.inserted
    let o := g.insertTemplate b t true
    let o' := g.insertTemplate b t false
    let A := b.text.take b.point
    let B := b.text.drop b.point
    (∀ e, o.result = .error e ↔ o'.result = .error e) ∧
      o.buffer.text = A ++ aroundFirst fs ++ B ∧
      (¬ ExchangesLate fs → o.buffer.text = o'.buffer.text) ∧
      ((∀ e : Element δ, e.Among g.handlers t.elements → ¬ e.IsConditional) →
        o'.buffer.text = A ++ inserted ++ B ∧
          (o.buffer.text = o'.buffer.text ↔ aroundFirst fs = inserted)) := by
  intro fs inserted o o' A B
  obtain ⟨err, ho, ho', hruns⟩ := g.exists_twoRuns t hmark hpoint hsteady
  have htext : o.buffer.text = A ++ aroundFirst fs ++ B := by
    rw [show o = _ from ho, Engine.text_finish]
    exact (g.stands_startWork hpoint).text_performAll hruns.calm
  refine ⟨fun e => ?_, htext, fun hlate => ?_, fun hu => ?_⟩
  · rw [show o = _ from ho, show o' = _ from ho', Engine.result_finish_eq_error_iff,
      Engine.result_finish_eq_error_iff]
  · rw [show o = _ from ho, show o' = _ from ho', Engine.text_finish, Engine.text_finish]
    exact (hruns.sameText hlate).text
  · have htext' : o'.buffer.text = A ++ inserted ++ B := by
      have hinserted := (insertedAt_startWork g b).performAll hruns.calm'
      rw [List.nil_append, hruns.inserted hu] at hinserted
      rw [show o' = _ from ho', Engine.text_finish]
      exact hinserted.text
    refine ⟨htext', ?_⟩
    rw [htext, htext', List.append_left_inj, List.append_right_inj]

/-- A symbol stands for a list that goes to the other end of the region, and another one fails.  What
is inserted between the exchanges comes to stand behind what is inserted after them. -/
theorem insertTemplate_emptyRegion_failing :
    let handler (name : String) : Option (Element Empty) :=
      if name = "s" then some (.list [.regionPoint false, .text "x"]) else none
    let g : Engine Empty := { handlers := [handler] }
    let b : Buffer := { id := 0, text := ['p', 'q'], point := 1, mark := some 1 }
    let t : Template Empty :=
      ⟨"t", [.regionPoint false, .symbol "s", .regionPoint false, .text "y", .symbol "u"]⟩
    let o := g.insertTemplate b t true
    let o' := g.insertTemplate b t false
    o.result = .error (.unknownElement "u") ∧ o'.result = .error (.unknownElement "u") ∧
      o.buffer.text = ['p', 'y', 'x', 'q'] ∧ o'.buffer.text = ['p', 'x', 'y', 'q'] ∧
      aroundFirst (g.effects b t true) = ['y', 'x'] := by
  intro handler g b t o o'
  have steady : ∀ e : Element Empty, e.Among g.handlers t.elements →
      e.IsSteady ∧ ¬ e.IsConditional := by
    simp [t, g, handler, Element.forall_among_cons, Element.parts, Element.IsSteady,
      Element.IsConditional]
  obtain ⟨ends, around, -, inOrder⟩ := insertTemplate_emptyRegion g b t rfl (by decide)
    fun e he => (steady e he).1
  obtain ⟨plain, -⟩ := inOrder fun e he => (steady e he).2
  have failed : o'.result = .error (.unknownElement "u") := rfl
  have first : aroundFirst (g.effects b t true) = ['y', 'x'] := by decide
  have second : (g.effects b t true).flatMap Effect.inserted = ['x', 'y'] := by decide
  rw [first] at around
  rw [second] at plain
  exact ⟨(ends _).mpr failed, failed, around, plain, first⟩

/-- The text around an empty region is not the one inserted at point. -/
theorem insertTemplate_emptyRegion_swapped :
    let g : Engine Empty := {}
    let b : Buffer := { id := 0, text := ['p', 'q'], point := 1, mark := some 1 }
    let t : Template Empty := ⟨"t", [.text "<b>", .regionPoint false, .text "</b>"]⟩
    let o := g.insertTemplate b t true
    let o' := g.insertTemplate b t false
    (∀ e : Element Empty, e.Among g.handlers t.elements → e.IsSteady) ∧
      o.buffer.text = "p</b><b>q".toList ∧ o'.buffer.text = "p<b></b>q".toList ∧
      o.buffer.text ≠ o'.buffer.text := by
  intro g b t o o'
  refine ⟨?_, by decide, by decide, by decide⟩
  simp [t, Element.forall_among_cons, Element.parts, Element.IsSteady]

end TextTemplate
