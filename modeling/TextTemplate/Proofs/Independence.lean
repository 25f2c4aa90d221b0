import TextTemplate.Proofs.Session

/-!
# Buffers do not see each other

A command reads what the engine keeps for its own buffer, and what it has for all buffers, which no
command changes.  So a command may as well be given to an engine that keeps nothing for other
buffers (`Command.perform_localTo`), and a command to another buffer leaves that engine as it is.
In a run of commands to several buffers, each buffer goes through its own commands as if they were
the only ones.
-/

namespace TextTemplate

namespace Table

variable {κ α : Type} [DecidableEq κ]

/-- The table with the value under one key and nothing else. -/
def only (k : κ) (t : Table κ α) : Table κ α := ⟨((t.get? k).map fun a => (k, a)).toList⟩

@[simp] theorem get?_only (k : κ) (t : Table κ α) : (t.only k).get? k = t.get? k := by
  rw [get?, only]
  cases t.get? k with
  | none => rfl
  | some a => exact List.lookup_cons_self

theorem only_congr {k : κ} {t t' : Table κ α} (h : t'.get? k = t.get? k) :
    t'.only k = t.only k := by
  rw [only, only, h]

theorem only_insert (k : κ) (t : Table κ α) (a : α) :
    (t.insert k a).only k = (t.only k).insert k a := by
  rw [only, get?_insert, if_pos rfl, only, insert]
  cases t.get? k <;> simp [put]

theorem only_erase (k : κ) (t : Table κ α) : (t.erase k).only k = (t.only k).erase k := by
  rw [only, get?_erase, if_pos rfl, only, erase]
  cases t.get? k <;> simp

end Table

variable {δ : Type}

/-! ## Engines that keep nothing for other buffers -/

namespace Engine

/-- The engine with what it keeps for one buffer. -/
def localTo (id : BufferId) (g : Engine δ) : Engine δ := { g with buffers := g.buffers.only id }

/-- What is changed for one buffer is nothing to another one. -/
theorem ChangesOnly.localTo_eq {id : BufferId} {g g' : Engine δ} (h : g.ChangesOnly id g')
    {i : BufferId} (hi : i ≠ id) : g'.localTo i = g.localTo i := by
  have hsame := Table.only_congr (h.others i hi)
  obtain ⟨t, rfl⟩ := h.rest
  rw [localTo, hsame]
  rfl

section

variable (g : Engine δ) (id : BufferId)

@[simp] theorem stateOf_localTo : (g.localTo id).stateOf id = g.stateOf id := by
  rw [stateOf, localTo, Table.get?_only, stateOf]

@[simp] theorem marks_localTo : (g.localTo id).marks id = g.marks id := by
  rw [marks, stateOf_localTo, marks]

@[simp] theorem activeScopes_localTo : (g.localTo id).activeScopes id = g.activeScopes id := by
  rw [activeScopes, stateOf_localTo, activeScopes]
  rfl

theorem setState_localTo (s : BufferState) :
    (g.localTo id).setState id s = (g.setState id s).localTo id := by
  simp only [setState, localTo, Table.only_insert]

theorem modifyState_localTo (f : BufferState → BufferState) :
    (g.localTo id).modifyState id f = (g.modifyState id f).localTo id := by
  have hget : (g.localTo id).buffers.get? id = g.buffers.get? id := Table.get?_only id g.buffers
  unfold modifyState
  rw [hget]
  split
  · exact g.setState_localTo id _
  · rfl

theorem clearMarks_localTo : (g.localTo id).clearMarks id = (g.clearMarks id).localTo id :=
  g.modifyState_localTo id _

theorem notifyEdit_localTo (e : Edit) :
    (g.localTo id).notifyEdit id e = (g.notifyEdit id e).localTo id :=
  g.modifyState_localTo id _

theorem notifyAll_localTo (es : List Edit) :
    (g.localTo id).notifyAll id es = (g.notifyAll id es).localTo id := by
  induction es generalizing g with
  | nil => rfl
  | cons e es ih =>
    have h := ih (g.notifyEdit id e)
    rw [← notifyEdit_localTo] at h
    exact h

theorem forget_localTo : (g.localTo id).forget id = (g.forget id).localTo id := by
  simp only [forget, localTo, Table.only_erase]

theorem useScope_localTo (name : String) :
    (g.localTo id).useScope id name = (g.useScope id name).map (localTo id) := by
  have hscope : (g.localTo id).scope name = g.scope name := rfl
  unfold useScope
  rw [hscope, stateOf_localTo]
  cases g.scope name with
  | error e => rfl
  | ok s =>
    simp only [bind, Except.bind, pure, Except.pure]
    split
    · rfl
    · rw [setState_localTo]
      rfl

end

end Engine

/-- An outcome with what the engine keeps for one buffer. -/
def Outcome.localTo {α : Type} (id : BufferId) (o : Outcome δ α) : Outcome δ α :=
  { o with engine := o.engine.localTo id }

namespace Engine

variable (g : Engine δ) (b : Buffer)

theorem forwardMark_localTo : (g.localTo b.id).forwardMark b = g.forwardMark b := by
  rw [forwardMark, marks_localTo, forwardMark]

theorem backwardMark_localTo : (g.localTo b.id).backwardMark b = g.backwardMark b := by
  rw [backwardMark, marks_localTo, backwardMark]

theorem deleteCandidate_localTo (found : Found) : (g.localTo b.id).deleteCandidate b found =
    ((g.deleteCandidate b found).1.localTo b.id, (g.deleteCandidate b found).2) := by
  unfold deleteCandidate
  split
  · rfl
  · rw [notifyEdit_localTo]

theorem finish_localTo (p : Work × Option Error) :
    (g.localTo p.1.buffer.id).finish p = (g.finish p).localTo p.1.buffer.id := by
  obtain ⟨w, _ | err⟩ := p
  · have hkeep : (g.localTo w.buffer.id).keepMarks w.markPoint =
        (g.keepMarks w.markPoint).localTo w.buffer.id := by
      rw [keepMarks, show w.markPoint.buffer.id = w.buffer.id from rfl, stateOf_localTo,
        setState_localTo]
      rfl
    simp only [finish, hkeep]
    rfl
  · have hkeep : (g.localTo w.buffer.id).keepMarks w = (g.keepMarks w).localTo w.buffer.id := by
      rw [keepMarks, stateOf_localTo, setState_localTo]
      rfl
    simp only [finish, hkeep]
    rfl

variable [Deferral δ]

theorem insertTemplate_localTo (t : Template δ) (onRegion : Bool) :
    (g.localTo b.id).insertTemplate b t onRegion =
      (g.insertTemplate b t onRegion).localTo b.id := by
  unfold insertTemplate
  cases hstart : startOfRegion b onRegion with
  | error e => rfl
  | ok p =>
    obtain ⟨c, regionEnd⟩ := p
    have hc : c.id = b.id := id_startOfRegion hstart
    have hid : ∀ p : Work × Option Error, p.1.buffer.id = c.id →
        (g.localTo b.id).finish p = (g.finish p).localTo b.id := by
      intro p hp
      rw [← hc, ← hp]
      exact g.finish_localTo p
    have hstart : (g.localTo b.id).startWork c regionEnd = g.startWork c regionEnd := by
      rw [startWork, hc, marks_localTo, ← hc]
      rfl
    dsimp only
    rw [hstart]
    exact hid _ (Element.id_runAll _ _ _ _)

theorem insertNamed_localTo (name : String) (onRegion : Bool) :
    (g.localTo b.id).insertNamed b name onRegion =
      (g.insertNamed b name onRegion).localTo b.id := by
  have hlookup : (g.localTo b.id).lookup name = g.lookup name := rfl
  unfold insertNamed
  rw [hlookup]
  split
  · exact g.insertTemplate_localTo b _ onRegion
  · rfl

/-- An expansion in the place of a candidate. -/
theorem replaceCandidate_localTo (found : Found) (t : Template δ) :
    let r := (g.localTo b.id).deleteCandidate b found
    let r' := g.deleteCandidate b found
    r.1.insertTemplate r.2 t false = (r'.1.insertTemplate r'.2 t false).localTo b.id := by
  intro r r'
  have h := r'.1.insertTemplate_localTo r'.2 t false
  rw [show r'.2.id = b.id from g.id_deleteCandidate b found] at h
  rw [show r = _ from g.deleteCandidate_localTo b found]
  exact h

theorem completeTag_localTo (silent : Bool) :
    (g.localTo b.id).completeTag b silent = (g.completeTag b silent).localTo b.id := by
  have hdecision : (g.localTo b.id).decision? b = g.decision? b := by
    rw [decision?, activeScopes_localTo, decision?]
  unfold completeTag
  rw [hdecision]
  split
  · rfl
  · next e found _ =>
    have h := g.replaceCandidate_localTo b found e.template
    dsimp only at h ⊢
    rw [h]
    rfl
  · next shared found _ =>
    have hid := g.id_deleteCandidate b found
    dsimp only
    rw [deleteCandidate_localTo]
    dsimp only
    rw [hid, notifyEdit_localTo]
    rfl

theorem expandIfComplete_localTo :
    (g.localTo b.id).expandIfComplete b = (g.expandIfComplete b).localTo b.id := by
  have hmatch : (g.localTo b.id).exactMatch? b = g.exactMatch? b := by
    rw [exactMatch?, activeScopes_localTo, exactMatch?]
  unfold expandIfComplete
  rw [hmatch]
  split
  · rfl
  · next e found _ =>
    have h := g.replaceCandidate_localTo b found e.template
    dsimp only at h ⊢
    rw [h]
    rfl

end Engine

/-- A command does what it does where nothing is kept for other buffers. -/
theorem Command.perform_localTo [Deferral δ] (g : Engine δ) (b : Buffer) (c : Command δ) :
    c.perform (g.localTo b.id) b = (c.perform g b).localTo b.id := by
  cases c with
  | useScope name =>
    simp only [perform, g.useScope_localTo b.id name]
    cases g.useScope b.id name <;> rfl
  | _ =>
    simp only [perform, Engine.insertTemplate_localTo, Engine.insertNamed_localTo,
      Engine.completeTag_localTo, Engine.expandIfComplete_localTo, Engine.forwardMark_localTo,
      Engine.backwardMark_localTo, Engine.clearMarks_localTo, Engine.forget_localTo,
      Engine.notifyAll_localTo, Engine.notifyEdit_localTo]
    rfl

/-! ## Commands to several buffers -/

namespace Session

/-- The session with one buffer and what the engine keeps for it. -/
def localTo (i : BufferId) (s : Session δ) : Session δ := ⟨s.engine.localTo i, s.buffers.only i⟩

variable [Deferral δ]

/-- The session after commands to several buffers. -/
def runCommands (s : Session δ) (as : List (BufferId × Command δ)) : Session δ :=
  s.run (as.map fun a => .command a.1 a.2)

/-- What is answered to commands to several buffers; those that are not there do not answer. -/
def replies (s : Session δ) : List (BufferId × Command δ) → List (BufferId × Except Error Reply)
  | [] => []
  | (j, c) :: as =>
    ((s.buffers.get? j).map fun b => (j, (c.perform s.engine b).result)).toList ++
      (s.step (.command j c)).replies as

variable {s : Session δ}

theorem step_localTo (hs : s.Keyed) (i : BufferId) (c : Command δ) :
    (s.localTo i).step (.command i c) = (s.step (.command i c)).localTo i := by
  simp only [step, localTo, Table.get?_only]
  cases hb : s.buffers.get? i with
  | none => simp only
  | some b =>
    obtain rfl := hs _ b hb
    simp only [c.perform_localTo, Table.only_insert]
    rfl

theorem step_localTo_other (hs : s.Keyed) {i j : BufferId} (hij : i ≠ j) (c : Command δ) :
    (s.step (.command j c)).localTo i = s.localTo i := by
  simp only [step]
  cases hb : s.buffers.get? j with
  | none => rfl
  | some b =>
    obtain rfl := hs _ b hb
    have hengine := (c.changesOnly_perform s.engine b).localTo_eq hij
    have hbuffers : (s.buffers.insert b.id (c.perform s.engine b).buffer).only i =
        s.buffers.only i := Table.only_congr (by rw [Table.get?_insert, if_neg hij])
    simp only [localTo, hengine, hbuffers]

@[simp] theorem runCommands_cons (s : Session δ) (a : BufferId × Command δ)
    (as : List (BufferId × Command δ)) :
    s.runCommands (a :: as) = (s.step (.command a.1 a.2)).runCommands as := rfl

/-- A buffer goes through its own commands, and so does what the engine keeps for it. -/
theorem runCommands_localTo (hs : s.Keyed) (i : BufferId) (as : List (BufferId × Command δ)) :
    (s.runCommands as).localTo i = (s.localTo i).runCommands (as.filter (·.1 = i)) := by
  induction as generalizing s with
  | nil => rfl
  | cons a as ih =>
    obtain ⟨j, c⟩ := a
    have hrest := ih (hs.step (.command j c))
    by_cases hij : i = j
    · subst hij
      rw [List.filter_cons_of_pos (by simp), runCommands_cons, runCommands_cons, hrest,
        step_localTo hs]
    · rw [List.filter_cons_of_neg (by simpa using Ne.symm hij), runCommands_cons, hrest,
        step_localTo_other hs hij]

/-- The answers to the commands of a buffer are those that it gives to them alone. -/
theorem filter_replies (hs : s.Keyed) (i : BufferId) (as : List (BufferId × Command δ)) :
    (s.replies as).filter (·.1 = i) = (s.localTo i).replies (as.filter (·.1 = i)) := by
  induction as generalizing s with
  | nil => rfl
  | cons a as ih =>
    obtain ⟨j, c⟩ := a
    have hrest := ih (hs.step (.command j c))
    rw [replies, List.filter_append, hrest]
    by_cases hij : i = j
    · subst hij
      have hget : (s.localTo i).buffers.get? i = s.buffers.get? i := Table.get?_only i s.buffers
      rw [List.filter_cons_of_pos (by simp), replies, hget, step_localTo hs]
      congr 1
      cases hb : s.buffers.get? i with
      | none => rfl
      | some b =>
        obtain rfl := hs _ b hb
        have hresult := congrArg Outcome.result (c.perform_localTo s.engine b)
        simp [localTo, hresult, Outcome.localTo]
    · rw [List.filter_cons_of_neg (by simpa using Ne.symm hij), step_localTo_other hs hij]
      have hother : (((s.buffers.get? j).map fun b =>
          (j, (c.perform s.engine b).result)).toList).filter (·.1 = i) = [] := by
        cases s.buffers.get? j <;> simp [Ne.symm hij]
      rw [hother, List.nil_append]

/-- Commands change the engine in what it keeps for buffers only. -/
theorem engine_runCommands (s : Session δ) (as : List (BufferId × Command δ)) :
    ∃ t, (s.runCommands as).engine = { s.engine with buffers := t } := by
  induction as generalizing s with
  | nil => exact ⟨s.engine.buffers, rfl⟩
  | cons a as ih =>
    obtain ⟨t, ht⟩ := ih (s.step (.command a.1 a.2))
    rw [runCommands_cons, ht]
    simp only [step]
    split
    · next b _ =>
      obtain ⟨t', ht'⟩ := (a.2.changesOnly_perform s.engine b).rest
      exact ⟨t, by rw [ht']⟩
    · exact ⟨t, rfl⟩

/-- Buffers are independent of each other.  However commands to several buffers are mixed, as long
as the commands to one buffer are the same in the same order, that buffer is the same in the end,
and so is what the engine keeps for it, and each of these commands gets the same answer.  What the
engine has for all buffers is not changed at all. -/
theorem run_independent (keyed : s.Keyed) (as : List (BufferId × Command δ)) :
    let s₁ := s.runCommands as
    (∃ t, s₁.engine = { s.engine with buffers := t }) ∧
      ∀ i as', as'.filter (·.1 = i) = as.filter (·.1 = i) → let s₂ := s.runCommands as'
        s₂.buffers.get? i = s₁.buffers.get? i ∧
          s₂.engine.buffers.get? i = s₁.engine.buffers.get? i ∧
          (s.replies as').filter (·.1 = i) = (s.replies as).filter (·.1 = i) := by
  intro s₁
  refine ⟨s.engine_runCommands as, ?_⟩
  intro i as' has s₂
  have hlocal : s₂.localTo i = s₁.localTo i := by
    rw [runCommands_localTo keyed, runCommands_localTo keyed, has]
  refine ⟨?_, ?_, ?_⟩
  · have h := congrArg (fun s => s.buffers.get? i) hlocal
    simpa [localTo] using h
  · have h := congrArg (fun s => s.engine.buffers.get? i) hlocal
    simpa [localTo, Engine.localTo] using h
  · rw [filter_replies keyed, filter_replies keyed, has]

end Session

/-- One buffer completes a tag and goes to a mark, and another one fails to expand a template in
between and is forgotten, while in the other order it comes last. -/
theorem run_independent_failing :
    let find : Finder := .function fun _ => some ⟨"t", 0⟩
    let setup : List (Action Empty) :=
      [.create 1 ['t', 'x'] 2 [] none, .create 2 ['y'] 2 [] none,
        .request (.defineScope "s" find),
        .request (.defineTemplate "t" [.text "(", .point, .text ")"] (some "t") (some "s"))]
    let s := (Session.start {}).run setup
    let mixed : List (BufferId × Command Empty) :=
      [(1, .useScope "s"), (2, .insertTemplate ⟨"u", [.text "z", .symbol "u"]⟩ false),
        (1, .moveTo 1), (2, .useScope "s"), (1, .completeTag false), (2, .forget),
        (1, .forwardMark)]
    let sorted : List (BufferId × Command Empty) :=
      [(1, .useScope "s"), (1, .moveTo 1), (1, .completeTag false), (1, .forwardMark),
        (2, .insertTemplate ⟨"u", [.text "z", .symbol "u"]⟩ false), (2, .useScope "s"),
        (2, .forget)]
    s.Keyed ∧ sorted.filter (·.1 = 1) = mixed.filter (·.1 = 1) ∧
      ((s.runCommands mixed).buffers.get? 1).map (·.text) = some ['(', ')', 'x'] ∧
      (s.runCommands sorted).buffers.get? 1 = (s.runCommands mixed).buffers.get? 1 ∧
      (s.runCommands sorted).engine.buffers.get? 1 = (s.runCommands mixed).engine.buffers.get? 1 ∧
      (s.replies sorted).filter (·.1 = 1) = (s.replies mixed).filter (·.1 = 1) := by
  intro find setup s mixed sorted
  have keyed : s.Keyed := Session.keyed_run {} setup
  have same : sorted.filter (·.1 = 1) = mixed.filter (·.1 = 1) := rfl
  have htext : ((s.runCommands mixed).buffers.get? 1).map (·.text) = some ['(', ')', 'x'] := by
    decide +kernel
  obtain ⟨-, hsame⟩ := Session.run_independent keyed mixed
  exact ⟨keyed, same, htext, hsame 1 sorted same⟩

end TextTemplate
