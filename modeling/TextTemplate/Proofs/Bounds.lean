import TextTemplate.Proofs.Lockstep
import TextTemplate.Proofs.Session

/-!
# Positions stay in the text

When the host reports all its edits, the marks that the engine keeps for a buffer, the point and the
mark of the buffer are positions of its text at any time, whatever is expanded and completed and
whatever fails (`Session.run_inBounds`).  Point and mark need no reports for that
(`Session.run_buffer_inBounds`).  With reports, the engine moves its marks by the very edits of the
text, and so they and the mark of the buffer move alike (`Session.step_lockstep`).

A command that is reported does one of three things (`Command.perform_cases`): it leaves its buffer
and the marks of it in lockstep, it drops these marks, or it sets the mark of the buffer.  The
invariant of sessions is `Session.InBounds`.  It says of a number without a buffer that there are no
marks for it, because otherwise they would be out of bounds when the buffer is created.  What it says
of one buffer, `Session.InBoundsAt`, holds as long as the edits of that buffer are reported.
-/

namespace TextTemplate

variable {δ : Type}

/-! ## Commands -/

namespace Engine

theorem marks_notifyAll (g : Engine δ) (id : BufferId) (es : List Edit) :
    (g.notifyAll id es).marks id = (g.marks id).applyAll es := by
  induction es generalizing g with
  | nil => rfl
  | cons e es ih =>
    have h := ih (g.notifyEdit id e)
    rwa [marks_notifyEdit, if_pos rfl] at h

theorem lockstep_forwardMark (g : Engine δ) {b : Buffer} (hb : b.InBounds) :
    Lockstep b (g.marks b.id) [] (g.forwardMark b).1 (g.marks b.id) := by
  unfold forwardMark
  split
  · next p _ => exact (Lockstep.refl hb _).moveTo p
  · exact .refl hb _

theorem lockstep_backwardMark (g : Engine δ) {b : Buffer} (hb : b.InBounds) :
    Lockstep b (g.marks b.id) [] (g.backwardMark b).1 (g.marks b.id) := by
  unfold backwardMark
  split
  · next p _ => exact (Lockstep.refl hb _).moveTo p
  · exact .refl hb _

end Engine

theorem HostEdit.edited_perform {b : Buffer} (hb : b.InBounds) (e : HostEdit) :
    b.Edited (e.perform b).2 (e.perform b).1 := by
  cases e with
  | insert s => exact Buffer.edited_insertText hb s
  | delete p q => exact Buffer.edited_deleteRange hb p q
  | reindent => exact Buffer.edited_reindentLine hb

/-- A command neither drops the marks of its buffer nor sets the mark of it, and its edits are
reported. -/
def Command.InStep : Command δ → Prop
  | clearMarks | forget | setMark _ | edit _ | notifyEdit _ => False
  | _ => True

/-- A command in step leaves a buffer and its marks in lockstep. -/
theorem Command.lockstep_perform [Deferral δ] (g : Engine δ) {b : Buffer} (hb : b.InBounds)
    {c : Command δ} (hc : c.InStep) :
    let o := c.perform g b
    ∃ steps, Lockstep b (g.marks b.id) steps o.buffer (o.engine.marks b.id) := by
  cases c with
  | insertTemplate t onRegion => exact g.lockstep_insertTemplate hb t onRegion
  | insertNamed name onRegion => exact g.lockstep_insertNamed hb name onRegion
  | completeTag silent => exact g.lockstep_completeTag hb silent
  | expandIfComplete => exact g.lockstep_expandIfComplete hb
  | forwardMark => exact ⟨[], g.lockstep_forwardMark hb⟩
  | backwardMark => exact ⟨[], g.lockstep_backwardMark hb⟩
  | useScope name =>
    refine ⟨[], ?_⟩
    simp only [perform]
    split
    · next g' h =>
      rw [Engine.marks_useScope h]
      exact .refl hb _
    · exact .refl hb _
  | report e =>
    have h := (e.edited_perform hb).lockstep (g.marks b.id)
    simp only [perform, Engine.marks_notifyAll]
    exact ⟨_, h⟩
  | moveTo p => exact ⟨[], (Lockstep.refl hb _).moveTo p⟩
  | ask prompt => exact ⟨_, (Buffer.edited_ask hb prompt).lockstep _⟩
  | ding =>
    have h := Buffer.Edited.nothing (Buffer.Follows.refl hb) rfl
    exact ⟨_, (h.unlessQuiet false).lockstep _⟩
  | clearMarks | forget | setMark | edit | notifyEdit => exact hc.elim

/-- What a command does to its buffer and the marks of it. -/
theorem Command.perform_cases [Deferral δ] (g : Engine δ) {b : Buffer} (hb : b.InBounds)
    {c : Command δ} (hc : c.Reported) :
    let o := c.perform g b
    (∃ steps, Lockstep b (g.marks b.id) steps o.buffer (o.engine.marks b.id)) ∨
      (o.buffer = b ∧ o.engine.marks b.id = {}) ∨ ∃ p, o.buffer = b.setMark p ∧ o.engine = g := by
  cases c with
  | clearMarks => exact .inr (.inl ⟨rfl, by simp [perform]⟩)
  | forget => exact .inr (.inl ⟨rfl, by simp [perform]⟩)
  | setMark p => exact .inr (.inr ⟨p, rfl, rfl⟩)
  | edit e => exact hc.elim
  | notifyEdit e => exact hc.elim
  | _ => exact .inl (Command.lockstep_perform g hb trivial)

theorem Buffer.InBounds.of_new {b : Buffer} (hpoint : b.point = 0) (hmark : b.mark = none) :
    b.InBounds where
  point := hpoint ▸ Nat.zero_le _
  mark m hm := by
    rw [hmark] at hm
    cases hm

theorem Buffer.InBounds.setMark {b : Buffer} (hb : b.InBounds) (p : Option Nat) :
    (b.setMark p).InBounds where
  point := hb.point
  mark m hm := by
    obtain ⟨q, -, rfl⟩ := Option.map_eq_some_iff.mp hm
    exact Nat.min_le_right ..

/-- A command that is reported keeps the number of its buffer and leaves all positions in the
text. -/
theorem Command.inBounds_perform [Deferral δ] {g : Engine δ} {b : Buffer} (hb : b.InBounds)
    (hm : (g.marks b.id).Within b.length) {c : Command δ} (hc : c.Reported) :
    let o := c.perform g b
    o.buffer.id = b.id ∧ o.buffer.InBounds ∧ (o.engine.marks b.id).Within o.buffer.length := by
  intro o
  rcases c.perform_cases g hb hc with ⟨steps, h⟩ | ⟨hbuffer, hmarks⟩ | ⟨p, hbuffer, hengine⟩
  · exact ⟨h.follows.id, h.inBounds hb, h.within hm⟩
  · rw [show o.buffer = b from hbuffer, show o.engine.marks b.id = {} from hmarks]
    exact ⟨rfl, hb, Marks.within_empty _⟩
  · rw [show o.buffer = b.setMark p from hbuffer, show o.engine = g from hengine]
    exact ⟨rfl, hb.setMark p, hm⟩

/-! ## Sessions -/

namespace Session

/-- The positions of every buffer are in its text, and nothing is kept of buffers that are not
there. -/
structure InBounds (s : Session δ) : Prop where
  id : ∀ {i b}, s.buffers.get? i = some b → b.id = i
  buffer : ∀ {i b}, s.buffers.get? i = some b → b.InBounds
  marks : ∀ {i b}, s.buffers.get? i = some b → (s.engine.marks i).Within b.length
  absent : ∀ {i}, s.buffers.get? i = none → s.engine.marks i = {}

theorem inBounds_start (settings : Settings) : (start settings : Session δ).InBounds where
  id h := by cases h
  buffer h := by cases h
  marks h := by cases h
  absent _ := rfl

/-- The positions of one buffer are in its text, and nothing is kept of it if it is not there. -/
structure InBoundsAt (s : Session δ) (i : BufferId) : Prop where
  present : ∀ {b}, s.buffers.get? i = some b → b.InBounds ∧ (s.engine.marks i).Within b.length
  absent : s.buffers.get? i = none → s.engine.marks i = {}

theorem inBounds_iff {s : Session δ} : s.InBounds ↔ s.Keyed ∧ ∀ i, s.InBoundsAt i := by
  constructor
  · intro h
    exact ⟨fun i b hb => h.id hb, fun i => ⟨fun hb => ⟨h.buffer hb, h.marks hb⟩, h.absent⟩⟩
  · rintro ⟨keyed, h⟩
    exact ⟨fun hb => keyed _ _ hb, fun hb => ((h _).present hb).1, fun hb => ((h _).present hb).2,
      fun hi => (h _).absent hi⟩

theorem inBoundsAt_start (settings : Settings) (i : BufferId) :
    (start settings : Session δ).InBoundsAt i where
  present h := by cases h
  absent _ := rfl

namespace InBoundsAt

variable {s s' : Session δ} {i : BufferId}

/-- Nothing happens to the buffer and its marks, but the marks may be dropped. -/
theorem congr (h : s.InBoundsAt i) (hbuffer : s'.buffers.get? i = s.buffers.get? i)
    (hmarks : s'.engine.marks i = s.engine.marks i ∨ s'.engine.marks i = {}) :
    s'.InBoundsAt i := by
  refine ⟨?_, ?_⟩
  · intro b hb
    obtain ⟨hin, hwithin⟩ := h.present (hbuffer ▸ hb)
    refine ⟨hin, ?_⟩
    rcases hmarks with hmarks | hmarks
    · exact hmarks ▸ hwithin
    · exact hmarks ▸ Marks.within_empty _
  · intro hnone
    rcases hmarks with hmarks | hmarks
    · exact hmarks.trans (h.absent (hbuffer ▸ hnone))
    · exact hmarks

/-- The buffer is new or changes, with the marks of it. -/
theorem insert {g : Engine δ} {t : Table BufferId Buffer} {b : Buffer} (hb : b.InBounds)
    (hmarks : (g.marks i).Within b.length) : InBoundsAt ⟨g, t.insert i b⟩ i := by
  have hget : (t.insert i b).get? i = some b := by rw [Table.get?_insert, if_pos rfl]
  refine ⟨?_, ?_⟩
  · intro c hc
    obtain rfl : b = c := Option.some.inj (hget.symm.trans hc)
    exact ⟨hb, hmarks⟩
  · intro hnone
    rw [hget] at hnone
    cases hnone

theorem request (h : s.InBoundsAt i) (r : Request δ) :
    InBoundsAt { s with engine := r.perform s.engine } i := by
  refine h.congr rfl ?_
  simp only [Engine.marks, Engine.stateOf, r.buffers_perform]
  split
  · exact .inr rfl
  · exact .inl rfl

variable [Deferral δ]

/-- A command changes one buffer and the marks of it. -/
theorem command (h : s.InBoundsAt i) {id : BufferId} {b : Buffer}
    (hb : s.buffers.get? id = some b) (hid : b.id = id) {c : Command δ} (hc : id = i → c.Reported) :
    let o := c.perform s.engine b
    InBoundsAt ⟨o.engine, s.buffers.insert id o.buffer⟩ i := by
  intro o
  by_cases hi : id = i
  · subst hi
    subst hid
    obtain ⟨hin, hwithin⟩ := h.present hb
    obtain ⟨-, hbuffer, hmarks⟩ := c.inBounds_perform hin hwithin (hc rfl)
    exact insert hbuffer hmarks
  · have honly : s.engine.ChangesOnly b.id o.engine := c.changesOnly_perform s.engine b
    refine h.congr ?_ (.inl (honly.marks_eq ?_))
    · rw [Table.get?_insert, if_neg (Ne.symm hi)]
    · rw [hid]
      exact Ne.symm hi

/-- The positions of a buffer stay in its text as long as the edits of it are reported. -/
theorem step (h : s.InBoundsAt i) (keyed : s.Keyed) {a : Action δ} (ha : a.ReportedAt i) :
    (s.step a).InBoundsAt i := by
  rcases s.step_cases a with
    hs | ⟨b, hnew, hpoint, hmark, hs⟩ | ⟨r, rfl, hs⟩ | ⟨id, c, b, rfl, hb, hs⟩ <;> rw [hs]
  · exact h
  · by_cases hi : b.id = i
    · -- A new buffer has its point at the start and neither a mark nor marks.
      subst hi
      refine insert (.of_new hpoint hmark) ?_
      rw [h.absent hnew]
      exact Marks.within_empty _
    · refine h.congr ?_ (.inl rfl)
      rw [Table.get?_insert, if_neg (Ne.symm hi)]
  · exact h.request r
  · exact h.command hb (keyed id b hb) ha

end InBoundsAt

theorem InBounds.step [Deferral δ] {s : Session δ} (h : s.InBounds) {a : Action δ}
    (ha : a.Reported) : (s.step a).InBounds := by
  obtain ⟨keyed, h⟩ := inBounds_iff.mp h
  exact inBounds_iff.mpr ⟨keyed.step a, fun i => (h i).step keyed (ha.reportedAt i)⟩

/-- After any actions of which the edits of one buffer were reported, its positions are in its
text. -/
theorem inBoundsAt_run [Deferral δ] (settings : Settings) {as : List (Action δ)} {i : BufferId}
    (reported : ∀ a ∈ as, a.ReportedAt i) : ((start settings).run as).InBoundsAt i := by
  have h : ((start settings).run as).Keyed ∧ ((start settings).run as).InBoundsAt i := by
    refine run_induction (P := fun s => s.Keyed ∧ s.InBoundsAt i) ?_
      ⟨keyed_start settings, inBoundsAt_start settings i⟩
    rintro a ha s ⟨keyed, h⟩
    exact ⟨keyed.step a, h.step keyed (reported a ha)⟩
  exact h.2

end Session

/-- After any actions of which all edits were reported, the marks that the engine keeps for a
buffer, its point and its mark are positions of its text. -/
theorem Session.run_inBounds [Deferral δ] (settings : Settings) {as : List (Action δ)}
    (reported : ∀ a ∈ as, a.Reported) {id : BufferId} {b : Buffer}
    (hb : ((start settings).run as).buffers.get? id = some b) :
    b.id = id ∧ (∀ m ∈ (((start settings).run as).engine.marks id).positions, m ≤ b.length) ∧
      b.point ≤ b.length ∧ ∀ m, b.mark = some m → m ≤ b.length := by
  have h : ((start settings).run as).InBounds :=
    run_induction (fun a ha s hs => hs.step (reported a ha)) (inBounds_start settings)
  exact ⟨h.id hb, h.marks hb, (h.buffer hb).point, (h.buffer hb).mark⟩

/-- A run with a completion, a deletion reported beyond the text, and an expansion that fails. -/
theorem run_inBounds_failing :
    let as : List (Action Empty) :=
      [.create 7 ['a', '('] 2 [] none,
        .request (.defineScope "s" (.function fun _ => some ⟨"t", 1⟩)),
        .request (.defineTemplate "t" [.point, .newlineIndent, .text "x"] (some "t") (some "s")),
        .command 7 (.useScope "s"),
        .command 7 (.moveTo 2),
        .command 7 (.setMark (some 9)),
        .command 7 (.completeTag false),
        .command 7 (.report (.delete 9 2)),
        .command 7 (.insertTemplate ⟨"u", [.reindent, .text "y", .symbol "z"]⟩ true)]
    let s := (Session.start {}).run as
    (∀ a ∈ as, a.Reported) ∧ ∃ b, s.buffers.get? 7 = some b ∧ b.text = ['a', 'y', '\n'] ∧ b.id = 7 ∧
      (∀ m ∈ (s.engine.marks 7).positions, m ≤ b.length) ∧ b.point ≤ b.length ∧
        ∀ m, b.mark = some m → m ≤ b.length := by
  intro as s
  have reported : ∀ a ∈ as, a.Reported := by simp [as, Action.Reported, Command.Reported]
  obtain ⟨b, hb, htext⟩ : ∃ b, s.buffers.get? 7 = some b ∧ b.text = ['a', 'y', '\n'] :=
    ⟨_, rfl, rfl⟩
  exact ⟨reported, b, hb, htext, Session.run_inBounds {} reported hb⟩

/-! ## Edits behind the engine's back -/

/-- Any command at all leaves point and mark in the text. -/
theorem Command.buffer_inBounds_perform [Deferral δ] (g : Engine δ) {b : Buffer}
    (hb : b.InBounds) (c : Command δ) : (c.perform g b).buffer.InBounds := by
  have hstep (hc : c.InStep) : (c.perform g b).buffer.InBounds := by
    obtain ⟨steps, h⟩ := c.lockstep_perform g hb hc
    exact h.inBounds hb
  cases c with
  | edit e => exact (e.edited_perform hb).inBounds hb
  | setMark p => exact hb.setMark p
  | clearMarks | forget | notifyEdit => exact hb
  | _ => exact hstep trivial

/-- After any actions, reported or not, point and mark of a buffer are positions of its text. -/
theorem Session.run_buffer_inBounds [Deferral δ] (settings : Settings) (as : List (Action δ))
    {id : BufferId} {b : Buffer} (hb : ((start settings).run as).buffers.get? id = some b) :
    b.InBounds := by
  refine run_induction (P := fun s => ∀ i c, s.buffers.get? i = some c → c.InBounds)
    (fun a _ s h i c hc => ?_) (fun _ _ hc => by cases hc) id b hb
  rcases s.step_cases a with
    hs | ⟨d, -, hpoint, hmark, hs⟩ | ⟨r, rfl, hs⟩ | ⟨j, k, d, rfl, hd, hs⟩ <;> rw [hs] at hc
  · exact h i c hc
  · rcases Table.get?_insert_cases hc with ⟨-, rfl⟩ | ⟨-, hc⟩
    · exact .of_new hpoint hmark
    · exact h i c hc
  · exact h i c hc
  · rcases Table.get?_insert_cases hc with ⟨-, rfl⟩ | ⟨-, hc⟩
    · exact k.buffer_inBounds_perform s.engine (h j d hd)
    · exact h i c hc

/-! ## Marks of both kinds -/

/-- After any actions of which all edits were reported, a command in step moves the marks that the
engine keeps and the mark of the buffer with the very edits that it makes to the text.  So a mark of
the buffer that is one of the marks stays one of them. -/
theorem Session.step_lockstep [Deferral δ] (settings : Settings) {as : List (Action δ)}
    (reported : ∀ a ∈ as, a.Reported) {id : BufferId} {b : Buffer}
    (hb : ((start settings).run as).buffers.get? id = some b) {c : Command δ} (hc : c.InStep) :
    let s := (start settings).run as
    let s' := s.step (.command id c)
    ∃ b' steps, s'.buffers.get? id = some b' ∧
      EditedBy (MarkStep.edits steps) b.text b'.text ∧
      b'.mark = b.mark.map (Edit.adjustAll (MarkStep.edits steps)) ∧
      s'.engine.marks id = (s.engine.marks id).replay steps ∧
      ∀ m, b.mark = some m → m ∈ (s.engine.marks id).positions →
        ∃ m', b'.mark = some m' ∧ m' ∈ (s'.engine.marks id).positions := by
  intro s s'
  have h : s.InBounds :=
    run_induction (fun a ha s hs => hs.step (reported a ha)) (inBounds_start settings)
  obtain rfl := h.id hb
  obtain ⟨steps, hsteps⟩ := c.lockstep_perform s.engine (h.buffer hb) hc
  have hs' : s' = ⟨(c.perform s.engine b).engine,
      s.buffers.insert b.id (c.perform s.engine b).buffer⟩ := by
    simp only [s', Session.step, show s.buffers.get? b.id = some b from hb]
  rw [hs']
  refine ⟨(c.perform s.engine b).buffer, steps, ?_, hsteps.text, hsteps.follows.mark,
    hsteps.marks, fun m hm hmem => hsteps.own_mark hm hmem⟩
  rw [Table.get?_insert, if_pos rfl]

/-- The mark of the buffer is at the end of a first expansion.  A second one wraps the region between
point and that mark, indents the line at its far end and fails there. -/
theorem step_lockstep_failing :
    let as : List (Action Empty) :=
      [.create 7 ['(', 'a', ')'] 2 [] none,
        .command 7 (.moveTo 1),
        .command 7 (.insertTemplate ⟨"t", [.point, .text "x"]⟩ false),
        .command 7 (.setMark (some 2)),
        .command 7 (.moveTo 1)]
    let c : Command Empty :=
      .insertTemplate ⟨"u", [.newlineIndent, .regionPoint true, .text "y", .symbol "z"]⟩ true
    let s := (Session.start {}).run as
    let s' := s.step (.command 7 c)
    (∀ a ∈ as, a.Reported) ∧ c.InStep ∧
      ∃ b b', s.buffers.get? 7 = some b ∧ s'.buffers.get? 7 = some b' ∧
        b.mark = some 2 ∧ 2 ∈ (s.engine.marks 7).positions ∧
        b'.text = ['(', '\n', ' ', ' ', 'x', 'y', 'a', ')'] ∧
        ∃ m, b'.mark = some m ∧ m ∈ (s'.engine.marks 7).positions := by
  intro as c s s'
  have reported : ∀ a ∈ as, a.Reported := by simp [as, Action.Reported, Command.Reported]
  obtain ⟨b, hb, hmark⟩ : ∃ b, s.buffers.get? 7 = some b ∧ b.mark = some 2 := ⟨_, rfl, rfl⟩
  have htext : (s'.buffers.get? 7).map (·.text) =
      some ['(', '\n', ' ', ' ', 'x', 'y', 'a', ')'] := by decide
  have hmem : 2 ∈ (s.engine.marks 7).positions := by decide
  obtain ⟨b', steps, hb', -, -, -, hstays⟩ := Session.step_lockstep {} reported hb (c := c) trivial
  rw [show s'.buffers.get? 7 = some b' from hb'] at htext
  exact ⟨reported, trivial, b, b', hb, hb', hmark, hmem, Option.some.inj htext,
    hstays 2 hmark hmem⟩

end TextTemplate
