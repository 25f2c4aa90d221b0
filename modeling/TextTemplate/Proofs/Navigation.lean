import TextTemplate.Proofs.Bounds

/-!
# Going through the marks

Going forward again and again takes point to each mark behind it, in order, and then leaves it where
it is; going backward takes it to each mark before it.  `Visits` says this of any command: it lists
the positions that the command takes point to, one call after the other, until it answers that there
is none.  Nothing but point changes on the way.

A buffer does not put its point beyond its text, and so a mark out of bounds would be answered and
not be reached.  That there are none is `Session.inBoundsAt_run`, which asks for reports of the
edits of this buffer alone.
-/

namespace TextTemplate

/-! ## Neighbours in order -/

section

variable {R : Nat → Nat → Prop} [DecidableRel R] {l : List Nat} {p q : Nat}

/-- What comes after the next element is what is left after it. -/
theorem filter_of_filter_eq_cons (htrans : ∀ {a b c}, R a b → R b c → R a c)
    (hirrefl : ∀ a, ¬ R a a) (hl : l.Pairwise R) {qs : List Nat}
    (h : l.filter (R p ·) = q :: qs) : l.filter (R q ·) = qs := by
  have hq : R p q := by
    have hmem : q ∈ l.filter (R p ·) := h ▸ List.mem_cons_self
    simpa using (List.mem_filter.mp hmem).2
  have hrest : ∀ r ∈ qs, R q r := by
    have hl := hl.filter (R p ·)
    rw [h] at hl
    exact (List.pairwise_cons.mp hl).1
  calc l.filter (R q ·)
    _ = (l.filter (R p ·)).filter (R q ·) := by
      rw [List.filter_filter]
      apply List.filter_congr
      intro r _
      by_cases hr : R q r
      · simp [hr, htrans hq hr]
      · simp [hr]
    _ = qs := by
      rw [h, List.filter_cons_of_neg (by simpa using hirrefl q)]
      exact List.filter_eq_self.mpr fun r hr => by simpa using hrest r hr

/-- The next element is the one that all others after it come after. -/
theorem head?_filter_eq_some_iff (hasymm : ∀ {a b}, R a b → ¬ R b a) (hl : l.Pairwise R) :
    (l.filter (R p ·)).head? = some q ↔ q ∈ l ∧ R p q ∧ ∀ r ∈ l, R p r → r = q ∨ R q r := by
  have hsorted := hl.filter (R p ·)
  have hmem (r : Nat) : r ∈ l.filter (R p ·) ↔ r ∈ l ∧ R p r := by simp
  generalize l.filter (R p ·) = ms at hsorted hmem ⊢
  constructor
  · intro h
    obtain ⟨qs, rfl⟩ := List.head?_eq_some_iff.mp h
    obtain ⟨hq, hpq⟩ := (hmem q).mp List.mem_cons_self
    refine ⟨hq, hpq, ?_⟩
    intro r hr hpr
    rcases List.mem_cons.mp ((hmem r).mpr ⟨hr, hpr⟩) with rfl | hqs
    · exact .inl rfl
    · exact .inr ((List.pairwise_cons.mp hsorted).1 r hqs)
  · rintro ⟨hq, hpq, hfirst⟩
    cases ms with
    | nil => exact absurd ((hmem q).mpr ⟨hq, hpq⟩) List.not_mem_nil
    | cons r rs =>
      obtain ⟨hr, hpr⟩ := (hmem r).mp List.mem_cons_self
      rcases hfirst r hr hpr with rfl | hqr
      · rfl
      · rcases List.mem_cons.mp ((hmem q).mpr ⟨hq, hpq⟩) with rfl | hrs
        · rfl
        · exact absurd hqr (hasymm ((List.pairwise_cons.mp hsorted).1 q hrs))

end

theorem takeWhile_lt_eq_filter {ps : List Nat} (h : ps.Pairwise (· < ·)) (p : Nat) :
    ps.takeWhile (· < p) = ps.filter (· < p) := by
  induction ps with
  | nil => rfl
  | cons q qs ih =>
    obtain ⟨hq, hqs⟩ := List.pairwise_cons.mp h
    by_cases hqp : q < p
    · simp [hqp, ih hqs]
    · have hnone : ∀ r ∈ qs, p ≤ r := by
        intro r hr
        have hlt := hq r hr
        omega
      simpa [hqp] using hnone

namespace Marks

variable (m : Marks) {p q : Nat}

theorem forward_eq_head? (p : Nat) : m.forward p = (m.positions.filter (p < ·)).head? :=
  List.head?_filter.symm

theorem backward_eq_head? (p : Nat) :
    m.backward p = (m.positions.reverse.filter (p > ·)).head? := by
  rw [backward, takeWhile_lt_eq_filter m.ascending, List.filter_reverse, List.head?_reverse]

theorem descending : m.positions.reverse.Pairwise (· > ·) := List.pairwise_reverse.mpr m.ascending

/-- The mark before the next one after a mark is that mark. -/
theorem backward_of_forward (hp : p ∈ m.positions) (hq : m.forward p = some q) :
    m.backward q = some p := by
  rw [forward_eq_head?, head?_filter_eq_some_iff (fun h => Nat.lt_asymm h) m.ascending] at hq
  rw [backward_eq_head?, head?_filter_eq_some_iff (fun h => Nat.lt_asymm h) m.descending]
  obtain ⟨-, hpq, hnext⟩ := hq
  refine ⟨List.mem_reverse.mpr hp, hpq, ?_⟩
  intro r hr hrq
  rcases Nat.lt_trichotomy r p with hlt | heq | hgt
  · exact .inr hlt
  · exact .inl heq
  · have := hnext r (List.mem_reverse.mp hr) hgt
    omega

end Marks

/-! ## Repeated commands -/

variable {δ : Type} [Deferral δ]

/-- Given again and again, a command takes point to some positions one after the other and answers
each of them, and then it leaves point and answers none.  It changes nothing else. -/
inductive Visits (g : Engine δ) (k : Command δ) : Buffer → List Nat → Prop
  | done {b : Buffer} (answer : k.perform g b = ⟨g, b, .ok (.position none)⟩) : Visits g k b []
  | next {b : Buffer} {q : Nat} {qs : List Nat}
      (answer : k.perform g b = ⟨g, { b with point := q }, .ok (.position (some q))⟩)
      (rest : Visits g k { b with point := q } qs) : Visits g k b (q :: qs)

/-- Point goes to the first of some positions, if there is one, and this is answered. -/
def goFirst (g : Engine δ) (b : Buffer) : List Nat → Outcome δ Reply
  | [] => ⟨g, b, .ok (.position none)⟩
  | q :: _ => ⟨g, { b with point := q }, .ok (.position (some q))⟩

/-- A command that goes to the next one of some positions goes to all of them. -/
theorem visits_of_perform_eq {g : Engine δ} {k : Command δ} {b : Buffer} {f : Nat → List Nat}
    (hstep : ∀ p, k.perform g { b with point := p } = goFirst g { b with point := p } (f p))
    (hnext : ∀ p q qs, f p = q :: qs → f q = qs) (p : Nat) :
    Visits g k { b with point := p } (f p) := by
  generalize h : f p = qs
  induction qs generalizing p with
  | nil => exact .done (by rw [hstep, h]; rfl)
  | cons q qs ih => exact .next (by rw [hstep, h]; rfl) (ih q (hnext p q qs h))

namespace Engine

variable {g : Engine δ} {b : Buffer}

omit [Deferral δ] in
/-- A position in the text is where point goes to. -/
theorem goFirst_of_head? {ps : List Nat} (hps : ∀ p ∈ ps, p ≤ b.length) :
    (match ps.head? with
      | some p => (⟨g, b.moveTo p, .ok (.position (some p))⟩ : Outcome δ Reply)
      | none => ⟨g, b, .ok (.position none)⟩) = goFirst g b ps := by
  cases ps with
  | nil => rfl
  | cons p ps =>
    have hp := hps p List.mem_cons_self
    simp only [List.head?_cons, goFirst, Buffer.moveTo, Nat.min_eq_left hp]

theorem perform_forwardMark (hm : (g.marks b.id).Within b.length) :
    Command.forwardMark.perform g b =
      goFirst g b ((g.marks b.id).positions.filter (b.point < ·)) := by
  rw [← goFirst_of_head?, ← Marks.forward_eq_head?]
  · simp only [Command.perform, forwardMark]
    cases (g.marks b.id).forward b.point <;> rfl
  · intro p hp
    exact hm p (List.mem_filter.mp hp).1

theorem perform_backwardMark (hm : (g.marks b.id).Within b.length) :
    Command.backwardMark.perform g b =
      goFirst g b ((g.marks b.id).positions.reverse.filter (b.point > ·)) := by
  rw [← goFirst_of_head?, ← Marks.backward_eq_head?]
  · simp only [Command.perform, backwardMark]
    cases (g.marks b.id).backward b.point <;> rfl
  · intro p hp
    exact hm p (List.mem_reverse.mp (List.mem_filter.mp hp).1)

theorem visits_forwardMark (hm : (g.marks b.id).Within b.length) :
    Visits g .forwardMark b ((g.marks b.id).positions.filter (b.point < ·)) := by
  apply visits_of_perform_eq (b := b) (f := fun p => (g.marks b.id).positions.filter (p < ·))
  · intro p
    exact perform_forwardMark (b := { b with point := p }) hm
  · intro p q qs h
    exact filter_of_filter_eq_cons (R := (· < ·)) Nat.lt_trans Nat.lt_irrefl
      (g.marks b.id).ascending h

theorem visits_backwardMark (hm : (g.marks b.id).Within b.length) :
    Visits g .backwardMark b ((g.marks b.id).positions.reverse.filter (b.point > ·)) := by
  apply visits_of_perform_eq (b := b)
    (f := fun p => (g.marks b.id).positions.reverse.filter (p > ·))
  · intro p
    exact perform_backwardMark (b := { b with point := p }) hm
  · intro p q qs h
    exact filter_of_filter_eq_cons (R := (· > ·)) (fun h h' => Nat.lt_trans h' h) Nat.lt_irrefl
      (g.marks b.id).descending h

/-- Going forward from a mark and then backward comes back to it. -/
theorem backward_forwardMark (hm : (g.marks b.id).Within b.length)
    (hb : b.point ∈ (g.marks b.id).positions) {q : Nat}
    (hq : (Command.forwardMark.perform g b).result = .ok (.position (some q))) :
    let o := Command.forwardMark.perform g b
    Command.backwardMark.perform o.engine o.buffer = ⟨g, b, .ok (.position (some b.point))⟩ := by
  intro o
  have ho : o = goFirst g b ((g.marks b.id).positions.filter (b.point < ·)) :=
    perform_forwardMark hm
  have hnext : (g.marks b.id).forward b.point = some q ∧
      o = ⟨g, { b with point := q }, o.result⟩ := by
    rw [Marks.forward_eq_head?]
    rw [show Command.forwardMark.perform g b = _ from ho] at hq
    cases hfilter : (g.marks b.id).positions.filter (b.point < ·) with
    | nil => simp [hfilter, goFirst] at hq
    | cons q' qs =>
      obtain rfl : q' = q := by simpa [hfilter, goFirst] using hq
      exact ⟨rfl, by rw [ho, hfilter]; rfl⟩
  obtain ⟨hforward, hmoved⟩ := hnext
  have hback := Marks.backward_of_forward _ hb hforward
  rw [Marks.backward_eq_head?] at hback
  obtain ⟨ps, hps⟩ := List.head?_eq_some_iff.mp hback
  rw [hmoved]
  have h := perform_backwardMark (b := { b with point := q }) hm
  simp only [hps] at h
  exact h

end Engine

/-- After any actions of which the edits of one buffer were reported, and wherever its point is,
going forward visits exactly the marks behind point in ascending order, and going backward exactly
the marks before it in descending order.  From a mark, going forward and then backward comes back to
it.  The engine, the text and the marks stay as they are all along. -/
theorem Session.run_navigation (settings : Settings) {as : List (Action δ)} {id : BufferId}
    (reported : ∀ a ∈ as, a.ReportedAt id) {b : Buffer}
    (hb : ((start settings).run as).buffers.get? id = some b) (p : Nat) :
    let g := ((start settings).run as).engine
    let c := b.moveTo p
    let ms := (g.marks id).positions
    ms.Pairwise (· < ·) ∧
      Visits g .forwardMark c (ms.filter (c.point < ·)) ∧
      Visits g .backwardMark c (ms.reverse.filter (c.point > ·)) ∧
      (c.point ∈ ms → ∀ q, let o := Command.forwardMark.perform g c
        o.result = .ok (.position (some q)) →
          Command.backwardMark.perform o.engine o.buffer =
            ⟨g, c, .ok (.position (some c.point))⟩) := by
  intro g c ms
  have hid : c.id = id := keyed_run settings as id b hb
  have hm : (g.marks c.id).Within c.length := by
    rw [hid]
    exact ((inBoundsAt_run settings reported).present hb).2
  have hms : ms = (g.marks c.id).positions := by rw [hid]
  rw [hms]
  exact ⟨(g.marks c.id).ascending, Engine.visits_forwardMark hm, Engine.visits_backwardMark hm,
    fun hc q hq => Engine.backward_forwardMark hm hc hq⟩

/-- Marks in one buffer, while another buffer is cut behind the back of the engine. -/
theorem run_navigation_unreported :
    let t : Template Empty := ⟨"t", [.point, .text "ab", .point, .text "cd"]⟩
    let as : List (Action Empty) :=
      [.create 7 [] 2 [] none, .create 8 [] 2 [] none,
        .command 7 (.insertTemplate t false), .command 8 (.insertTemplate t false),
        .command 8 (.edit (.delete 0 9)),
        .command 7 (.moveTo 1), .command 7 (.report (.insert ['x']))]
    let s := (Session.start {}).run as
    (∀ a ∈ as, a.ReportedAt 7) ∧ (s.engine.marks 7).positions = [0, 3, 5] ∧
      (s.engine.marks 8).positions = [0, 2, 4] ∧ ∃ b, s.buffers.get? 7 = some b ∧
        Visits s.engine .forwardMark (b.moveTo 0) [3, 5] ∧
        Visits s.engine .backwardMark (b.moveTo 9) [3, 0] := by
  intro t as s
  have reported : ∀ a ∈ as, a.ReportedAt 7 := by
    simp [as, Action.ReportedAt, Command.Reported]
  have hmarks : (s.engine.marks 7).positions = [0, 3, 5] := by decide
  have hother : (s.engine.marks 8).positions = [0, 2, 4] := by decide
  have hlength : (s.buffers.get? 7).map (·.length) = some 5 := by decide
  obtain ⟨b, hb, hb5⟩ := Option.map_eq_some_iff.mp hlength
  obtain ⟨-, hforward, -, -⟩ := Session.run_navigation {} reported hb 0
  obtain ⟨-, -, hbackward, -⟩ := Session.run_navigation {} reported hb 9
  have hzero : (b.moveTo 0).point = 0 := by simp [Buffer.moveTo]
  have hend : (b.moveTo 9).point = 5 := by simp [Buffer.moveTo, hb5]
  rw [hzero, hmarks] at hforward
  rw [hend, hmarks] at hbackward
  exact ⟨reported, hmarks, hother, b, hb, hforward, hbackward⟩

end TextTemplate
