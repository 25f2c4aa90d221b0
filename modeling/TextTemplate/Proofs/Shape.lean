import TextTemplate.Proofs.Lockstep

/-!
# The shape of an expansion

An expansion that succeeds answers where it started, where it ended and where it left point.  Start
and end are marks of the text, in this order, and point is at the first mark after the start
(`insertTemplate_shape`).

The start follows all edits of the expansion, and an indentation removes and inserts text around it.
That it stays in front of both ends of the region, and of point, is the invariant `Anchored`.  Edits
keep the order of positions, so it is kept by all that point follows; point itself is also set, to the
end of what is inserted or of the indentation, and there the start cannot be behind it.
-/

namespace TextTemplate

/-! ## Edits and point -/

theorem Edit.adjustAll_mono (es : List Edit) {p q : Nat} (h : p ≤ q) :
    adjustAll es p ≤ adjustAll es q := by
  induction es generalizing p q with
  | nil => exact h
  | cons e es ih => exact ih (e.adjust_mono h)

namespace Buffer

variable {b : Buffer}

theorem point_removeIndent (b : Buffer) (start n : Nat) :
    (b.removeIndent start n).1.point = Edit.adjustAll (b.removeIndent start n).2 b.point := by
  unfold removeIndent
  split <;> rfl

theorem point_insertIndent (b : Buffer) (start n : Nat) :
    (b.insertIndent start n).1.point = Edit.adjustAll (b.insertIndent start n).2 b.point := by
  unfold insertIndent
  split
  · rfl
  · simp only [insertAt, point_follow, List.length_replicate, Edit.adjustAll_cons,
      Edit.adjustAll_nil]

/-- A position in an indentation that is removed goes to its start. -/
theorem adjustAll_removeIndent_le {start n p : Nat} (hp : p ≤ start + n) :
    Edit.adjustAll (b.removeIndent start n).2 p ≤ start := by
  unfold removeIndent
  split
  · next hn => simpa [hn] using hp
  · simp only [Edit.adjustAll_cons, Edit.adjustAll_nil, Edit.adjust]
    grind

/-- A position up to where an indentation is inserted stays. -/
theorem adjustAll_insertIndent_of_le {start n p : Nat} (hp : p ≤ start) :
    Edit.adjustAll (b.insertIndent start n).2 p = p := by
  unfold insertIndent
  split
  · rfl
  · rw [Edit.adjustAll_cons, Edit.adjustAll_nil, Edit.adjust_insert, if_neg (Nat.not_lt.mpr hp)]

/-- An indentation leaves what is in front of point in front of point. -/
theorem adjustAll_reindentLine_le {p : Nat} (hp : p ≤ b.point) :
    Edit.adjustAll b.reindentLine.2 p ≤ b.reindentLine.1.point := by
  simp only [reindentLine]
  split
  · exact hp
  · dsimp only
    rw [Edit.adjustAll_append]
    split
    · next hpoint =>
      have hcut := adjustAll_removeIndent_le (b := b) (Nat.le_trans hp hpoint)
      rw [adjustAll_insertIndent_of_le hcut]
      exact Nat.le_add_right_of_le hcut
    · rw [point_insertIndent, point_removeIndent]
      exact Edit.adjustAll_mono _ (Edit.adjustAll_mono _ hp)

end Buffer

/-! ## The invariant -/

namespace Work

/-- The start of the expansion is marked, and neither point nor the other end of the region is in
front of it. -/
structure Anchored (w : Work) : Prop where
  buffer : w.buffer.InBounds
  origin : w.origin ∈ w.marks.positions
  point : w.origin ≤ w.buffer.point
  regionEnd : ∀ p, w.regionEnd = some p → w.origin ≤ p ∧ p ≤ w.buffer.length

namespace Anchored

variable {w v : Work}

/-- Edits of the buffer that all of a work follows keep the invariant, if they leave the start in
front of point. -/
theorem edit (h : w.Anchored) (es : List Edit) (hbuffer : w.buffer.Follows es v.buffer)
    (hmarks : v.marks = w.marks.applyAll es) (horigin : v.origin = Edit.adjustAll es w.origin)
    (hend : v.regionEnd = w.regionEnd.map (Edit.adjustAll es))
    (hpoint : Edit.adjustAll es w.origin ≤ v.buffer.point) : v.Anchored where
  buffer := hbuffer.inBounds h.buffer
  origin := by
    rw [hmarks, horigin]
    exact Marks.mem_applyAll.mpr ⟨w.origin, h.origin, rfl⟩
  point := horigin ▸ hpoint
  regionEnd p hp := by
    rw [hend, Option.map_eq_some_iff] at hp
    obtain ⟨q, hq, rfl⟩ := hp
    obtain ⟨hle, hlength⟩ := h.regionEnd q hq
    rw [horigin]
    exact ⟨Edit.adjustAll_mono es hle, hbuffer.positions q hlength⟩

theorem insert (h : w.Anchored) (s : List Char) : (w.insert s).Anchored := by
  have hstays : (Edit.insert w.buffer.point s.length).adjust w.origin = w.origin := by
    rw [Edit.adjust_insert, if_neg (Nat.not_lt.mpr h.point)]
  refine h.edit [.insert w.buffer.point s.length] ?_ (w.marks_insert s)
    (w.origin_insert s) (w.regionEnd_insert s) ?_
  · rw [buffer_insert]
    exact Buffer.follows_insertText h.buffer s
  · rw [buffer_insert, Buffer.point_insertText, Edit.adjustAll_cons, Edit.adjustAll_nil, hstays]
    exact Nat.le_add_right_of_le h.point

theorem reindent (h : w.Anchored) : w.reindent.Anchored := by
  rw [reindent_eq]
  exact h.edit _ (Buffer.follows_reindentLine h.buffer) rfl rfl rfl
    (Buffer.adjustAll_reindentLine_le h.point)

theorem markPoint (h : w.Anchored) : w.markPoint.Anchored :=
  { h with origin := Marks.mem_insertSorted.mpr (.inr h.origin) }

theorem exchange (h : w.Anchored) : w.exchange.Anchored := by
  unfold Work.exchange
  split
  · next p hp =>
    obtain ⟨hle, hlength⟩ := h.regionEnd p hp
    have hmove : (w.buffer.moveTo p).point = p := Nat.min_eq_left hlength
    exact {
      buffer := ⟨Nat.min_le_right .., h.buffer.mark⟩
      origin := h.origin
      point := hmove.symm ▸ hle
      regionEnd := by
        rintro q ⟨⟩
        exact ⟨h.point, h.buffer.point⟩ }
  · exact h

/-- Every effect keeps the invariant. -/
theorem perform (h : w.Anchored) (f : Effect) : (w.perform f).Anchored := by
  cases f with
  | insert s => exact h.insert s
  | mark => exact h.markPoint
  | exchange => exact h.exchange
  | reindent => exact h.reindent
  | ask prompt =>
    refine h.edit [] (Buffer.follows_ask h.buffer prompt) rfl rfl ?_ ?_
    · exact (Option.map_id_apply ..).symm
    · rw [Work.perform, Buffer.point_ask]
      exact h.point
  | keep name a => exact { h with }

theorem performAll (h : w.Anchored) (fs : List Effect) : (w.performAll fs).Anchored :=
  performAll_induction (fun f _ _ hv => hv.perform f) h

end Anchored

end Work

/-! ## The expansion -/

variable {δ : Type}

/-- An expansion starts at the first end of the region, if there is one. -/
theorem anchored_startWork (g : Engine δ) {b c : Buffer} (hb : b.InBounds) {onRegion : Bool}
    {regionEnd : Option Nat} (h : Engine.startOfRegion b onRegion = .ok (c, regionEnd)) :
    (g.startWork c regionEnd).Anchored := by
  have horigin : (g.startWork c regionEnd).origin ∈ (g.startWork c regionEnd).marks.positions :=
    Marks.mem_insertSorted.mpr (.inl rfl)
  rcases Engine.startOfRegion_cases h with ⟨-, rfl, rfl⟩ | ⟨p, q, -, hregion, rfl, rfl⟩
  · exact ⟨hb, horigin, Nat.le_refl _, nofun⟩
  · obtain ⟨m, hm, hpq⟩ := Option.map_eq_some_iff.mp hregion
    cases hpq
    have hmark := hb.mark q hm
    refine ⟨⟨Nat.min_le_right .., hb.mark⟩, horigin, Nat.le_refl _, ?_⟩
    rintro r ⟨⟩
    constructor
    · exact Nat.le_trans (Nat.min_le_left ..) (Nat.le_trans (Nat.min_le_left ..) (Nat.le_max_left ..))
    · exact Nat.max_le.mpr ⟨hb.point, hmark⟩

/-- There is a next mark at the latest at a mark that comes after the position. -/
theorem Marks.Next.between {m : Marks} {p q r : Nat} (h : m.Next p q) (hr : r ∈ m.positions)
    (hpr : p < r) : p < q ∧ q ≤ r := by
  rcases h with ⟨-, hpq, hleast⟩ | ⟨-, hlast⟩
  · exact ⟨hpq, hleast r hr hpr⟩
  · exact absurd hpr (Nat.not_lt.mpr (hlast r hr))

/-- The next mark after a position of a text is a position of the text, if the marks are. -/
theorem Marks.Next.le {m : Marks} {p q n : Nat} (h : m.Next p q) (hm : m.Within n) (hp : p ≤ n) :
    q ≤ n := by
  rcases h with ⟨hq, -, -⟩ | ⟨rfl, -⟩
  · exact hm q hq
  · exact hp

variable [Deferral δ]

/-- An expansion that succeeds leaves an anchored work, whose end it marks. -/
theorem insertTemplate_ok_cases {g : Engine δ} {b : Buffer} (hb : b.InBounds) {t : Template δ}
    {onRegion : Bool} {x : Expansion} (hx : (g.insertTemplate b t onRegion).result = .ok x) :
    ∃ w : Work, w.Anchored ∧ w.buffer.id = b.id ∧
      g.insertTemplate b t onRegion = g.finish (w, none) := by
  cases hstart : Engine.startOfRegion b onRegion with
  | error e =>
    simp only [Engine.insertTemplate, hstart] at hx
    cases hx
  | ok p =>
    obtain ⟨c, regionEnd⟩ := p
    obtain ⟨err, hfinish⟩ := g.insertTemplate_eq_finish t hstart
    cases err with
    | some e =>
      rw [hfinish] at hx
      cases hx
    | none =>
      refine ⟨_, (anchored_startWork g hb hstart).performAll _, ?_, hfinish⟩
      rw [Work.id_performAll]
      exact Engine.id_startOfRegion hstart

/-- An expansion that succeeds, in a text whose marks are positions of it, starts and ends at marks of
the new text, in this order.  Point goes to the cursor, which is the first mark after the start or, if
there is none, the start.  There is one if the expansion does not end where it started.  That point
and the mark of the buffer are in the text says nothing about the host, for they always are
(`Session.run_buffer_inBounds`). -/
theorem insertTemplate_shape (g : Engine δ) {b : Buffer} (hb : b.InBounds)
    (hm : (g.marks b.id).Within b.length) (t : Template δ) (onRegion : Bool) {x : Expansion}
    (hx : (g.insertTemplate b t onRegion).result = .ok x) :
    let o := g.insertTemplate b t onRegion
    let marks := o.engine.marks b.id
    x.start ≤ x.stop ∧ x.stop ≤ o.buffer.length ∧
      x.start ∈ marks.positions ∧ x.stop ∈ marks.positions ∧
      marks.Next x.start x.cursor ∧ o.buffer.point = x.cursor ∧
      (x.start < x.stop → x.start < x.cursor ∧ x.cursor ≤ x.stop) := by
  intro o marks
  obtain ⟨steps, hsteps⟩ := g.lockstep_insertTemplate hb t onRegion
  have hwithin : marks.Within o.buffer.length := hsteps.within hm
  obtain ⟨w, hw, hid, hfinish⟩ := insertTemplate_ok_cases hb hx
  have ho : o = g.finish (w, none) := hfinish
  have hmarks : marks = w.markPoint.marks := by
    rw [show marks = o.engine.marks b.id from rfl, ho, ← hid, g.marks_finish_ok]
  obtain rfl : ⟨w.origin, w.buffer.point, _⟩ = x := by
    rw [hfinish] at hx
    exact Except.ok.inj hx
  have hstart : w.origin ∈ marks.positions := hmarks ▸ hw.markPoint.origin
  have hstop : w.buffer.point ∈ marks.positions :=
    hmarks ▸ Marks.mem_insertSorted.mpr (.inl rfl)
  have hnext : marks.Next w.origin ((w.markPoint.marks.forward w.origin).getD w.origin) :=
    hmarks ▸ Marks.next_forward ..
  have hlength : w.buffer.point ≤ o.buffer.length := hwithin _ hstop
  refine ⟨hw.point, hlength, hstart, hstop, hnext, ?_, hnext.between hstop⟩
  have hcursor := hnext.le hwithin (Nat.le_trans hw.point hlength)
  rw [ho] at hcursor ⊢
  exact Nat.min_eq_left hcursor

/-- The line of the region is indented while point is at its far end.  The start was behind the
indentation and falls to the start of the line. -/
theorem insertTemplate_shape_indented :
    let g : Engine Empty := { buffers := ⟨[(0, { marks := ⟨[0, 6, 8], by decide⟩ })]⟩ }
    let b : Buffer :=
      { id := 0, text := ['(', '\n', ' ', ' ', ' ', ' ', 'a', 'b'], point := 8, mark := some 6
        indentWidth := 2 }
    let t : Template Empty := ⟨"t", [.text "x", .regionPoint true, .text "y"]⟩
    let o := g.insertTemplate b t true
    let marks := o.engine.marks 0
    (b.InBounds ∧ (g.marks 0).Within b.length ∧ o.result = .ok ⟨2, 8, 7⟩) ∧
      o.buffer.text = ['(', '\n', ' ', ' ', 'x', 'a', 'b', 'y'] ∧
      2 ≤ 8 ∧ 8 ≤ o.buffer.length ∧ 2 ∈ marks.positions ∧ 8 ∈ marks.positions ∧ marks.Next 2 7 ∧
      o.buffer.point = 7 ∧ (2 < 8 → 2 < 7 ∧ 7 ≤ 8) := by
  intro g b t o marks
  have hb : b.InBounds := ⟨by decide, by rintro m ⟨⟩; decide⟩
  have hm : (g.marks 0).Within b.length := by
    unfold Marks.Within
    decide
  have hx : o.result = .ok ⟨2, 8, 7⟩ := by
    have hsome : o.result.toOption = some ⟨2, 8, 7⟩ := by decide
    cases hresult : o.result <;> rw [hresult] at hsome <;> cases hsome
    rfl
  exact ⟨⟨hb, hm, hx⟩, by decide, insertTemplate_shape g hb hm t true hx⟩

end TextTemplate
