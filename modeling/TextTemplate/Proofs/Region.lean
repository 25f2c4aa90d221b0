import TextTemplate.Proofs.Simulation

/-!
# Expansion around a region

An expansion around a region `R` of a text `A ++ R ++ B` that indents nothing leaves
`A ++ x ++ R ++ y ++ B`: what is inserted after an even number of exchanges goes to `x` and the rest
to `y`, in order (`insertTemplate_region`).  Point and the other end of the region are the ends of
`x` and of `y`, and an exchange swaps them; this is the invariant `Wraps`.  It needs `R` not to be
empty: an insertion at the end of `x` must move the end of `y`, and it moves only what is strictly
after it.

Which end of the region point is at when the expansion starts makes no difference, because point
goes to the first one and the mark is not read after that.
-/

namespace TextTemplate

/-- What effects insert after an even number of exchanges, or what they insert after an odd one. -/
def insertedAfter : (even : Bool) → List Effect → List Char
  | _, [] => []
  | even, .insert s :: fs => (if even then s else []) ++ insertedAfter even fs
  | even, .exchange :: fs => insertedAfter (!even) fs
  | even, _ :: fs => insertedAfter even fs

/-- Where a mark is after `x` was inserted in front of a region of `r` characters at `a`, and `y`
behind it. -/
def aroundRegion (a r x y m : Nat) : Nat :=
  if m ≤ a then m else if m ≤ a + r then m + x else m + x + y

/-- Without insertions nothing moves. -/
theorem aroundRegion_zero (a r m : Nat) : aroundRegion a r 0 0 m = m := by
  unfold aroundRegion
  repeat' split
  all_goals rfl

/-- More is inserted in front of the region. -/
theorem adjust_aroundRegion_front (a r x y u m : Nat) :
    (Edit.insert (a + x) u).adjust (aroundRegion a r x y m) = aroundRegion a r (x + u) y m := by
  unfold aroundRegion
  rw [Edit.adjust_insert]
  repeat' split
  all_goals omega

/-- More is inserted behind the region. -/
theorem adjust_aroundRegion_behind (a r x y u m : Nat) :
    (Edit.insert (a + x + r + y) u).adjust (aroundRegion a r x y m) =
      aroundRegion a r x (y + u) m := by
  unfold aroundRegion
  rw [Edit.adjust_insert]
  repeat' split
  all_goals omega

/-! ## The invariant -/

/-- A work in which `x` and `y` have been inserted around a region `R`, where the marks were `old`.
Point is at the end of `x` or at the end of `y`, and the other end of the region is the other one of
these. -/
structure Wraps (A R B x y : List Char) (front : Bool) (old : Marks) (w : Work) : Prop where
  text : w.buffer.text = A ++ x ++ R ++ y ++ B
  point : w.buffer.point =
    if front then A.length + x.length else A.length + x.length + R.length + y.length
  regionEnd : w.regionEnd =
    some (if front then A.length + x.length + R.length + y.length else A.length + x.length)
  origin : w.origin = A.length
  marks : ∀ m ∈ old.positions,
    aroundRegion A.length R.length x.length y.length m ∈ w.marks.positions

namespace Wraps

variable {A R B x y : List Char} {front : Bool} {old : Marks} {w : Work}

/-- An insertion at the end of `x` makes that longer. -/
theorem insert_front (h : Wraps A R B x y true old w) (hR : R ≠ []) (u : List Char) :
    Wraps A R B (x ++ u) y true old (w.insert u) := by
  have hpoint : w.buffer.point = A.length + x.length := h.point
  have hlen : 0 < R.length := List.length_pos_iff.mpr hR
  exact {
    text := by
      have htext : w.buffer.text = (A ++ x) ++ (R ++ y ++ B) := by simp [h.text]
      rw [Work.buffer_insert, Buffer.text_insertText_between htext (by simp [hpoint])]
      simp
    point := by
      rw [Work.buffer_insert, Buffer.point_insertText, hpoint, if_pos rfl, List.length_append,
        Nat.add_assoc]
    regionEnd := by
      rw [Work.regionEnd_insert, h.regionEnd, hpoint, Option.map_some, if_pos rfl,
        if_pos rfl, Edit.adjust_insert, if_pos (by omega), List.length_append]
      congr 1
      omega
    origin := by
      rw [Work.origin_insert, h.origin, hpoint, Edit.adjust_insert, if_neg (by omega)]
    marks := by
      intro m hm
      rw [Work.marks_insert, hpoint, List.length_append, ← adjust_aroundRegion_front]
      exact Marks.mem_mergeRuns.mpr (List.mem_map_of_mem (h.marks m hm)) }

/-- An insertion at the end of `y` makes that longer. -/
theorem insert_behind (h : Wraps A R B x y false old w) (u : List Char) :
    Wraps A R B x (y ++ u) false old (w.insert u) := by
  have hpoint : w.buffer.point = A.length + x.length + R.length + y.length := h.point
  exact {
    text := by
      have htext : w.buffer.text = (A ++ x ++ R ++ y) ++ B := h.text
      rw [Work.buffer_insert,
        Buffer.text_insertText_between htext (by simp [hpoint, Nat.add_assoc])]
      simp
    point := by
      rw [Work.buffer_insert, Buffer.point_insertText, hpoint, if_neg (by simp),
        List.length_append, Nat.add_assoc _ y.length]
    regionEnd := by
      rw [Work.regionEnd_insert, h.regionEnd, hpoint, Option.map_some, if_neg (by simp),
        if_neg (by simp), Edit.adjust_insert, if_neg (by omega)]
    origin := by
      rw [Work.origin_insert, h.origin, hpoint, Edit.adjust_insert, if_neg (by omega)]
    marks := by
      intro m hm
      rw [Work.marks_insert, hpoint, List.length_append, ← adjust_aroundRegion_behind]
      exact Marks.mem_mergeRuns.mpr (List.mem_map_of_mem (h.marks m hm)) }

theorem length_eq (h : Wraps A R B x y front old w) :
    w.buffer.length = A.length + x.length + R.length + y.length + B.length := by
  simp [Buffer.length, h.text, Nat.add_assoc]

/-- An exchange takes point to the other side of the region. -/
theorem exchange (h : Wraps A R B x y front old w) :
    Wraps A R B x y (!front) old w.exchange := by
  have hlen := h.length_eq
  have hpoint := h.point
  simp only [Work.exchange, h.regionEnd]
  cases front
  · exact { h with
      point := Nat.min_eq_left (by simp only [hlen]; simp; omega)
      regionEnd := by simpa using hpoint }
  · exact { h with
      point := Nat.min_eq_left (by simp only [hlen]; simp)
      regionEnd := by simpa using hpoint }

theorem markPoint (h : Wraps A R B x y front old w) : Wraps A R B x y front old w.markPoint :=
  { h with marks := fun m hm => Marks.mem_insertSorted.mpr (.inr (h.marks m hm)) }

/-- Effects without an indentation insert on the side where they find point. -/
theorem performAll (h : Wraps A R B x y front old w) (hR : R ≠ []) {fs : List Effect}
    (hfs : .reindent ∉ fs) :
    ∃ front', Wraps A R B (x ++ insertedAfter front fs) (y ++ insertedAfter (!front) fs) front' old
      (w.performAll fs) := by
  induction fs generalizing x y front w with
  | nil => exact ⟨front, by simpa [insertedAfter] using h⟩
  | cons f fs ih =>
    rw [List.mem_cons, not_or] at hfs
    rw [Work.performAll_cons]
    cases f with
    | insert u =>
      cases front with
      | true => simpa [insertedAfter, Work.perform] using ih (h.insert_front hR u) hfs.2
      | false => simpa [insertedAfter, Work.perform] using ih (h.insert_behind u) hfs.2
    | mark => exact ih h.markPoint hfs.2
    | exchange => exact ih h.exchange hfs.2
    | reindent => exact absurd rfl hfs.1
    | ask prompt =>
      refine ih { h with text := ?_, point := ?_ } hfs.2
      · exact (w.buffer.text_ask prompt).trans h.text
      · exact (w.buffer.point_ask prompt).trans h.point
    | keep name a => exact ih { h with } hfs.2

end Wraps

/-! ## The ends of the region -/

/-- Point and mark of a buffer are at two positions, in either order. -/
def Buffer.EndsAt (b : Buffer) (p q : Nat) : Prop :=
  (b.point = p ∧ b.mark = some q) ∨ (b.point = q ∧ b.mark = some p)

/-- The buffer with point where the mark was, and the mark where point was. -/
def Buffer.swapEnds (b : Buffer) : Buffer :=
  match b.mark with
  | some m => { b with point := m, mark := some b.point }
  | none => b

theorem Buffer.EndsAt.swapEnds {b : Buffer} {p q : Nat} (h : b.EndsAt p q) :
    b.swapEnds.EndsAt p q := by
  rcases h with ⟨hp, hm⟩ | ⟨hp, hm⟩
  · exact .inr (by simp [Buffer.swapEnds, hm, hp])
  · exact .inl (by simp [Buffer.swapEnds, hm, hp])

theorem Buffer.unmark_moveTo_swapEnds (b : Buffer) (p : Nat) :
    (b.swapEnds.moveTo p).unmark = (b.moveTo p).unmark := by
  unfold Buffer.swapEnds
  split <;> rfl

/-- An expansion starts at the first end of the region, whichever of them point is at. -/
theorem Buffer.EndsAt.startOfRegion {b : Buffer} {p q : Nat} (h : b.EndsAt p q) (hpq : p ≤ q) :
    Engine.startOfRegion b true = .ok (b.moveTo p, some q) := by
  rcases h with ⟨hp, hm⟩ | ⟨hp, hm⟩
  · simp [Engine.startOfRegion, Buffer.region, hp, hm, Nat.min_eq_left hpq, Nat.max_eq_right hpq]
  · simp [Engine.startOfRegion, Buffer.region, hp, hm, Nat.min_eq_right hpq, Nat.max_eq_left hpq]

variable {δ : Type}

/-- At the start nothing has been inserted around the region. -/
theorem wraps_startWork (g : Engine δ) {b : Buffer} {A R B : List Char}
    (htext : b.text = A ++ R ++ B) :
    Wraps A R B [] [] true (g.marks b.id)
      (g.startWork (b.moveTo A.length) (some (A.length + R.length))) where
  text := by simpa [Engine.startWork] using htext
  point := by simp [Engine.startWork, Buffer.length, htext]
  regionEnd := rfl
  origin := by simp [Engine.startWork, Buffer.length, htext]
  marks m hm := by
    rw [List.length_nil, aroundRegion_zero]
    exact Marks.mem_insertSorted.mpr (.inr hm)

/-- Finishing a work does not read the mark of its buffer. -/
theorem finish_unmark (g : Engine δ) (w : Work) (err : Option Error) :
    (g.finish (w, err)).engine = (g.finish (w.unmark, err)).engine ∧
      (g.finish (w, err)).buffer.text = (g.finish (w.unmark, err)).buffer.text ∧
      (g.finish (w, err)).result = (g.finish (w.unmark, err)).result := by
  cases err <;> exact ⟨rfl, rfl, rfl⟩

/-! ## The expansion -/

/-- What is left of an engine and a buffer by an expansion that inserts `x` in front of a region `R`
and `y` behind it, and nothing else. -/
structure WrapsRegion (g : Engine δ) (b : Buffer) (A R B x y : List Char)
    (o : Outcome δ Expansion) : Prop where
  text : o.buffer.text = A ++ x ++ R ++ y ++ B
  /-- Marks up to the region stay, those in it follow what is inserted in front of it, and those
  behind it follow everything. -/
  marks : ∀ m ∈ (g.marks b.id).positions,
    aroundRegion A.length R.length x.length y.length m ∈ (o.engine.marks b.id).positions
  start : ∀ e, o.result = .ok e → e.start = A.length

/-- An expansion that has wrapped a region leaves it wrapped when it is finished. -/
theorem Wraps.finish {A R B x y : List Char} {front : Bool} {w : Work} {b : Buffer}
    {g : Engine δ} (h : Wraps A R B x y front (g.marks b.id) w) (hid : w.buffer.id = b.id)
    (err : Option Error) : WrapsRegion g b A R B x y (g.finish (w, err)) := by
  cases err with
  | some e =>
    exact {
      text := h.text
      marks := by
        rw [← hid, g.marks_finish_error, hid]
        exact h.marks
      start := by rintro x ⟨⟩ }
  | none =>
    exact {
      text := h.text
      marks := by
        rw [← hid, g.marks_finish_ok, hid]
        exact h.markPoint.marks
      start := by
        rintro e ⟨⟩
        exact h.origin }

variable [Deferral δ]

/-- An expansion around a region that indents nothing puts what it inserts after an even number of
exchanges in front of the region, and the rest behind it, also when it fails.  Swapping point and
mark beforehand makes no difference. -/
theorem insertTemplate_region (g : Engine δ) (b : Buffer) (t : Template δ) {A R B : List Char}
    (htext : b.text = A ++ R ++ B) (hR : R ≠ [])
    (hends : b.EndsAt A.length (A.length + R.length)) (calm : .reindent ∉ g.effects b t true) :
    let o := g.insertTemplate b t true
    let o' := g.insertTemplate b.swapEnds t true
    WrapsRegion g b A R B (insertedAfter true (g.effects b t true))
        (insertedAfter false (g.effects b t true)) o ∧
      o'.buffer.text = o.buffer.text ∧ o'.engine = o.engine ∧ o'.result = o.result := by
  intro o o'
  have hle : A.length ≤ A.length + R.length := Nat.le_add_right ..
  have hstart := hends.startOfRegion hle
  have hstart' := hends.swapEnds.startOfRegion hle
  constructor
  · obtain ⟨err, hfinish⟩ := g.insertTemplate_eq_finish t hstart
    obtain ⟨front, hwraps⟩ := (wraps_startWork g htext).performAll hR calm
    rw [show o = _ from hfinish]
    exact hwraps.finish (Work.id_performAll ..) err
  · have hunmark := b.unmark_moveTo_swapEnds A.length
    have halike : (g.startWork (b.swapEnds.moveTo A.length) (some (A.length + R.length))).unmark =
        (g.startWork (b.moveTo A.length) (some (A.length + R.length))).unmark := by
      have hid := congrArg (·.id) hunmark
      have hpoint := congrArg (·.point) hunmark
      simp only [Buffer.unmark] at hid hpoint
      simp only [Engine.startWork, Work.unmark, hunmark, hid, hpoint]
    obtain ⟨v, w, err, hvw, ho', ho⟩ := unmark_simulation.insertTemplate g t hstart' hstart halike
    obtain ⟨hengine, htext, hresult⟩ := finish_unmark g v err
    obtain ⟨hengine', htext', hresult'⟩ := finish_unmark g w err
    rw [show o = _ from ho, show o' = _ from ho', hengine, htext, hresult, hengine', htext',
      hresult', hvw]
    exact ⟨rfl, rfl, rfl⟩

/-- Point at the second end, three exchanges, and a failure in the end. -/
theorem insertTemplate_region_failing :
    let g : Engine Empty := { buffers := ⟨[(0, { marks := ⟨[0, 1, 2, 3, 4], by decide⟩ })]⟩ }
    let b : Buffer := { id := 0, text := ['a', 'b', 'c', 'd'], point := 3, mark := some 1 }
    let t : Template Empty :=
      ⟨"t", [.text "<", .regionPoint false, .text ">", .regionPoint false,
        .list [.text "!", .regionPoint false, .newline, .symbol "s", .reindent]]⟩
    let fs := g.effects b t true
    let o := g.insertTemplate b t true
    let o' := g.insertTemplate b.swapEnds t true
    (b.text = ['a'] ++ ['b', 'c'] ++ ['d'] ∧ ['b', 'c'] ≠ [] ∧ b.EndsAt 1 3 ∧ .reindent ∉ fs) ∧
      insertedAfter true fs = ['<', '!'] ∧ insertedAfter false fs = ['>', '\n'] ∧
      WrapsRegion g b ['a'] ['b', 'c'] ['d'] (insertedAfter true fs) (insertedAfter false fs) o ∧
      o'.buffer.text = o.buffer.text ∧ o'.engine = o.engine ∧ o'.result = o.result := by
  intro g b t fs o o'
  have htext : b.text = ['a'] ++ ['b', 'c'] ++ ['d'] := rfl
  have hR : ['b', 'c'] ≠ [] := by decide
  have hends : b.EndsAt 1 3 := .inr ⟨rfl, rfl⟩
  have calm : .reindent ∉ fs := by decide
  exact ⟨⟨htext, hR, hends, calm⟩, by decide, by decide,
    insertTemplate_region g b t htext hR hends calm⟩

end TextTemplate
