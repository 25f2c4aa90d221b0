import TextTemplate.Proofs.Effects

/-!
# Expansion at point

Where there is no region and nothing is indented, an expansion is one insertion at point, whatever
its elements are and whether or not they fail: `insertTemplate_plain`.  The invariant is
`InsertedAt`; each effect keeps it, and an insertion makes the inserted text longer.

Only point can end up elsewhere than one expects.  It goes to the next mark after the start, but not
beyond the text, and a mark lies beyond the text when the host has removed text without a report:
`plain_point_short_of_cursor`.
-/

namespace TextTemplate

/-! ## Adjacent insertions -/

/-- Positions up to an insertion stay, and those after it move by its length. -/
theorem Edit.adjust_insert_eq_ite (p n m : Nat) :
    (Edit.insert p n).adjust m = if m ≤ p then m else m + n := by
  rw [Edit.adjust_insert]
  split <;> split <;> omega

/-- Two insertions, the second one at the end of the first one, move positions like one. -/
theorem Edit.adjust_insert_insert (p k n m : Nat) :
    (Edit.insert (p + k) n).adjust ((Edit.insert p k).adjust m) =
      (Edit.insert p (k + n)).adjust m := by
  simp only [Edit.adjust_insert]
  split <;> split <;> omega

/-- Inserting at the end of what was inserted before makes that longer. -/
theorem Buffer.text_insertText_inserted {b : Buffer} {t s : List Char} {p : Nat}
    (htext : b.text = t.take p ++ s ++ t.drop p) (hpoint : b.point = p + s.length)
    (u : List Char) : (b.insertText u).text = t.take p ++ (s ++ u) ++ t.drop p := by
  have htake : (t.take p ++ s ++ t.drop p).take (p + s.length) = t.take p ++ s := by
    rcases Nat.le_total p t.length with h | h
    · exact List.take_left' (by simp [h])
    · rw [List.drop_of_length_le h, List.append_nil]
      exact List.take_of_length_le (by simp [h])
  have hdrop : (t.take p ++ s ++ t.drop p).drop (p + s.length) = t.drop p := by
    rcases Nat.le_total p t.length with h | h
    · exact List.drop_left' (by simp [h])
    · rw [List.drop_of_length_le h, List.append_nil]
      exact List.drop_of_length_le (by simp [h])
  rw [Buffer.text_insertText, htext, hpoint, htake, hdrop]
  simp

/-- How marks change when `n` characters are inserted at `p`: the old ones up to `p` stay, those
after it follow the insertion, and new ones lie in what was inserted. -/
structure Marks.Insertion (old new : Marks) (p n : Nat) : Prop where
  kept : ∀ m ∈ old.positions, (if m ≤ p then m else m + n) ∈ new.positions
  rest : ∀ q ∈ new.positions,
    (∃ m ∈ old.positions, q = if m ≤ p then m else m + n) ∨ (p ≤ q ∧ q ≤ p + n)

namespace Marks.Insertion

variable {old new : Marks} {p k n : Nat}

theorem nothing (m : Marks) (p : Nat) : m.Insertion m p 0 where
  kept q hq := by simpa using hq
  rest q hq := .inl ⟨q, hq, by simp⟩

theorem add (h : old.Insertion new p n) {q : Nat} (hpq : p ≤ q) (hq : q ≤ p + n) :
    old.Insertion (new.add q) p n where
  kept m hm := mem_insertSorted.mpr (.inr (h.kept m hm))
  rest r hr := by
    rcases mem_insertSorted.mp hr with rfl | hr
    · exact .inr ⟨hpq, hq⟩
    · exact h.rest r hr

/-- An insertion at the end of the first one makes it longer. -/
theorem apply (h : old.Insertion new p k) (n : Nat) :
    old.Insertion (new.apply (.insert (p + k) n)) p (k + n) where
  kept m hm := by
    have hk := h.kept m hm
    rw [← Edit.adjust_insert_eq_ite] at hk ⊢
    rw [← Edit.adjust_insert_insert]
    exact mem_mergeRuns.mpr (List.mem_map_of_mem hk)
  rest q hq := by
    obtain ⟨r, hr, rfl⟩ := List.mem_map.mp (mem_mergeRuns.mp hq)
    rcases h.rest r hr with ⟨m, hm, rfl⟩ | ⟨hpr, hrp⟩
    · refine .inl ⟨m, hm, ?_⟩
      rw [← Edit.adjust_insert_eq_ite, ← Edit.adjust_insert_eq_ite, Edit.adjust_insert_insert]
    · rw [Edit.adjust_insert_eq_ite, if_pos hrp]
      exact .inr ⟨hpr, by omega⟩

/-- If the old marks were in a text of length `l`, the new ones are in the longer text. -/
theorem le (h : old.Insertion new p n) {l : Nat} (hp : p ≤ l) (hold : ∀ m ∈ old.positions, m ≤ l)
    {q : Nat} (hq : q ∈ new.positions) : q ≤ l + n := by
  rcases h.rest q hq with ⟨m, hm, rfl⟩ | ⟨-, hq⟩
  · have := hold m hm
    split <;> omega
  · omega

end Marks.Insertion

/-! ## The invariant -/

/-- What an effect inserts. -/
def Effect.inserted : Effect → List Char
  | .insert s => s
  | _ => []

/-- A work in which `s` has been inserted at the position `p` of a text, where the marks were
`old`. -/
structure InsertedAt (t : List Char) (p : Nat) (old : Marks) (s : List Char) (w : Work) : Prop where
  text : w.buffer.text = t.take p ++ s ++ t.drop p
  point : w.buffer.point = p + s.length
  origin : w.origin = p
  regionEnd : w.regionEnd = none
  marks : old.Insertion w.marks p s.length

namespace InsertedAt

variable {t s : List Char} {p : Nat} {old : Marks} {w : Work}

theorem insert (h : InsertedAt t p old s w) (u : List Char) :
    InsertedAt t p old (s ++ u) (w.insert u) where
  text := by rw [Work.buffer_insert, Buffer.text_insertText_inserted h.text h.point]
  point := by
    rw [Work.buffer_insert, Buffer.point_insertText, h.point, List.length_append, Nat.add_assoc]
  origin := by
    rw [Work.origin_insert, h.origin, h.point, Edit.adjust_insert_eq_ite,
      if_pos (Nat.le_add_right ..)]
  regionEnd := by rw [Work.regionEnd_insert, h.regionEnd, Option.map_none]
  marks := by
    rw [Work.marks_insert, h.point, List.length_append]
    exact h.marks.apply u.length

theorem markPoint (h : InsertedAt t p old s w) : InsertedAt t p old s w.markPoint :=
  { h with marks := h.marks.add (h.point ▸ Nat.le_add_right ..) (Nat.le_of_eq h.point) }

theorem ask (h : InsertedAt t p old s w) (prompt : String) :
    InsertedAt t p old s { w with buffer := (w.buffer.ask prompt).1 } :=
  { h with
    text := (w.buffer.text_ask prompt).trans h.text
    point := (w.buffer.point_ask prompt).trans h.point }

/-- Going to the other end of the region does nothing where there is no region. -/
theorem exchange_eq (h : InsertedAt t p old s w) : w.exchange = w := by
  simp only [Work.exchange, h.regionEnd]

theorem length_eq (h : InsertedAt t p old s w) : w.buffer.length = t.length + s.length := by
  rw [Buffer.length, h.text, List.length_append, List.length_append, List.length_take,
    List.length_drop]
  omega

/-- Every effect but an indentation keeps the invariant. -/
theorem perform (h : InsertedAt t p old s w) {f : Effect} (hf : f ≠ .reindent) :
    InsertedAt t p old (s ++ f.inserted) (w.perform f) := by
  cases f with
  | insert u => exact h.insert u
  | mark => simpa only [Effect.inserted, List.append_nil, Work.perform] using h.markPoint
  | exchange => simpa only [Effect.inserted, List.append_nil, Work.perform, h.exchange_eq] using h
  | reindent => exact absurd rfl hf
  | ask prompt => simpa only [Effect.inserted, List.append_nil, Work.perform] using h.ask prompt
  | keep name a =>
    have hkeep : InsertedAt t p old s (w.perform (.keep name a)) := { h with }
    simpa only [Effect.inserted, List.append_nil] using hkeep

/-- Effects without an indentation keep the invariant. -/
theorem performAll (h : InsertedAt t p old s w) {fs : List Effect} (hfs : .reindent ∉ fs) :
    InsertedAt t p old (s ++ fs.flatMap Effect.inserted) (w.performAll fs) := by
  induction fs generalizing s w with
  | nil => simpa using h
  | cons f fs ih =>
    rw [List.mem_cons, not_or] at hfs
    rw [List.flatMap_cons, ← List.append_assoc]
    exact ih (h.perform (Ne.symm hfs.1)) hfs.2

end InsertedAt

variable {δ : Type}

/-- At the start of an expansion nothing has been inserted yet. -/
theorem insertedAt_startWork (g : Engine δ) (b : Buffer) :
    InsertedAt b.text b.point (g.marks b.id) [] (g.startWork b none) where
  text := by simp [Engine.startWork]
  point := rfl
  origin := rfl
  regionEnd := rfl
  marks := (Marks.Insertion.nothing ..).add (Nat.le_refl _) (Nat.le_refl _)

/-! ## The expansion -/

/-- What is left of an engine and a buffer by an expansion that inserts `s` at point, and nothing
else. -/
structure InsertsAtPoint (g : Engine δ) (b : Buffer) (s : List Char)
    (o : Outcome δ Expansion) : Prop where
  text : o.buffer.text = b.text.take b.point ++ s ++ b.text.drop b.point
  marks : (g.marks b.id).Insertion (o.engine.marks b.id) b.point s.length
  start_stop : ∀ x, o.result = .ok x → x.start = b.point ∧ x.stop = b.point + s.length
  cursor : ∀ x, o.result = .ok x → (o.engine.marks b.id).Next b.point x.cursor
  /-- Point goes to the cursor, but not beyond the text. -/
  point : ∀ x, o.result = .ok x → o.buffer.point = min x.cursor o.buffer.length
  /-- The cursor is in the text if point and the marks were. -/
  point_eq : b.point ≤ b.length → (∀ m ∈ (g.marks b.id).positions, m ≤ b.length) →
    ∀ x, o.result = .ok x → o.buffer.point = x.cursor

/-- An expansion that has inserted `s` leaves it inserted when it is finished. -/
theorem InsertedAt.finish {g : Engine δ} {b : Buffer} {s : List Char} {w : Work}
    (h : InsertedAt b.text b.point (g.marks b.id) s w) (hid : w.buffer.id = b.id)
    (err : Option Error) : InsertsAtPoint g b s (g.finish (w, err)) := by
  cases err with
  | some e =>
    exact {
      text := h.text
      marks := by
        rw [← hid, g.marks_finish_error, hid]
        exact h.marks
      start_stop := by rintro x ⟨⟩
      cursor := by rintro x ⟨⟩
      point := by rintro x ⟨⟩
      point_eq := by rintro - - x ⟨⟩ }
  | none =>
    let v := w.markPoint
    have hmarks : (g.finish (w, none)).engine.marks b.id = v.marks := hid ▸ g.marks_finish_ok w
    have hnext : v.marks.Next b.point ((v.marks.forward w.origin).getD w.origin) := by
      rw [h.origin]
      exact Marks.next_forward ..
    exact {
      text := h.text
      marks := hmarks.symm ▸ h.markPoint.marks
      start_stop := by
        rintro x ⟨⟩
        exact ⟨h.origin, h.point⟩
      cursor := by
        rintro x ⟨⟩
        exact hmarks.symm ▸ hnext
      point := by
        rintro x ⟨⟩
        rfl
      point_eq := by
        rintro hp hold x ⟨⟩
        refine Nat.min_eq_left (h.length_eq ▸ ?_)
        rcases hnext with ⟨hc, -, -⟩ | ⟨hc, -⟩
        · exact h.markPoint.marks.le hp hold hc
        · exact hc ▸ Nat.le_add_right_of_le hp }

variable [Deferral δ]

/-- An expansion at point that indents nothing is one insertion at point, also when it fails. -/
theorem insertTemplate_plain (g : Engine δ) (b : Buffer) (t : Template δ)
    (calm : .reindent ∉ g.effects b t false) :
    ∃ s, InsertsAtPoint g b s (g.insertTemplate b t false) := by
  have hstart : Engine.startOfRegion b false = .ok (b, none) := rfl
  obtain ⟨err, hfinish⟩ := g.insertTemplate_eq_finish t hstart
  have hs := (insertedAt_startWork g b).performAll calm
  rw [List.nil_append] at hs
  rw [hfinish]
  exact ⟨_, hs.finish (Work.id_performAll ..) err⟩

/-- A failure in the middle of a list keeps what was inserted before it in place. -/
theorem insertTemplate_plain_failing :
    let g : Engine Empty := { buffers := ⟨[(0, { marks := ⟨[0, 1, 2], by decide⟩ })]⟩ }
    let b : Buffer := { id := 0, text := ['a', 'b'], point := 1 }
    let t : Template Empty :=
      ⟨"t", [.text "x", .regionPoint true, .list [.newline, .symbol "s", .text "z"]]⟩
    .reindent ∉ g.effects b t false ∧ ∃ s, InsertsAtPoint g b s (g.insertTemplate b t false) := by
  intro g b t
  have calm : .reindent ∉ g.effects b t false := by decide
  exact ⟨calm, insertTemplate_plain g b t calm⟩

/-- A mark that lies beyond the text, because the text was removed without a report, is the cursor
of an expansion that inserts nothing, and point does not go there. -/
theorem plain_point_short_of_cursor :
    let t : Template Empty := ⟨"t", []⟩
    let b : Buffer := { id := 0, text := ['h', 'i'], point := 2 }
    let o := ({} : Engine Empty).insertTemplate b t false
    let c := o.buffer.deleteRange 0 2
    let o' := o.engine.insertTemplate c t false
    .reindent ∉ o.engine.effects c t false ∧ c.point = 0 ∧ o'.result.toOption = some ⟨0, 0, 2⟩ ∧
      (o'.engine.marks 0).positions = [0, 2] ∧ o'.buffer.point = 0 := by
  decide

end TextTemplate
