import TextTemplate.Proofs.Lockstep
import TextTemplate.Proofs.Session

/-!
# Positions follow their text

An edit moves the positions of a text so that what is in front of a position
(`Edit.Turns.take_adjust`), or what is behind it (`Edit.Turns.drop_adjust`), stays the same.  The edits
that an indentation reports say all that it does to the text (`Buffer.reindentLine_replay`).  So the
positions that the host keeps follow the text (`HostEdit.positions_perform`).
-/

namespace TextTemplate

/-! ## One edit -/

namespace Edit

/-- The text after an edit, where blanks are what is inserted. -/
def replay (s : List Char) : Edit → List Char
  | insert p n => s.take p ++ List.replicate n ' ' ++ s.drop p
  | delete p q => s.take (min p q) ++ s.drop (max p q)

/-- Where an edit starts. -/
def start : Edit → Nat
  | insert p _ => p
  | delete p q => min p q

/-- A position of a text of `n` characters is behind what an edit inserts or removes. -/
def Behind (n m : Nat) : Edit → Prop
  | insert p _ => p < m
  | delete p q => min (max p q) n ≤ m

/-- Deleting what was inserted takes all positions back. -/
theorem adjust_delete_insert (p n m : Nat) :
    (delete p (p + n)).adjust ((insert p n).adjust m) = m := by
  have hle : p ≤ p + n := Nat.le_add_right p n
  rw [adjust_insert, adjust, Nat.min_eq_left hle, Nat.max_eq_right hle]
  by_cases hm : p < m
  · rw [if_pos hm, if_neg (by omega), if_pos (by omega)]
    omega
  · rw [if_neg hm, if_pos (Nat.not_lt.mp hm)]

/-- A position in a deleted range goes to the start of it. -/
theorem adjust_delete_of_inside {p q m : Nat} (hp : min p q < m) (hq : m < max p q) :
    (delete p q).adjust m = min p q := by
  rw [adjust, if_neg (Nat.not_le.mpr hp), if_neg (Nat.not_le.mpr hq)]

variable {e : Edit} {s t : List Char} {m : Nat}

/-- What is behind a position is behind it after an insertion in front of it. -/
theorem drop_inserted {p : Nat} (hp : p ≤ s.length) (hm : p ≤ m) (u : List Char) :
    (s.take p ++ u ++ s.drop p).drop (m + u.length) = s.drop m := by
  obtain ⟨k, rfl⟩ := Nat.exists_eq_add_of_le hm
  have hlength : (s.take p ++ u).length = p + u.length := by
    rw [List.length_append, List.length_take, Nat.min_eq_left hp]
  rw [Nat.add_right_comm, ← hlength, ← List.drop_drop, List.drop_left, List.drop_drop]

/-- What is behind a position is behind it after a deletion in front of it. -/
theorem drop_deleted {p q : Nat} (hp : p ≤ s.length) (hpq : p ≤ q) (hm : q ≤ m) :
    (s.take p ++ s.drop q).drop (m - (q - p)) = s.drop m := by
  obtain ⟨k, rfl⟩ := Nat.exists_eq_add_of_le hm
  have hlength : (s.take p).length = p := by rw [List.length_take, Nat.min_eq_left hp]
  have hsum : q + k - (q - p) = (s.take p).length + k := by omega
  rw [hsum, ← List.drop_drop, List.drop_left, List.drop_drop]

namespace Turns

/-- A position stays in the text. -/
theorem adjust_le (h : e.Turns s t) (hm : m ≤ s.length) : e.adjust m ≤ t.length := by
  cases h with
  | @insert _ p hp u =>
    have hlength : (s.take p ++ u ++ s.drop p).length = s.length + u.length := by
      simp only [List.length_append, List.length_take, List.length_drop]
      omega
    rw [hlength]
    exact adjust_insert_le hm p u.length
  | delete _ p q =>
    rw [List.length_append, List.length_take, List.length_drop, adjust]
    split
    · omega
    · split <;> omega

/-- What is in front of a position stays if the edit starts there or later. -/
theorem take_adjust (h : e.Turns s t) (hm : m ≤ s.length) (hstart : m ≤ e.start) :
    t.take (e.adjust m) = s.take m := by
  have hfront (p : Nat) (hp : m ≤ p) (r : List Char) : (s.take p ++ r).take m = s.take m := by
    have hlength : m ≤ (s.take p).length := by
      rw [List.length_take]
      exact Nat.le_min.mpr ⟨hp, hm⟩
    rw [List.take_append_of_le_length hlength, List.take_take, Nat.min_eq_left hp]
  cases h with
  | @insert _ p hp u =>
    have hle : m ≤ p := hstart
    rw [adjust_insert, if_neg (Nat.not_lt.mpr hle), List.append_assoc, hfront p hle]
  | delete _ p q =>
    have hle : m ≤ min p q := hstart
    rw [adjust, if_pos hle, hfront _ hle]

/-- What is behind a position stays if that is behind the edit. -/
theorem drop_adjust (h : e.Turns s t) (hm : m ≤ s.length) (hbehind : e.Behind s.length m) :
    t.drop (e.adjust m) = s.drop m := by
  cases h with
  | @insert _ p hp u =>
    have hlt : p < m := hbehind
    rw [adjust_insert, if_pos hlt, drop_inserted hp (Nat.le_of_lt hlt)]
  | delete _ p q =>
    have hbehind : min (max p q) s.length ≤ m := hbehind
    rw [adjust]
    split
    · next hle =>
      -- Nothing is removed: the bounds are equal or the text ends before them.
      have hsame : s.take (min p q) ++ s.drop (max p q) = s := by
        rcases Nat.lt_or_ge m (max p q) with hlt | hge
        · rw [List.take_of_length_le (by omega), List.drop_of_length_le (by omega), List.append_nil]
        · rw [show max p q = min p q by omega, List.take_append_drop]
      rw [hsame]
    · next hgt =>
      split
      · next hge => exact drop_deleted (by omega) (by omega) hge
      · next hlt =>
        -- The range goes on beyond the text, and the position is at the end.
        rw [List.drop_of_length_le (l := s) (i := m) (by omega), List.drop_of_length_le]
        simp
        omega

end Turns

end Edit

/-- Positions stay in the text along several edits. -/
theorem EditedBy.adjustAll_le {es : List Edit} {s t : List Char} (h : EditedBy es s t) {m : Nat}
    (hm : m ≤ s.length) : Edit.adjustAll es m ≤ t.length := by
  induction h generalizing m with
  | nil s => exact hm
  | cons he _ ih => exact ih (he.adjust_le hm)

/-! ## Indentation -/

namespace Buffer

theorem text_removeIndent_eq_replay (b : Buffer) (start n : Nat) :
    (b.removeIndent start n).1.text = (b.removeIndent start n).2.foldl Edit.replay b.text := by
  unfold removeIndent
  split
  · rfl
  · have hle : start ≤ start + n := Nat.le_add_right start n
    simp only [List.foldl_cons, List.foldl_nil, Edit.replay, Nat.min_eq_left hle, Nat.max_eq_right hle]
    rfl

theorem text_insertIndent_eq_replay (b : Buffer) (start n : Nat) :
    (b.insertIndent start n).1.text = (b.insertIndent start n).2.foldl Edit.replay b.text := by
  unfold insertIndent
  split <;> rfl

theorem removeIndent_sublist (b : Buffer) (start n : Nat) :
    (b.removeIndent start n).2.Sublist [.delete start (start + n)] := by
  unfold removeIndent
  split
  · exact List.nil_sublist _
  · exact List.Sublist.refl _

theorem insertIndent_sublist (b : Buffer) (start n : Nat) :
    (b.insertIndent start n).2.Sublist [.insert start n] := by
  unfold insertIndent
  split
  · exact List.nil_sublist _
  · exact List.Sublist.refl _

/-- The edits of an indentation are a deletion and then an insertion, or one of them, or none; and
they tell what happened to the text. -/
theorem reindentLine_replay (b : Buffer) :
    b.reindentLine.1.text = b.reindentLine.2.foldl Edit.replay b.text ∧
      b.reindentLine.2.Sublist
        [.delete b.line.start (b.line.start + Text.indentOf b.line.content),
          .insert b.line.start (b.line.wantedIndent b.indentWidth)] := by
  simp only [reindentLine]
  split
  · exact ⟨rfl, List.nil_sublist _⟩
  · refine ⟨?_, (b.removeIndent_sublist _ _).append (insertIndent_sublist _ _ _)⟩
    rw [List.foldl_append, ← text_removeIndent_eq_replay, ← text_insertIndent_eq_replay]

end Buffer

/-! ## Edits of the host -/

namespace Buffer

variable {b : Buffer}

theorem turns_insertText (hpoint : b.point ≤ b.length) (s : List Char) :
    (Edit.insert b.point s.length).Turns b.text (b.insertText s).text := by
  rw [text_insertText]
  exact .insert hpoint s

theorem turns_deleteRange (b : Buffer) (p q : Nat) :
    (Edit.delete p q).Turns b.text (b.deleteRange p q).text := by
  rw [text_deleteRange]
  exact .delete b.text p q

/-- Deleting what was inserted brings the text back. -/
theorem text_deleteRange_insertText (hpoint : b.point ≤ b.length) (s : List Char) :
    ((b.insertText s).deleteRange b.point (b.point + s.length)).text = b.text := by
  have hle : b.point ≤ b.point + s.length := Nat.le_add_right _ _
  have hfront : (b.text.take b.point).length = b.point := by
    rw [List.length_take]
    exact Nat.min_eq_left hpoint
  have hboth : (b.text.take b.point ++ s).length = b.point + s.length := by
    rw [List.length_append, hfront]
  rw [text_deleteRange, text_insertText, Nat.min_eq_left hle, Nat.max_eq_right hle,
    List.drop_left' hboth, List.append_assoc, List.take_left' hfront, List.take_append_drop]

end Buffer

/-- The edits that the host reports are those that the text is changed by. -/
theorem HostEdit.editedBy_perform {b : Buffer} (hpoint : b.point ≤ b.length) (e : HostEdit) :
    EditedBy (e.perform b).2 b.text (e.perform b).1.text := by
  cases e with
  | insert s => exact .single (Buffer.turns_insertText hpoint s)
  | delete p q => exact .single (b.turns_deleteRange p q)
  | reindent => exact b.editedBy_reindentLine

/-- The edits that are reported take positions of the text to positions of the new one.  With an
insertion or a deletion, the text in front of a position up to its start stays, and so does the text
behind a position that is behind it; a position in a deleted range goes to its start.  Deleting what was
inserted brings back the text and all positions.  What is reported of an indentation, a deletion and
then an insertion at most, is what happened to the text. -/
theorem HostEdit.positions_perform {b : Buffer} (hpoint : b.point ≤ b.length) (e : HostEdit) :
    let c := (e.perform b).1
    let es := (e.perform b).2
    (∀ m, m ≤ b.length → Edit.adjustAll es m ≤ c.length) ∧
      match e with
      | insert s =>
        (∀ m, m ≤ b.length → let m' := Edit.adjustAll es m
          (m ≤ b.point → c.text.take m' = b.text.take m) ∧
            (b.point < m → c.text.drop m' = b.text.drop m)) ∧
          let d := ((delete b.point (b.point + s.length)).perform c).1
          let fs := ((delete b.point (b.point + s.length)).perform c).2
          d.text = b.text ∧ ∀ m, Edit.adjustAll (es ++ fs) m = m
      | delete p q =>
        ∀ m, m ≤ b.length → let m' := Edit.adjustAll es m
          (m ≤ min p q → c.text.take m' = b.text.take m) ∧
            (min (max p q) b.length ≤ m → c.text.drop m' = b.text.drop m) ∧
              (min p q < m → m < max p q → m' = min p q)
      | reindent =>
        c.text = es.foldl Edit.replay b.text ∧
          es.Sublist [.delete b.line.start (b.line.start + Text.indentOf b.line.content),
            .insert b.line.start (b.line.wantedIndent b.indentWidth)] := by
  intro c es
  refine ⟨fun m hm => (e.editedBy_perform hpoint).adjustAll_le hm, ?_⟩
  cases e with
  | insert s =>
    have hturns := Buffer.turns_insertText hpoint s
    exact ⟨fun m hm => ⟨fun hstart => hturns.take_adjust hm hstart,
        fun hbehind => hturns.drop_adjust hm hbehind⟩,
      Buffer.text_deleteRange_insertText hpoint s, Edit.adjust_delete_insert b.point s.length⟩
  | delete p q =>
    have hturns := b.turns_deleteRange p q
    exact fun m hm => ⟨fun hstart => hturns.take_adjust hm hstart,
      fun hbehind => hturns.drop_adjust hm hbehind, Edit.adjust_delete_of_inside⟩
  | reindent => exact b.reindentLine_replay

/-- A deletion with its bounds the wrong way round and beyond the text, and a line that is indented
again. -/
theorem positions_perform_beyond :
    let b : Buffer := { id := 0, text := ['(', '\n', '\t', 'x', ')'], point := 3 }
    let c := (HostEdit.delete 9 2 |>.perform b).1
    let d := (HostEdit.reindent.perform b).1
    let es := (HostEdit.reindent.perform b).2
    b.point ≤ b.length ∧ c.text = ['(', '\n'] ∧ Edit.adjustAll [.delete 9 2] 4 = 2 ∧
      es = [.delete 2 3, .insert 2 4] ∧ Edit.adjustAll es 5 = 8 ∧ Edit.adjustAll es 5 ≤ d.length ∧
      d.text = es.foldl Edit.replay b.text := by
  intro b c d es
  have hpoint : b.point ≤ b.length := by decide
  obtain ⟨-, hdelete⟩ := HostEdit.positions_perform hpoint (.delete 9 2)
  obtain ⟨hstays, hreplay, -⟩ := HostEdit.positions_perform hpoint .reindent
  have hedits : es = [.delete 2 3, .insert 2 4] := by decide
  obtain ⟨-, -, hinside⟩ := hdelete 4 (by decide)
  exact ⟨hpoint, by decide, hinside (by decide) (by decide), hedits, by rw [hedits]; decide,
    hstays 5 (by decide), hreplay⟩

end TextTemplate
