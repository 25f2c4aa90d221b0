import TextTemplate.Buffer.Indent
import TextTemplate.Marks

/-!
# Marks follow their text

The marks that an engine keeps for a buffer are apart from its text, and so the engine has to move
them whenever it edits the text.  `Tracked b m es c n` says that it did: the buffer `b` became `c`
by the edits `es`, and its marks `m` moved with these edits to marks in `n`; what else is in `n`
lies in the new text.  `Buffer.Follows` is the part of this that is about the buffer alone, where the
point and the mark have to stay in the text.

Each edit of a buffer follows the edits that are reported for it, a deletion also when its bounds
are reported as they are given, in any order and beyond the text.  What else happens to a buffer and
its marks is put together from these edits.
-/

namespace TextTemplate

/-! ## Several edits -/

namespace Edit

/-- Where some edits in order take a position. -/
def adjustAll (es : List Edit) (p : Nat) : Nat := es.foldl (fun p e => e.adjust p) p

@[simp] theorem adjustAll_nil (p : Nat) : adjustAll [] p = p := rfl

@[simp] theorem adjustAll_cons (e : Edit) (es : List Edit) (p : Nat) :
    adjustAll (e :: es) p = adjustAll es (e.adjust p) := rfl

@[simp] theorem adjustAll_append (es fs : List Edit) (p : Nat) :
    adjustAll (es ++ fs) p = adjustAll fs (adjustAll es p) := List.foldl_append

/-- In a text of `n` characters a deletion may as well stop at the end. -/
theorem adjust_delete_clamp {m n : Nat} (h : m ≤ n) (p q : Nat) :
    (delete (min p q) (min (max p q) n)).adjust m = (delete p q).adjust m := by
  simp only [adjust]
  grind

/-- An insertion into a text of `n` characters leaves its positions in the longer text. -/
theorem adjust_insert_le {m n : Nat} (h : m ≤ n) (p k : Nat) :
    (insert p k).adjust m ≤ n + k := by
  rw [adjust_insert]
  split <;> omega

/-- A deletion from a text of `n` characters leaves its positions in the shorter text. -/
theorem adjust_delete_le {m n p q : Nat} (h : m ≤ n) (hpq : p ≤ q) (hq : q ≤ n) :
    (delete p q).adjust m ≤ n - (q - p) := by
  simp only [adjust, Nat.min_eq_left hpq, Nat.max_eq_right hpq]
  split
  · omega
  · split <;> omega

end Edit

namespace Marks

/-- The marks after some edits in order. -/
def applyAll (es : List Edit) (m : Marks) : Marks := es.foldl (fun m e => m.apply e) m

@[simp] theorem applyAll_nil (m : Marks) : m.applyAll [] = m := rfl

@[simp] theorem applyAll_cons (e : Edit) (es : List Edit) (m : Marks) :
    m.applyAll (e :: es) = (m.apply e).applyAll es := rfl

/-- The marks after some edits are where the edits take the marks before. -/
theorem mem_applyAll {es : List Edit} {m : Marks} {q : Nat} :
    q ∈ (m.applyAll es).positions ↔ ∃ p ∈ m.positions, Edit.adjustAll es p = q := by
  induction es generalizing m with
  | nil => simp
  | cons e es ih =>
    rw [applyAll_cons, ih]
    simp only [positions_apply, mem_mergeRuns, List.mem_map, Edit.adjustAll_cons]
    constructor
    · rintro ⟨_, ⟨p, hp, rfl⟩, hq⟩
      exact ⟨p, hp, hq⟩
    · rintro ⟨p, hp, hq⟩
      exact ⟨_, ⟨p, hp, rfl⟩, hq⟩

/-- All marks are positions of a text of `n` characters. -/
def Within (m : Marks) (n : Nat) : Prop := ∀ p ∈ m.positions, p ≤ n

theorem within_empty (n : Nat) : Within {} n := List.forall_mem_nil _

end Marks

/-! ## Buffers -/

namespace Buffer

/-- Point and mark are positions of the text. -/
structure InBounds (b : Buffer) : Prop where
  point : b.point ≤ b.length
  mark : ∀ m, b.mark = some m → m ≤ b.length

/-- One buffer becomes another one by edits that the mark follows and that leave positions in the
text. -/
structure Follows (b : Buffer) (es : List Edit) (c : Buffer) : Prop where
  id : c.id = b.id
  mark : c.mark = b.mark.map (Edit.adjustAll es)
  point : c.point ≤ c.length
  positions : ∀ p, p ≤ b.length → Edit.adjustAll es p ≤ c.length

namespace Follows

variable {b c d : Buffer} {es fs : List Edit}

/-- Nothing happens to the text and the mark. -/
theorem nothing (hid : c.id = b.id) (htext : c.text = b.text) (hmark : c.mark = b.mark)
    (hpoint : c.point ≤ b.length) : b.Follows [] c where
  id := hid
  mark := by
    rw [hmark]
    exact (Option.map_id_apply ..).symm
  point := by rwa [length, htext]
  positions p hp := by rwa [length, htext]

theorem refl (h : b.InBounds) : b.Follows [] b := nothing rfl rfl rfl h.point

theorem trans (h : b.Follows es c) (h' : c.Follows fs d) : b.Follows (es ++ fs) d where
  id := h'.id.trans h.id
  mark := by
    rw [h'.mark, h.mark, Option.map_map]
    congr 1
    funext p
    exact (Edit.adjustAll_append es fs p).symm
  point := h'.point
  positions p hp := by
    rw [Edit.adjustAll_append]
    exact h'.positions _ (h.positions p hp)

theorem inBounds (h : b.Follows es c) (hb : b.InBounds) : c.InBounds where
  point := h.point
  mark m hm := by
    rw [h.mark, Option.map_eq_some_iff] at hm
    obtain ⟨p, hp, rfl⟩ := hm
    exact h.positions p (hb.mark p hp)

/-- Point may be anywhere in the text in the end. -/
theorem withPoint (h : b.Follows es c) {p : Nat} (hp : p ≤ c.length) :
    b.Follows es { c with point := p } :=
  { h with point := hp }

/-- It makes no difference whether the buffer dings in the end. -/
theorem unlessQuiet (h : b.Follows es c) (quiet : Bool) :
    b.Follows es (if quiet then c else c.ding) := by
  cases quiet
  · exact { h with }
  · exact h

/-- Edits that take all positions of the text to the same places are reported alike. -/
theorem congr (h : b.Follows es c) (hb : b.InBounds)
    (heq : ∀ p, p ≤ b.length → Edit.adjustAll es p = Edit.adjustAll fs p) : b.Follows fs c :=
  { h with
    mark := by
      rw [h.mark]
      cases hm : b.mark with
      | none => rfl
      | some m => rw [Option.map_some, Option.map_some, heq m (hb.mark m hm)]
    positions := fun p hp => heq p hp ▸ h.positions p hp }

end Follows

variable {b : Buffer}

/-- An edit that leaves all positions in the new text. -/
theorem follows_follow (hb : b.InBounds) {e : Edit} {s : List Char}
    (h : ∀ p, p ≤ b.length → e.adjust p ≤ s.length) : b.Follows [e] (b.follow e s) where
  id := rfl
  mark := rfl
  point := h b.point hb.point
  positions := h

theorem length_insertAt (b : Buffer) (p : Nat) (s : List Char) :
    (b.insertAt p s).length = b.length + s.length := by
  simp only [length, insertAt, text_follow, List.length_append, List.length_take, List.length_drop]
  omega

theorem length_removeBetween (b : Buffer) {p q : Nat} (hpq : p ≤ q) (hq : q ≤ b.length) :
    (b.removeBetween p q).length = b.length - (q - p) := by
  simp only [length] at hq ⊢
  simp only [removeBetween, text_follow, List.length_append, List.length_take, List.length_drop]
  omega

theorem follows_insertAt (hb : b.InBounds) (p : Nat) (s : List Char) :
    b.Follows [.insert p s.length] (b.insertAt p s) :=
  follows_follow hb fun m hm => by
    have hlength := b.length_insertAt p s
    simp only [length, insertAt, text_follow] at hlength
    rw [hlength]
    exact Edit.adjust_insert_le hm p s.length

theorem follows_removeBetween (hb : b.InBounds) {p q : Nat} (hpq : p ≤ q) (hq : q ≤ b.length) :
    b.Follows [.delete p q] (b.removeBetween p q) :=
  follows_follow hb fun m hm => by
    have hlength := b.length_removeBetween hpq hq
    simp only [length, removeBetween, text_follow] at hlength
    rw [hlength]
    exact Edit.adjust_delete_le hm hpq hq

/-- An insertion at point is reported with the point before it. -/
theorem follows_insertText (hb : b.InBounds) (s : List Char) :
    b.Follows [.insert b.point s.length] (b.insertText s) := by
  unfold insertText
  split
  · next hs =>
    refine (Follows.refl hb).congr hb fun p _ => ?_
    rw [hs, List.length_nil, Edit.adjustAll_cons, Edit.adjust_insert_zero]
  · refine (follows_insertAt hb b.point s).withPoint ?_
    rw [length_insertAt]
    exact Nat.add_le_add_right hb.point _

/-- A deletion is reported with its bounds as they are given. -/
theorem follows_deleteRange (hb : b.InBounds) (p q : Nat) :
    b.Follows [.delete p q] (b.deleteRange p q) := by
  have hclamp (m : Nat) (hm : m ≤ b.length) :
      Edit.adjustAll [.delete (min p q) (min (max p q) b.length)] m =
        Edit.adjustAll [.delete p q] m :=
    Edit.adjust_delete_clamp hm p q
  unfold deleteRange
  dsimp only
  split
  · next hle =>
    -- Nothing is removed: the bounds are equal or the text ends before them.
    refine (Follows.refl hb).congr hb fun m hm => ?_
    rw [← hclamp m hm, Edit.adjustAll_nil, Edit.adjustAll_cons, Edit.adjustAll_nil]
    simp only [Edit.adjust]
    grind
  · next hlt =>
    exact (follows_removeBetween hb (Nat.le_of_not_le hlt) (Nat.min_le_right ..)).congr hb hclamp

theorem length_removeIndent {start n : Nat} (h : start + n ≤ b.length) :
    (b.removeIndent start n).1.length = b.length - n := by
  unfold removeIndent
  split
  · next hn => rw [hn, Nat.sub_zero]
  · rw [length_removeBetween b (Nat.le_add_right start n) h, Nat.add_sub_cancel_left]

theorem length_insertIndent (b : Buffer) (start n : Nat) :
    (b.insertIndent start n).1.length = b.length + n := by
  unfold insertIndent
  split
  · next hn => rw [hn, Nat.add_zero]
  · rw [length_insertAt, List.length_replicate]

theorem follows_removeIndent (hb : b.InBounds) {start n : Nat} (h : start + n ≤ b.length) :
    b.Follows (b.removeIndent start n).2 (b.removeIndent start n).1 := by
  unfold removeIndent
  split
  · exact .refl hb
  · exact follows_removeBetween hb (Nat.le_add_right start n) h

theorem follows_insertIndent (hb : b.InBounds) (start n : Nat) :
    b.Follows (b.insertIndent start n).2 (b.insertIndent start n).1 := by
  unfold insertIndent
  split
  · exact .refl hb
  · have h := follows_insertAt hb start (List.replicate n ' ')
    rwa [List.length_replicate] at h

/-- The indentation of the line of point is in the text. -/
theorem line_start_add_indentOf_le (b : Buffer) :
    b.line.start + Text.indentOf b.line.content ≤ b.length := by
  have hindent := Text.indentOf_le b.line.content
  have hcontent := Text.length_lineContent_le b.line.line
  have hline : b.line.start + b.line.line.length ≤ b.length := Text.lineOf_le b.text b.point
  simp only [Text.Line.content] at hindent ⊢
  omega

/-- An indentation is reported as a deletion, an insertion or both. -/
theorem follows_reindentLine (hb : b.InBounds) : b.Follows b.reindentLine.2 b.reindentLine.1 := by
  have hline := b.line_start_add_indentOf_le
  simp only [reindentLine]
  split
  · exact .refl hb
  · have hcut := follows_removeIndent hb hline
    have hgrown := follows_insertIndent (hcut.inBounds hb) b.line.start
      (b.line.wantedIndent b.indentWidth)
    refine (hcut.trans hgrown).withPoint ?_
    split
    · rw [length_insertIndent, length_removeIndent hline]
      omega
    · exact hgrown.point

theorem follows_ask (hb : b.InBounds) (prompt : String) : b.Follows [] (b.ask prompt).1 :=
  .nothing (b.id_ask prompt) (b.text_ask prompt) (b.mark_ask prompt)
    ((b.point_ask prompt).symm ▸ hb.point)

end Buffer

/-! ## Buffers and their marks -/

/-- A buffer becomes another one by some edits, and its marks move with these edits.  Marks that are
new are positions of the new text. -/
structure Tracked (b : Buffer) (m : Marks) (es : List Edit) (c : Buffer) (n : Marks) : Prop where
  follows : b.Follows es c
  kept : ∀ p ∈ m.positions, Edit.adjustAll es p ∈ n.positions
  rest : ∀ q ∈ n.positions, (∃ p ∈ m.positions, Edit.adjustAll es p = q) ∨ q ≤ c.length

/-- What follows some edits is tracked by them. -/
theorem Buffer.Follows.tracked {b c : Buffer} {es : List Edit} (h : b.Follows es c) (m : Marks) :
    Tracked b m es c (m.applyAll es) where
  follows := h
  kept p hp := Marks.mem_applyAll.mpr ⟨p, hp, rfl⟩
  rest _ hq := .inl (Marks.mem_applyAll.mp hq)

namespace Tracked

variable {b c d : Buffer} {m n k : Marks} {es fs : List Edit}

theorem trans (h : Tracked b m es c n) (h' : Tracked c n fs d k) : Tracked b m (es ++ fs) d k where
  follows := h.follows.trans h'.follows
  kept p hp := by
    rw [Edit.adjustAll_append]
    exact h'.kept _ (h.kept p hp)
  rest q hq := by
    rcases h'.rest q hq with ⟨r, hr, rfl⟩ | hq
    · rcases h.rest r hr with ⟨p, hp, rfl⟩ | hr
      · exact .inl ⟨p, hp, Edit.adjustAll_append es fs p⟩
      · exact .inr (h'.follows.positions r hr)
    · exact .inr hq

theorem add (h : Tracked b m es c n) {p : Nat} (hp : p ≤ c.length) :
    Tracked b m es c (n.add p) where
  follows := h.follows
  kept q hq := Marks.mem_insertSorted.mpr (.inr (h.kept q hq))
  rest q hq := by
    rcases Marks.mem_insertSorted.mp hq with rfl | hq
    · exact .inr hp
    · exact h.rest q hq

/-- Point may go anywhere in the end. -/
theorem moveTo (h : Tracked b m es c n) (p : Nat) : Tracked b m es (c.moveTo p) n where
  follows := h.follows.withPoint (Nat.min_le_right ..)
  kept := h.kept
  rest := h.rest

theorem inBounds (h : Tracked b m es c n) (hb : b.InBounds) : c.InBounds := h.follows.inBounds hb

/-- Marks that were in the text are in the text. -/
theorem within (h : Tracked b m es c n) (hm : m.Within b.length) : n.Within c.length := by
  intro q hq
  rcases h.rest q hq with ⟨p, hp, rfl⟩ | hq
  · exact h.follows.positions p (hm p hp)
  · exact hq

end Tracked

end TextTemplate
