import TextTemplate.Edit
import TextTemplate.Text.Blank
import TextTemplate.Text.LineBreak

/-!
# Buffers

A text that is edited at point, with a mark that opens a region. Point and mark follow every edit.
A buffer answers prompts from a queue first and then by asking a prompter. Positions count
characters.
-/

namespace TextTemplate

/-- The number that tells buffers apart. -/
abbrev BufferId := Nat

/-- Answers a prompt, given the prompts that it was asked before; no answer cancels the prompt. -/
abbrev Prompter := List String → String → Option String

/-- A text with point and mark. -/
structure Buffer where
  id : BufferId
  text : List Char := []
  point : Nat := 0
  mark : Option Nat := none
  /-- How many blanks one level of indentation has. -/
  indentWidth : Nat := 4
  /-- Answers for the next prompts. -/
  answers : List String := []
  prompter : Option Prompter := none
  /-- The prompts that the prompter was asked, oldest first. -/
  asked : List String := []
  /-- All prompts, oldest first. -/
  prompts : List String := []
  /-- How often completion has signalled that it got nowhere. -/
  dings : Nat := 0

namespace Buffer

/-- How many characters the text has. -/
def length (b : Buffer) : Nat := b.text.length

/-- Moves point, at most to the end of the text. -/
def moveTo (b : Buffer) (p : Nat) : Buffer := { b with point := min p b.length }

/-- Sets the mark, at most at the end of the text, or clears it. -/
def setMark (b : Buffer) (p : Option Nat) : Buffer := { b with mark := p.map (min · b.length) }

/-- Point and mark, if there is a mark. -/
def region (b : Buffer) : Option (Nat × Nat) := b.mark.map fun m => (b.point, m)

/-- The text between two positions, both at most the end of the text. -/
def slice (b : Buffer) (start stop : Nat) : List Char := (b.text.take stop).drop start

/-! ## Edits -/

/-- Puts a new text in place, and point and mark where an edit takes them. -/
def follow (b : Buffer) (e : Edit) (text : List Char) : Buffer :=
  { b with text, point := e.adjust b.point, mark := b.mark.map e.adjust }

/-- Inserts characters at a position. -/
def insertAt (b : Buffer) (p : Nat) (s : List Char) : Buffer :=
  b.follow (.insert p s.length) (b.text.take p ++ s ++ b.text.drop p)

/-- Removes the characters between two positions in order. -/
def removeBetween (b : Buffer) (start stop : Nat) : Buffer :=
  b.follow (.delete start stop) (b.text.take start ++ b.text.drop stop)

/-- Inserts characters at point and moves point behind them. -/
def insertText (b : Buffer) (s : List Char) : Buffer :=
  if s = [] then b else { b.insertAt b.point s with point := b.point + s.length }

/-- Removes the characters between two positions, in either order and at most to the end. -/
def deleteRange (b : Buffer) (p q : Nat) : Buffer :=
  let start := min p q
  let stop := min (max p q) b.length
  if stop ≤ start then b else b.removeBetween start stop

/-! ## Lines -/

/-- The line of point. -/
def line (b : Buffer) : Text.Line := Text.lineOf b.text b.point

/-- Where the line of point starts, and where its content stops. -/
def lineBounds (b : Buffer) : Nat × Nat := (b.line.start, b.line.stop)

/-- How many lines the text has. -/
def lineCount (b : Buffer) : Nat := (Text.lines b.text).length

/-- The content of a line. -/
def lineAt? (b : Buffer) (i : Nat) : Option (List Char) := (Text.lines b.text)[i]?.map Text.lineContent

/-! ## Prompts -/

/-- Asks for an answer: the queue has it, or the prompter is asked. -/
def ask (b : Buffer) (prompt : String) : Buffer × Option String :=
  let b := { b with prompts := b.prompts ++ [prompt] }
  match b.answers, b.prompter with
  | a :: as, _ => ({ b with answers := as }, some a)
  | [], some f => ({ b with asked := b.asked ++ [prompt] }, f b.asked prompt)
  | [], none => (b, none)

/-- Signals that completion got nowhere. -/
def ding (b : Buffer) : Buffer := { b with dings := b.dings + 1 }

/-! ## Views -/

@[simp] theorem text_follow (b : Buffer) (e : Edit) (s : List Char) : (b.follow e s).text = s := rfl
@[simp] theorem point_follow (b : Buffer) (e : Edit) (s : List Char) :
    (b.follow e s).point = e.adjust b.point := rfl
@[simp] theorem mark_follow (b : Buffer) (e : Edit) (s : List Char) :
    (b.follow e s).mark = b.mark.map e.adjust := rfl
@[simp] theorem text_moveTo (b : Buffer) (p : Nat) : (b.moveTo p).text = b.text := rfl
@[simp] theorem point_moveTo (b : Buffer) (p : Nat) : (b.moveTo p).point = min p b.length := rfl
@[simp] theorem text_setMark (b : Buffer) (p : Option Nat) : (b.setMark p).text = b.text := rfl
@[simp] theorem insertText_nil (b : Buffer) : b.insertText [] = b := rfl
@[simp] theorem id_follow (b : Buffer) (e : Edit) (s : List Char) : (b.follow e s).id = b.id := rfl
@[simp] theorem id_moveTo (b : Buffer) (p : Nat) : (b.moveTo p).id = b.id := rfl
@[simp] theorem id_setMark (b : Buffer) (p : Option Nat) : (b.setMark p).id = b.id := rfl
@[simp] theorem id_ding (b : Buffer) : b.ding.id = b.id := rfl

@[simp] theorem dings_ding (b : Buffer) : b.ding.dings = b.dings + 1 := rfl
@[simp] theorem dings_moveTo (b : Buffer) (p : Nat) : (b.moveTo p).dings = b.dings := rfl

@[simp] theorem id_insertText (b : Buffer) (s : List Char) : (b.insertText s).id = b.id := by
  unfold insertText
  split <;> rfl

@[simp] theorem id_deleteRange (b : Buffer) (p q : Nat) : (b.deleteRange p q).id = b.id := by
  unfold deleteRange
  dsimp only
  split <;> rfl

@[simp] theorem dings_insertText (b : Buffer) (s : List Char) :
    (b.insertText s).dings = b.dings := by
  unfold insertText
  split <;> rfl

@[simp] theorem dings_deleteRange (b : Buffer) (p q : Nat) : (b.deleteRange p q).dings = b.dings := by
  unfold deleteRange
  dsimp only
  split <;> rfl

@[simp] theorem dings_ask (b : Buffer) (prompt : String) : (b.ask prompt).1.dings = b.dings := by
  unfold ask
  dsimp only
  split <;> rfl

/-- Asking a prompt changes nothing that shows in the text. -/
theorem ask_fst_view (b : Buffer) (prompt : String) :
    (b.ask prompt).1.id = b.id ∧ (b.ask prompt).1.text = b.text ∧
      (b.ask prompt).1.point = b.point ∧ (b.ask prompt).1.mark = b.mark := by
  unfold ask
  dsimp only
  split <;> exact ⟨rfl, rfl, rfl, rfl⟩

@[simp] theorem id_ask (b : Buffer) (prompt : String) : (b.ask prompt).1.id = b.id :=
  (b.ask_fst_view prompt).1

@[simp] theorem text_ask (b : Buffer) (prompt : String) : (b.ask prompt).1.text = b.text :=
  (b.ask_fst_view prompt).2.1

@[simp] theorem point_ask (b : Buffer) (prompt : String) : (b.ask prompt).1.point = b.point :=
  (b.ask_fst_view prompt).2.2.1

@[simp] theorem mark_ask (b : Buffer) (prompt : String) : (b.ask prompt).1.mark = b.mark :=
  (b.ask_fst_view prompt).2.2.2

/-- Inserting splits the text at point. -/
theorem text_insertText (b : Buffer) (s : List Char) :
    (b.insertText s).text = b.text.take b.point ++ s ++ b.text.drop b.point := by
  unfold insertText
  split <;> simp_all [insertAt]

/-- Inserting at the end of a part of the text. -/
theorem text_insertText_between {b : Buffer} {s t : List Char} (htext : b.text = s ++ t)
    (hpoint : b.point = s.length) (u : List Char) : (b.insertText u).text = s ++ u ++ t := by
  rw [text_insertText, htext, hpoint, List.take_left, List.drop_left]

/-- Point goes behind what is inserted. -/
theorem point_insertText (b : Buffer) (s : List Char) :
    (b.insertText s).point = b.point + s.length := by
  unfold insertText
  split <;> simp_all

/-- Removing takes out what is between the bounds. -/
theorem text_deleteRange (b : Buffer) (p q : Nat) :
    (b.deleteRange p q).text = b.text.take (min p q) ++ b.text.drop (max p q) := by
  have hstop : b.text.drop (min (max p q) b.length) = b.text.drop (max p q) := by
    rcases Nat.le_total (max p q) b.length with h | h
    · rw [Nat.min_eq_left h]
    · rw [Nat.min_eq_right h, List.drop_of_length_le h]
      exact List.drop_of_length_le (Nat.le_refl _)
  unfold deleteRange
  dsimp only
  split
  · next hle =>
    rcases Nat.le_total (max p q) b.length with h | h
    · have heq : min p q = max p q := by omega
      rw [heq, List.take_append_drop]
    · have hstart : b.length ≤ min p q := by omega
      rw [List.drop_of_length_le h, List.take_of_length_le hstart, List.append_nil]
  · rw [removeBetween, text_follow, hstop]

end Buffer

end TextTemplate
