import TextTemplate.Buffer

/-!
# Indentation

A line is indented like the nearest line above that is not blank: one level deeper if that line
ends in an opening bracket, and one level less deep if the line itself starts with a closing one.
-/

namespace TextTemplate

namespace Text

/-- How many blanks and tabs a line starts with. -/
def indentOf (l : List Char) : Nat := (l.takeWhile fun c => c == ' ' || c == '\t').length

theorem indentOf_le (l : List Char) : indentOf l ≤ l.length :=
  (List.takeWhile_sublist _).length_le

/-- Whether the last character that is not blank opens a bracket. -/
def opensBracket (l : List Char) : Bool :=
  match (trimEnd l).getLast? with
  | some c => c == '\x7b' || c == '(' || c == '['
  | none => false

/-- Whether the first character that is not blank closes a bracket. -/
def closesBracket (l : List Char) : Bool :=
  match (trimStart l).head? with
  | some c => c == '\x7d' || c == ')' || c == ']'
  | none => false

namespace Line

/-- The indentation of a line that the lines above it ask for. -/
def wantedIndent (width : Nat) (l : Line) : Nat :=
  match (l.above.map lineContent).find? fun a => !allBlank a with
  | none => 0
  | some a =>
    let level := indentOf a + if opensBracket a then width else 0
    if closesBracket l.content then level - width else level

end Line

end Text

namespace Buffer

/-- Removes so many characters from a position on, and tells the edit if there is one. -/
def removeIndent (b : Buffer) (start n : Nat) : Buffer × List Edit :=
  if n = 0 then (b, [])
  else (b.removeBetween start (start + n), [.delete start (start + n)])

/-- Inserts so many blanks at a position, and tells the edit if there is one. -/
def insertIndent (b : Buffer) (start n : Nat) : Buffer × List Edit :=
  if n = 0 then (b, [])
  else (b.insertAt start (List.replicate n ' '), [.insert start n])

/-- Gives the line of point the indentation that it should have, and tells the edits made. A point
in front of the line's first other character goes to that character. -/
def reindentLine (b : Buffer) : Buffer × List Edit :=
  let l := b.line
  let current := Text.indentOf l.content
  let wanted := l.wantedIndent b.indentWidth
  if current = wanted then (b, [])
  else
    let (cut, removals) := b.removeIndent l.start current
    let (grown, insertions) := cut.insertIndent l.start wanted
    let point := if b.point ≤ l.start + current then l.start + wanted else grown.point
    ({ grown with point }, removals ++ insertions)

/-- The text has an indentation where the line of point starts. -/
theorem text_eq_indentation (b : Buffer) :
    ∃ before indent after, b.text = before ++ indent ++ after ∧ before.length = b.line.start ∧
      indent.length = Text.indentOf b.line.content ∧ ∀ c ∈ indent, c = ' ' ∨ c = '\t' := by
  obtain ⟨before, after, hline, hstart⟩ := Text.lineOf_split b.text b.point
  obtain ⟨lineBreak, hcontent⟩ := Text.lineContent_isPrefixOf b.line.line
  let indent := b.line.content.takeWhile fun c => c == ' ' || c == '\t'
  let rest := b.line.content.dropWhile fun c => c == ' ' || c == '\t'
  have hindent : indent ++ rest = b.line.content := List.takeWhile_append_dropWhile
  refine ⟨before, indent, rest ++ lineBreak ++ after, ?_, hstart, rfl, fun c hc => ?_⟩
  · have hsplit : b.text = before ++ b.line.line ++ after := hline
    have hsame : b.line.content ++ lineBreak = b.line.line := hcontent
    rw [hsplit, ← hsame, ← hindent]
    simp only [List.append_assoc]
  · have hblank := List.all_eq_true.mp List.all_takeWhile c hc
    simpa using hblank

theorem text_removeIndent {b : Buffer} {before indent after : List Char}
    (htext : b.text = before ++ indent ++ after) :
    (b.removeIndent before.length indent.length).1.text = before ++ after := by
  unfold removeIndent
  split
  · next h => rw [htext, List.eq_nil_of_length_eq_zero h, List.append_nil]
  · rw [removeBetween, text_follow, htext, ← List.length_append, List.drop_left,
      List.append_assoc, List.take_left]

theorem text_insertIndent {b : Buffer} {before after : List Char} (htext : b.text = before ++ after)
    (n : Nat) :
    (b.insertIndent before.length n).1.text = before ++ List.replicate n ' ' ++ after := by
  unfold insertIndent
  split
  · next h => rw [htext, h, List.replicate_zero, List.append_nil]
  · rw [insertAt, text_follow, htext, List.take_left, List.drop_left]

/-- The line of point gets as many blanks in front as it should have, unless it has as many spaces and
tabs there already. -/
theorem text_reindentLine {b : Buffer} {before indent after : List Char}
    (htext : b.text = before ++ indent ++ after) (hbefore : before.length = b.line.start)
    (hindent : indent.length = Text.indentOf b.line.content) :
    let wanted := b.line.wantedIndent b.indentWidth
    b.reindentLine.1.text =
      if indent.length = wanted then b.text
      else before ++ List.replicate wanted ' ' ++ after := by
  intro wanted
  simp only [reindentLine, ← hbefore, ← hindent]
  split
  · rfl
  · exact text_insertIndent (text_removeIndent htext) wanted

@[simp] theorem id_removeIndent (b : Buffer) (start n : Nat) :
    (b.removeIndent start n).1.id = b.id := by
  unfold removeIndent
  split <;> rfl

@[simp] theorem id_insertIndent (b : Buffer) (start n : Nat) :
    (b.insertIndent start n).1.id = b.id := by
  unfold insertIndent
  split <;> rfl

@[simp] theorem id_reindentLine (b : Buffer) : b.reindentLine.1.id = b.id := by
  simp only [reindentLine]
  split
  · rfl
  · simp

@[simp] theorem dings_removeIndent (b : Buffer) (start n : Nat) :
    (b.removeIndent start n).1.dings = b.dings := by
  unfold removeIndent
  split <;> rfl

@[simp] theorem dings_insertIndent (b : Buffer) (start n : Nat) :
    (b.insertIndent start n).1.dings = b.dings := by
  unfold insertIndent
  split <;> rfl

@[simp] theorem dings_reindentLine (b : Buffer) : b.reindentLine.1.dings = b.dings := by
  simp only [reindentLine]
  split
  · rfl
  · simp

end Buffer

end TextTemplate
