/-!
# Line breaks

A text is the list of its lines, each with the break that ends it; the last line has none. A
carriage return and the line feed after it are one break.
-/

namespace TextTemplate.Text

/-- Whether a character breaks lines. -/
def isLineBreak (c : Char) : Bool :=
  let n := c.toNat
  (10 ≤ n && n ≤ 13) || n == 0x85 || n == 0x2028 || n == 0x2029

/-- Whether a line ends after a character, given what follows it. -/
def endsLine (c : Char) (rest : List Char) : Bool :=
  isLineBreak c && !(c == '\r' && rest.head? == some '\n')

/-- Puts a character in front of the first line. -/
def consLine (c : Char) : List (List Char) → List (List Char)
  | [] => [[c]]
  | l :: ls => (c :: l) :: ls

/-- The lines of a text with their breaks. -/
def lines : List Char → List (List Char)
  | [] => [[]]
  | c :: r => if endsLine c r then [c] :: lines r else consLine c (lines r)

/-- A line without the line feeds at its end, and then without the carriage returns there. -/
def lineContent (l : List Char) : List Char :=
  ((l.reverse.dropWhile (· == '\n')).dropWhile (· == '\r')).reverse

@[simp] theorem flatten_consLine (c : Char) (ls : List (List Char)) :
    (consLine c ls).flatten = c :: ls.flatten := by
  cases ls <;> rfl

/-- The lines put together are the text. -/
@[simp] theorem flatten_lines (s : List Char) : (lines s).flatten = s := by
  induction s with
  | nil => rfl
  | cons c r ih => simp only [lines]; split <;> simp [ih]

/-- A line has its content and then its break. -/
theorem lineContent_isPrefixOf (l : List Char) : lineContent l <+: l := by
  have hsuffix : (l.reverse.dropWhile (· == '\n')).dropWhile (· == '\r') <:+ l.reverse :=
    (List.dropWhile_suffix _).trans (List.dropWhile_suffix _)
  have hprefix := List.reverse_prefix.mpr hsuffix
  rwa [List.reverse_reverse] at hprefix

theorem length_lineContent_le (l : List Char) : (lineContent l).length ≤ l.length :=
  (lineContent_isPrefixOf l).length_le

/-- A line in its text. -/
structure Line where
  /-- The lines above, the nearest one first. -/
  above : List (List Char)
  /-- The position where the line starts. -/
  start : Nat
  /-- The line with its break. -/
  line : List Char
deriving DecidableEq, Repr

/-- The line of a list of lines that a position belongs to, where some lines above are known. A
position between the two characters of a break belongs to the line that they end. -/
def lineFrom (above : List (List Char)) (start : Nat) : List (List Char) → Nat → Line
  | [], _ => ⟨above, start, []⟩
  | [l], _ => ⟨above, start, l⟩
  | l :: ls, p =>
    if p < start + l.length then ⟨above, start, l⟩
    else lineFrom (l :: above) (start + l.length) ls p

/-- The line that a position of a text belongs to. -/
def lineOf (s : List Char) (p : Nat) : Line := lineFrom [] 0 (lines s) p

theorem lineFrom_split (above : List (List Char)) (start : Nat) (ls : List (List Char)) (p : Nat) :
    ∃ before after, ls.flatten = before ++ (lineFrom above start ls p).line ++ after ∧
      (lineFrom above start ls p).start = start + before.length := by
  fun_induction lineFrom above start ls p with
  | case1 => exact ⟨[], [], rfl, rfl⟩
  | case2 above start l p => exact ⟨[], [], by simp, rfl⟩
  | case3 above start l ls p hne hlt => exact ⟨[], ls.flatten, rfl, rfl⟩
  | case4 above start l ls p hne hge ih =>
    obtain ⟨before, after, hsplit, hstart⟩ := ih
    refine ⟨l ++ before, after, ?_, ?_⟩
    · rw [List.flatten_cons, hsplit, ← List.append_assoc, ← List.append_assoc]
    · rw [hstart, List.length_append, Nat.add_assoc]

/-- A line of a text stands in the text where it says that it starts. -/
theorem lineOf_split (s : List Char) (p : Nat) :
    ∃ before after, s = before ++ (lineOf s p).line ++ after ∧
      before.length = (lineOf s p).start := by
  obtain ⟨before, after, hsplit, hstart⟩ := lineFrom_split [] 0 (lines s) p
  rw [flatten_lines] at hsplit
  rw [Nat.zero_add] at hstart
  exact ⟨before, after, hsplit, hstart.symm⟩

/-- A line of a text does not go beyond the text. -/
theorem lineOf_le (s : List Char) (p : Nat) :
    (lineOf s p).start + (lineOf s p).line.length ≤ s.length := by
  obtain ⟨before, after, hsplit, hstart⟩ := lineOf_split s p
  have hlength := congrArg List.length hsplit
  rw [List.length_append, List.length_append, hstart] at hlength
  exact hlength ▸ Nat.le_add_right ..

namespace Line

/-- The line without its break. -/
def content (l : Line) : List Char := lineContent l.line

/-- The position where the content of the line stops. -/
def stop (l : Line) : Nat := l.start + l.content.length

end Line

end TextTemplate.Text
