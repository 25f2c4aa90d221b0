import TextTemplate.Buffer.Indent
import TextTemplate.Proofs.Lines

/-!
# Indenting a line again

Which indentation a line should have is told by the lines above it and by its own first other
character, and not by the indentation that it has (`wantedIndent_append`).  So indenting a line
forgets its old indentation (`Buffer.reindentLine_forgets`), and does nothing where it has been done
(`Buffer.reindentLine_reindentLine`).

Both have an exception.  A line that is indented as it should be is left alone, and so is a point
within its indentation.  And where an indentation between a carriage return and a line feed is taken
away, these become one break, and point is on the line above then, which may have to be indented in
its turn.
-/

namespace TextTemplate

namespace Text

/-! ## Indentations -/

/-- There are only spaces and tabs in a text. -/
def IsIndent (s : List Char) : Prop := ∀ c ∈ s, c = ' ' ∨ c = '\t'

/-- A text does not start with a space or a tab. -/
def StartsSolid (s : List Char) : Prop := ∀ c, s.head? = some c → c ≠ ' ' ∧ c ≠ '\t'

theorem isIndent_replicate (n : Nat) : IsIndent (List.replicate n ' ') :=
  fun _ hc => .inl (List.eq_of_mem_replicate hc)

theorem IsIndent.unbroken {s : List Char} (h : IsIndent s) : Unbroken s := by
  intro c hc
  rcases h c hc with rfl | rfl <;> rfl

theorem IsIndent.isBlank {s : List Char} (h : IsIndent s) : ∀ c ∈ s, isBlank c = true := by
  intro c hc
  rcases h c hc with rfl | rfl <;> rfl

theorem Unbroken.append {s t : List Char} (hs : Unbroken s) (ht : Unbroken t) : Unbroken (s ++ t) :=
  fun c hc => (List.mem_append.mp hc).elim (hs c) (ht c)

theorem not_indent_of_isLineBreak {c : Char} (h : isLineBreak c = true) : c ≠ ' ' ∧ c ≠ '\t' := by
  constructor <;> rintro rfl <;> cases h

theorem startsSolid_append {s t : List Char} (hs : StartsSolid s) (ht : StartsSolid t) :
    StartsSolid (s ++ t) := by
  cases s with
  | nil => exact ht
  | cons c s => exact hs

/-- A text starts with an indentation. -/
theorem exists_indent (s : List Char) :
    ∃ indent rest, s = indent ++ rest ∧ IsIndent indent ∧ StartsSolid rest := by
  refine ⟨s.takeWhile (fun c => c == ' ' || c == '\t'), s.dropWhile (fun c => c == ' ' || c == '\t'),
    List.takeWhile_append_dropWhile.symm, fun c hc => ?_, fun c hc => ?_⟩
  · simpa using List.all_eq_true.mp List.all_takeWhile c hc
  · have hstop := List.head?_dropWhile_not (fun c => c == ' ' || c == '\t') s
    rw [hc] at hstop
    simpa using hstop

/-- The indentation of a line is what it starts with up to its first other character. -/
theorem indentOf_append {indent rest : List Char} (hindent : IsIndent indent)
    (hrest : StartsSolid rest) : indentOf (indent ++ rest) = indent.length := by
  have htake : rest.takeWhile (fun c => c == ' ' || c == '\t') = [] := by
    cases rest with
    | nil => rfl
    | cons c rest => rw [List.takeWhile_cons_of_neg (by simpa using hrest c rfl)]
  rw [indentOf, List.takeWhile_append_of_pos (fun c hc => by simpa using hindent c hc), htake,
    List.append_nil]

/-- A text has one indentation. -/
theorem indent_append_inj {indent indent' rest rest' : List Char} (hindent : IsIndent indent)
    (hindent' : IsIndent indent') (hrest : StartsSolid rest) (hrest' : StartsSolid rest')
    (h : indent ++ rest = indent' ++ rest') : indent = indent' ∧ rest = rest' := by
  refine List.append_inj h ?_
  rw [← indentOf_append hindent hrest, h, indentOf_append hindent' hrest']

theorem closesBracket_append {indent : List Char} (h : IsIndent indent) (l : List Char) :
    closesBracket (indent ++ l) = closesBracket l := by
  rw [closesBracket, closesBracket, trimStart, trimStart,
    List.dropWhile_append_of_pos h.isBlank]

namespace Line

/-- A line has the indentation that it should have. -/
def IsIndented (width : Nat) (l : Line) : Prop := indentOf l.content = l.wantedIndent width

/-- Whether a line is indented as it should be depends on its content and on the lines above it. -/
theorem isIndented_congr (width : Nat) {l l' : Line} (habove : l.above = l'.above)
    (hcontent : l.content = l'.content) : l.IsIndented width ↔ l'.IsIndented width := by
  rw [IsIndented, IsIndented, wantedIndent, wantedIndent, habove, hcontent]

/-- The indentation that a line has is not read. -/
theorem wantedIndent_append (width : Nat) (above : List (List Char)) (start start' : Nat)
    {indent : List Char} (h : IsIndent indent) (l : List Char) :
    wantedIndent width ⟨above, start, indent ++ l⟩ = wantedIndent width ⟨above, start', l⟩ := by
  have hcloses : closesBracket (content ⟨above, start, indent ++ l⟩) =
      closesBracket (content ⟨above, start', l⟩) := by
    rw [content, content, lineContent_unbroken_append h.unbroken, closesBracket_append h]
  rw [wantedIndent, wantedIndent, hcloses]

end Line

theorem Terminates.startsSolid {lineBreak after : List Char} (h : Terminates lineBreak after) :
    StartsSolid lineBreak := by
  cases h with
  | atEnd => exact nofun
  | char hends =>
    rintro _ ⟨⟩
    exact not_indent_of_isLineBreak (isLineBreak_of_endsLine hends)
  | pair =>
    rintro _ ⟨⟩
    exact not_indent_of_isLineBreak rfl

/-- A carriage return at the end of a line is its break. -/
theorem Terminates.eq_return {s lineBreak rest : List Char} (h : Terminates lineBreak rest)
    (hrest : rest ≠ []) (hlast : (s ++ lineBreak).getLast? = some '\r') : lineBreak = ['\r'] := by
  cases h with
  | atEnd => exact absurd rfl hrest
  | char =>
    rw [List.getLast?_append_cons, List.getLast?_singleton] at hlast
    rw [Option.some.inj hlast]
  | pair =>
    rw [List.getLast?_append_cons] at hlast
    cases hlast

/-- In front of a line that starts behind a carriage return, one ends in it. -/
theorem exists_line_above_of_return {s t : List Char} (hlast : s.getLast? = some '\r') (ht : t ≠ [])
    (h : LineStarts s t) :
    ∃ above body, s = above ++ body ++ ['\r'] ∧
      OnLine (s ++ t) (s.length - 1) above body ['\r'] t := by
  have hs : s ≠ [] := by
    rintro rfl
    cases hlast
  obtain ⟨above, body, lineBreak, hcut, habove⟩ := exists_line_above hs h
  rw [hcut] at hlast
  obtain rfl := habove.terminates.eq_return ht hlast
  exact ⟨above, body, hcut, habove⟩

/-- The indentation of a line ends in front of its break at the latest. -/
theorem indentOf_line {indent rest lineBreak after : List Char} (hindent : IsIndent indent)
    (hrest : StartsSolid rest) (hunbroken : Unbroken rest) (hbreak : Terminates lineBreak after) :
    indentOf (lineContent (indent ++ rest ++ lineBreak)) = indent.length := by
  have hkept : StartsSolid (lineContent lineBreak) := by
    rcases hbreak.lineContent_cases with ⟨hnil, -⟩ | ⟨d, rfl, hd, -⟩
    · rw [hnil]
      exact nofun
    · rw [hd]
      exact hbreak.startsSolid
  rw [List.append_assoc, lineContent_unbroken_append hindent.unbroken,
    lineContent_unbroken_append hunbroken]
  exact indentOf_append hindent (startsSolid_append hrest hkept)

end Text

namespace Buffer

open Text

/-! ## One call -/

/-- The line of point, cut behind its indentation. -/
structure IndentedLine (b : Buffer) (before indent rest lineBreak after : List Char) : Prop where
  onLine : OnLine b.text b.point before (indent ++ rest) lineBreak after
  indent : IsIndent indent
  rest : StartsSolid rest

theorem exists_indentedLine (b : Buffer) :
    ∃ before indent rest lineBreak after, b.IndentedLine before indent rest lineBreak after := by
  obtain ⟨before, body, lineBreak, after, h⟩ := exists_onLine b.text b.point
  obtain ⟨indent, rest, rfl, hindent, hrest⟩ := exists_indent body
  exact ⟨before, indent, rest, lineBreak, after, h, hindent, hrest⟩

/-- The indentation that a line behind a text should have. -/
def indentBehind (b : Buffer) (before l : List Char) : Nat :=
  Line.wantedIndent b.indentWidth ⟨(lines before).dropLast.reverse, before.length, l⟩

@[simp] theorem indentWidth_removeIndent (b : Buffer) (start n : Nat) :
    (b.removeIndent start n).1.indentWidth = b.indentWidth := by
  unfold removeIndent
  split <;> rfl

@[simp] theorem indentWidth_insertIndent (b : Buffer) (start n : Nat) :
    (b.insertIndent start n).1.indentWidth = b.indentWidth := by
  unfold insertIndent
  split <;> rfl

@[simp] theorem indentWidth_reindentLine (b : Buffer) :
    b.reindentLine.1.indentWidth = b.indentWidth := by
  simp only [reindentLine]
  split
  · rfl
  · simp

theorem removeIndent_snd_eq_nil_iff {b : Buffer} {start n : Nat} :
    (b.removeIndent start n).2 = [] ↔ n = 0 := by
  unfold removeIndent
  split <;> simp_all

theorem insertIndent_snd_eq_nil_iff {b : Buffer} {start n : Nat} :
    (b.insertIndent start n).2 = [] ↔ n = 0 := by
  unfold insertIndent
  split <;> simp_all

/-- A point behind what is removed keeps its place. -/
theorem point_removeIndent_of_lt {b : Buffer} {start n : Nat} (h : start + n < b.point) :
    (b.removeIndent start n).1.point = b.point - n := by
  unfold removeIndent
  split
  · next hn => rw [hn, Nat.sub_zero]
  · rw [removeBetween, point_follow, Edit.adjust, if_neg (by omega), if_pos (by omega)]
    omega

theorem point_insertIndent_of_lt {b : Buffer} {start n : Nat} (h : start < b.point) :
    (b.insertIndent start n).1.point = b.point + n := by
  unfold insertIndent
  split
  · next hn => rw [hn, Nat.add_zero]
  · rw [insertAt, point_follow, Edit.adjust_insert, if_pos h, List.length_replicate]

/-- A call does nothing just where the line has the indentation that it should have. -/
theorem reindentLine_eq_iff {b : Buffer} :
    b.reindentLine = (b, []) ↔ b.line.IsIndented b.indentWidth := by
  rw [Line.IsIndented, reindentLine]
  split
  · next h => exact iff_of_true rfl h
  · next hne =>
    refine iff_of_false (fun h => hne ?_) hne
    obtain ⟨hcut, hgrown⟩ := List.append_eq_nil_iff.mp (congrArg Prod.snd h)
    exact (removeIndent_snd_eq_nil_iff.mp hcut).trans (insertIndent_snd_eq_nil_iff.mp hgrown).symm

namespace IndentedLine

variable {b : Buffer} {before indent rest lineBreak after : List Char}

theorem line_eq (h : b.IndentedLine before indent rest lineBreak after) :
    b.line = ⟨(lines before).dropLast.reverse, before.length, indent ++ rest ++ lineBreak⟩ :=
  h.onLine.lineOf_eq

theorem unbroken_rest (h : b.IndentedLine before indent rest lineBreak after) : Unbroken rest :=
  fun c hc => h.onLine.unbroken c (List.mem_append_right indent hc)

theorem indentOf_eq (h : b.IndentedLine before indent rest lineBreak after) :
    indentOf b.line.content = indent.length := by
  rw [h.line_eq]
  exact indentOf_line h.indent h.rest h.unbroken_rest h.onLine.terminates

theorem wantedIndent_eq (h : b.IndentedLine before indent rest lineBreak after) :
    b.line.wantedIndent b.indentWidth = b.indentBehind before (rest ++ lineBreak) := by
  rw [h.line_eq, List.append_assoc]
  exact Line.wantedIndent_append _ _ _ _ h.indent _

theorem isIndented_iff (h : b.IndentedLine before indent rest lineBreak after) :
    b.line.IsIndented b.indentWidth ↔
      indent.length = b.indentBehind before (rest ++ lineBreak) := by
  rw [Line.IsIndented, h.indentOf_eq, h.wantedIndent_eq]

/-- The line gets the indentation that it should have, in blanks, unless it has it already. -/
theorem text_reindentLine (h : b.IndentedLine before indent rest lineBreak after) :
    let wanted := b.indentBehind before (rest ++ lineBreak)
    b.reindentLine.1.text =
      if indent.length = wanted then b.text
      else before ++ (List.replicate wanted ' ' ++ rest) ++ lineBreak ++ after := by
  have htext : b.text = before ++ indent ++ (rest ++ lineBreak ++ after) := by
    simp [h.onLine.text]
  have hstart : before.length = b.line.start := by rw [h.line_eq]
  rw [Buffer.text_reindentLine htext hstart h.indentOf_eq.symm, h.wantedIndent_eq]
  simp only [List.append_assoc]

/-- A point within the indentation goes to its end, and one behind it keeps its place on the line. -/
theorem point_reindentLine (h : b.IndentedLine before indent rest lineBreak after)
    (hne : indent.length ≠ b.indentBehind before (rest ++ lineBreak)) :
    let wanted := b.indentBehind before (rest ++ lineBreak)
    b.reindentLine.1.point =
      if b.point ≤ before.length + indent.length then before.length + wanted
      else b.point - indent.length + wanted := by
  intro wanted
  have hstart : b.line.start = before.length := by rw [h.line_eq]
  simp only [reindentLine, h.indentOf_eq, h.wantedIndent_eq, hstart, if_neg hne]
  split
  · rfl
  · next hbehind =>
    have hcut := point_removeIndent_of_lt (Nat.lt_of_not_le hbehind)
    rw [point_insertIndent_of_lt (by omega), hcut]

/-- Where the line still starts behind the text in front of it, it has its new indentation now. -/
theorem reindentLine (h : b.IndentedLine before indent rest lineBreak after)
    (hne : indent.length ≠ b.indentBehind before (rest ++ lineBreak))
    (hstarts : LineStarts before
      (List.replicate (b.indentBehind before (rest ++ lineBreak)) ' ' ++ rest ++ lineBreak ++ after)) :
    b.reindentLine.1.IndentedLine before
      (List.replicate (b.indentBehind before (rest ++ lineBreak)) ' ') rest lineBreak after := by
  have htext := h.text_reindentLine
  have hpoint := h.point_reindentLine hne
  have hlt := h.onLine.lt_stop
  simp only [if_neg hne] at htext
  refine ⟨⟨htext, hstarts, ?_, h.onLine.terminates, ?_, ?_⟩, isIndent_replicate _, h.rest⟩
  · exact (isIndent_replicate _).unbroken.append h.unbroken_rest
  · rw [hpoint]
    split <;> omega
  · rw [hpoint]
    by_cases hbreak : lineBreak = []
    · exact .inr hbreak
    have hpos : 0 < lineBreak.length := List.length_pos_iff.mpr hbreak
    have hlt := hlt.resolve_right hbreak
    rw [List.length_append] at hlt
    rw [List.length_append, List.length_replicate]
    left
    split <;> omega

theorem isIndented_reindentLine (h : b.IndentedLine before indent rest lineBreak after)
    (hne : indent.length ≠ b.indentBehind before (rest ++ lineBreak))
    (hstarts : LineStarts before
      (List.replicate (b.indentBehind before (rest ++ lineBreak)) ' ' ++ rest ++ lineBreak ++ after)) :
    b.reindentLine.1.line.IsIndented b.reindentLine.1.indentWidth := by
  rw [(h.reindentLine hne hstarts).isIndented_iff, List.length_replicate, indentBehind, indentBehind,
    indentWidth_reindentLine]

end IndentedLine

/-! ## A second call -/

/-- The line of point is an indentation and a line feed, it should have no indentation, and the line
above ends in a carriage return.  So without its indentation it is not a line any more. -/
structure JoinsBreak (b : Buffer) : Prop where
  behind : (b.text.take b.line.start).getLast? = some '\r'
  line : ∃ indent, indent ≠ [] ∧ IsIndent indent ∧ b.line.line = indent ++ ['\n']
  wanted : b.line.wantedIndent b.indentWidth = 0

namespace IndentedLine

variable {b : Buffer} {before indent rest lineBreak after : List Char}

theorem take_start (h : b.IndentedLine before indent rest lineBreak after) :
    b.text.take b.line.start = before := by
  simp only [h.line_eq, h.onLine.text, List.append_assoc, List.take_left]

/-- The parts of a line that is not one any more without its indentation. -/
theorem joinsBreak_iff (h : b.IndentedLine before indent rest lineBreak after) :
    b.JoinsBreak ↔ before.getLast? = some '\r' ∧ indent ≠ [] ∧ rest = [] ∧ lineBreak = ['\n'] ∧
      b.indentBehind before (rest ++ lineBreak) = 0 := by
  have hsolid := startsSolid_append h.rest h.onLine.terminates.startsSolid
  constructor
  · rintro ⟨hbehind, ⟨indent', hne, hindent', hline⟩, hwanted⟩
    rw [h.take_start] at hbehind
    rw [h.wantedIndent_eq] at hwanted
    simp only [h.line_eq, List.append_assoc] at hline
    have hfeed : Terminates ['\n'] [] := .char rfl
    obtain ⟨rfl, hrest⟩ := indent_append_inj h.indent hindent' hsolid hfeed.startsSolid hline
    rcases List.append_eq_singleton_iff.mp hrest with ⟨hnil, hbreak⟩ | ⟨hbreak, -⟩
    · exact ⟨hbehind, hne, hnil, hbreak, hwanted⟩
    · exact absurd (h.unbroken_rest '\n' (hbreak ▸ List.mem_cons_self)) (by decide)
  · rintro ⟨hbehind, hne, rfl, rfl, hwanted⟩
    refine ⟨?_, ⟨indent, hne, h.indent, ?_⟩, ?_⟩
    · rw [h.take_start, hbehind]
    · rw [h.line_eq, List.append_nil]
    · rw [h.wantedIndent_eq, hwanted]

/-- The line starts behind the text in front of it with any indentation, unless it has to be taken
away and joins a break. -/
theorem lineStarts_replicate (h : b.IndentedLine before indent rest lineBreak after)
    (hne : indent.length ≠ b.indentBehind before (rest ++ lineBreak)) (hjoins : ¬ b.JoinsBreak) :
    LineStarts before
      (List.replicate (b.indentBehind before (rest ++ lineBreak)) ' ' ++ rest ++ lineBreak ++ after) := by
  intro c hlast
  by_contra hends
  -- Then the text ends in a carriage return, and the first character behind it is a line feed now.
  obtain ⟨rfl, hhead⟩ :=
    (not_endsLine_iff (isLineBreak_of_endsLine (h.onLine.starts c hlast))).mp hends
  refine hjoins (h.joinsBreak_iff.mpr ⟨hlast, ?_⟩)
  cases hwanted : b.indentBehind before (rest ++ lineBreak) with
  | succ n =>
    rw [hwanted, List.replicate_succ] at hhead
    cases hhead
  | zero =>
    rw [hwanted, List.replicate_zero, List.nil_append] at hhead
    rw [hwanted] at hne
    refine ⟨fun hnil => hne (congrArg List.length hnil), ?_⟩
    cases rest with
    | cons d rest =>
      obtain rfl : d = '\n' := Option.some.inj hhead
      exact absurd (h.unbroken_rest '\n' List.mem_cons_self) (by decide)
    | nil =>
      cases h.onLine.terminates with
      | atEnd => cases hhead
      | char =>
        cases hhead
        exact ⟨rfl, rfl, rfl⟩
      | pair => cases hhead

/-- Where a break is joined, point goes to the line above, which ends in both characters now. -/
theorem onLine_reindentLine_of_joinsBreak (h : b.IndentedLine before indent rest lineBreak after)
    (hjoins : b.JoinsBreak) :
    ∃ above body, OnLine b.text (b.line.start - 1) above body ['\r'] (indent ++ '\n' :: after) ∧
      OnLine b.reindentLine.1.text b.reindentLine.1.point above body ['\r', '\n'] after := by
  obtain ⟨hlast, hne, rfl, rfl, hwanted⟩ := h.joinsBreak_iff.mp hjoins
  obtain ⟨above, body, hcut, habove⟩ := exists_line_above_of_return hlast (by simp) h.onLine.starts
  have hstart : b.line.start = before.length := by rw [h.line_eq]
  have hlength : indent.length ≠ b.indentBehind before ([] ++ ['\n']) := by
    rw [hwanted]
    exact Nat.ne_of_gt (List.length_pos_iff.mpr hne)
  have htext := h.text_reindentLine
  have hpoint := h.point_reindentLine hlength
  have hlt := h.onLine.lt_stop.resolve_right (List.cons_ne_nil _ _)
  rw [List.append_nil, List.length_singleton] at hlt
  simp only [if_neg hlength] at htext
  simp only [if_pos (Nat.le_of_lt_succ hlt), hwanted, Nat.add_zero] at hpoint
  refine ⟨above, body, ?_, ⟨?_, ?_, habove.unbroken, .pair after, ?_, .inl ?_⟩⟩
  · rw [hstart]
    simpa [h.onLine.text] using habove
  · rw [htext, hwanted, hcut]
    simp
  · refine habove.starts.congr ?_
    simp
  · rw [hpoint, hcut]
    simp
  · rw [hpoint, hcut]
    simp [Nat.add_assoc]

end IndentedLine

variable {b : Buffer}

/-- A line that is not one any more without its indentation has not the one that it should have. -/
theorem JoinsBreak.not_isIndented (h : b.JoinsBreak) : ¬ b.line.IsIndented b.indentWidth := by
  obtain ⟨before, indent, rest, lineBreak, after, hline⟩ := b.exists_indentedLine
  obtain ⟨-, hne, -, -, hwanted⟩ := hline.joinsBreak_iff.mp h
  rw [hline.isIndented_iff, hwanted]
  exact fun hlength => hne (List.eq_nil_of_length_eq_zero hlength)

/-- A line has the indentation that it should have, once it was given that and stayed a line. -/
theorem isIndented_reindentLine (h : ¬ b.JoinsBreak) :
    b.reindentLine.1.line.IsIndented b.reindentLine.1.indentWidth := by
  obtain ⟨before, indent, rest, lineBreak, after, hline⟩ := b.exists_indentedLine
  by_cases hlength : indent.length = b.indentBehind before (rest ++ lineBreak)
  · have hdone := hline.isIndented_iff.mpr hlength
    rw [reindentLine_eq_iff.mpr hdone]
    exact hdone
  · exact hline.isIndented_reindentLine hlength (hline.lineStarts_replicate hlength h)

/-- What joins a break leaves point on the line above, with the indentation that this had. -/
theorem JoinsBreak.isIndented_reindentLine_iff (h : b.JoinsBreak) :
    b.reindentLine.1.line.IsIndented b.reindentLine.1.indentWidth ↔
      (Text.lineOf b.text (b.line.start - 1)).IsIndented b.indentWidth := by
  obtain ⟨before, indent, rest, lineBreak, after, hline⟩ := b.exists_indentedLine
  obtain ⟨above, body, habove, honce⟩ := hline.onLine_reindentLine_of_joinsBreak h
  have hcontent : lineContent (body ++ ['\r', '\n']) = lineContent (body ++ ['\r']) := by
    rw [lineContent_unbroken_append habove.unbroken, lineContent_unbroken_append habove.unbroken]
    rfl
  rw [Buffer.line, honce.lineOf_eq, habove.lineOf_eq, indentWidth_reindentLine]
  exact Line.isIndented_congr b.indentWidth rfl hcontent

/-- One call does not make another one join a break. -/
theorem not_joinsBreak_reindentLine (b : Buffer) : ¬ b.reindentLine.1.JoinsBreak := by
  intro honce
  by_cases hjoins : b.JoinsBreak
  · obtain ⟨before, indent, rest, lineBreak, after, hline⟩ := b.exists_indentedLine
    obtain ⟨above, body, -, hjoined⟩ := hline.onLine_reindentLine_of_joinsBreak hjoins
    obtain ⟨indent', -, hindent', hfeed⟩ := honce.line
    rw [Buffer.line, hjoined.lineOf_eq] at hfeed
    have hmem : '\r' ∈ indent' ++ ['\n'] := by
      rw [← hfeed]
      simp
    rcases List.mem_append.mp hmem with hmem | hmem
    · exact absurd (hindent'.unbroken '\r' hmem) (by decide)
    · cases List.mem_singleton.mp hmem
  · exact honce.not_isIndented (isIndented_reindentLine hjoins)

/-- A second call does nothing either, unless the first one joins a break and the line above, where
point is then, has not the indentation that it should have.  A third call does nothing at all. -/
theorem reindentLine_reindentLine (b : Buffer) :
    let once := b.reindentLine.1
    let twice := once.reindentLine.1
    (once.reindentLine = (once, []) ↔
        (b.JoinsBreak → (Text.lineOf b.text (b.line.start - 1)).IsIndented b.indentWidth)) ∧
      twice.reindentLine = (twice, []) := by
  intro once twice
  constructor
  · rw [reindentLine_eq_iff]
    by_cases hjoins : b.JoinsBreak
    · rw [hjoins.isIndented_reindentLine_iff]
      exact ⟨fun h _ => h, fun h => h hjoins⟩
    · exact iff_of_true (isIndented_reindentLine hjoins) fun h => absurd h hjoins
  · rw [reindentLine_eq_iff]
    exact isIndented_reindentLine (not_joinsBreak_reindentLine b)

/-- The second call does what is left to do on the line above. -/
theorem reindentLine_reindentLine_joined :
    let b : Buffer :=
      { id := 0, text := [' ', ' ', 'a', '\n', 'b', '\r', ' ', '\n'], point := 7 }
    let once := b.reindentLine.1
    b.JoinsBreak ∧ b.reindentLine.2 = [.delete 6 7] ∧ once.point = 6 ∧
      once.reindentLine.2 = [.insert 4 2] :=
  ⟨⟨rfl, ⟨[' '], by decide, isIndent_replicate 1, rfl⟩, rfl⟩, rfl, rfl, rfl⟩

/-! ## Other indentations -/

/-- Point is within an indentation of so many blanks between two parts of the text. -/
structure InIndentation (b : Buffer) (before after : List Char) (n : Nat) : Prop where
  text : b.text = before ++ List.replicate n ' ' ++ after
  le_point : before.length ≤ b.point
  point_le : b.point ≤ before.length + n

/-- A line feed always ends a line. -/
theorem lineStarts_of_feed {before : List Char} (h : ∀ c, before.getLast? = some c → c = '\n')
    (t : List Char) : LineStarts before t := by
  intro c hc
  rw [h c hc]
  rfl

namespace InIndentation

variable {before rest lineBreak after : List Char} {n : Nat}

/-- The indentation is the one of the line of point. -/
theorem indentedLine (h : b.InIndentation before (rest ++ lineBreak ++ after) n)
    (hbefore : ∀ c, before.getLast? = some c → c = '\n') (hsolid : StartsSolid rest)
    (hrest : Unbroken rest) (hbreak : Terminates lineBreak after) :
    b.IndentedLine before (List.replicate n ' ') rest lineBreak after := by
  refine ⟨⟨?_, lineStarts_of_feed hbefore _, ?_, hbreak, h.le_point, ?_⟩, isIndent_replicate n, hsolid⟩
  · rw [h.text]
    simp only [List.append_assoc]
  · exact (isIndent_replicate n).unbroken.append hrest
  · by_cases hne : lineBreak = []
    · exact .inr hne
    have hpos : 0 < lineBreak.length := List.length_pos_iff.mpr hne
    have hpoint := h.point_le
    rw [List.length_append, List.length_replicate]
    left
    omega

/-- The line gets the indentation that it should have.  Point stays where it is in an indentation that
is left alone, and goes to the end of a new one. -/
theorem reindentLine (h : b.InIndentation before (rest ++ lineBreak ++ after) n)
    (hline : b.IndentedLine before (List.replicate n ' ') rest lineBreak after) :
    let wanted := b.indentBehind before (rest ++ lineBreak)
    b.reindentLine.1.text = before ++ List.replicate wanted ' ' ++ (rest ++ lineBreak ++ after) ∧
      b.reindentLine.1.point = if n = wanted then b.point else before.length + wanted := by
  intro wanted
  have htext := hline.text_reindentLine
  simp only [List.length_replicate] at htext
  by_cases hn : n = wanted
  · have hdone := hline.isIndented_iff.mpr (List.length_replicate.trans hn)
    rw [reindentLine_eq_iff.mpr hdone, if_pos hn, ← hn]
    exact ⟨h.text, rfl⟩
  · have hpoint := hline.point_reindentLine (by rwa [List.length_replicate])
    have hpoint_le : b.point ≤ before.length + (List.replicate n ' ').length := by
      rw [List.length_replicate]
      exact h.point_le
    simp only [if_pos hpoint_le] at hpoint
    rw [htext, if_neg hn, if_neg hn, hpoint]
    refine ⟨?_, rfl⟩
    simp only [wanted, List.append_assoc]

end InIndentation

/-- Whatever indentation of blanks the line of point has, it gets the same one.  A point in it goes to
the end of the new one, but stays where it is if the line was indented like that already. -/
theorem reindentLine_forgets {before after : List Char}
    (hbefore : ∀ c, before.getLast? = some c → c = '\n') (hafter : StartsSolid after)
    {b₁ b₂ : Buffer} {n₁ n₂ : Nat} (h₁ : b₁.InIndentation before after n₁)
    (h₂ : b₂.InIndentation before after n₂) (hwidth : b₁.indentWidth = b₂.indentWidth) :
    let wanted := b₁.line.wantedIndent b₁.indentWidth
    b₁.reindentLine.1.text = before ++ List.replicate wanted ' ' ++ after ∧
      b₂.reindentLine.1.text = b₁.reindentLine.1.text ∧
      b₁.reindentLine.1.point = (if n₁ = wanted then b₁.point else before.length + wanted) ∧
      b₂.reindentLine.1.point = (if n₂ = wanted then b₂.point else before.length + wanted) := by
  obtain ⟨rest, lineBreak, after, rfl, hrest, hbreak⟩ := exists_terminated after
  have hsolid : StartsSolid rest := by
    cases rest with
    | nil => exact nofun
    | cons c rest => exact hafter
  have hline := h₁.indentedLine hbefore hsolid hrest hbreak
  obtain ⟨htext₁, hpoint₁⟩ := h₁.reindentLine hline
  obtain ⟨htext₂, hpoint₂⟩ := h₂.reindentLine (h₂.indentedLine hbefore hsolid hrest hbreak)
  have hsame : b₂.indentBehind before (rest ++ lineBreak) =
      b₁.indentBehind before (rest ++ lineBreak) := by
    rw [indentBehind, indentBehind, hwidth]
  rw [hsame] at htext₂ hpoint₂
  rw [hline.wantedIndent_eq]
  exact ⟨htext₁, htext₂.trans htext₁.symm, hpoint₁, hpoint₂⟩

/-- The line of point loses three blanks of the first text, and gets its two in the second one. -/
theorem reindentLine_forgets_after_feed :
    let before := [' ', ' ', 'a', '\n']
    let b₁ : Buffer := { id := 0, text := before ++ [' ', ' ', ' ', ' ', ' ', 'b'], point := 6 }
    let b₂ : Buffer := { id := 0, text := before ++ ['b'], point := 4 }
    b₁.InIndentation before ['b'] 5 ∧ b₂.InIndentation before ['b'] 0 ∧
      b₂.reindentLine.1.text = b₁.reindentLine.1.text ∧ b₁.reindentLine.1.point = 6 ∧
      b₂.reindentLine.1.point = 6 := by
  intro before b₁ b₂
  have h₁ : b₁.InIndentation before ['b'] 5 := ⟨rfl, by decide, by decide⟩
  have h₂ : b₂.InIndentation before ['b'] 0 := ⟨rfl, by decide, by decide⟩
  have hfeed : ∀ c, before.getLast? = some c → c = '\n' := by
    rintro _ ⟨⟩
    rfl
  have hsolid : StartsSolid ['b'] := by
    rintro _ ⟨⟩
    exact ⟨by decide, by decide⟩
  obtain ⟨-, hsame, -, -⟩ := reindentLine_forgets hfeed hsolid h₁ h₂ rfl
  exact ⟨h₁, h₂, hsame, rfl, rfl⟩

/-- A point in front of the two blanks that a line should have stays there, but goes behind them where
they are new. -/
theorem reindentLine_keeps_point :
    let before := [' ', ' ', 'a', '\n']
    let b₁ : Buffer := { id := 0, text := before ++ [' ', ' ', 'b'], point := 4 }
    let b₂ : Buffer := { id := 0, text := before ++ ['b'], point := 4 }
    b₁.InIndentation before ['b'] 2 ∧ b₂.InIndentation before ['b'] 0 ∧
      b₁.reindentLine.1.text = b₂.reindentLine.1.text ∧ b₁.reindentLine.1.point = 4 ∧
      b₂.reindentLine.1.point = 6 :=
  ⟨⟨rfl, by decide, by decide⟩, ⟨rfl, by decide, by decide⟩, rfl, rfl, rfl⟩

end Buffer

end TextTemplate
