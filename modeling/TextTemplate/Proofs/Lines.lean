import Mathlib.Data.List.Basic
import TextTemplate.Buffer

/-!
# Lines of a text

A text can be cut where a line starts, and then its lines are those of the first part and those of
the second one (`lines_append`).  So the line of a position is known once the text is cut in front of
it and behind it: `OnLine` tells the four parts, `exists_onLine` finds them, and `OnLine.lineOf_eq` says
that they are what the line index finds.

The main statement is about the bounds of the line of point (`Buffer.lineBounds_framed_iff`).  They
frame the line, unless point is between the two characters of a break, where no bounds do, and unless
the line ends in a break that is neither a line feed nor a carriage return.  Such a break is taken for a
part of the line.
-/

namespace TextTemplate

namespace Text

/-! ## Where lines start -/

/-- A line starts between two parts of a text: the first part is empty, or ends in a break that the
second part does not go on with. -/
def LineStarts (s t : List Char) : Prop := ∀ c, s.getLast? = some c → endsLine c t = true

theorem isLineBreak_of_endsLine {c : Char} {t : List Char} (h : endsLine c t = true) :
    isLineBreak c = true :=
  (Bool.and_eq_true_iff.mp h).1

/-- Whether a line ends after a character depends on the next character only. -/
theorem endsLine_congr {s t : List Char} (h : s.head? = t.head?) (c : Char) :
    endsLine c s = endsLine c t := by
  rw [endsLine, endsLine, h]

/-- A carriage return does not end a line if a line feed comes after it. -/
theorem not_endsLine_iff {c : Char} (hc : isLineBreak c = true) {t : List Char} :
    ¬ endsLine c t = true ↔ c = '\r' ∧ t.head? = some '\n' := by
  simp [endsLine, hc]

theorem lineStarts_nil (t : List Char) : LineStarts [] t := nofun

theorem LineStarts.congr {s t u : List Char} (h : LineStarts s t) (htu : t.head? = u.head?) :
    LineStarts s u := fun c hc => endsLine_congr htu c ▸ h c hc

theorem lineStarts_append_iff {t : List Char} (ht : t ≠ []) (s u : List Char) :
    LineStarts (s ++ t) u ↔ LineStarts t u := by
  rw [LineStarts, LineStarts, List.getLast?_append_of_ne_nil s ht]

theorem lines_cons (c : Char) (r : List Char) :
    lines (c :: r) = if endsLine c r then [c] :: lines r else consLine c (lines r) := rfl

theorem lines_ne_nil (s : List Char) : lines s ≠ [] := by
  cases s with
  | nil => exact List.cons_ne_nil _ _
  | cons c r =>
    rw [lines_cons]
    split
    · exact List.cons_ne_nil _ _
    · cases lines r <;> exact List.cons_ne_nil _ _

/-- A text may be cut where a line starts. -/
theorem lines_append {s t : List Char} (h : LineStarts s t) :
    lines (s ++ t) = (lines s).dropLast ++ lines t := by
  induction s with
  | nil => rfl
  | cons c r ih =>
    cases r with
    | nil =>
      have hends : endsLine c t = true := h c rfl
      have hlast : endsLine c [] = true := by
        rw [endsLine, isLineBreak_of_endsLine hends]
        simp
      simp [lines, hends, hlast]
    | cons d r =>
      have hr : LineStarts (d :: r) t := fun c' hc' => h c' (by rwa [List.getLast?_cons_cons])
      have hsame : endsLine c (d :: r ++ t) = endsLine c (d :: r) := endsLine_congr rfl c
      rw [List.cons_append, lines_cons c, lines_cons c, hsame, ih hr]
      split
      · rw [List.dropLast_cons_of_ne_nil (lines_ne_nil _), List.cons_append]
      · -- The first line of the rest is not its last one, so it is not dropped.
        rcases hls : lines (d :: r) with _ | ⟨l, _ | ⟨l', ls⟩⟩
        · exact absurd hls (lines_ne_nil _)
        · have hlength := congrArg (fun ls => ls.flatten.length) (ih hr)
          simp [hls] at hlength
          omega
        · rfl

/-- The lines in front of where a line starts are the text in front of it. -/
theorem flatten_dropLast_lines {s t : List Char} (h : LineStarts s t) :
    (lines s).dropLast.flatten = s := by
  have hflat := congrArg List.flatten (lines_append h)
  rw [List.flatten_append, flatten_lines, flatten_lines] at hflat
  exact (List.append_cancel_right hflat).symm

/-! ## What is on a line -/

/-- There are no breaks in a text. -/
def Unbroken (s : List Char) : Prop := ∀ c ∈ s, isLineBreak c = false

/-- What ends a line in front of the rest of a text: a break, or nothing at the end. -/
inductive Terminates : List Char → List Char → Prop
  | atEnd : Terminates [] []
  | char {c : Char} {rest : List Char} (h : endsLine c rest = true) : Terminates [c] rest
  | pair (rest : List Char) : Terminates ['\r', '\n'] rest

theorem Terminates.lineStarts {lineBreak rest : List Char} (h : Terminates lineBreak rest) :
    LineStarts lineBreak rest := by
  cases h with
  | atEnd => exact lineStarts_nil _
  | char h =>
    rintro c ⟨⟩
    exact h
  | pair =>
    rintro c ⟨⟩
    rfl

/-- A break is one in front of any text that it does not go on with. -/
theorem Terminates.of_lineStarts {lineBreak rest rest' : List Char} (h : Terminates lineBreak rest)
    (hne : lineBreak ≠ []) (hrest' : LineStarts lineBreak rest') : Terminates lineBreak rest' := by
  cases h with
  | atEnd => exact absurd rfl hne
  | char => exact .char (hrest' _ rfl)
  | pair => exact .pair rest'

/-- A text starts with a line. -/
theorem exists_terminated (s : List Char) :
    ∃ body lineBreak rest, s = body ++ lineBreak ++ rest ∧ Unbroken body ∧
      Terminates lineBreak rest := by
  induction s with
  | nil => exact ⟨[], [], [], rfl, nofun, .atEnd⟩
  | cons c r ih =>
    by_cases hends : endsLine c r = true
    · exact ⟨[], [c], r, rfl, nofun, .char hends⟩
    by_cases hbreak : isLineBreak c = true
    · obtain ⟨rfl, hr⟩ := (not_endsLine_iff hbreak).mp hends
      obtain ⟨r', rfl⟩ := List.head?_eq_some_iff.mp hr
      exact ⟨[], _, r', rfl, nofun, .pair r'⟩
    · obtain ⟨body, lineBreak, rest, rfl, hbody, hterm⟩ := ih
      refine ⟨c :: body, lineBreak, rest, rfl, ?_, hterm⟩
      intro d hd
      rcases List.mem_cons.mp hd with rfl | hd
      · exact Bool.eq_false_iff.mpr hbreak
      · exact hbody d hd

/-- What has no breaks belongs to the line that comes after it. -/
theorem lines_unbroken_append {body : List Char} (hbody : Unbroken body) {s l : List Char}
    {ls : List (List Char)} (h : lines s = l :: ls) : lines (body ++ s) = (body ++ l) :: ls := by
  induction body with
  | nil => exact h
  | cons c body ih =>
    have hc : endsLine c (body ++ s) = false := by
      rw [endsLine, hbody c List.mem_cons_self, Bool.false_and]
    rw [List.cons_append, lines_cons, hc, if_neg Bool.false_ne_true,
      ih fun d hd => hbody d (List.mem_cons_of_mem c hd)]
    rfl

/-- A text has its first line, and no more lines if that does not end in a break. -/
theorem exists_lines_of_terminates {body lineBreak rest : List Char} (hbody : Unbroken body)
    (h : Terminates lineBreak rest) :
    ∃ ls, lines (body ++ lineBreak ++ rest) = (body ++ lineBreak) :: ls ∧
      (lineBreak = [] → ls = []) := by
  have hfirst : ∃ ls, lines (lineBreak ++ rest) = lineBreak :: ls ∧ (lineBreak = [] → ls = []) := by
    cases h with
    | atEnd => exact ⟨[], rfl, fun _ => rfl⟩
    | @char c rest h =>
      refine ⟨lines rest, ?_, fun hnil => absurd hnil (List.cons_ne_nil c [])⟩
      rw [List.singleton_append, lines_cons, if_pos h]
    | pair rest => exact ⟨lines rest, rfl, nofun⟩
  obtain ⟨ls, hls, hend⟩ := hfirst
  rw [List.append_assoc]
  exact ⟨ls, lines_unbroken_append hbody hls, hend⟩

/-! ## The line of a position -/

theorem lineFrom_head (above : List (List Char)) {start p : Nat} {l : List Char}
    {ls : List (List Char)} (h : p < start + l.length ∨ ls = []) :
    lineFrom above start (l :: ls) p = ⟨above, start, l⟩ := by
  cases ls with
  | nil => rfl
  | cons l' ls =>
    rw [lineFrom, if_pos (h.resolve_right (List.cons_ne_nil l' ls))]
    exact List.cons_ne_nil l' ls

/-- Lines that end in front of a position are above it. -/
theorem lineFrom_append (above : List (List Char)) {start p : Nat} {ls ms : List (List Char)}
    (hms : ms ≠ []) (h : start + ls.flatten.length ≤ p) :
    lineFrom above start (ls ++ ms) p =
      lineFrom (ls.reverse ++ above) (start + ls.flatten.length) ms p := by
  induction ls generalizing above start with
  | nil => rfl
  | cons l ls ih =>
    rw [List.flatten_cons, List.length_append, ← Nat.add_assoc] at h
    have hpast : ¬ p < start + l.length := by omega
    rw [List.cons_append, lineFrom, if_neg hpast, ih (l :: above) h]
    · simp [Nat.add_assoc]
    · exact List.append_ne_nil_of_right_ne_nil ls hms

/-- A position of a text with the line that it is on: the text in front of the line, the line without
its break, the break, and the rest.  A position behind the first character of a break is on the line
that the break ends. -/
structure OnLine (s : List Char) (p : Nat) (before body lineBreak after : List Char) : Prop where
  text : s = before ++ body ++ lineBreak ++ after
  starts : LineStarts before (body ++ lineBreak ++ after)
  unbroken : Unbroken body
  terminates : Terminates lineBreak after
  start_le : before.length ≤ p
  lt_stop : p < before.length + body.length + lineBreak.length ∨ lineBreak = []

/-- Every position is on a line. -/
theorem exists_onLine (s : List Char) (p : Nat) :
    ∃ before body lineBreak after, OnLine s p before body lineBreak after := by
  induction hn : s.length using Nat.strongRecOn generalizing s p with
  | _ n ih =>
    obtain ⟨body, lineBreak, rest, rfl, hbody, hterm⟩ := exists_terminated s
    by_cases hp : p < body.length + lineBreak.length ∨ lineBreak = []
    · exact ⟨[], body, lineBreak, rest, rfl, lineStarts_nil _, hbody, hterm, Nat.zero_le p, by
        simpa using hp⟩
    -- Otherwise it is on a line of the rest.
    obtain ⟨hp, hne⟩ := not_or.mp hp
    have hpos : 0 < lineBreak.length := List.length_pos_iff.mpr hne
    obtain ⟨before, body', lineBreak', after, h⟩ :=
      ih rest.length (by simp at hn; omega) rest (p - (body.length + lineBreak.length)) rfl
    have hlength : (body ++ lineBreak ++ before).length =
        body.length + lineBreak.length + before.length := by simp [Nat.add_assoc]
    have hstart := h.start_le
    refine ⟨body ++ lineBreak ++ before, body', lineBreak', after, ?_, ?_, h.unbroken, h.terminates,
      by omega, h.lt_stop.imp_left fun hlt => by omega⟩
    · rw [h.text]
      simp only [List.append_assoc]
    · by_cases hbefore : before = []
      · have hrest : rest = body' ++ lineBreak' ++ after := by simpa [hbefore] using h.text
        rw [hbefore, List.append_nil, lineStarts_append_iff hne, ← hrest]
        exact hterm.lineStarts
      · rw [lineStarts_append_iff hbefore]
        exact h.starts

namespace OnLine

variable {s before body lineBreak after : List Char} {p : Nat}

/-- The lines above, the start and the line with its break are told by the parts of the text. -/
theorem lineOf_eq (h : OnLine s p before body lineBreak after) :
    lineOf s p = ⟨(lines before).dropLast.reverse, before.length, body ++ lineBreak⟩ := by
  obtain ⟨ls, hls, hend⟩ := exists_lines_of_terminates h.unbroken h.terminates
  have hflat := flatten_dropLast_lines h.starts
  have hcut : lines s = (lines before).dropLast ++ (body ++ lineBreak) :: ls := by
    rw [← hls, ← lines_append h.starts, h.text]
    simp only [List.append_assoc]
  rw [lineOf, hcut, lineFrom_append _ (List.cons_ne_nil _ ls) (by simpa [hflat] using h.start_le),
    hflat, Nat.zero_add, List.append_nil, lineFrom_head]
  rw [List.length_append, ← Nat.add_assoc]
  exact h.lt_stop.imp_right hend

theorem length_eq (h : OnLine s p before body lineBreak after) :
    s.length = before.length + body.length + lineBreak.length + after.length := by
  rw [h.text, List.length_append, List.length_append, List.length_append]

/-- In a text that ends in a break, every line does. -/
theorem lineBreak_ne_nil (h : OnLine s p before body lineBreak after) (hp : p < s.length) {c : Char}
    (hc : s.getLast? = some c) (hbreak : isLineBreak c = true) : lineBreak ≠ [] := by
  rintro rfl
  have hafter : after = [] := by
    cases h.terminates
    rfl
  have hcut : s = before ++ body := by
    rw [h.text, hafter, List.append_nil, List.append_nil]
  have hbody : body ≠ [] := by
    rintro rfl
    rw [hcut, List.append_nil] at hp
    exact Nat.not_lt_of_le h.start_le hp
  rw [hcut, List.getLast?_append_of_ne_nil _ hbody] at hc
  rw [h.unbroken c (List.mem_of_getLast? hc)] at hbreak
  cases hbreak

end OnLine

/-- In front of where a line starts another one ends. -/
theorem exists_line_above {s t : List Char} (hs : s ≠ []) (h : LineStarts s t) :
    ∃ before body lineBreak, s = before ++ body ++ lineBreak ∧
      OnLine (s ++ t) (s.length - 1) before body lineBreak t := by
  obtain ⟨before, body, lineBreak, after, hline⟩ := exists_onLine s (s.length - 1)
  have hpos : 0 < s.length := List.length_pos_iff.mpr hs
  have hlast := List.getLast?_eq_some_getLast hs
  have hbreak : lineBreak ≠ [] :=
    hline.lineBreak_ne_nil (by omega) hlast (isLineBreak_of_endsLine (h _ hlast))
  have hafter : after = [] := by
    have hlength := hline.length_eq
    have hlt := hline.lt_stop.resolve_right hbreak
    exact List.eq_nil_of_length_eq_zero (by omega)
  subst hafter
  have htext : s = before ++ body ++ lineBreak := hline.text.trans (List.append_nil _)
  refine ⟨before, body, lineBreak, htext, ?_, ?_, hline.unbroken, ?_, hline.start_le, hline.lt_stop⟩
  · rw [htext]
  · refine hline.starts.congr ?_
    rw [List.append_nil, List.head?_append_of_ne_nil _ (List.append_ne_nil_of_right_ne_nil body hbreak)]
  · rw [htext, lineStarts_append_iff hbreak] at h
    exact hline.terminates.of_lineStarts hbreak h

/-! ## The content of a line -/

theorem dropWhile_of_unbroken {s : List Char} (hs : Unbroken s) {c : Char}
    (hc : isLineBreak c = true) : s.reverse.dropWhile (· == c) = s.reverse := by
  cases hr : s.reverse with
  | nil => rfl
  | cons d r =>
    have hd : d ∈ s := List.mem_reverse.mp (hr ▸ List.mem_cons_self)
    have hne : d ≠ c := by
      rintro rfl
      rw [hs d hd] at hc
      cases hc
    rw [List.dropWhile_cons_of_neg (by simpa using hne)]

/-- What has no breaks stays in the content of a line. -/
theorem lineContent_unbroken_append {body : List Char} (hbody : Unbroken body) (l : List Char) :
    lineContent (body ++ l) = body ++ lineContent l := by
  have hfeed := dropWhile_of_unbroken hbody (c := '\n') rfl
  have hreturn := dropWhile_of_unbroken hbody (c := '\r') rfl
  rw [lineContent, lineContent, List.reverse_append, List.dropWhile_append]
  split
  · next hnil =>
    rw [List.isEmpty_iff.mp hnil, hfeed, hreturn]
    simp
  · rw [List.dropWhile_append]
    split
    · next hnil =>
      rw [List.isEmpty_iff.mp hnil, hreturn]
      simp
    · rw [List.reverse_append, List.reverse_reverse]

/-- The content of a line is what stands in front of its break, unless the break is neither a line
feed nor a carriage return nor both. -/
theorem Terminates.lineContent_cases {lineBreak rest : List Char} (h : Terminates lineBreak rest) :
    lineContent lineBreak = [] ∧ (∀ c, lineBreak.head? = some c → c = '\n' ∨ c = '\r') ∨
      ∃ c, lineBreak = [c] ∧ lineContent lineBreak = [c] ∧ c ≠ '\n' ∧ c ≠ '\r' := by
  cases h with
  | atEnd => exact .inl ⟨rfl, nofun⟩
  | @char c _ h =>
    by_cases hfeed : c = '\n'
    · subst hfeed
      refine .inl ⟨rfl, ?_⟩
      rintro _ ⟨⟩
      exact .inl rfl
    by_cases hreturn : c = '\r'
    · subst hreturn
      refine .inl ⟨rfl, ?_⟩
      rintro _ ⟨⟩
      exact .inr rfl
    · exact .inr ⟨c, rfl, by simp [lineContent, hfeed, hreturn], hfeed, hreturn⟩
  | pair =>
    refine .inl ⟨rfl, ?_⟩
    rintro _ ⟨⟩
    exact .inr rfl

end Text

/-! ## The bounds of the line of point -/

namespace Buffer

open Text

/-- Two positions frame the line of point: a line starts at the first one, point is between them,
there are no breaks between them, and at the second one the text ends or a break stands. -/
structure Framed (b : Buffer) (start stop : Nat) : Prop where
  start_le : start ≤ b.point
  le_stop : b.point ≤ stop
  unbroken : Unbroken (b.slice start stop)
  starts : LineStarts (b.text.take start) (b.text.drop start)
  ends : stop = b.length ∨ ∃ c, b.text[stop]? = some c ∧ isLineBreak c = true

/-- Point is between the two characters of a break. -/
def SplitsBreak (b : Buffer) : Prop :=
  (b.text.take b.point).getLast? = some '\r' ∧ (b.text.drop b.point).head? = some '\n'

/-- The first break from point on is neither a line feed nor a carriage return. -/
def EndsInOtherBreak (b : Buffer) : Prop :=
  ∃ c, (b.text.drop b.point).find? isLineBreak = some c ∧ c ≠ '\n' ∧ c ≠ '\r'

/-- The last character in front of a position of the text. -/
theorem getLast?_take (b : Buffer) {p : Nat} (hp : p < b.length) :
    (b.text.take (p + 1)).getLast? = b.text[p]? := by
  rw [List.getLast?_take, if_neg (Nat.succ_ne_zero p), Nat.add_sub_cancel,
    List.getElem?_eq_getElem hp, Option.some_or]

namespace Framed

variable {b : Buffer} {p q p' q' : Nat}

theorem stop_le (h : b.Framed p q) : q ≤ b.length := by
  rcases h.ends with rfl | ⟨c, hc, -⟩
  · exact Nat.le_refl _
  · exact Nat.le_of_lt (List.getElem?_eq_some_iff.mp hc).1

/-- No break stands between the bounds. -/
theorem isLineBreak_eq_false (h : b.Framed p q) {i : Nat} (hp : p ≤ i) (hq : i < q) {c : Char}
    (hc : b.text[i]? = some c) : isLineBreak c = false := by
  refine h.unbroken c (List.mem_iff_getElem?.mpr ⟨i - p, ?_⟩)
  rw [slice, List.getElem?_drop, List.getElem?_take_of_lt (by omega), Nat.add_sub_cancel' hp, hc]

theorem start_le_start (h : b.Framed p q) (h' : b.Framed p' q') : p' ≤ p := by
  rcases p' with _ | i
  · exact Nat.zero_le p
  refine Nat.succ_le_of_lt (Nat.lt_of_not_le fun hpi => ?_)
  have hpoint := h'.start_le
  have hi : i < b.length := Nat.lt_of_lt_of_le hpoint (Nat.le_trans h.le_stop h.stop_le)
  -- A line starts behind a break, and there it would be between the other bounds.
  have hchar := List.getElem?_eq_getElem hi
  have hends := h'.starts _ ((getLast?_take b hi).trans hchar)
  have hplain := h.isLineBreak_eq_false hpi (Nat.lt_of_lt_of_le hpoint h.le_stop) hchar
  rw [isLineBreak_of_endsLine hends] at hplain
  cases hplain

theorem stop_le_stop (h : b.Framed p q) (h' : b.Framed p' q') : q ≤ q' := by
  refine Nat.le_of_not_lt fun hlt => ?_
  rcases h'.ends with hend | ⟨c, hc, hbreak⟩
  · exact absurd h.stop_le (by omega)
  · rw [h.isLineBreak_eq_false (Nat.le_trans h.start_le h'.le_stop) hlt hc] at hbreak
    cases hbreak

/-- There is one frame at most. -/
theorem unique (h : b.Framed p q) (h' : b.Framed p' q') : p = p' ∧ q = q' :=
  ⟨Nat.le_antisymm (h'.start_le_start h) (h.start_le_start h'),
    Nat.le_antisymm (h.stop_le_stop h') (h'.stop_le_stop h)⟩

end Framed

/-- Nothing frames a point between the two characters of a break. -/
theorem SplitsBreak.not_framed {b : Buffer} (h : b.SplitsBreak) (p q : Nat) : ¬ b.Framed p q := by
  intro hframed
  obtain ⟨hreturn, hfeed⟩ := h
  have hstop := Nat.le_trans hframed.le_stop hframed.stop_le
  rcases Nat.eq_or_lt_of_le hframed.start_le with rfl | hlt
  · have hends := hframed.starts '\r' hreturn
    rw [endsLine, hfeed] at hends
    cases hends
  · obtain ⟨i, hi⟩ : ∃ i, b.point = i + 1 := ⟨b.point - 1, by omega⟩
    rw [hi, getLast?_take b (by omega)] at hreturn
    have hplain := hframed.isLineBreak_eq_false (by omega) (by have := hframed.le_stop; omega) hreturn
    cases hplain

/-- The bounds told by the parts of the text. -/
theorem lineBounds_eq {b : Buffer} {before body lineBreak after : List Char}
    (h : OnLine b.text b.point before body lineBreak after) :
    b.lineBounds =
      (before.length, before.length + body.length + (lineContent lineBreak).length) := by
  rw [lineBounds, line, h.lineOf_eq, Line.stop, Line.content, lineContent_unbroken_append h.unbroken,
    List.length_append, Nat.add_assoc]

/-- The parts of the text frame the line if point is not behind its break, or in it. -/
theorem framed_of_onLine {b : Buffer} {before body lineBreak after : List Char}
    (h : OnLine b.text b.point before body lineBreak after)
    (hpoint : b.point ≤ before.length + body.length) :
    b.Framed before.length (before.length + body.length) where
  start_le := h.start_le
  le_stop := hpoint
  unbroken := by
    have hslice : b.slice before.length (before.length + body.length) = body := by
      rw [slice, h.text, List.append_assoc, ← List.length_append, List.take_left, List.drop_left]
    rw [hslice]
    exact h.unbroken
  starts := by
    have hstarts := h.starts
    rwa [h.text, List.append_assoc, List.append_assoc, List.take_left, List.drop_left,
      ← List.append_assoc]
  ends := by
    rw [length, h.length_eq, h.text, ← List.length_append, List.append_assoc]
    cases h.terminates with
    | atEnd => exact .inl (by simp)
    | char hends => exact .inr ⟨_, by simp, isLineBreak_of_endsLine hends⟩
    | pair => exact .inr ⟨'\r', by simp, rfl⟩

/-- The first break from point on is the one of its line. -/
theorem find?_isLineBreak {b : Buffer} {before body lineBreak after : List Char}
    (h : OnLine b.text b.point before body lineBreak after)
    (hpoint : b.point ≤ before.length + body.length) :
    (b.text.drop b.point).find? isLineBreak = lineBreak.head? := by
  obtain ⟨k, hk⟩ := Nat.exists_eq_add_of_le h.start_le
  have hdrop : b.text.drop b.point = body.drop k ++ (lineBreak ++ after) := by
    rw [h.text, hk, List.append_assoc, List.append_assoc, List.drop_length_add_append,
      List.drop_append_of_le_length (by omega)]
  have hnone : (body.drop k).find? isLineBreak = none :=
    List.find?_eq_none.mpr fun c hc => by simp [h.unbroken c (List.mem_of_mem_drop hc)]
  rw [hdrop, List.find?_append, hnone, Option.none_or]
  cases h.terminates with
  | atEnd => rfl
  | char hends => exact List.find?_cons_of_pos (isLineBreak_of_endsLine hends)
  | pair => rfl

/-- Point splits a break if it is behind what is on the line but not behind the break. -/
theorem splitsBreak_iff {b : Buffer} {before body lineBreak after : List Char}
    (h : OnLine b.text b.point before body lineBreak after) (hb : b.point ≤ b.length) :
    b.SplitsBreak ↔ lineBreak = ['\r', '\n'] ∧ b.point = before.length + body.length + 1 := by
  constructor
  · intro hsplits
    have hlt : before.length + body.length < b.point :=
      Nat.lt_of_not_le fun hle => hsplits.not_framed _ _ (framed_of_onLine h hle)
    rw [length, h.length_eq] at hb
    have hstop := h.lt_stop
    cases h.terminates with
    | atEnd => simp at hb; omega
    | char => simp at hstop; omega
    | pair => exact ⟨rfl, by simp at hstop; omega⟩
  · rintro ⟨rfl, hpoint⟩
    have hcut : b.text = (before ++ body ++ ['\r']) ++ ('\n' :: after) := by simp [h.text]
    have hlength : b.point = (before ++ body ++ ['\r']).length := by simp [hpoint, Nat.add_assoc]
    refine ⟨?_, ?_⟩
    · rw [hcut, hlength, List.take_left, List.getLast?_append_cons, List.getLast?_singleton]
    · rw [hcut, hlength, List.drop_left, List.head?_cons]

theorem point_le_of_not_splitsBreak {b : Buffer} {before body lineBreak after : List Char}
    (h : OnLine b.text b.point before body lineBreak after) (hb : b.point ≤ b.length)
    (hsplits : ¬ b.SplitsBreak) : b.point ≤ before.length + body.length := by
  rw [splitsBreak_iff h hb] at hsplits
  have hstop := h.lt_stop
  rw [length, h.length_eq] at hb
  cases h.terminates with
  | atEnd => simpa using hb
  | char => simpa [Nat.lt_succ_iff] using hstop
  | pair =>
    have hne : b.point ≠ before.length + body.length + 1 := fun heq => hsplits ⟨rfl, heq⟩
    simp at hstop
    omega

theorem SplitsBreak.not_endsInOtherBreak {b : Buffer} (h : b.SplitsBreak) : ¬ b.EndsInOtherBreak := by
  rintro ⟨c, hc, hfeed, -⟩
  obtain ⟨rest, hrest⟩ := List.head?_eq_some_iff.mp h.2
  rw [hrest, List.find?_cons_of_pos rfl] at hc
  exact hfeed (Option.some.inj hc).symm

/-- Between the two characters of a break, the bounds are those of the position in front of it. -/
theorem SplitsBreak.framed_moveTo {b : Buffer} (h : b.SplitsBreak) (hb : b.point ≤ b.length) :
    b.point = b.lineBounds.2 + 1 ∧
      (b.moveTo b.lineBounds.2).Framed b.lineBounds.1 b.lineBounds.2 := by
  obtain ⟨before, body, lineBreak, after, hline⟩ := exists_onLine b.text b.point
  obtain ⟨rfl, hpoint⟩ := (splitsBreak_iff hline hb).mp h
  have hbounds : b.lineBounds = (before.length, before.length + body.length) := lineBounds_eq hline
  rw [hbounds]
  have hmove : (b.moveTo (before.length + body.length)).point = before.length + body.length :=
    Nat.min_eq_left (by omega)
  have hfront : OnLine (b.moveTo (before.length + body.length)).text
      (b.moveTo (before.length + body.length)).point before body ['\r', '\n'] after :=
    { hline with
      start_le := hmove.symm ▸ Nat.le_add_right ..
      lt_stop := .inl (hmove.symm ▸ Nat.lt_add_of_pos_right Nat.two_pos) }
  exact ⟨hpoint, framed_of_onLine hfront (Nat.le_of_eq hmove)⟩

/-- The bounds of the line of point frame it, unless point is between the two characters of a break or
the line ends in a break that is neither a line feed nor a carriage return.  Such a break is within the
bounds, and without it they frame the line.  Between the two characters of a break there is nothing to
frame point; the bounds are those of the position in front of the break. -/
theorem lineBounds_framed_iff (b : Buffer) (hb : b.point ≤ b.length) :
    let start := b.lineBounds.1
    let stop := b.lineBounds.2
    (b.Framed start stop ↔ ¬ b.SplitsBreak ∧ ¬ b.EndsInOtherBreak) ∧
      (b.EndsInOtherBreak → b.point < stop ∧ b.Framed start (stop - 1)) ∧
      (b.SplitsBreak → b.point = stop + 1 ∧ (b.moveTo stop).Framed start stop ∧
        ∀ p q, ¬ b.Framed p q) := by
  intro start stop
  by_cases hsplits : b.SplitsBreak
  · have hother := hsplits.not_endsInOtherBreak
    have hnone := hsplits.not_framed
    obtain ⟨hpoint, hfront⟩ := hsplits.framed_moveTo hb
    exact ⟨iff_of_false (hnone _ _) fun hneither => hneither.1 hsplits, fun hc => absurd hc hother,
      fun _ => ⟨hpoint, hfront, hnone⟩⟩
  obtain ⟨before, body, lineBreak, after, h⟩ := exists_onLine b.text b.point
  have hbounds := lineBounds_eq h
  have hstart : start = before.length := congrArg Prod.fst hbounds
  have hstop : stop = before.length + body.length + (lineContent lineBreak).length :=
    congrArg Prod.snd hbounds
  have hpoint := point_le_of_not_splitsBreak h hb hsplits
  have hframed := framed_of_onLine h hpoint
  have hfind := find?_isLineBreak h hpoint
  rcases h.terminates.lineContent_cases with ⟨hnil, hhead⟩ | ⟨c, rfl, hkept, hfeed, hreturn⟩
  · have hother : ¬ b.EndsInOtherBreak := by
      rintro ⟨c, hc, hfeed, hreturn⟩
      exact (hhead c (hfind.symm.trans hc)).elim hfeed hreturn
    rw [hnil, List.length_nil, Nat.add_zero] at hstop
    rw [hstart, hstop]
    exact ⟨iff_of_true hframed ⟨hsplits, hother⟩, fun hc => absurd hc hother,
      fun hc => absurd hc hsplits⟩
  · have hother : b.EndsInOtherBreak := ⟨c, hfind, hfeed, hreturn⟩
    rw [hkept, List.length_singleton] at hstop
    rw [hstart, hstop]
    refine ⟨iff_of_false (fun hc => ?_) fun hneither => hneither.2 hother,
      fun _ => ⟨by omega, hframed⟩, fun hc => absurd hc hsplits⟩
    have hsame := (hframed.unique hc).2
    omega

/-- Nothing frames a point between the two characters of a break. -/
theorem lineBounds_framed_iff_split :
    let b : Buffer := { id := 0, text := ['a', '\r', '\n', 'b'], point := 2 }
    b.point ≤ b.length ∧ b.SplitsBreak ∧ b.lineBounds = (0, 1) ∧ (b.moveTo 1).Framed 0 1 ∧
      ∀ p q, ¬ b.Framed p q := by
  intro b
  have hb : b.point ≤ b.length := by decide
  have hsplits : b.SplitsBreak := ⟨rfl, rfl⟩
  obtain ⟨-, -, hsplit⟩ := lineBounds_framed_iff b hb
  obtain ⟨-, hframed, hnone⟩ := hsplit hsplits
  exact ⟨hb, hsplits, rfl, hframed, hnone⟩

/-- A vertical tab is within the bounds of the line that it ends. -/
theorem lineBounds_of_verticalTab :
    let b : Buffer := { id := 0, text := ['a', '\x0b', 'b'] }
    b.lineBounds = (0, 2) ∧ ¬ b.Framed 0 2 ∧ b.Framed 0 1 := by
  intro b
  refine ⟨rfl, fun h => ?_, ⟨by decide, by decide, ?_, lineStarts_nil _, .inr ⟨'\x0b', rfl, rfl⟩⟩⟩
  · exact absurd (h.isLineBreak_eq_false (i := 1) (by decide) (by decide) rfl) (by decide)
  · rintro c hc
    obtain rfl := List.mem_singleton.mp hc
    rfl

end Buffer

end TextTemplate
