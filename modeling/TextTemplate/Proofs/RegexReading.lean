import TextTemplate.Proofs.RegexOpenings

/-!
# Patterns are read alike

A pattern is read piece by piece, and the reading ends where nothing is left or a parenthesis closes
what the pattern did not open.  In front of any other text where a pattern may end, it is read the
same (`readTo_of_parseFrom?`).  Only a comment at its end may swallow that text.
-/

namespace TextTemplate.Regex

open Scanner

/-! ## Patterns -/

/-- The marks of repetitions. -/
def mark? (c : Char) : Option Times :=
  match c with
  | '?' => some ⟨0, some 1⟩
  | '*' => some ⟨0, none⟩
  | '+' => some ⟨1, none⟩
  | _ => none

/-- The atom of a character that is one by itself. -/
def plainAtom (c : Char) : Atom :=
  match c with
  | '.' => .dot
  | '^' => .assertion .lineStart
  | '$' => .assertion .lineEnd
  | c => .literal { char := c }

/-- Whether a character is no atom by itself and no mark of a repetition. -/
def opens (c : Char) : Bool := [')', '|', '(', '[', '\x7b', '\\'].contains c

section Cases

-- The equations are worked out here, once for all the proofs that follow.
attribute [local simp] parseFrom?

variable {n : Nat} {p : Progress} {s q r : List Char} {c : Char}

theorem parseFrom?_of_atEnd (h : AtEnd (skip p.spaced s)) :
    parseFrom? (n + 1) p s = some (p, skip p.spaced s) := by
  rcases h.eq_nil_or_cons with hskip | ⟨r, hskip⟩
  · rw [parseFrom?, hskip]
  · rw [parseFrom?, hskip]
    rfl

theorem parseFrom?_branch (hskip : skip p.spaced s = '|' :: q) :
    parseFrom? (n + 1) p s = parseFrom? n p.branch q := by
  rw [parseFrom?, hskip]
  rfl

theorem parseFrom?_class (hskip : skip p.spaced s = '[' :: q) :
    parseFrom? (n + 1) p s =
      (class? p.spaced q).bind fun x => parseFrom? n (p.push x.1) x.2 := by
  rw [parseFrom?, hskip]
  rfl

theorem parseFrom?_mark {times : Times} (hskip : skip p.spaced s = c :: q)
    (hc : mark? c = some times) :
    parseFrom? (n + 1) p s =
      (p.repeated? times (greed q).1).bind fun p' => parseFrom? n p' (greed q).2 := by
  rw [parseFrom?, hskip]
  unfold mark? at hc
  split at hc
  all_goals
    cases hc
    try rfl

theorem parseFrom?_counted (hskip : skip p.spaced s = '\x7b' :: q) :
    parseFrom? (n + 1) p s = (counted? p.spaced q).bind fun x =>
      (p.repeated? x.1 (greed (skip p.spaced x.2)).1).bind fun p' =>
        parseFrom? n p' (greed (skip p.spaced x.2)).2 := by
  rw [parseFrom?, hskip]
  rfl

theorem parseFrom?_escape (hskip : skip p.spaced s = '\\' :: q) :
    parseFrom? (n + 1) p s =
      (escape? p.spaced q).bind fun x => parseFrom? n (p.push (.atom x.1)) x.2 := by
  rw [parseFrom?, hskip]
  rfl

theorem parseFrom?_atom (hskip : skip p.spaced s = c :: q) (hc : opens c = false)
    (hmark : mark? c = none) :
    parseFrom? (n + 1) p s = parseFrom? n (p.push (.atom (plainAtom c))) q := by
  rw [parseFrom?, hskip]
  split
  · next heq => cases heq
  case h_14 =>
    next hdot hstart hend heq =>
      cases heq
      unfold plainAtom
      split
      · exact (hdot rfl).elim
      · exact (hstart rfl).elim
      · exact (hend rfl).elim
      · rfl
  all_goals
    next heq =>
      cases heq
      first
      | rfl
      | exact absurd hc (by decide)
      | exact absurd hmark (by decide)

theorem parseFrom?_changes {fs : FlagChanges} (hskip : skip p.spaced s = '(' :: q)
    (hopen : opening? p.spaced q = some (.changes fs, r)) :
    parseFrom? (n + 1) p s =
      parseFrom? n { p.push (.changeFlags fs) with spaced := FlagChanges.spaced fs p.spaced } r := by
  rw [parseFrom?, hskip]
  simp only [hopen]

theorem parseFrom?_of_not_open (hskip : skip p.spaced s = '(' :: q)
    (hopen : opening? p.spaced q = none) : parseFrom? (n + 1) p s = none := by
  rw [parseFrom?, hskip]
  simp only [hopen]

end Cases

section Group

variable {n : Nat} {p inner : Progress} {s t r : List Char} {kind : GroupKind}
  {name : Option String} {names : List String} (hskip : skip p.spaced s = '(' :: t)
  (hopen : opening? p.spaced t = some (.group kind name, r))

include hskip hopen

theorem parseFrom?_group :
    parseFrom? (n + 1) p s =
      (addName? p.names name).bind fun names =>
        (parseFrom? n { spaced := kind.spaced p.spaced, names } r).bind fun x =>
          match x.2 with
          | ')' :: r => parseFrom? n { p.push (.group kind x.1.close) with names := x.1.names } r
          | _ => none := by
  rw [parseFrom?, hskip]
  simp only [hopen]
  rfl

theorem parseFrom?_of_closed {r' : List Char} (hnames : addName? p.names name = some names)
    (hinner : parseFrom? n { spaced := kind.spaced p.spaced, names } r = some (inner, ')' :: r')) :
    parseFrom? (n + 1) p s =
      parseFrom? n { p.push (.group kind inner.close) with names := inner.names } r' := by
  rw [parseFrom?_group hskip hopen, hnames, Option.bind_some, hinner]
  rfl

/-- A group that is read has a closing parenthesis. -/
theorem exists_closed {x : Progress × List Char} (h : parseFrom? (n + 1) p s = some x) :
    ∃ names inner r', addName? p.names name = some names ∧
      parseFrom? n { spaced := kind.spaced p.spaced, names } r = some (inner, ')' :: r') ∧
      parseFrom? n { p.push (.group kind inner.close) with names := inner.names } r' = some x := by
  rw [parseFrom?_group hskip hopen] at h
  obtain ⟨names, hnames, h⟩ := Option.bind_eq_some_iff.mp h
  obtain ⟨⟨inner, t'⟩, hinner, h⟩ := Option.bind_eq_some_iff.mp h
  dsimp only at h
  split at h
  · next r' => exact ⟨names, inner, r', hnames, hinner, h⟩
  · cases h

end Group

theorem parseFrom?_unnamed_iff {n : Nat} {p : Progress} {s t r : List Char} {kind : GroupKind}
    {x : Progress × List Char} (hskip : skip p.spaced s = '(' :: t)
    (hopen : opening? p.spaced t = some (.group kind none, r)) :
    parseFrom? (n + 1) p s = some x ↔
      ∃ inner r',
        parseFrom? n { spaced := kind.spaced p.spaced, names := p.names } r =
          some (inner, ')' :: r') ∧
        parseFrom? n { p.push (.group kind inner.close) with names := inner.names } r' = some x := by
  constructor
  · intro h
    obtain ⟨names, inner, r', hnames, hinner, hrest⟩ := exists_closed hskip hopen h
    cases hnames
    exact ⟨inner, r', hinner, hrest⟩
  · rintro ⟨inner, r', hinner, hrest⟩
    rw [parseFrom?_of_closed hskip hopen rfl hinner]
    exact hrest

/-! ## Steps -/

/-- Whether a piece of a pattern takes its reading one step on: in front of any rest that goes on
alike and can be read on, the piece is read first. -/
def Steps (p : Progress) (s : List Char) (p' : Progress) (r : List Char) : Prop :=
  ∃ w, w ≠ [] ∧ s = w ++ r ∧ ∀ ⦃n t x⦄, w.length ≤ n + 1 → Alike r t →
    parseFrom? n p' t = some x → parseFrom? (n + 1) p (w ++ t) = some x

/-- Whether a text ends in a comment. -/
def EndsInComment (s : List Char) : Prop := ∃ v c, s = v ++ '#' :: c ∧ '\n' ∉ c

theorem EndsInComment.append {s : List Char} (v : List Char) (h : EndsInComment s) :
    EndsInComment (v ++ s) := by
  obtain ⟨w, c, rfl, hc⟩ := h
  exact ⟨v ++ w, c, (List.append_assoc ..).symm, hc⟩

/-- How a pattern is read in front of a text where it may end.  If the pattern ends in a comment,
that may swallow the text. -/
structure Reads (p : Progress) (w : List Char) (q : Progress) (commented : Bool) : Prop where
  endsInComment : commented = true → EndsInComment w
  read : ∀ ⦃n t⦄, w.length < n → AtEnd t → (commented = true → '\n' ∉ t) →
    parseFrom? n p (w ++ t) = some (q, if commented then [] else t)

section Steps

variable {α : Type} {f : List Char → Option (α × List Char)} {n : Nat} {p p' q : Progress}
  {s r u : List Char} {a : α} {c : Char} {commented : Bool}

/-- A piece that starts with a character and goes on as a local reader reads it. -/
theorem Steps.of_local (hskip : skip p.spaced s = c :: u) (hf : Local f u a r)
    (hstep : ∀ ⦃n t v v' x⦄, skip p.spaced t = c :: v → f v = some (a, v') → Alike r v' →
      parseFrom? n p' v' = some x → parseFrom? (n + 1) p t = some x) : Steps p s p' r := by
  obtain ⟨w, rfl, hw⟩ := exists_of_skip_cons hskip
  obtain ⟨v, rfl, hread⟩ := hf
  refine ⟨w ++ c :: v, by simp, by simp, fun n t x _ ht hx => ?_⟩
  have hskip' := hw (v ++ t)
  rw [List.append_assoc]
  exact hstep hskip' (hread t ht) ht hx

/-- What follows a step is read alike, and so is the whole. -/
theorem Steps.reads {w : List Char} (h : Steps p s p' (w ++ r)) (hr : AtEnd r)
    (hw : Reads p' w q commented) : ∃ v, s = v ++ r ∧ Reads p v q commented := by
  obtain ⟨v, hv, rfl, hstep⟩ := h
  refine ⟨v ++ w, (List.append_assoc ..).symm, fun hc => (hw.endsInComment hc).append v,
    fun n t hn ht hline => ?_⟩
  have hpos := List.length_pos_of_ne_nil hv
  rw [List.length_append] at hn
  obtain ⟨n, rfl⟩ : ∃ m, n = m + 1 := ⟨n - 1, by omega⟩
  rw [List.append_assoc]
  exact hstep (by omega) ((Alike.atEnd hr ht).append w) (hw.read (by omega) ht hline)

theorem AtEnd.skip {spaced : Bool} {t : List Char} (h : AtEnd t) : Scanner.skip spaced t = t := by
  rcases h.eq_nil_or_cons with rfl | ⟨r, rfl⟩
  · exact skip_nil spaced
  · exact skip_paren spaced r

theorem AtEnd.left {t : List Char} (h : AtEnd t) : AtEnd (if commented then [] else t) := by
  cases commented with
  | false => exact h
  | true => exact stops_nil

theorem skipBlanks_of_comment {t : List Char} (ht : '\n' ∉ t) : skipBlanks true t = [] := by
  induction t with
  | nil => rfl
  | cons c t ih =>
    obtain ⟨hc, ht⟩ := List.ne_and_not_mem_of_not_mem_cons ht
    have hc' : (c != '\n') = true := by simpa using hc.symm
    rw [skipBlanks, hc']
    exact ih ht

/-- Where nothing is left, a comment may be open, which swallows what is put behind. -/
theorem exists_skipBlanks_append {comment : Bool} (h : skipBlanks comment s = []) :
    ∃ commented : Bool,
      (commented = true → comment = true ∧ '\n' ∉ s ∨ EndsInComment s) ∧
      ∀ t, AtEnd t → (commented = true → '\n' ∉ t) →
        skipBlanks comment (s ++ t) = if commented then [] else t := by
  fun_induction skipBlanks comment s with
  | case1 comment =>
    cases comment with
    | false =>
      exact ⟨false, fun hc => absurd hc Bool.false_ne_true,
        fun t ht _ => (ht.skip : skip true t = t)⟩
    | true =>
      exact ⟨true, fun _ => .inl ⟨rfl, List.not_mem_nil⟩,
        fun t _ hline => skipBlanks_of_comment (hline rfl)⟩
  | case2 c s ih =>
    obtain ⟨commented, hopen, hleft⟩ := ih h
    refine ⟨commented, fun hc => ?_, hleft⟩
    rcases hopen hc with ⟨hne, hline⟩ | hends
    · exact .inl ⟨rfl, List.not_mem_cons_of_ne_of_not_mem (Ne.symm (by simpa using hne)) hline⟩
    · exact .inr (hends.append [c])
  | case3 c s hblank ih =>
    obtain ⟨commented, hopen, hleft⟩ := ih h
    refine ⟨commented, fun hc => ?_, fun t ht hline => ?_⟩
    · rcases hopen hc with ⟨hcomment, -⟩ | hends
      · exact absurd hcomment Bool.false_ne_true
      · exact .inr (hends.append [c])
    · rw [List.cons_append, skipBlanks, if_pos hblank]
      exact hleft t ht hline
  | case4 s hblank ih =>
    obtain ⟨commented, hopen, hleft⟩ := ih h
    refine ⟨commented, fun hc => ?_, fun t ht hline => ?_⟩
    · rcases hopen hc with ⟨-, hline⟩ | hends
      · exact .inr ⟨[], s, rfl, hline⟩
      · exact .inr (hends.append ['#'])
    · rw [List.cons_append, skipBlanks, if_neg hblank, if_pos rfl]
      exact hleft t ht hline
  | case5 => cases h

theorem exists_skip_append {spaced : Bool} (h : skip spaced s = []) :
    ∃ commented : Bool, (commented = true → EndsInComment s) ∧
      ∀ t, AtEnd t → (commented = true → '\n' ∉ t) →
        skip spaced (s ++ t) = if commented then [] else t := by
  cases spaced with
  | false =>
    obtain rfl : s = [] := h
    exact ⟨false, nofun, fun t _ _ => rfl⟩
  | true =>
    obtain ⟨commented, hopen, hleft⟩ :=
      exists_skipBlanks_append (h : skipBlanks false s = [])
    refine ⟨commented, fun hc => ?_, hleft⟩
    rcases hopen hc with ⟨hcomment, -⟩ | hends
    · exact nomatch hcomment
    · exact hends

theorem reads_of_paren (hskip : skip p.spaced s = ')' :: r) :
    ∃ w, s = w ++ ')' :: r ∧ Reads p w p false := by
  obtain ⟨-, w, rfl, hw⟩ := exists_of_skip hskip (List.cons_ne_nil _ _)
  refine ⟨w, rfl, nofun, fun n t hn ht _ => ?_⟩
  obtain ⟨n, rfl⟩ : ∃ m, n = m + 1 := ⟨n - 1, by omega⟩
  have hparen : Alike [')'] t := .atEnd (stops_cons.mpr rfl) ht
  have hskip' : skip p.spaced (w ++ t) = t :=
    hw t (hparen.stops (passed_paren rfl) (stops_cons.mpr (passed_paren rfl)))
  rw [parseFrom?_of_atEnd (by rwa [hskip']), hskip']
  rfl

theorem reads_of_nil (hskip : skip p.spaced s = []) : ∃ commented, Reads p s p commented := by
  obtain ⟨commented, hends, hleft⟩ := exists_skip_append hskip
  refine ⟨commented, hends, fun n t hn ht hline => ?_⟩
  obtain ⟨n, rfl⟩ : ∃ m, n = m + 1 := ⟨n - 1, by omega⟩
  have hskip' := hleft t ht hline
  rw [parseFrom?_of_atEnd (by rw [hskip']; exact ht.left), hskip']

/-- What is known of a pattern that was read up to some rest: a pattern or a group may end there, and
what was read is read alike in front of any text where it may end. -/
def ReadTo (p : Progress) (s : List Char) (q : Progress) (r : List Char) : Prop :=
  AtEnd r ∧ ∃ w commented, s = w ++ r ∧ (commented = true → r = []) ∧ Reads p w q commented

theorem ReadTo.exists_reads (h : ReadTo p s q []) : ∃ commented, Reads p s q commented := by
  obtain ⟨-, w, commented, rfl, -, hw⟩ := h
  rw [List.append_nil]
  exact ⟨commented, hw⟩

theorem ReadTo.of_steps (h : Steps p s p' u) (hu : ReadTo p' u q r) : ReadTo p s q r := by
  obtain ⟨hr, w, commented, rfl, hnil, hw⟩ := hu
  obtain ⟨v, rfl, hv⟩ := h.reads hr hw
  exact ⟨hr, v, commented, rfl, hnil, hv⟩

theorem ReadTo.of_atEnd (h : AtEnd (skip p.spaced s)) : ReadTo p s p (skip p.spaced s) := by
  rcases h.eq_nil_or_cons with hskip | ⟨r, hskip⟩
  · obtain ⟨commented, hreads⟩ := reads_of_nil hskip
    rw [hskip]
    exact ⟨stops_nil, s, commented, (List.append_nil s).symm, fun _ => rfl, hreads⟩
  · obtain ⟨w, hs, hreads⟩ := reads_of_paren hskip
    rw [hskip] at h ⊢
    exact ⟨h, w, false, hs, nofun, hreads⟩

theorem Steps.of_branch (hskip : skip p.spaced s = '|' :: u) : Steps p s p.branch u :=
  .of_local hskip (.pure () u) fun n t v v' x ht hv _ hx => by
    cases hv
    rwa [parseFrom?_branch ht]

theorem Steps.of_atom (hskip : skip p.spaced s = c :: u) (hc : opens c = false)
    (hmark : mark? c = none) : Steps p s (p.push (.atom (plainAtom c))) u :=
  .of_local hskip (.pure () u) fun n t v v' x ht hv _ hx => by
    cases hv
    rwa [parseFrom?_atom ht hc hmark]

theorem Steps.of_class {b : Ast} (hskip : skip p.spaced s = '[' :: u)
    (h : class? p.spaced u = some (b, r)) : Steps p s (p.push b) r :=
  .of_local hskip (class?_local h) fun n t v v' x ht hv _ hx => by
    rwa [parseFrom?_class ht, hv]

theorem Steps.of_mark {times : Times} (hskip : skip p.spaced s = c :: u)
    (hc : mark? c = some times) (hp : p.repeated? times (greed u).1 = some p') :
    Steps p s p' (greed u).2 :=
  .of_local hskip (greed_local u) fun n t v v' x ht hv _ hx => by
    rwa [parseFrom?_mark ht hc, Option.some.inj hv, hp]

theorem Steps.of_changes {fs : FlagChanges} (hskip : skip p.spaced s = '(' :: u)
    (h : opening? p.spaced u = some (.changes fs, r)) :
    Steps p s { p.push (.changeFlags fs) with spaced := FlagChanges.spaced fs p.spaced } r := by
  have hu : skip p.spaced u ≠ [] := fun hnil => by
    rw [opening?_of_ne (by rw [hnil]; exact nofun)] at h
    cases h
  exact .of_local hskip (opening?_local h hu) fun n t v v' x ht hv _ hx => by
    rwa [parseFrom?_changes ht hv]

/-- What may be read on from behind a word boundary does not belong to that. -/
theorem boundary?_of_parseFrom? {x : Progress × List Char} (h : parseFrom? n p s = some x) :
    boundary? p.spaced s = some (.assertion .wordBoundary, s) := by
  by_cases hs : s.head? = some '\x7b'
  · obtain ⟨s, rfl⟩ := List.head?_eq_some_iff.mp hs
    have hskip : skip p.spaced ('\x7b' :: s) = '\x7b' :: s :=
      skip_of_stops (stops_cons.mpr (by cases p.spaced <;> decide))
    cases n with
    | zero => cases h
    | succ n =>
      rw [parseFrom?_counted hskip] at h
      obtain ⟨y, hcounted, -⟩ := Option.bind_eq_some_iff.mp h
      obtain ⟨c, q, hq, hc⟩ := exists_of_counted? hcounted
      exact boundary?_of_count hq hc
  · exact boundary?_of_ne hs

theorem Steps.of_escape {b : Atom} (hskip : skip p.spaced s = '\\' :: u)
    (h : escape? p.spaced u = some (b, r)) : Steps p s (p.push (.atom b)) r := by
  by_cases hb : b = .assertion .wordBoundary
  · subst hb
    obtain rfl := eq_of_escape?_wordBoundary h
    refine .of_local hskip (again?_local 'b' r) fun n t v v' x ht hv _ hx => ?_
    obtain rfl := again?_eq_some_iff.mp hv
    have hboundary : escape? p.spaced ('b' :: v') = some (.assertion .wordBoundary, v') :=
      (boundary?_of_parseFrom? hx :)
    rwa [parseFrom?_escape ht, hboundary]
  · exact .of_local hskip (escape?_local h hb) fun n t v v' x ht hv _ hx => by
      rwa [parseFrom?_escape ht, hv]

theorem Steps.of_counted {times : Times} (hskip : skip p.spaced s = '\x7b' :: u)
    (h : counted? p.spaced u = some (times, r)) (hr : skip p.spaced r ≠ [])
    (hp : p.repeated? times (greed (skip p.spaced r)).1 = some p') :
    Steps p s p' (greed (skip p.spaced r)).2 := by
  have hlocal := (counted?_local h).bind
    (g := fun times r =>
      some ((times, (greed (skip p.spaced r)).1), (greed (skip p.spaced r)).2))
    (((greed_local _).map (times, ·)).skip hr fun t _ => rfl)
  refine .of_local hskip hlocal fun n t v v' x ht hv _ hx => ?_
  obtain ⟨y, hy, heq⟩ := Option.bind_eq_some_iff.mp hv
  simp only [Option.some.injEq, Prod.mk.injEq] at heq
  obtain ⟨⟨rfl, hgreedy⟩, rfl⟩ := heq
  rwa [parseFrom?_counted ht, hy, Option.bind_some, hgreedy, hp]

/-- A counted repetition behind which nothing but blanks and comments is left. -/
theorem ReadTo.of_counted {times : Times} (hskip : skip p.spaced s = '\x7b' :: u)
    (h : counted? p.spaced u = some (times, r)) (hr : skip p.spaced r = [])
    (hp : p.repeated? times true = some p') : ReadTo p s p' [] := by
  obtain ⟨w, rfl, hw⟩ := exists_of_skip_cons hskip
  obtain ⟨v, rfl, hread⟩ := counted?_local h
  obtain ⟨commented, hends, hleft⟩ := exists_skip_append hr
  have hends' (hc : commented = true) : EndsInComment (w ++ '\x7b' :: (v ++ r)) :=
    (((hends hc).append v).append ['\x7b']).append w
  refine ⟨stops_nil, w ++ '\x7b' :: (v ++ r), commented, (List.append_nil _).symm, fun _ => rfl,
    hends', fun n t hn ht hline => ?_⟩
  rw [List.length_append, List.length_cons] at hn
  obtain ⟨n, rfl⟩ : ∃ m, n = m + 1 + 1 := ⟨n - 2, by omega⟩
  have hskip' := hw (v ++ (r ++ t))
  have halike : Alike r (r ++ t) := by
    have := (Alike.atEnd stops_nil ht).append r
    rwa [List.append_nil] at this
  have hend : AtEnd (if commented then [] else t) := ht.left
  have hgreed : greed (if commented then [] else t) = (true, if commented then [] else t) :=
    greed_of_ne fun hhead => absurd (hend '?' hhead) (by decide)
  have hlist : w ++ '\x7b' :: (v ++ r) ++ t = w ++ '\x7b' :: (v ++ (r ++ t)) := by simp
  rw [hlist, parseFrom?_counted hskip', hread _ halike, Option.bind_some, hleft t ht hline, hgreed,
    hp, Option.bind_some, parseFrom?_of_atEnd (by rwa [hend.skip]), hend.skip]

/-- A group, whose pattern was read up to the parenthesis that closes it. -/
theorem Steps.of_group {kind : GroupKind} {name : Option String} {names : List String}
    {inner : Progress} {v : List Char} (hskip : skip p.spaced s = '(' :: u)
    (hopen : opening? p.spaced u = some (.group kind name, v))
    (hnames : addName? p.names name = some names)
    (hinner : ReadTo { spaced := kind.spaced p.spaced, names } v inner (')' :: r)) :
    Steps p s { p.push (.group kind inner.close) with names := inner.names } r := by
  obtain ⟨-, w₂, commented, rfl, hnil, hreads⟩ := hinner
  cases commented with
  | true => exact nomatch hnil rfl
  | false =>
    have hu : skip p.spaced u ≠ [] := fun hnil => by
      rw [opening?_of_ne (by rw [hnil]; exact nofun), hnil] at hopen
      simp at hopen
    obtain ⟨w, rfl, hw⟩ := exists_of_skip_cons hskip
    obtain ⟨w₁, rfl, hread⟩ := opening?_local hopen hu
    refine ⟨w ++ '(' :: (w₁ ++ (w₂ ++ [')'])), by simp, by simp, fun n t x hn ht hx => ?_⟩
    simp only [List.length_append, List.length_cons] at hn
    have hskip' := hw (w₁ ++ (w₂ ++ ')' :: t))
    have hopen' := hread (w₂ ++ ')' :: t) ((Alike.cons ')' ht).append w₂)
    have hinner' := hreads.read (n := n) (t := ')' :: t) (by omega) (stops_cons.mpr rfl) nofun
    have hlist : w ++ '(' :: (w₁ ++ (w₂ ++ [')'])) ++ t = w ++ '(' :: (w₁ ++ (w₂ ++ ')' :: t)) := by
      simp
    rw [hlist, parseFrom?_of_closed hskip' hopen' hnames hinner']
    exact hx

end Steps

/-- **What is read of a pattern is read alike in front of any text where a pattern may end.** -/
theorem readTo_of_parseFrom? {n : Nat} {p q : Progress} {s r : List Char}
    (h : parseFrom? n p s = some (q, r)) : ReadTo p s q r := by
  induction n generalizing p q s r with
  | zero => cases h
  | succ n ih =>
    by_cases hend : AtEnd (skip p.spaced s)
    · rw [parseFrom?_of_atEnd hend] at h
      cases h
      exact .of_atEnd hend
    obtain ⟨c, u, hskip⟩ : ∃ c u, skip p.spaced s = c :: u := by
      refine List.exists_cons_of_ne_nil fun hnil => hend ?_
      rw [hnil]
      exact stops_nil
    by_cases hbranch : c = '|'
    · subst hbranch
      rw [parseFrom?_branch hskip] at h
      exact .of_steps (.of_branch hskip) (ih h)
    by_cases hclass : c = '['
    · subst hclass
      rw [parseFrom?_class hskip] at h
      obtain ⟨⟨b, v⟩, hb, hrest⟩ := Option.bind_eq_some_iff.mp h
      exact .of_steps (.of_class hskip hb) (ih hrest)
    by_cases hescape : c = '\\'
    · subst hescape
      rw [parseFrom?_escape hskip] at h
      obtain ⟨⟨b, v⟩, hb, hrest⟩ := Option.bind_eq_some_iff.mp h
      exact .of_steps (.of_escape hskip hb) (ih hrest)
    by_cases hcounted : c = '\x7b'
    · subst hcounted
      rw [parseFrom?_counted hskip] at h
      obtain ⟨⟨times, v⟩, htimes, h⟩ := Option.bind_eq_some_iff.mp h
      obtain ⟨p', hp', hrest⟩ := Option.bind_eq_some_iff.mp h
      by_cases hv : skip p.spaced v = []
      · have hgreed : greed [] = (true, []) := rfl
        rw [hv, hgreed] at hp' hrest
        cases n with
        | zero => cases hrest
        | succ n =>
          rw [parseFrom?_of_atEnd (by rw [skip_nil]; exact stops_nil), skip_nil] at hrest
          cases hrest
          exact .of_counted hskip htimes hv hp'
      · exact .of_steps (.of_counted hskip htimes hv hp') (ih hrest)
    by_cases hgroup : c = '('
    · subst hgroup
      cases hopen : opening? p.spaced u with
      | none =>
        rw [parseFrom?_of_not_open hskip hopen] at h
        cases h
      | some x =>
        obtain ⟨o, v⟩ := x
        cases o with
        | changes fs =>
          rw [parseFrom?_changes hskip hopen] at h
          exact .of_steps (.of_changes hskip hopen) (ih h)
        | group kind name =>
          obtain ⟨names, inner, t, hnames, hinner, hrest⟩ := exists_closed hskip hopen h
          exact .of_steps (.of_group hskip hopen hnames (ih hinner)) (ih hrest)
    cases hmark : mark? c with
    | some times =>
      rw [parseFrom?_mark hskip hmark] at h
      obtain ⟨p', hp', hrest⟩ := Option.bind_eq_some_iff.mp h
      exact .of_steps (.of_mark hskip hmark hp') (ih hrest)
    | none =>
      have hparen : c ≠ ')' := by
        rintro rfl
        rw [hskip] at hend
        exact hend (stops_cons.mpr rfl)
      have hopens : opens c = false := by
        simp [opens, hparen, hbranch, hgroup, hclass, hcounted, hescape]
      rw [parseFrom?_atom hskip hopens hmark] at h
      exact .of_steps (.of_atom hskip hopens hmark) (ih h)

end TextTemplate.Regex
