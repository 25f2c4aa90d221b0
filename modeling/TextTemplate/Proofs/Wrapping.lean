import TextTemplate.Proofs.RegexReading
import TextTemplate.Proofs.RegexGroups

/-!
# The pattern that is searched for

What is searched for is a larger pattern, which the text of the given one is put into as it stands
(`Pattern.wrap`).  The given pattern has the same tree there (`Ast.parse?_wrap`) and, but for the
numbers of its groups, the same node (`Node.compile?_wrap`).

Putting the text in decides about the given pattern as it should, except for three things
(`Pattern.compile?_wrapped`): a closing parenthesis too many closes the group around the text, a
comment at the end swallows what stands behind the text, and the groups around it count for the
bounds.
-/

namespace TextTemplate

namespace Regex

open Scanner

/-! ## Trees and nodes -/

/-- The tree of the pattern that is searched for. -/
def Ast.backward (a : Ast) : Ast :=
  concat
    [atom (.assertion .lineStart),
      group (.plain [(.dotAll, true)]) (repetition ⟨0, none⟩ true (atom .dot)),
      group .capture (group (.plain []) a),
      atom (.assertion .textEnd)]

/-- The node of the pattern that is searched for. -/
def Node.backward (a : Node) : Node :=
  seq (look (Assertion.lineStart.look {}))
    (seq (repeated ⟨0, none⟩ true (set fun _ => true))
      (seq (group 1 a) (seq (look (Assertion.textEnd.look {})) empty)))

namespace Ast

theorem resolveParts?_cons {m m' : Modes} {n n' : Nat} {a : Ast} {b : Node} (as : List Ast)
    (h : a.resolve? m n = some (b, m', n')) :
    resolveParts? m n (a :: as) =
      (resolveParts? m' n' as).map fun r => (.seq b r.1, r.2.1, r.2.2) := by
  rw [resolveParts?, h]
  cases hrest : resolveParts? m' n' as with
  | none => simp [hrest]
  | some r => simp [hrest]

theorem resolveParts?_of_none {m : Modes} {n : Nat} {a : Ast} (as : List Ast)
    (h : a.resolve? m n = none) : resolveParts? m n (a :: as) = none := by
  rw [resolveParts?, h]
  rfl

theorem resolve?_plain (a : Ast) :
    (group (.plain []) a).resolve? {} 2 = (a.resolve? {} 2).map fun r => (r.1, {}, r.2.2) := by
  change (a.resolve? {} 2).bind _ = _
  cases a.resolve? {} 2 <;> rfl

theorem resolve?_capture (a : Ast) :
    (group .capture a).resolve? {} 1 = (a.resolve? {} 2).map fun r => (.group 1 r.1, {}, r.2.2) := by
  rw [resolve?]
  cases a.resolve? {} 2 <;> rfl

theorem resolve?_backward (a : Ast) :
    a.backward.resolve? {} 1 = (a.resolve? {} 2).map fun r => (r.1.backward, {}, r.2.2) := by
  have hcapture : (group .capture (group (.plain []) a)).resolve? {} 1 =
      (a.resolve? {} 2).map fun r => (.group 1 r.1, {}, r.2.2) := by
    rw [resolve?_capture, resolve?_plain, Option.map_map]
    rfl
  rw [backward, resolve?, resolveParts?_cons _ rfl, resolveParts?_cons _ rfl]
  cases h : a.resolve? {} 2 with
  | none =>
    rw [h] at hcapture
    rw [resolveParts?_of_none _ hcapture]
    rfl
  | some r =>
    rw [h] at hcapture
    rw [resolveParts?_cons _ hcapture, resolveParts?_cons _ rfl]
    rfl

theorem depth_backward (a : Ast) : a.backward.depth = a.depth + 3 := by
  simp only [backward, depth, depths]
  omega

theorem states_backward (a : Ast) : a.backward.states = a.states + 20 := by
  simp only [backward, states, statesOf, atomStates]
  simp
  omega

end Ast

/-! ## Patterns by themselves -/

/-- The progress at the start of a pattern. -/
abbrev start : Progress := { spaced := false }

namespace Ast

/-- The tree of a text that is read as a pattern to its end, however large that is. -/
def read? (s : List Char) : Option Ast :=
  match parseFrom? (s.length + 1) start s with
  | some (q, []) => some q.close
  | _ => none

theorem read?_eq_some_iff {s : List Char} {a : Ast} :
    read? s = some a ↔
      ∃ q, parseFrom? (s.length + 1) start s = some (q, []) ∧ q.close = a := by
  rw [read?]
  split
  · next q hq => simp [hq]
  · next hq =>
    refine iff_of_false nofun ?_
    rintro ⟨q, hread, -⟩
    exact hq q hread

theorem parse?_iff_read? {s : List Char} {a : Ast} :
    parse? s = some a ↔ read? s = some a ∧ a.withinBounds = true := by
  have hfilter : parse? s = (read? s).filter withinBounds := by
    rw [parse?, read?]
    rcases parseFrom? (s.length + 1) start s with _ | ⟨q, _ | ⟨c, r⟩⟩
    all_goals rfl
  rw [hfilter, Option.filter_eq_some_iff]

theorem withinBounds_iff {a : Ast} :
    a.withinBounds = true ↔ a.depth ≤ maxDepth ∧ a.states ≤ maxStates := by
  rw [withinBounds, Bool.and_eq_true, decide_eq_true_eq, decide_eq_true_eq]

theorem withinBounds_backward (a : Ast) :
    a.backward.withinBounds = true ↔ a.depth + 3 ≤ maxDepth ∧ a.states + 20 ≤ maxStates := by
  rw [withinBounds_iff, depth_backward, states_backward]

end Ast

/-! ## Reading the pattern that is searched for -/

/-- What stands behind the text in the pattern that is searched for. -/
def closing : List Char := "))\\z".toList

theorem closing_eq : closing = [')', ')', '\\', 'z'] := rfl

theorem atEnd_closing : AtEnd closing := stops_cons.mpr rfl

theorem wrap_eq (s : List Char) :
    Pattern.wrap s =
      '^' :: '(' :: '?' :: 's' :: ':' :: '.' :: '*' :: ')' :: '(' :: '(' :: '?' :: ':' ::
        (s ++ closing) := by
  have hlead : "^(?s:.*)((?:".toList =
      ['^', '(', '?', 's', ':', '.', '*', ')', '(', '(', '?', ':'] := rfl
  have hwrap : Pattern.wrap s =
      ['^', '(', '?', 's', ':', '.', '*', ')', '(', '(', '?', ':'] ++ s ++ closing := by
    rw [← hlead]
    rfl
  rw [hwrap, List.append_assoc]
  rfl

theorem length_wrap (s : List Char) : (Pattern.wrap s).length + 1 = s.length + 17 := by
  rw [wrap_eq]
  simp [closing_eq]

/-- What has been read of the pattern that is searched for in front of its own group. -/
def beforeGroup : Progress :=
  { spaced := false
    parts := [.group (.plain [(.dotAll, true)]) (.repetition ⟨0, none⟩ true (.atom .dot)),
      .atom (.assertion .lineStart)] }

/-- What has been read in the group where the given pattern has been closed. -/
def afterPlain (q : Progress) : Progress :=
  { spaced := false, names := q.names, parts := [.group (.plain []) q.close] }

section Wrap

variable {k : Nat} {q : Progress} {s r t : List Char}

theorem parseFrom?_wrap :
    parseFrom? (k + 5) start (Pattern.wrap s) =
      parseFrom? (k + 3) beforeGroup ('(' :: '(' :: '?' :: ':' :: (s ++ closing)) := by
  let lead : Progress := start.push (.atom (.assertion .lineStart))
  let inner : Progress := start.push (.repetition ⟨0, none⟩ true (.atom .dot))
  let rest := '(' :: '(' :: '?' :: ':' :: (s ++ closing)
  have hskip : skip lead.spaced ('(' :: '?' :: 's' :: ':' :: '.' :: '*' :: ')' :: rest) =
      '(' :: '?' :: 's' :: ':' :: '.' :: '*' :: ')' :: rest := rfl
  have hopen : opening? false ('?' :: 's' :: ':' :: '.' :: '*' :: ')' :: rest) =
      some (.group (.plain [(.dotAll, true)]) none, '.' :: '*' :: ')' :: rest) := rfl
  have hinner : parseFrom? (k + 3) { spaced := false, names := [] } ('.' :: '*' :: ')' :: rest) =
      some (inner, ')' :: rest) := rfl
  rw [wrap_eq]
  exact parseFrom?_of_closed hskip hopen rfl hinner

/-- The group around a text is closed by the first parenthesis that the text leaves. -/
theorem parseFrom?_plain_iff {y : Progress × List Char} :
    parseFrom? (k + 1) start ('(' :: '?' :: ':' :: t) = some y ↔
      ∃ q r, parseFrom? k start t = some (q, ')' :: r) ∧
        parseFrom? k (afterPlain q) r = some y := by
  have hopen : opening? start.spaced ('?' :: ':' :: t) = some (.group (.plain []) none, t) := rfl
  exact parseFrom?_unnamed_iff rfl hopen

/-- The group that is searched for, and what is read behind it. -/
theorem parseFrom?_capture_iff {y : Progress × List Char} :
    parseFrom? (k + 1) beforeGroup ('(' :: '(' :: t) = some y ↔
      ∃ q r, parseFrom? k start ('(' :: t) = some (q, ')' :: r) ∧
        parseFrom? k { beforeGroup.push (.group .capture q.close) with names := q.names } r =
          some y := by
  have hopen : opening? beforeGroup.spaced ('(' :: t) = some (.group .capture none, '(' :: t) := rfl
  exact parseFrom?_unnamed_iff rfl hopen

/-- Where the group around a text is closed: behind the text, one parenthesis later, or within the
text. -/
theorem reads_of_closing {n : Nat} {p : Progress}
    (h : parseFrom? n p (s ++ closing) = some (q, ')' :: r)) :
    Reads p s q false ∧ r = [')', '\\', 'z'] ∨ r = ['\\', 'z'] ∨
      ∃ w y, s = w ++ ')' :: y ∧ Reads p w q false := by
  obtain ⟨-, w, commented, hs, hnil, hreads⟩ := readTo_of_parseFrom? h
  cases commented with
  | true => exact nomatch hnil rfl
  | false =>
    rcases List.append_eq_append_iff.mp hs with ⟨v, rfl, hv⟩ | ⟨y, rfl, hy⟩
    · rw [closing_eq] at hv
      rcases v with _ | ⟨c, _ | ⟨d, v⟩⟩
      · cases hv
        rw [List.append_nil] at hreads
        exact .inl ⟨hreads, rfl⟩
      · cases hv
        exact .inr (.inl rfl)
      · -- no other parenthesis is left
        have hmem : ')' ∈ ['\\', 'z'] := by
          have htail := congrArg (List.drop 2) hv
          rw [show ['\\', 'z'] = v ++ ')' :: r from htail]
          simp
        exact absurd hmem (by decide)
    · cases y with
      | nil =>
        cases hy
        rw [List.append_nil]
        exact .inl ⟨hreads, rfl⟩
      | cons c y =>
        cases hy
        exact .inr (.inr ⟨w, y, rfl, hreads⟩)

end Wrap

namespace Ast

variable {s : List Char} {a : Ast}

theorem read?_of_reads {q : Progress} {commented : Bool} (h : Reads start s q commented) :
    read? s = some q.close := by
  refine read?_eq_some_iff.mpr ⟨q, ?_, rfl⟩
  have hread := h.read (n := s.length + 1) (t := []) (Nat.lt_succ_self _) stops_nil (by simp)
  rwa [List.append_nil, ite_self] at hread

theorem exists_reads_of_read? (h : read? s = some a) :
    ∃ q commented, Reads start s q commented ∧ q.close = a := by
  obtain ⟨q, hq, rfl⟩ := read?_eq_some_iff.mp h
  obtain ⟨commented, hreads⟩ := (readTo_of_parseFrom? hq).exists_reads
  exact ⟨q, commented, hreads, rfl⟩

theorem read?_wrap_of_reads {q : Progress} (h : Reads start s q false) :
    read? (Pattern.wrap s) = some q.close.backward := by
  have hs : parseFrom? (s.length + 13) start (s ++ closing) = some (q, closing) :=
    h.read (by omega) atEnd_closing nofun
  let group : Progress :=
    { beforeGroup.push (.group .capture (afterPlain q).close) with names := q.names }
  refine read?_eq_some_iff.mpr ⟨group.push (.atom (.assertion .textEnd)), ?_, rfl⟩
  rw [length_wrap]
  refine parseFrom?_wrap.trans (parseFrom?_capture_iff.mpr ⟨afterPlain q, ['\\', 'z'], ?_, rfl⟩)
  exact parseFrom?_plain_iff.mpr ⟨q, [')', '\\', 'z'], hs, rfl⟩

end Ast

theorem Node.compile?_isSome_iff {s : List Char} :
    (compile? s).isSome ↔
      ∃ a, Ast.read? s = some a ∧ a.withinBounds = true ∧ (a.resolve? {} 1).isSome := by
  rw [Option.isSome_iff_exists]
  constructor
  · rintro ⟨b, hb⟩
    obtain ⟨a, ha, hrest⟩ := Option.bind_eq_some_iff.mp hb
    obtain ⟨r, hr, -⟩ := Option.bind_eq_some_iff.mp hrest
    obtain ⟨hread, hbounds⟩ := Ast.parse?_iff_read?.mp ha
    exact ⟨a, hread, hbounds, Option.isSome_of_eq_some hr⟩
  · rintro ⟨a, hread, hbounds, hsome⟩
    obtain ⟨r, hr⟩ := Option.isSome_iff_exists.mp hsome
    refine ⟨r.1, ?_⟩
    rw [compile?, Ast.parse?_iff_read?.mpr ⟨hread, hbounds⟩]
    simp [hr]

end Regex

namespace Pattern

open Regex

/-- Whether a text has a closing parenthesis too many: its reading as a pattern ends in front of
one. -/
def Stray (s : List Char) : Prop :=
  ∃ q y, parseFrom? (s.length + 1) start s = some (q, ')' :: y)

/-- Whether a text is a pattern by itself, however large a machine for it is. -/
def Valid (s : List Char) : Prop :=
  ∃ a, Ast.read? s = some a ∧ a.depth ≤ Ast.maxDepth ∧ (a.resolve? {} 1).isSome

/-- Whether a comment is open at the end of a pattern, so that a parenthesis behind it is part of
the comment. -/
def OpenComment (s : List Char) : Prop :=
  (Ast.read? s).isSome ∧ (Ast.read? (s ++ [')'])).isSome

/-- Whether a pattern keeps within the bounds with what is put around it. -/
def Fits (s : List Char) : Prop :=
  ∀ a, Ast.read? s = some a → a.depth + 3 ≤ Ast.maxDepth ∧ a.states + 20 ≤ Ast.maxStates

variable {s : List Char} {a : Ast} {q : Progress}

theorem stray_of_reads {w y : List Char} (h : Reads start w q false) : Stray (w ++ ')' :: y) := by
  have hlength : w.length < (w ++ ')' :: y).length + 1 := by
    rw [List.length_append]
    omega
  exact ⟨q, y, h.read hlength (stops_cons.mpr rfl) nofun⟩

theorem not_stray_of_read? (h : Ast.read? s = some a) : ¬ Stray s := by
  obtain ⟨q, hq, -⟩ := Ast.read?_eq_some_iff.mp h
  rintro ⟨q', y, hstray⟩
  cases hq.symm.trans hstray

theorem openComment_iff {commented : Bool} (h : Reads start s q commented) :
    OpenComment s ↔ commented = true := by
  have hlength : s.length < (s ++ [')']).length + 1 := by
    rw [List.length_append]
    omega
  have hparen := h.read hlength (t := [')']) (stops_cons.mpr rfl) (by simp)
  rw [OpenComment, Ast.read?_of_reads h, Ast.read?, hparen]
  cases commented <;> simp

/-- Where a pattern that is searched for is read to its end, the given one is, unless that has a
closing parenthesis too many. -/
theorem reads_of_read?_wrap (h : Ast.read? (wrap s) = some a) (hs : ¬ Stray s) :
    ∃ q, Reads start s q false ∧ a = q.close.backward := by
  obtain ⟨x, hx, rfl⟩ := Ast.read?_eq_some_iff.mp h
  rw [length_wrap] at hx
  obtain ⟨y, r, hgroup, -⟩ := parseFrom?_capture_iff.mp (parseFrom?_wrap.symm.trans hx)
  obtain ⟨q, t, hplain, hrest⟩ := parseFrom?_plain_iff.mp hgroup
  rcases reads_of_closing hplain with ⟨hreads, -⟩ | rfl | ⟨w, y, rfl, hreads⟩
  · refine ⟨q, hreads, ?_⟩
    rw [Ast.read?_wrap_of_reads hreads] at h
    exact (Option.some.inj h).symm
  · -- the group that is left open is not closed behind the assertion
    cases hrest
  · exact absurd (stray_of_reads hreads) hs

/-- A text with just one closing parenthesis too many is not accepted: of what stands behind it, one
parenthesis is left over. -/
theorem read?_wrap_of_opened (h : Ast.read? ('(' :: '?' :: ':' :: s) = some a) :
    Ast.read? (wrap s) = none := by
  obtain ⟨x, hx, -⟩ := Ast.read?_eq_some_iff.mp h
  obtain ⟨q, r, hplain, hrest⟩ := parseFrom?_plain_iff.mp hx
  obtain ⟨-, w, c, rfl, hnil, hreads⟩ := readTo_of_parseFrom? hplain
  obtain rfl : c = false := Bool.eq_false_iff.mpr fun hc => nomatch hnil hc
  obtain ⟨commented, hreads'⟩ := (readTo_of_parseFrom? hrest).exists_reads
  rw [Option.eq_none_iff_forall_ne_some]
  intro b hb
  obtain ⟨x', hx', -⟩ := Ast.read?_eq_some_iff.mp hb
  rw [length_wrap] at hx'
  obtain ⟨y, t, hgroup, hend⟩ := parseFrom?_capture_iff.mp (parseFrom?_wrap.symm.trans hx')
  obtain ⟨q', u, hplain', hrest'⟩ := parseFrom?_plain_iff.mp hgroup
  rw [List.append_assoc] at hplain'
  have hlength : w.length < (w ++ ')' :: r).length + 13 := by
    rw [List.length_append]
    omega
  cases (hreads.read hlength (stops_cons.mpr rfl) nofun).symm.trans hplain'
  have hlength' : r.length < (w ++ ')' :: r).length + 13 := by
    rw [List.length_append, List.length_cons]
    omega
  have hclosing := hreads'.read hlength' atEnd_closing fun _ => by decide
  have hleft := congrArg Prod.snd (Option.some.inj (hclosing.symm.trans hrest'))
  cases commented with
  | true => cases hleft
  | false =>
    rw [closing_eq] at hleft
    cases hleft
    cases hend

/-! ## Accepted patterns -/

theorem compile?_isSome_iff {source : String} :
    (compile? source).isSome ↔
      ∃ a, Ast.read? (wrap source.toList) = some a ∧ a.withinBounds = true ∧
        (a.resolve? {} 1).isSome := by
  rw [compile?, Option.isSome_map, Node.compile?_isSome_iff]

theorem isSome_resolve?_backward {a : Ast} :
    (a.backward.resolve? {} 1).isSome = (a.resolve? {} 1).isSome := by
  rw [Ast.resolve?_backward, Option.isSome_map, Ast.resolve?_succ, Option.isSome_map]

/-- Without a closing parenthesis too many, a pattern is accepted just if it is one by itself, no
comment at its end swallows what stands behind it, and it fits the bounds with what is put
around it. -/
theorem compile?_isSome_iff_of_not_stray {source : String} (hs : ¬ Stray source.toList) :
    (compile? source).isSome ↔
      Valid source.toList ∧ ¬ OpenComment source.toList ∧ Fits source.toList := by
  rw [compile?_isSome_iff]
  constructor
  · rintro ⟨b, hb, hbounds, hsome⟩
    obtain ⟨q, hreads, rfl⟩ := reads_of_read?_wrap hb hs
    have hread := Ast.read?_of_reads hreads
    rw [isSome_resolve?_backward] at hsome
    have hfits := (Ast.withinBounds_backward _).mp hbounds
    refine ⟨⟨q.close, hread, by omega, hsome⟩, ?_, fun a ha => ?_⟩
    · rw [openComment_iff hreads]
      exact Bool.false_ne_true
    · cases hread.symm.trans ha
      exact hfits
  · rintro ⟨⟨a, ha, -, hsome⟩, hopen, hfits⟩
    obtain ⟨q, commented, hreads, rfl⟩ := Ast.exists_reads_of_read? ha
    rw [openComment_iff hreads, Bool.not_eq_true] at hopen
    subst hopen
    refine ⟨q.close.backward, Ast.read?_wrap_of_reads hreads, ?_, ?_⟩
    · exact (Ast.withinBounds_backward _).mpr (hfits _ ha)
    · rwa [isSome_resolve?_backward]

/-- **Which patterns are accepted.**  No valid pattern has a closing parenthesis too many.  Without
one, a pattern is accepted just if it is valid, no comment is open at its end, and it fits.  With
just one, it is rejected.  An open comment is one that the pattern ends in. -/
theorem compile?_wrapped (source : String) :
    (Valid source.toList → ¬ Stray source.toList) ∧
    (¬ Stray source.toList →
      ((compile? source).isSome ↔
        Valid source.toList ∧ ¬ OpenComment source.toList ∧ Fits source.toList)) ∧
    ((Ast.read? ('(' :: '?' :: ':' :: source.toList)).isSome → compile? source = none) ∧
    (OpenComment source.toList → EndsInComment source.toList) := by
  refine ⟨?_, compile?_isSome_iff_of_not_stray, fun h => ?_, fun h => ?_⟩
  · rintro ⟨a, ha, -⟩
    exact not_stray_of_read? ha
  · obtain ⟨a, ha⟩ := Option.isSome_iff_exists.mp h
    rw [← Option.not_isSome_iff_eq_none, compile?_isSome_iff, read?_wrap_of_opened ha]
    rintro ⟨b, hb, -⟩
    cases hb
  · obtain ⟨a, ha⟩ := Option.isSome_iff_exists.mp h.1
    obtain ⟨q, commented, hreads, -⟩ := Ast.exists_reads_of_read? ha
    exact hreads.endsInComment ((openComment_iff hreads).mp h)

/-- Parentheses the wrong way round are accepted, and a pattern with a comment behind it is not. -/
theorem compile?_wrapped_reopened :
    (compile? ")(").isSome ∧ ¬ Valid ")(".toList ∧
      compile? "(?x)a # c" = none ∧ Valid "(?x)a # c".toList := by
  have hreopened : Ast.read? ")(".toList = none := rfl
  have hcommented : (compile? "(?x)a # c").isNone = true := by decide +kernel
  have hvalid : (Ast.read? "(?x)a # c".toList).any (fun a =>
      decide (a.depth ≤ Ast.maxDepth) && (a.resolve? {} 1).isSome) = true := by decide +kernel
  refine ⟨by decide +kernel, ?_, Option.isNone_iff_eq_none.mp hcommented, ?_⟩
  · rintro ⟨a, ha, -⟩
    exact nomatch hreopened.symm.trans ha
  · obtain ⟨a, ha, hbounds⟩ := (Option.any_eq_true _ _).mp hvalid
    rw [Bool.and_eq_true, decide_eq_true_eq] at hbounds
    exact ⟨a, ha, hbounds⟩

end Pattern

/-! ## The same pattern within -/

namespace Regex

/-- A pattern that is accepted by itself and when it is searched for has the same tree there. -/
theorem Ast.parse?_wrap {s : List Char} {a b : Ast} (ha : parse? s = some a)
    (hb : parse? (Pattern.wrap s) = some b) : b = a.backward := by
  have hread := (parse?_iff_read?.mp ha).1
  obtain ⟨q, hreads, rfl⟩ :=
    Pattern.reads_of_read?_wrap (parse?_iff_read?.mp hb).1 (Pattern.not_stray_of_read? hread)
  cases hread.symm.trans (read?_of_reads hreads)
  rfl

/-- The node that is searched for is made from the pattern's own, its groups numbered one higher. -/
theorem Node.compile?_wrap {s : List Char} {a b : Node} (ha : compile? s = some a)
    (hb : compile? (Pattern.wrap s) = some b) : b = a.shift.backward := by
  obtain ⟨t, ht, hrest⟩ := Option.bind_eq_some_iff.mp ha
  obtain ⟨⟨a', m, n⟩, hresolve, heq⟩ := Option.bind_eq_some_iff.mp hrest
  obtain ⟨u, hu, hrest'⟩ := Option.bind_eq_some_iff.mp hb
  obtain ⟨⟨b', m', n'⟩, hresolve', heq'⟩ := Option.bind_eq_some_iff.mp hrest'
  cases heq
  cases heq'
  rw [Ast.parse?_wrap ht hu, Ast.resolve?_backward, Ast.resolve?_succ, hresolve] at hresolve'
  cases hresolve'
  rfl

end Regex

end TextTemplate
