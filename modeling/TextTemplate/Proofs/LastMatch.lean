import TextTemplate.Proofs.RegexSearch
import TextTemplate.Proofs.Wrapping

/-!
# The last match that gets to the end of a text

A pattern is searched for backwards by one forward search, for a pattern that passes over anything
first and then has the given one in a group.  Because passing over anything prefers to pass over much,
`Node.search_backward` tries the starts from the end of the text down, and so
`Pattern.findAtEnd_latest` finds the match that starts last.
-/

namespace TextTemplate

namespace Regex

/-! ## Searching for it -/

namespace Node

variable {text : List Char}

open Way

/-- Passing over any characters prefers to pass over as many as there are. -/
theorem growingPasses_any {n i : Nat} {cs : Captures} (hi : i ≤ text.length)
    (hn : text.length - i < n) :
    growingPasses true ((set fun _ => true).ways text) n (i, cs) =
      (List.range' i (text.length + 1 - i)).reverse.map (·, cs) := by
  induction n generalizing i with
  | zero => omega
  | succ n ih =>
    rcases Nat.lt_or_eq_of_le hi with hlt | rfl
    · have hstep : (set fun _ => true).ways text (i, cs) = [(i + 1, cs)] := by
        rw [ways, List.getElem?_eq_getElem hlt]
        rfl
      have hlength : text.length + 1 - i = (text.length + 1 - (i + 1)) + 1 := by omega
      rw [growingPasses, hstep, List.flatMap_singleton, if_pos (Nat.lt_succ_self i),
        ih hlt (by omega), hlength, List.range'_succ, List.reverse_cons, List.map_append]
      rfl
    · have hstep : (set fun _ => true).ways text (text.length, cs) = [] := by
        rw [ways, List.getElem?_eq_none (Nat.le_refl _)]
        rfl
      have hlength : text.length + 1 - text.length = 1 := by omega
      rw [growingPasses, hstep, hlength]
      rfl

theorem ways_any (cs : Captures) :
    (repeated ⟨0, none⟩ true (set fun _ => true)).ways text (0, cs) =
      (List.range (text.length + 1)).reverse.map (·, cs) := by
  have hgrow := @growingPasses_any text (text.length + 2) 0 cs (Nat.zero_le _) (by omega)
  rw [Nat.sub_zero, ← List.range_eq_range', growingPasses] at hgrow
  rw [ways, ← hgrow, firstPass]
  refine congrArg (inOrder true · [(0, cs)]) (List.flatMap_congr fun v hv => ?_)
  -- a character was passed over
  have hv' : 0 < v.1 := by
    rw [ways] at hv
    split at hv
    · rw [List.mem_singleton.mp hv]
      exact Nat.zero_lt_one
    · exact absurd hv List.not_mem_nil
  rw [if_pos hv', if_pos hv']

/-- The ways of a pattern from a position to the end of the text. -/
def waysToEnd (a : Node) (text : List Char) (s : Nat) : List Way :=
  (a.ways text (s, [])).filter (·.1 = text.length)

theorem ways_textEnd {w : Way} (hw : w.1 ≤ text.length) :
    (seq (look (Assertion.textEnd.look {})) empty).ways text w =
      if w.1 = text.length then [w] else [] := by
  obtain ⟨i, cs⟩ := w
  rcases Nat.lt_or_eq_of_le hw with hlt | rfl
  · rw [if_neg (Nat.ne_of_lt hlt), ways, ways, List.getElem?_eq_getElem hlt]
    rfl
  · rw [if_pos rfl, ways, ways, List.getElem?_eq_none (Nat.le_refl _)]
    rfl

theorem flatMap_ite_eq_map_filter {α β : Type} (p : α → Prop) [DecidablePred p] (f : α → β)
    (l : List α) : (l.flatMap fun x => if p x then [f x] else []) = (l.filter p).map f := by
  induction l with
  | nil => rfl
  | cons x l ih =>
    rw [List.flatMap_cons, ih, List.filter_cons]
    by_cases hx : p x <;> simp [hx]

/-- From a position the pattern that is searched for goes on by the ways of its group that get to
the end. -/
theorem ways_group_textEnd (a : Node) {s : Nat} (hs : s ≤ text.length) :
    (seq (group 1 a.shift) (seq (look (Assertion.textEnd.look {})) empty)).ways text (s, []) =
      (a.waysToEnd text s).map fun w =>
        (w.1, ⟨1, s, w.1⟩ :: w.2.map Capture.shift) := by
  have hshift : a.shift.ways text (s, []) = (a.ways text (s, [])).map Way.shift :=
    ways_shift a (s, [])
  rw [ways, ways, hshift, List.map_map, List.flatMap_map, waysToEnd, ← flatMap_ite_eq_map_filter]
  exact List.flatMap_congr fun w hw => ways_textEnd ((extends_of_mem_ways hw).le_length hs)

theorem ways_backward_zero (a : Node) :
    a.shift.backward.ways text (0, []) =
      (List.range (text.length + 1)).reverse.flatMap fun s =>
        (a.waysToEnd text s).map fun w => (w.1, ⟨1, s, w.1⟩ :: w.2.map Capture.shift) := by
  have hstart : (look (Assertion.lineStart.look {})).ways text (0, []) = [(0, [])] := rfl
  rw [backward, ways, hstart, List.flatMap_singleton, ways, ways_any, List.flatMap_map]
  refine List.flatMap_congr fun s hs => ways_group_textEnd a ?_
  exact Nat.le_of_lt_succ (List.mem_range.mp (List.mem_reverse.mp hs))

theorem ways_backward_succ (a : Node) {i : Nat} (hi : i < text.length) (cs : Captures) :
    a.backward.ways text (i + 1, cs) = [] := by
  have hstart : (look (Assertion.lineStart.look {})).ways text (i + 1, cs) = [] := by
    rw [ways, before?, List.getElem?_eq_getElem hi]
    rfl
  rw [backward, ways, hstart, List.flatMap_nil]

/-- **The search goes back from the end of the text to the first position from which the pattern
gets to the end.** -/
theorem search_backward (a : Node) (text : List Char) :
    a.shift.backward.search text =
      (List.range (text.length + 1)).reverse.findSome? fun s =>
        (a.waysToEnd text s).head?.map fun w => ⟨1, s, w.1⟩ :: w.2.map Capture.shift := by
  have hlater : ((List.range text.length).map Nat.succ).findSome?
      (fun i => (a.shift.backward.ways text (i, [])).head?.map (·.2)) = none := by
    rw [List.findSome?_eq_none_iff]
    intro j hj
    obtain ⟨i, hi, rfl⟩ := List.mem_map.mp hj
    rw [ways_backward_succ a.shift (List.mem_range.mp hi)]
    rfl
  calc a.shift.backward.search text
    _ = (a.shift.backward.ways text (0, [])).head?.map (·.2) := by
      rw [search_eq, List.range_succ_eq_map, List.findSome?_cons, hlater]
      cases (a.shift.backward.ways text (0, [])).head?.map (·.2) <;> rfl
    _ = _ := by
      rw [ways_backward_zero, List.head?_flatMap, List.map_findSome?]
      congr
      funext s
      rw [Function.comp_apply, List.head?_map, Option.map_map]
      rfl

end Node

/-! ## The last match -/

/-- What is found first when one goes back. -/
theorem findSome?_reverse_range {α : Type} {f : Nat → Option α} {n : Nat} {b : α} :
    (List.range n).reverse.findSome? f = some b ↔
      ∃ s < n, f s = some b ∧ ∀ t, s < t → t < n → f t = none := by
  induction n with
  | zero => simp
  | succ n ih =>
    rw [List.range_succ, List.reverse_append, List.reverse_singleton, List.singleton_append,
      List.findSome?_cons]
    cases hn : f n with
    | some c =>
      constructor
      · rintro ⟨⟩
        exact ⟨n, Nat.lt_succ_self n, hn, fun t hlt hle => absurd hle (by omega)⟩
      · rintro ⟨s, hs, hfs, hlater⟩
        rcases Nat.lt_or_eq_of_le (Nat.le_of_lt_succ hs) with hlt | rfl
        · rw [hlater n hlt (Nat.lt_succ_self n)] at hn
          exact nomatch hn
        · exact hn.symm.trans hfs
    | none =>
      rw [ih]
      constructor
      · rintro ⟨s, hs, hfs, hlater⟩
        refine ⟨s, by omega, hfs, fun t hst ht => ?_⟩
        rcases Nat.lt_or_eq_of_le (Nat.le_of_lt_succ ht) with hlt | rfl
        · exact hlater t hst hlt
        · exact hn
      · rintro ⟨s, hs, hfs, hlater⟩
        rcases Nat.lt_or_eq_of_le (Nat.le_of_lt_succ hs) with hlt | rfl
        · exact ⟨s, hlt, hfs, fun t hst ht => hlater t hst (by omega)⟩
        · rw [hn] at hfs
          exact nomatch hfs

/-- The match of a pattern that gets to the end of a text and starts last: where it starts and what
its groups matched.  Of the ways from there to the end it is the preferred one. -/
structure Node.LastMatch (a : Node) (text : List Char) (s : Nat) (cs : Captures) : Prop where
  matches_end : a.Matches text s text.length
  latest : ∀ t, a.Matches text t text.length → t ≤ s
  preferred : (a.waysToEnd text s).head? = some (text.length, cs)

namespace Node

variable {a : Node} {text : List Char}

theorem waysToEnd_eq_nil_iff {s : Nat} (hs : s ≤ text.length) :
    a.waysToEnd text s = [] ↔ ¬ a.Matches text s text.length := by
  rw [← @exists_mem_ways_iff text a (s, []) text.length hs, waysToEnd, List.filter_eq_nil_iff]
  constructor
  · rintro h ⟨w, hw, hend⟩
    exact h w hw (decide_eq_true hend)
  · intro h w hw hend
    exact h ⟨w, hw, of_decide_eq_true hend⟩

theorem search_backward_eq_none_iff :
    a.shift.backward.search text = none ↔ ∀ s, ¬ a.Matches text s text.length := by
  rw [search_backward, List.findSome?_eq_none_iff]
  constructor
  · intro h s hmatches
    have hs : s ≤ text.length := le_of_matches hmatches
    have hways := h s (List.mem_reverse.mpr (List.mem_range.mpr (Nat.lt_succ_of_le hs)))
    rw [Option.map_eq_none_iff, List.head?_eq_none_iff] at hways
    exact (waysToEnd_eq_nil_iff hs).mp hways hmatches
  · intro h s hs
    rw [Option.map_eq_none_iff, List.head?_eq_none_iff, waysToEnd_eq_nil_iff]
    · exact h s
    · exact Nat.le_of_lt_succ (List.mem_range.mp (List.mem_reverse.mp hs))

theorem exists_lastMatch_of_search_backward {cs : Captures}
    (h : a.shift.backward.search text = some cs) :
    ∃ s ds, a.LastMatch text s ds ∧ cs = ⟨1, s, text.length⟩ :: ds.map Capture.shift := by
  rw [search_backward, findSome?_reverse_range] at h
  obtain ⟨s, hs, hways, hlater⟩ := h
  obtain ⟨w, hw, rfl⟩ := Option.map_eq_some_iff.mp hways
  have hmem : w ∈ a.waysToEnd text s := List.mem_of_head? hw
  obtain ⟨hmem, hend⟩ := List.mem_filter.mp hmem
  have hend : w.1 = text.length := of_decide_eq_true hend
  refine ⟨s, w.2, ⟨hend ▸ matches_of_mem_ways hmem, fun t ht => ?_, ?_⟩, by rw [hend]⟩
  · by_contra hlt
    have hle : t ≤ text.length := le_of_matches ht
    have hnone := hlater t (Nat.lt_of_not_le hlt) (Nat.lt_succ_of_le hle)
    rw [Option.map_eq_none_iff, List.head?_eq_none_iff] at hnone
    exact (waysToEnd_eq_nil_iff hle).mp hnone ht
  · rw [hw, ← hend]

theorem LastMatch.capture_within {s : Nat} {cs : Captures} (h : a.LastMatch text s cs) {c : Capture}
    (hc : c ∈ cs) : s ≤ c.start ∧ c.start ≤ c.stop ∧ c.stop ≤ text.length := by
  have hmem := List.mem_of_head? h.preferred
  obtain ⟨hmem, -⟩ := List.mem_filter.mp hmem
  rcases (extends_of_mem_ways hmem).captures c hc with hc | hc
  · exact absurd hc List.not_mem_nil
  · exact hc

end Node

end Regex

/-- What a match that gets to the end of a text tells: its first group, if that took part in it, and
all of it otherwise. -/
def Found.ofMatch (text : List Char) (s : Nat) (cs : Regex.Captures) : Found :=
  match Regex.Captures.find? cs 1 with
  | some c => { text := .ofList ((text.take c.stop).drop c.start), start := c.start }
  | none => { text := .ofList (text.drop s), start := s }

namespace Pattern

open Regex

variable {a : Node} {p : Pattern} {text : List Char} {s : Nat} {cs : Captures}

/-- What a match tells stands in the text where it is said to start. -/
theorem ofMatch_within (h : a.LastMatch text s cs) :
    (Found.ofMatch text s cs).text.toList =
        (text.drop (Found.ofMatch text s cs).start).take
          (Found.ofMatch text s cs).text.toList.length ∧
      (Found.ofMatch text s cs).start + (Found.ofMatch text s cs).text.toList.length ≤
        text.length := by
  rw [Found.ofMatch]
  split
  · next c hc =>
    obtain ⟨-, hle, hstop⟩ := h.capture_within (List.mem_of_find?_eq_some hc)
    have hlength : ((text.drop c.start).take (c.stop - c.start)).length = c.stop - c.start := by
      rw [List.length_take, List.length_drop]
      omega
    dsimp only
    rw [String.toList_ofList, List.drop_take, hlength]
    exact ⟨rfl, by omega⟩
  · have hle : s ≤ text.length := Node.le_of_matches h.matches_end
    dsimp only
    rw [String.toList_ofList, List.take_length, List.length_drop]
    exact ⟨rfl, by omega⟩

theorem findAtEnd_of_search
    (h : p.node.search text = some (⟨1, s, text.length⟩ :: cs.map Capture.shift)) :
    p.findAtEnd text = some (Found.ofMatch text s cs) := by
  have hgroup : Captures.find? (⟨1, s, text.length⟩ :: cs.map Capture.shift) 2 =
      (Captures.find? cs 1).map Capture.shift := Captures.find?_shift cs 1
  rw [findAtEnd, h, Option.bind_eq_bind, Option.bind_some, hgroup, Found.ofMatch]
  cases Captures.find? cs 1 with
  | some c => rfl
  | none =>
    have hwhole : (text.take text.length).drop s = text.drop s := by rw [List.take_length]
    rw [← hwhole]
    rfl

/-- Nothing is found just if the pattern, valid by itself, matches no end of the text. -/
theorem findAtEnd_eq_none_iff {source : String} (ha : Node.compile? source.toList = some a)
    (hp : compile? source = some p) :
    p.findAtEnd text = none ↔ ∀ s, ¬ a.Matches text s text.length := by
  obtain ⟨b, hb, rfl⟩ := Option.map_eq_some_iff.mp hp
  obtain rfl := Node.compile?_wrap ha hb
  rw [← Node.search_backward_eq_none_iff]
  cases hsearch : a.shift.backward.search text with
  | none =>
    rw [findAtEnd, hsearch]
    exact iff_of_true rfl rfl
  | some ds =>
    obtain ⟨s, cs, -, rfl⟩ := Node.exists_lastMatch_of_search_backward hsearch
    have hfound := findAtEnd_of_search (p := { source, node := a.shift.backward }) hsearch
    exact iff_of_false (hfound ▸ nofun) nofun

/-- What a pattern finds, if it is valid by itself, the last match tells. -/
theorem exists_lastMatch_of_findAtEnd {source : String} {f : Found}
    (ha : Node.compile? source.toList = some a) (hp : compile? source = some p)
    (h : p.findAtEnd text = some f) :
    ∃ s cs, a.LastMatch text s cs ∧ f = Found.ofMatch text s cs := by
  obtain ⟨b, hb, rfl⟩ := Option.map_eq_some_iff.mp hp
  obtain rfl := Node.compile?_wrap ha hb
  cases hsearch : a.shift.backward.search text with
  | none =>
    rw [findAtEnd, hsearch] at h
    cases h
  | some ds =>
    obtain ⟨s, cs, hlast, rfl⟩ := Node.exists_lastMatch_of_search_backward hsearch
    have hfound := findAtEnd_of_search (p := { source, node := a.shift.backward }) hsearch
    exact ⟨s, cs, hlast, Option.some.inj (h.symm.trans hfound)⟩

/-- **What is found at the end of a text.**  Nothing is found just if the pattern matches no end of
the text.  Otherwise the last match that gets to the end tells it, and it stands in the text where
it is said to start. -/
theorem findAtEnd_latest {source : String}
    (ha : Node.compile? source.toList = some a) (hp : compile? source = some p)
    (text : List Char) :
    (p.findAtEnd text = none ↔ ∀ s, ¬ a.Matches text s text.length) ∧
    ∀ f, p.findAtEnd text = some f →
      (∃ s cs, a.LastMatch text s cs ∧ f = Found.ofMatch text s cs) ∧
      f.text.toList = (text.drop f.start).take f.text.toList.length ∧
      f.start + f.text.toList.length ≤ text.length := by
  refine ⟨findAtEnd_eq_none_iff ha hp, fun f hf => ?_⟩
  obtain ⟨s, cs, hlast, rfl⟩ := exists_lastMatch_of_findAtEnd ha hp hf
  exact ⟨⟨s, cs, hlast, rfl⟩, ofMatch_within hlast⟩

/-- The last `a` that only letters `b` follow is found, without these. -/
theorem findAtEnd_latest_repeated :
    ∃ a p, Node.compile? "(a)b*".toList = some a ∧ compile? "(a)b*" = some p ∧
      ∃ s cs, a.LastMatch "aabb".toList s cs ∧
        Found.ofMatch "aabb".toList s cs = { text := "a", start := 1 } := by
  have hnode : (Node.compile? "(a)b*".toList).isSome = true := by decide +kernel
  have hfound : (compile? "(a)b*").bind (·.findAtEnd "aabb".toList) =
      some { text := "a", start := 1 } := by decide +kernel
  obtain ⟨a, ha⟩ := Option.isSome_iff_exists.mp hnode
  obtain ⟨p, hp, hf⟩ := Option.bind_eq_some_iff.mp hfound
  obtain ⟨s, cs, hlast, heq⟩ := ((findAtEnd_latest ha hp _).2 _ hf).1
  exact ⟨a, p, ha, hp, s, cs, hlast, heq.symm⟩

end Pattern

end TextTemplate
