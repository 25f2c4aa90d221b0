import TextTemplate.Proofs.LastMatch
import TextTemplate.Scope
import Mathlib.Data.List.DropRight

/-!
# The word in front of point

The finder that a scope has by default is a pattern: a word boundary, and behind it one word
character or more.  Of the ways to get to the end of a text, the pattern that is searched for takes
the one that starts last.  That could be any end of the last word, were it not for the boundary,
which holds in front of the word alone (`Node.lastWord_matches_iff`).  So the whole word is found
(`Finder.find_word`).
-/

namespace TextTemplate

namespace Regex

/-- A text taken apart in front of the characters of a set that it ends with, as many as there
are. -/
structure LastRun (s : CharSet) (text before run : List Char) : Prop where
  text_eq : text = before ++ run
  ne_nil : run ≠ []
  mem : ∀ c ∈ run, s c = true
  last_before : ∀ c, before.getLast? = some c → s c = false

namespace LastRun

variable {s : CharSet} {text before run : List Char}

/-- No end of the text that is made of the same characters is longer. -/
theorem longest (h : LastRun s text before run) {t : List Char} (ht : t <:+ text)
    (hmem : ∀ c ∈ t, s c = true) : t <:+ run := by
  have hrun : run <:+ text := ⟨before, h.text_eq.symm⟩
  rcases List.suffix_or_suffix_of_suffix ht hrun with hshort | ⟨more, rfl⟩
  · exact hshort
  · obtain ⟨front, hfront⟩ := ht
    have hbefore : front ++ more = before := by
      rw [h.text_eq, ← List.append_assoc] at hfront
      exact List.append_cancel_right hfront
    rcases List.eq_nil_or_concat more with rfl | ⟨init, c, rfl⟩
    · exact List.suffix_rfl
    · -- what is more would end in a character of the set, and the rest of the text does not
      have hlast : before.getLast? = some c := by
        rw [← hbefore, List.concat_eq_append, ← List.append_assoc, List.getLast?_concat]
      have hc := hmem c (by simp)
      rw [h.last_before c hlast] at hc
      exact nomatch hc

theorem exists_iff :
    (∃ before run, LastRun s text before run) ↔ ∃ c, text.getLast? = some c ∧ s c = true := by
  constructor
  · rintro ⟨before, run, rfl, hne, hmem, -⟩
    obtain ⟨init, c, rfl⟩ := (List.eq_nil_or_concat run).resolve_left hne
    refine ⟨c, ?_, hmem c (by simp)⟩
    rw [List.concat_eq_append, ← List.append_assoc, List.getLast?_concat]
  · rintro ⟨c, hlast, hc⟩
    refine ⟨text.rdropWhile s, text.rtakeWhile s, List.rdropWhile_append_rtakeWhile.symm, ?_,
      fun _ => List.mem_rtakeWhile_imp, fun d hd => ?_⟩
    · obtain ⟨init, rfl⟩ := List.getLast?_eq_some_iff.mp hlast
      rw [List.rtakeWhile_concat_pos s init c hc]
      exact List.concat_ne_nil c _
    · have hne : text.rdropWhile s ≠ [] := fun hnil => by simp [hnil] at hd
      have hd' := List.rdropWhile_last_not s text hne
      rw [List.getLast_eq_iff_getLast?_eq_some hne |>.mpr hd] at hd'
      exact Bool.eq_false_iff.mpr hd'

end LastRun

theorem before?_eq_getLast? {text : List Char} {i : Nat} (hi : i ≤ text.length) :
    before? text i = (text.take i).getLast? := by
  cases i with
  | zero => rfl
  | succ i =>
    rw [before?, List.getLast?_take, if_neg (Nat.succ_ne_zero i), Nat.add_sub_cancel,
      List.getElem?_eq_getElem hi, Option.some_or]

namespace Node

variable {s : CharSet} {text : List Char} {i j : Nat}

theorem passes_set_iff {n : Nat} :
    Passes ((set s).Matches text) n i j ↔
      j = i + n ∧ ∀ k, i ≤ k → k < j → ∃ c, text[k]? = some c ∧ s c = true := by
  induction n generalizing i with
  | zero =>
    constructor
    · rintro rfl
      exact ⟨rfl, fun k hle hlt => absurd hle (Nat.not_le_of_lt hlt)⟩
    · rintro ⟨rfl, -⟩
      rfl
  | succ n ih =>
    constructor
    · rintro ⟨_, ⟨rfl, hc⟩, hrest⟩
      obtain ⟨rfl, hrest⟩ := ih.mp hrest
      refine ⟨by omega, fun k hle hlt => ?_⟩
      rcases Nat.eq_or_lt_of_le hle with rfl | hk
      · exact hc
      · exact hrest k hk hlt
    · rintro ⟨rfl, h⟩
      exact ⟨i + 1, ⟨rfl, h i (Nat.le_refl i) (by omega)⟩,
        ih.mpr ⟨by omega, fun k hle => h k (by omega)⟩⟩

/-- One character of a set or more get to the end of a text from where only such characters
follow. -/
theorem repeated_set_matches_end_iff (greedy : Bool) :
    (repeated ⟨1, none⟩ greedy (set s)).Matches text i text.length ↔
      i < text.length ∧ ∀ c ∈ text.drop i, s c = true := by
  constructor
  · rintro ⟨more, -, h⟩
    obtain ⟨hlength, h⟩ := passes_set_iff.mp h
    have hlt : i < text.length := by
      rw [hlength]
      exact Nat.lt_add_of_pos_right (Nat.lt_add_right more Nat.one_pos)
    refine ⟨hlt, fun c hc => ?_⟩
    obtain ⟨k, hk⟩ := List.mem_iff_getElem?.mp hc
    rw [List.getElem?_drop] at hk
    have hlt : i + k < text.length := (List.getElem?_eq_some_iff.mp hk).1
    obtain ⟨d, hd, hs⟩ := h (i + k) (Nat.le_add_right ..) hlt
    cases hk.symm.trans hd
    exact hs
  · rintro ⟨hlt, h⟩
    have hlength : text.length = i + (1 + (text.length - (i + 1))) := by omega
    refine ⟨text.length - (i + 1), nofun, passes_set_iff.mpr ⟨hlength, fun k hle hk => ?_⟩⟩
    have hmem : text[k] ∈ text.drop i := List.mem_drop_iff_getElem.mpr
      ⟨k - i, by omega, by simp only [Nat.add_sub_cancel' hle]⟩
    exact ⟨text[k], List.getElem?_eq_getElem hk, h _ hmem⟩

/-- The node of the pattern of the word in front of point. -/
def lastWord : Node :=
  seq (look (Assertion.wordBoundary.look {}))
    (seq (group 1 (repeated ⟨1, none⟩ true (set Unicode.isWord))) empty)

theorem compile?_wordPattern : compile? Finder.wordPattern.toList = some lastWord := rfl

/-- In front of a word character, a word boundary asks that there is none before. -/
theorem wordBoundary_iff {before : Option Char} {c : Char} (hc : Unicode.isWord c = true) :
    Assertion.wordBoundary.look {} before (some c) = true ↔
      ∀ d, before = some d → Unicode.isWord d = false := by
  have hlook : Assertion.wordBoundary.look {} before (some c) =
      (isIn Unicode.isWord before != Unicode.isWord c) := rfl
  rw [hlook, hc]
  cases before <;> simp [isIn]

/-- **The boundary and the word get to the end of a text from one position only**, in front of the
word characters that the text ends with. -/
theorem lastWord_matches_iff :
    lastWord.Matches text i text.length ↔
      i < text.length ∧ LastRun Unicode.isWord text (text.take i) (text.drop i) := by
  have hboundary (hlt : i < text.length) (hmem : ∀ c ∈ text.drop i, Unicode.isWord c = true) :
      Assertion.wordBoundary.look {} (before? text i) text[i]? = true ↔
        ∀ d, (text.take i).getLast? = some d → Unicode.isWord d = false := by
    have hfirst : Unicode.isWord text[i] = true := by
      rw [List.drop_eq_getElem_cons hlt] at hmem
      exact hmem _ List.mem_cons_self
    rw [List.getElem?_eq_getElem hlt, wordBoundary_iff hfirst,
      before?_eq_getLast? (Nat.le_of_lt hlt)]
  constructor
  · rintro ⟨_, ⟨rfl, hlook⟩, _, hrun, rfl⟩
    obtain ⟨hlt, hmem⟩ := (repeated_set_matches_end_iff true).mp hrun
    exact ⟨hlt, (List.take_append_drop i text).symm, mt List.drop_eq_nil_iff.mp (by omega), hmem,
      (hboundary hlt hmem).mp hlook⟩
  · rintro ⟨hlt, h⟩
    exact ⟨i, ⟨rfl, (hboundary hlt h.mem).mpr h.last_before⟩, text.length,
      (repeated_set_matches_end_iff true).mpr ⟨hlt, h.mem⟩, rfl⟩

theorem exists_lastWord_matches_iff :
    (∃ i, lastWord.Matches text i text.length) ↔
      ∃ c, text.getLast? = some c ∧ Unicode.isWord c = true := by
  rw [← LastRun.exists_iff]
  constructor
  · rintro ⟨i, h⟩
    exact ⟨_, _, (lastWord_matches_iff.mp h).2⟩
  · rintro ⟨before, run, h⟩
    obtain rfl := h.text_eq
    have hlt : before.length < (before ++ run).length := by
      rw [List.length_append]
      exact Nat.lt_add_of_pos_right (List.length_pos_of_ne_nil h.ne_nil)
    exact ⟨before.length, lastWord_matches_iff.mpr
      ⟨hlt, by rwa [List.take_left, List.drop_left]⟩⟩

/-- The group notes all of the word. -/
theorem find?_of_mem_ways_lastWord {w : Way} (h : w ∈ lastWord.ways text (i, [])) :
    Captures.find? w.2 1 = some ⟨1, i, w.1⟩ := by
  obtain ⟨u, hu, h⟩ := List.mem_flatMap.mp h
  obtain ⟨v, hv, h⟩ := List.mem_flatMap.mp h
  cases List.mem_singleton.mp h
  obtain ⟨x, -, rfl⟩ := List.mem_map.mp hv
  -- the boundary stays where it is
  have hstays : u.1 = i := by
    rw [ways] at hu
    split at hu
    · exact congrArg Prod.fst (List.mem_singleton.mp hu)
    · exact absurd hu List.not_mem_nil
  rw [← hstays]
  rfl

theorem ofMatch_lastWord {cs : Captures} (h : lastWord.LastMatch text i cs) :
    Found.ofMatch text i cs = { text := .ofList (text.drop i), start := i } := by
  obtain ⟨hmem, -⟩ := List.mem_filter.mp (List.mem_of_head? h.preferred)
  rw [Found.ofMatch, find?_of_mem_ways_lastWord hmem]
  dsimp only
  rw [List.take_length]

end Node

end Regex

namespace Finder

open Regex

theorem compile?_wordPattern_isSome : (Pattern.compile? wordPattern).isSome = true := by
  decide +kernel

/-- **What the finder of the word in front of point finds.**  Nothing just if the text is empty or
ends in a character that is no word character.  Otherwise it finds the longest end of the text that
is made of word characters, and tells how many characters stand in front of it. -/
theorem find_word :
    ∃ p, Pattern.compile? wordPattern = some p ∧ word = .pattern p ∧ ∀ text : List Char,
      (p.findAtEnd text = none ↔
        text = [] ∨ ∃ c, text.getLast? = some c ∧ Unicode.isWord c = false) ∧
      ∀ f, p.findAtEnd text = some f →
        ∃ before, text = before ++ f.text.toList ∧ f.start = before.length ∧
          (∀ c ∈ f.text.toList, Unicode.isWord c = true) ∧
          ∀ t, t <:+ text → (∀ c ∈ t, Unicode.isWord c = true) → t <:+ f.text.toList := by
  obtain ⟨p, hp⟩ := Option.isSome_iff_exists.mp compile?_wordPattern_isSome
  have hword : word = .pattern p := by rw [word, ofPattern?, hp]; rfl
  refine ⟨p, hp, hword, fun text => ⟨?_, fun f hf => ?_⟩⟩
  · rw [Pattern.findAtEnd_eq_none_iff Node.compile?_wordPattern hp, ← not_exists,
      Node.exists_lastWord_matches_iff]
    cases text using List.reverseRecOn with
    | nil => simp
    | append_singleton init c => simp
  · obtain ⟨s, cs, hlast, rfl⟩ :=
      Pattern.exists_lastMatch_of_findAtEnd Node.compile?_wordPattern hp hf
    obtain ⟨hlt, hrun⟩ := Node.lastWord_matches_iff.mp hlast.matches_end
    rw [Node.ofMatch_lastWord hlast, String.toList_ofList]
    have hlength : (text.take s).length = s := List.length_take_of_le (Nat.le_of_lt hlt)
    exact ⟨text.take s, hrun.text_eq, hlength.symm, hrun.mem, fun t ht => hrun.longest ht⟩

end Finder

end TextTemplate
