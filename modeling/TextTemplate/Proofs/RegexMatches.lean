import TextTemplate.Regex.Search
import Mathlib.Data.List.Basic

/-!
# What patterns match

`Node.Matches text a i j` says that a pattern matches what stands between two positions of a text;
conditions on positions see the text around them.  A match may be found in several ways, which
differ in what the groups matched.  `Node.ways text a` lists them in the order in which they are
preferred: the first branch before the second, and more passes of a loop before fewer, or after them
if the loop is not greedy.

An unbounded loop could make passes that match nothing for ever.  Only its first pass may match
nothing, unless more are demanded, and the loop then ends.  Nothing is lost by this
(`Node.exists_mem_ways_iff`): passes that match nothing can be left out of any match.
-/

namespace TextTemplate.Regex

/-! ## Matches -/

/-- The character in front of a position. -/
def before? (text : List Char) : Nat → Option Char
  | 0 => none
  | i + 1 => text[i]?

/-- So many steps of a relation. -/
def Passes (R : Nat → Nat → Prop) : Nat → Nat → Nat → Prop
  | 0, i, k => i = k
  | n + 1, i, k => ∃ j, R i j ∧ Passes R n j k

/-- Whether a pattern matches what stands between two positions of a text. -/
def Node.Matches (text : List Char) : Node → Nat → Nat → Prop
  | empty, i, j => i = j
  | set s, i, j => j = i + 1 ∧ ∃ c, text[i]? = some c ∧ s c = true
  | look l, i, j => i = j ∧ l (before? text i) text[i]? = true
  | group _ a, i, j => a.Matches text i j
  | seq a b, i, k => ∃ j, a.Matches text i j ∧ b.Matches text j k
  | alt a b, i, j => a.Matches text i j ∨ b.Matches text i j
  | repeated t _ a, i, j =>
    ∃ more, (∀ most ∈ t.most, more ≤ most - t.least) ∧ Passes (a.Matches text) (t.least + more) i j

namespace Passes

variable {R : Nat → Nat → Prop} {m n i j k : Nat}

theorem trans (h : Passes R m i j) (h' : Passes R n j k) : Passes R (m + n) i k := by
  induction m generalizing i with
  | zero =>
    cases h
    rwa [Nat.zero_add]
  | succ m ih =>
    obtain ⟨i', hi, h⟩ := h
    rw [Nat.succ_add]
    exact ⟨i', hi, ih h⟩

theorem split : ∀ {m i}, Passes R (m + n) i k → ∃ j, Passes R m i j ∧ Passes R n j k
  | 0, i, h => ⟨i, rfl, by rwa [Nat.zero_add] at h⟩
  | m + 1, i, h => by
    rw [Nat.succ_add] at h
    obtain ⟨i', hi, h⟩ := h
    obtain ⟨j, hj, hk⟩ := split h
    exact ⟨j, ⟨i', hi, hj⟩, hk⟩

theorem mono {S : Nat → Nat → Prop} (hRS : ∀ i j, R i j → S i j) (h : Passes R n i k) :
    Passes S n i k := by
  induction n generalizing i with
  | zero => exact h
  | succ n ih =>
    obtain ⟨j, hj, h⟩ := h
    exact ⟨j, hRS i j hj, ih h⟩

section Growing

variable (hR : ∀ i j, R i j → i ≤ j)

include hR

theorem le (h : Passes R n i k) : i ≤ k := by
  induction n generalizing i with
  | zero => exact Nat.le_of_eq h
  | succ n ih =>
    obtain ⟨j, hj, h⟩ := h
    exact Nat.le_trans (hR i j hj) (ih h)

/-- Passes that match nothing can be left out, and those left are no more than the characters. -/
theorem exists_growing (h : Passes R n i k) :
    ∃ m, m ≤ n ∧ m ≤ k - i ∧ Passes (fun i j => R i j ∧ i < j) m i k := by
  induction n generalizing i with
  | zero => exact ⟨0, Nat.le_refl 0, Nat.zero_le _, h⟩
  | succ n ih =>
    obtain ⟨j, hj, h⟩ := h
    obtain ⟨m, hmn, hmk, hm⟩ := ih h
    rcases Nat.eq_or_lt_of_le (hR i j hj) with rfl | hlt
    · exact ⟨m, Nat.le_succ_of_le hmn, hmk, hm⟩
    · have := h.le hR
      exact ⟨m + 1, Nat.succ_le_succ hmn, by omega, j, ⟨hj, hlt⟩, hm⟩

/-- If a pass is demanded and all match nothing, one of them is enough. -/
theorem exists_first (h : Passes R (n + 1) i k) :
    ∃ j, R i j ∧ (i < j ∧ (∃ m, Passes (fun i j => R i j ∧ i < j) m j k) ∨ i = j ∧ j = k) := by
  induction n generalizing i with
  | zero =>
    obtain ⟨j, hj, rfl⟩ := h
    rcases Nat.eq_or_lt_of_le (hR i j hj) with rfl | hlt
    · exact ⟨i, hj, .inr ⟨rfl, rfl⟩⟩
    · exact ⟨j, hj, .inl ⟨hlt, 0, rfl⟩⟩
  | succ n ih =>
    obtain ⟨j, hj, h⟩ := h
    rcases Nat.eq_or_lt_of_le (hR i j hj) with rfl | hlt
    · exact ih h
    · obtain ⟨m, -, -, hm⟩ := h.exists_growing hR
      exact ⟨j, hj, .inl ⟨hlt, m, hm⟩⟩

end Growing

end Passes

namespace Node

variable {text : List Char}

theorem le_of_matches {a : Node} : ∀ {i j : Nat}, a.Matches text i j → i ≤ j := by
  induction a with
  | empty => exact Nat.le_of_eq
  | set s =>
    rintro i j ⟨rfl, -⟩
    exact Nat.le_succ i
  | look l =>
    rintro i j ⟨rfl, -⟩
    exact Nat.le_refl i
  | group n a ih => exact ih
  | seq a b iha ihb =>
    rintro i k ⟨j, hj, hk⟩
    exact Nat.le_trans (iha hj) (ihb hk)
  | alt a b iha ihb =>
    rintro i j (h | h)
    · exact iha h
    · exact ihb h
  | repeated t greedy a ih =>
    rintro i j ⟨more, -, h⟩
    exact h.le fun i j => ih

theorem lt_of_matches_of_nullable_eq_false {a : Node} :
    ∀ {i j : Nat}, a.nullable = false → a.Matches text i j → i < j := by
  induction a with
  | empty | look l => exact fun h => nomatch h
  | set s =>
    rintro i j - ⟨rfl, -⟩
    exact Nat.lt_succ_self i
  | group n a ih => exact ih
  | seq a b iha ihb =>
    rintro i k hn ⟨j, hj, hk⟩
    rcases Bool.and_eq_false_iff.mp hn with hn | hn
    · exact Nat.lt_of_lt_of_le (iha hn hj) (le_of_matches hk)
    · exact Nat.lt_of_le_of_lt (le_of_matches hj) (ihb hn hk)
  | alt a b iha ihb =>
    rintro i j hn h
    obtain ⟨hna, hnb⟩ := Bool.or_eq_false_iff.mp hn
    rcases h with h | h
    · exact iha hna h
    · exact ihb hnb h
  | repeated t greedy a ih =>
    rintro i j hn ⟨more, -, h⟩
    obtain ⟨hleast, hna⟩ := Bool.or_eq_false_iff.mp hn
    obtain ⟨least, hleast⟩ := Nat.exists_eq_succ_of_ne_zero (beq_eq_false_iff_ne.mp hleast)
    rw [hleast, Nat.succ_add] at h
    obtain ⟨i', hi, h⟩ := h
    exact Nat.lt_of_lt_of_le (ih hna hi) (h.le fun i j => le_of_matches)

end Node

/-! ## Ways to match -/

/-- How far a match has come, and what its groups matched. -/
abbrev Way := Nat × Captures

namespace Way

/-- Two lists of ways, that with more passes first if these are preferred. -/
def inOrder (greedy : Bool) (more done : List Way) : List Way :=
  if greedy then more ++ done else done ++ more

/-- The ways to make so many passes. -/
def passes (f : Way → List Way) : Nat → Way → List Way
  | 0, w => [w]
  | n + 1, w => (f w).flatMap (passes f n)

/-- The ways to make at most so many passes. -/
def optionalPasses (greedy : Bool) (f : Way → List Way) : Nat → Way → List Way
  | 0, w => [w]
  | n + 1, w => inOrder greedy ((f w).flatMap (optionalPasses greedy f n)) [w]

/-- The ways to make fewer passes than a bound, each of which gets on. -/
def growingPasses (greedy : Bool) (f : Way → List Way) : Nat → Way → List Way
  | 0, _ => []
  | n + 1, w =>
    inOrder greedy
      ((f w).flatMap fun v => if w.1 < v.1 then growingPasses greedy f n v else []) [w]

/-- The ways to make a pass, and then more of them unless it matched nothing. -/
def firstPass (greedy : Bool) (f : Way → List Way) (bound : Nat) (w : Way) : List Way :=
  (f w).flatMap fun v => if w.1 < v.1 then growingPasses greedy f bound v else [v]

end Way

open Way

/-- The ways in which a pattern matches, the preferred ones first. -/
def Node.ways (text : List Char) : Node → Way → List Way
  | empty, w => [w]
  | set s, (i, cs) => if text[i]?.any s then [(i + 1, cs)] else []
  | look l, (i, cs) => if l (before? text i) text[i]? then [(i, cs)] else []
  | group n a, w => (a.ways text w).map fun v => (v.1, ⟨n, w.1, v.1⟩ :: v.2)
  | seq a b, w => (a.ways text w).flatMap (b.ways text)
  | alt a b, w => a.ways text w ++ b.ways text w
  | repeated ⟨least, some most⟩ greedy a, w =>
    (passes (a.ways text) least w).flatMap (optionalPasses greedy (a.ways text) (most - least))
  | repeated ⟨0, none⟩ greedy a, w =>
    inOrder greedy (firstPass greedy (a.ways text) (text.length + 1) w) [w]
  | repeated ⟨least + 1, none⟩ greedy a, w =>
    (passes (a.ways text) least w).flatMap (firstPass greedy (a.ways text) (text.length + 1))

namespace Way

@[simp] theorem mem_inOrder {greedy : Bool} {more done : List Way} {w : Way} :
    w ∈ inOrder greedy more done ↔ w ∈ more ∨ w ∈ done := by
  cases greedy <;> simp [inOrder, or_comm]

/-! What holds between the start and the end of each pass holds between those of any number. -/

section Relation

variable {P : Way → Way → Prop} {f : Way → List Way} {greedy : Bool} (hrefl : ∀ w, P w w)
  (htrans : ∀ {u v w}, P u v → P v w → P u w) (hf : ∀ {v w}, w ∈ f v → P v w)

include hrefl htrans hf

theorem rel_of_mem_passes {n : Nat} {u w : Way} (h : w ∈ passes f n u) : P u w := by
  induction n generalizing u with
  | zero => exact List.mem_singleton.mp h ▸ hrefl w
  | succ n ih =>
    obtain ⟨v, hv, hw⟩ := List.mem_flatMap.mp h
    exact htrans (hf hv) (ih hw)

theorem rel_of_mem_optionalPasses {n : Nat} {u w : Way} (h : w ∈ optionalPasses greedy f n u) :
    P u w := by
  induction n generalizing u with
  | zero => exact List.mem_singleton.mp h ▸ hrefl w
  | succ n ih =>
    rcases mem_inOrder.mp h with h | h
    · obtain ⟨v, hv, hw⟩ := List.mem_flatMap.mp h
      exact htrans (hf hv) (ih hw)
    · exact List.mem_singleton.mp h ▸ hrefl w

theorem rel_of_mem_growingPasses {n : Nat} {u w : Way} (h : w ∈ growingPasses greedy f n u) :
    P u w := by
  induction n generalizing u with
  | zero => exact absurd h List.not_mem_nil
  | succ n ih =>
    rcases mem_inOrder.mp h with h | h
    · obtain ⟨v, hv, hw⟩ := List.mem_flatMap.mp h
      split at hw
      · exact htrans (hf hv) (ih hw)
      · exact absurd hw List.not_mem_nil
    · exact List.mem_singleton.mp h ▸ hrefl w

theorem rel_of_mem_firstPass {n : Nat} {u w : Way} (h : w ∈ firstPass greedy f n u) : P u w := by
  obtain ⟨v, hv, hw⟩ := List.mem_flatMap.mp h
  split at hw
  · exact htrans (hf hv) (rel_of_mem_growingPasses hrefl htrans hf hw)
  · exact List.mem_singleton.mp hw ▸ hf hv

end Relation

end Way

/-- A relation between starts and ends of ways that each character and each group keeps, and that
can be chained, holds of all ways of a pattern. -/
theorem Node.rel_of_mem_ways {text : List Char} {P : Way → Way → Prop} (hrefl : ∀ w, P w w)
    (htrans : ∀ {u v w}, P u v → P v w → P u w)
    (hset : ∀ i cs, i < text.length → P (i, cs) (i + 1, cs))
    (hgroup : ∀ n {v w}, P v w → P v (w.1, ⟨n, v.1, w.1⟩ :: w.2)) {a : Node} :
    ∀ {v w : Way}, w ∈ a.ways text v → P v w := by
  induction a with
  | empty =>
    intro v w h
    exact List.mem_singleton.mp h ▸ hrefl w
  | set s =>
    rintro ⟨i, cs⟩ w h
    simp only [ways] at h
    split at h
    · next hs =>
      rw [List.mem_singleton.mp h]
      obtain ⟨c, hc, -⟩ := Option.any_eq_true _ _ |>.mp hs
      exact hset i cs (List.getElem?_eq_some_iff.mp hc).1
    · exact absurd h List.not_mem_nil
  | look l =>
    rintro ⟨i, cs⟩ w h
    simp only [ways] at h
    split at h
    · exact List.mem_singleton.mp h ▸ hrefl w
    · exact absurd h List.not_mem_nil
  | group n a ih =>
    intro v w h
    obtain ⟨u, hu, rfl⟩ := List.mem_map.mp h
    exact hgroup n (ih hu)
  | seq a b iha ihb =>
    intro v w h
    obtain ⟨u, hu, hw⟩ := List.mem_flatMap.mp h
    exact htrans (iha hu) (ihb hw)
  | alt a b iha ihb =>
    intro v w h
    rcases List.mem_append.mp h with h | h
    · exact iha h
    · exact ihb h
  | repeated t greedy a ih =>
    intro v w h
    rcases t with ⟨least, _ | most⟩
    · cases least with
      | zero =>
        rcases mem_inOrder.mp h with h | h
        · exact rel_of_mem_firstPass hrefl htrans ih h
        · exact List.mem_singleton.mp h ▸ hrefl w
      | succ least =>
        obtain ⟨u, hu, hw⟩ := List.mem_flatMap.mp h
        exact htrans (rel_of_mem_passes hrefl htrans ih hu)
          (rel_of_mem_firstPass hrefl htrans ih hw)
    · obtain ⟨u, hu, hw⟩ := List.mem_flatMap.mp h
      exact htrans (rel_of_mem_passes hrefl htrans ih hu)
        (rel_of_mem_optionalPasses hrefl htrans ih hw)

/-- What ways have in common: they go on, do not leave the text, and keep what the groups matched
before; what the groups match lies between start and end. -/
structure Way.Extends (text : List Char) (v w : Way) : Prop where
  le : v.1 ≤ w.1
  le_length : v.1 ≤ text.length → w.1 ≤ text.length
  captures : ∀ c ∈ w.2, c ∈ v.2 ∨ v.1 ≤ c.start ∧ c.start ≤ c.stop ∧ c.stop ≤ w.1

namespace Way.Extends

variable {text : List Char}

theorem refl (w : Way) : w.Extends text w := ⟨Nat.le_refl _, id, fun _ => .inl⟩

theorem trans {u v w : Way} (huv : u.Extends text v) (hvw : v.Extends text w) :
    u.Extends text w := by
  refine ⟨Nat.le_trans huv.le hvw.le, fun hu => hvw.le_length (huv.le_length hu), ?_⟩
  intro c hc
  rcases hvw.captures c hc with hc | ⟨hstart, hstop, hend⟩
  · rcases huv.captures c hc with hc | ⟨hstart, hstop, hend⟩
    · exact .inl hc
    · exact .inr ⟨hstart, hstop, Nat.le_trans hend hvw.le⟩
  · exact .inr ⟨Nat.le_trans huv.le hstart, hstop, hend⟩

theorem group (n : Nat) {v w : Way} (h : v.Extends text w) :
    v.Extends text (w.1, ⟨n, v.1, w.1⟩ :: w.2) := by
  refine ⟨h.le, h.le_length, fun c hc => ?_⟩
  rcases List.mem_cons.mp hc with rfl | hc
  · exact .inr ⟨Nat.le_refl _, h.le, Nat.le_refl _⟩
  · exact h.captures c hc

end Way.Extends

theorem Node.extends_of_mem_ways {text : List Char} {a : Node} {v w : Way}
    (h : w ∈ a.ways text v) : v.Extends text w :=
  rel_of_mem_ways Extends.refl Extends.trans
    (fun i _ hi => ⟨Nat.le_succ i, fun _ => hi, fun _ => .inl⟩) (fun n _ _ h => h.group n) h

/-! ## Ways are matches, and all of them -/

namespace Way

section Sound

variable {R : Nat → Nat → Prop} {f : Way → List Way} {greedy : Bool}
  (hf : ∀ {v w}, w ∈ f v → R v.1 w.1)

include hf

theorem passes_of_mem {n : Nat} {v w : Way} (h : w ∈ passes f n v) : Passes R n v.1 w.1 := by
  induction n generalizing v with
  | zero => exact congrArg Prod.fst (List.mem_singleton.mp h).symm
  | succ n ih =>
    obtain ⟨u, hu, hw⟩ := List.mem_flatMap.mp h
    exact ⟨u.1, hf hu, ih hw⟩

theorem passes_of_mem_optionalPasses {n : Nat} {v w : Way}
    (h : w ∈ optionalPasses greedy f n v) : ∃ m, m ≤ n ∧ Passes R m v.1 w.1 := by
  induction n generalizing v with
  | zero => exact ⟨0, Nat.le_refl 0, congrArg Prod.fst (List.mem_singleton.mp h).symm⟩
  | succ n ih =>
    rcases mem_inOrder.mp h with h | h
    · obtain ⟨u, hu, hw⟩ := List.mem_flatMap.mp h
      obtain ⟨m, hm, hpasses⟩ := ih hw
      exact ⟨m + 1, Nat.succ_le_succ hm, u.1, hf hu, hpasses⟩
    · exact ⟨0, Nat.zero_le _, congrArg Prod.fst (List.mem_singleton.mp h).symm⟩

theorem passes_of_mem_growingPasses {n : Nat} {v w : Way} (h : w ∈ growingPasses greedy f n v) :
    ∃ m, Passes R m v.1 w.1 := by
  induction n generalizing v with
  | zero => exact absurd h List.not_mem_nil
  | succ n ih =>
    rcases mem_inOrder.mp h with h | h
    · obtain ⟨u, hu, hw⟩ := List.mem_flatMap.mp h
      split at hw
      · obtain ⟨m, hpasses⟩ := ih hw
        exact ⟨m + 1, u.1, hf hu, hpasses⟩
      · exact absurd hw List.not_mem_nil
    · exact ⟨0, congrArg Prod.fst (List.mem_singleton.mp h).symm⟩

theorem passes_of_mem_firstPass {n : Nat} {v w : Way} (h : w ∈ firstPass greedy f n v) :
    ∃ m, Passes R (m + 1) v.1 w.1 := by
  obtain ⟨u, hu, hw⟩ := List.mem_flatMap.mp h
  split at hw
  · obtain ⟨m, hpasses⟩ := passes_of_mem_growingPasses hf hw
    exact ⟨m, u.1, hf hu, hpasses⟩
  · exact ⟨0, u.1, hf hu, congrArg Prod.fst (List.mem_singleton.mp hw).symm⟩

end Sound

section Complete

variable {R : Nat → Nat → Prop} {f : Way → List Way} {greedy : Bool} {length : Nat}
  (hlength : ∀ {v w}, w ∈ f v → v.1 ≤ length → w.1 ≤ length)
  (hf : ∀ {v : Way} {j : Nat}, v.1 ≤ length → R v.1 j → ∃ w ∈ f v, w.1 = j)

include hlength hf

theorem exists_mem_passes {n : Nat} {v : Way} {j : Nat} (hv : v.1 ≤ length)
    (h : Passes R n v.1 j) : ∃ w ∈ passes f n v, w.1 = j := by
  induction n generalizing v with
  | zero => exact ⟨v, List.mem_singleton_self v, h⟩
  | succ n ih =>
    obtain ⟨i, hi, h⟩ := h
    obtain ⟨u, hu, rfl⟩ := hf hv hi
    obtain ⟨w, hw, hwj⟩ := ih (hlength hu hv) h
    exact ⟨w, List.mem_flatMap.mpr ⟨u, hu, hw⟩, hwj⟩

theorem exists_mem_optionalPasses {m n : Nat} {v : Way} {j : Nat} (hv : v.1 ≤ length)
    (hmn : m ≤ n) (h : Passes R m v.1 j) : ∃ w ∈ optionalPasses greedy f n v, w.1 = j := by
  induction n generalizing m v with
  | zero =>
    cases Nat.le_zero.mp hmn
    exact ⟨v, List.mem_singleton_self v, h⟩
  | succ n ih =>
    cases m with
    | zero => exact ⟨v, mem_inOrder.mpr (.inr (List.mem_singleton_self v)), h⟩
    | succ m =>
      obtain ⟨i, hi, h⟩ := h
      obtain ⟨u, hu, rfl⟩ := hf hv hi
      obtain ⟨w, hw, hwj⟩ := ih (hlength hu hv) (Nat.le_of_succ_le_succ hmn) h
      exact ⟨w, mem_inOrder.mpr (.inl (List.mem_flatMap.mpr ⟨u, hu, hw⟩)), hwj⟩

/-- A bound on the passes that get on does not matter if the text has no more characters. -/
theorem exists_mem_growingPasses {m n : Nat} {v : Way} {j : Nat} (hv : v.1 ≤ length)
    (hn : length < v.1 + n) (h : Passes (fun i j => R i j ∧ i < j) m v.1 j) :
    ∃ w ∈ growingPasses greedy f n v, w.1 = j := by
  induction n generalizing m v with
  | zero => omega
  | succ n ih =>
    cases m with
    | zero => exact ⟨v, mem_inOrder.mpr (.inr (List.mem_singleton_self v)), h⟩
    | succ m =>
      obtain ⟨i, ⟨hi, hlt⟩, h⟩ := h
      obtain ⟨u, hu, rfl⟩ := hf hv hi
      obtain ⟨w, hw, hwj⟩ := ih (hlength hu hv) (by omega) h
      refine ⟨w, mem_inOrder.mpr (.inl (List.mem_flatMap.mpr ⟨u, hu, ?_⟩)), hwj⟩
      rwa [if_pos hlt]

theorem exists_mem_firstPass (hle : ∀ i j, R i j → i ≤ j) {n : Nat} {v : Way} {j : Nat}
    (hv : v.1 ≤ length) (h : Passes R (n + 1) v.1 j) :
    ∃ w ∈ firstPass greedy f (length + 1) v, w.1 = j := by
  obtain ⟨i, hi, hrest⟩ := h.exists_first hle
  obtain ⟨u, hu, rfl⟩ := hf hv hi
  rcases hrest with ⟨hlt, m, hm⟩ | ⟨heq, rfl⟩
  · have hbound : length < u.1 + (length + 1) := by omega
    obtain ⟨w, hw, hwj⟩ := exists_mem_growingPasses hlength hf (hlength hu hv) hbound hm
    refine ⟨w, List.mem_flatMap.mpr ⟨u, hu, ?_⟩, hwj⟩
    rwa [if_pos hlt]
  · refine ⟨u, List.mem_flatMap.mpr ⟨u, hu, ?_⟩, rfl⟩
    rw [if_neg (by omega)]
    exact List.mem_singleton_self u

end Complete

end Way

namespace Node

variable {text : List Char}

theorem matches_of_mem_ways {a : Node} :
    ∀ {v w : Way}, w ∈ a.ways text v → a.Matches text v.1 w.1 := by
  induction a with
  | empty =>
    intro v w h
    exact congrArg Prod.fst (List.mem_singleton.mp h).symm
  | set s =>
    rintro ⟨i, cs⟩ w h
    simp only [ways] at h
    split at h
    · next hs =>
      rw [List.mem_singleton.mp h]
      obtain ⟨c, hc, hsc⟩ := Option.any_eq_true _ _ |>.mp hs
      exact ⟨rfl, c, hc, hsc⟩
    · exact absurd h List.not_mem_nil
  | look l =>
    rintro ⟨i, cs⟩ w h
    simp only [ways] at h
    split at h
    · next hl =>
      rw [List.mem_singleton.mp h]
      exact ⟨rfl, hl⟩
    · exact absurd h List.not_mem_nil
  | group n a ih =>
    intro v w h
    obtain ⟨u, hu, rfl⟩ := List.mem_map.mp h
    have hmatches := ih hu
    exact hmatches
  | seq a b iha ihb =>
    intro v w h
    obtain ⟨u, hu, hw⟩ := List.mem_flatMap.mp h
    exact ⟨u.1, iha hu, ihb hw⟩
  | alt a b iha ihb =>
    intro v w h
    exact (List.mem_append.mp h).imp iha ihb
  | repeated t greedy a ih =>
    intro v w h
    rcases t with ⟨least, _ | most⟩
    · cases least with
      | zero =>
        rcases mem_inOrder.mp h with h | h
        · obtain ⟨m, hm⟩ := passes_of_mem_firstPass ih h
          exact ⟨m + 1, nofun, by rwa [Nat.zero_add]⟩
        · exact ⟨0, nofun, congrArg Prod.fst (List.mem_singleton.mp h).symm⟩
      | succ least =>
        obtain ⟨u, hu, hw⟩ := List.mem_flatMap.mp h
        obtain ⟨m, hm⟩ := passes_of_mem_firstPass ih hw
        refine ⟨m, nofun, ?_⟩
        rw [Nat.succ_add_eq_add_succ]
        exact (passes_of_mem ih hu).trans hm
    · obtain ⟨u, hu, hw⟩ := List.mem_flatMap.mp h
      obtain ⟨m, hm, hpasses⟩ := passes_of_mem_optionalPasses ih hw
      exact ⟨m, by rintro _ ⟨⟩; exact hm, (passes_of_mem ih hu).trans hpasses⟩

/-- All matches are found. -/
theorem exists_mem_ways {a : Node} : ∀ {v : Way} {j : Nat}, v.1 ≤ text.length →
    a.Matches text v.1 j → ∃ w ∈ a.ways text v, w.1 = j := by
  induction a with
  | empty => exact fun {v j} _ h => ⟨v, List.mem_singleton_self v, h⟩
  | set s =>
    rintro ⟨i, cs⟩ j - ⟨rfl, c, hc, hs⟩
    refine ⟨(i + 1, cs), ?_, rfl⟩
    simp [ways, hc, hs]
  | look l =>
    rintro ⟨i, cs⟩ j - ⟨rfl, hl⟩
    refine ⟨(i, cs), ?_, rfl⟩
    simp [ways, hl]
  | group n a ih =>
    intro v j hv h
    obtain ⟨w, hw, rfl⟩ := ih hv h
    exact ⟨_, List.mem_map_of_mem hw, rfl⟩
  | seq a b iha ihb =>
    rintro v k hv ⟨j, hj, hk⟩
    obtain ⟨u, hu, rfl⟩ := iha hv hj
    obtain ⟨w, hw, hwk⟩ := ihb ((extends_of_mem_ways hu).le_length hv) hk
    exact ⟨w, List.mem_flatMap.mpr ⟨u, hu, hw⟩, hwk⟩
  | alt a b iha ihb =>
    rintro v j hv (h | h)
    · obtain ⟨w, hw, hwj⟩ := iha hv h
      exact ⟨w, List.mem_append_left _ hw, hwj⟩
    · obtain ⟨w, hw, hwj⟩ := ihb hv h
      exact ⟨w, List.mem_append_right _ hw, hwj⟩
  | repeated t greedy a ih =>
    rintro v j hv ⟨more, hmore, h⟩
    have hle : ∀ i j, a.Matches text i j → i ≤ j := fun _ _ => le_of_matches
    have hlength {v w : Way} (hw : w ∈ a.ways text v) : v.1 ≤ text.length → w.1 ≤ text.length :=
      (extends_of_mem_ways hw).le_length
    have hpasses {n : Nat} {v w : Way} (hw : w ∈ passes (a.ways text) n v) :
        v.1 ≤ text.length → w.1 ≤ text.length :=
      (rel_of_mem_passes Extends.refl Extends.trans extends_of_mem_ways hw).le_length
    rcases t with ⟨least, _ | most⟩
    · cases least with
      | zero =>
        rw [Nat.zero_add] at h
        cases more with
        | zero => exact ⟨v, mem_inOrder.mpr (.inr (List.mem_singleton_self v)), h⟩
        | succ more =>
          obtain ⟨w, hw, hwj⟩ := exists_mem_firstPass hlength ih hle hv h
          exact ⟨w, mem_inOrder.mpr (.inl hw), hwj⟩
      | succ least =>
        rw [Nat.succ_add_eq_add_succ] at h
        obtain ⟨i, hi, hj⟩ := h.split
        obtain ⟨u, hu, rfl⟩ := exists_mem_passes hlength ih hv hi
        obtain ⟨w, hw, hwj⟩ := exists_mem_firstPass hlength ih hle (hpasses hu hv) hj
        exact ⟨w, List.mem_flatMap.mpr ⟨u, hu, hw⟩, hwj⟩
    · obtain ⟨i, hi, hj⟩ := h.split
      obtain ⟨u, hu, rfl⟩ := exists_mem_passes hlength ih hv hi
      obtain ⟨w, hw, hwj⟩ :=
        exists_mem_optionalPasses hlength ih (hpasses hu hv) (hmore most rfl) hj
      exact ⟨w, List.mem_flatMap.mpr ⟨u, hu, hw⟩, hwj⟩

/-- **The ways of a pattern end where it matches.** -/
theorem exists_mem_ways_iff {a : Node} {v : Way} {j : Nat} (hv : v.1 ≤ text.length) :
    (∃ w ∈ a.ways text v, w.1 = j) ↔ a.Matches text v.1 j := by
  constructor
  · rintro ⟨w, hw, rfl⟩
    exact matches_of_mem_ways hw
  · exact exists_mem_ways hv

end Node

end TextTemplate.Regex
