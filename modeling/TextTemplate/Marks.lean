import TextTemplate.Edit

/-!
# Marks

A list of positions without repetitions, in ascending order. Marks are added one by one, move with
the edits of their text and merge when an edit brings them together.
-/

namespace TextTemplate

/-- No positions at all ascend. -/
theorem Marks.pairwise_nil : List.Pairwise (· < ·) ([] : List Nat) := .nil

/-- Marked positions, ascending. -/
@[ext]
structure Marks where
  positions : List Nat := []
  ascending : positions.Pairwise (· < ·) := by exact Marks.pairwise_nil
deriving DecidableEq, Repr

namespace Marks

/-- No marks. -/
def empty : Marks := {}

/-- Places a position before the first larger one, unless it is there already. -/
def insertSorted (p : Nat) : List Nat → List Nat
  | [] => [p]
  | q :: qs =>
    if p < q then p :: q :: qs
    else if p = q then q :: qs
    else q :: insertSorted p qs

/-- Keeps one of each run of equal neighbours. -/
def mergeRuns : List Nat → List Nat
  | [] => []
  | [p] => [p]
  | p :: q :: qs => if p = q then mergeRuns (q :: qs) else p :: mergeRuns (q :: qs)

@[simp] theorem mem_insertSorted {p q : Nat} {ps : List Nat} :
    q ∈ insertSorted p ps ↔ q = p ∨ q ∈ ps := by
  induction ps with
  | nil => simp [insertSorted]
  | cons r rs ih => grind [insertSorted]

@[simp] theorem mem_mergeRuns {q : Nat} {ps : List Nat} : q ∈ mergeRuns ps ↔ q ∈ ps := by
  fun_induction mergeRuns ps <;> grind

/-- Adding keeps the order. -/
theorem pairwise_insertSorted {p : Nat} {ps : List Nat} (h : ps.Pairwise (· < ·)) :
    (insertSorted p ps).Pairwise (· < ·) := by
  induction ps with
  | nil => simp [insertSorted]
  | cons q qs ih =>
    obtain ⟨hq, hqs⟩ := List.pairwise_cons.mp h
    rw [insertSorted]
    split
    · next hpq =>
      refine List.pairwise_cons.mpr ⟨fun r hr => ?_, h⟩
      rcases List.mem_cons.mp hr with rfl | hr
      · exact hpq
      · exact Nat.lt_trans hpq (hq r hr)
    · split
      · exact h
      · next hpq hne =>
        refine List.pairwise_cons.mpr ⟨fun r hr => ?_, ih hqs⟩
        rcases mem_insertSorted.mp hr with rfl | hr
        · omega
        · exact hq r hr

/-- Once neighbours that are equal are merged, positions that do not descend ascend. -/
theorem pairwise_mergeRuns {ps : List Nat} (h : ps.Pairwise (· ≤ ·)) :
    (mergeRuns ps).Pairwise (· < ·) := by
  fun_induction mergeRuns ps with
  | case1 => exact .nil
  | case2 p => exact List.pairwise_singleton _ p
  | case3 p qs ih => exact ih (List.pairwise_cons.mp h).2
  | case4 p q qs hne ih =>
    obtain ⟨hp, hqs⟩ := List.pairwise_cons.mp h
    have hq : ∀ r ∈ qs, q ≤ r := (List.pairwise_cons.mp hqs).1
    refine List.pairwise_cons.mpr ⟨fun r hr => ?_, ih hqs⟩
    have hpq : p ≤ q := hp q (by simp)
    rcases List.mem_cons.mp (mem_mergeRuns.mp hr) with rfl | hr
    · omega
    · have := hq r hr
      omega

/-- Positions that ascend have nothing to merge. -/
theorem mergeRuns_of_pairwise {ps : List Nat} (h : ps.Pairwise (· < ·)) : mergeRuns ps = ps := by
  fun_induction mergeRuns ps with
  | case1 => rfl
  | case2 p => rfl
  | case3 p qs ih => simp at h
  | case4 p q qs hne ih => rw [ih (List.pairwise_cons.mp h).2]

/-- An edit moves ascending positions to positions that do not descend. -/
theorem pairwise_map_adjust {ps : List Nat} (h : ps.Pairwise (· < ·)) (e : Edit) :
    (ps.map e.adjust).Pairwise (· ≤ ·) :=
  List.pairwise_map.mpr (h.imp fun hpq => e.adjust_mono (Nat.le_of_lt hpq))

/-- Adds a mark. -/
def add (p : Nat) (m : Marks) : Marks :=
  ⟨insertSorted p m.positions, pairwise_insertSorted m.ascending⟩

/-- Moves the marks with an edit. -/
def apply (e : Edit) (m : Marks) : Marks :=
  ⟨mergeRuns (m.positions.map e.adjust), pairwise_mergeRuns (pairwise_map_adjust m.ascending e)⟩

/-- The first mark after a position. -/
def forward (m : Marks) (p : Nat) : Option Nat := m.positions.find? (p < ·)

/-- The last mark before a position. -/
def backward (m : Marks) (p : Nat) : Option Nat := (m.positions.takeWhile (· < p)).getLast?

/-- How many marks there are. -/
def size (m : Marks) : Nat := m.positions.length

@[simp] theorem positions_add (p : Nat) (m : Marks) :
    (m.add p).positions = insertSorted p m.positions := rfl

@[simp] theorem positions_apply (e : Edit) (m : Marks) :
    (m.apply e).positions = mergeRuns (m.positions.map e.adjust) := rfl

/-- Inserting nothing moves no mark. -/
@[simp] theorem apply_insert_zero (p : Nat) (m : Marks) : m.apply (.insert p 0) = m := by
  have h : (Edit.insert p 0).adjust = id := funext (Edit.adjust_insert_zero p)
  ext1
  rw [positions_apply, h, List.map_id, mergeRuns_of_pairwise m.ascending]

/-- A mark is the next one after a position, or the position itself if there is none. -/
def Next (m : Marks) (p q : Nat) : Prop :=
  (q ∈ m.positions ∧ p < q ∧ ∀ r ∈ m.positions, p < r → q ≤ r) ∨
    (q = p ∧ ∀ r ∈ m.positions, r ≤ p)

/-- Looking for the first mark after a position finds the next one. -/
theorem next_forward (m : Marks) (p : Nat) : m.Next p ((m.forward p).getD p) := by
  cases h : m.forward p with
  | none => exact .inr ⟨rfl, by simpa [forward] using h⟩
  | some q =>
    obtain ⟨hq, as, bs, heq, has⟩ := List.find?_eq_some_iff_append.mp h
    have hsort := m.ascending
    rw [heq, List.pairwise_append, List.pairwise_cons] at hsort
    refine .inl ⟨by simp [heq], by simpa using hq, fun r hr hpr => ?_⟩
    rw [heq, List.mem_append, List.mem_cons] at hr
    rcases hr with hr | rfl | hr
    · exact absurd hpr (by simpa using has r hr)
    · exact Nat.le_refl r
    · exact Nat.le_of_lt (hsort.2.1.1 r hr)

end Marks

end TextTemplate
