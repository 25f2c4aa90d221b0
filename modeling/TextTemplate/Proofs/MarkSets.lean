import Mathlib.Data.Finset.Sort
import TextTemplate.Proofs.Navigation

/-!
# Marks as a set

Marks are added one by one, moved by edits and dropped.  At any time they are the positions of a finite
set in ascending order: each action on marks is an action on sets (`Marks.toFinset_perform`), where an
edit takes a set to its image.  That the list of marks stays in order is in its type, because an edit
keeps the order of positions (`Edit.adjust_mono`).  The neighbours of a position among the marks are the
least element above it and the greatest one below it, as `Marks.run_eq_sort` says of any actions.
-/

namespace TextTemplate

/-- What is done to marks. -/
inductive MarkAction where
  /-- There is a new mark. -/
  | add (p : Nat)
  /-- All marks move with an edit. -/
  | apply (e : Edit)
  /-- There are no marks any more. -/
  | clear
deriving DecidableEq, Repr

namespace MarkAction

/-- The marks after an action. -/
def perform (m : Marks) : MarkAction → Marks
  | add p => m.add p
  | apply e => m.apply e
  | clear => .empty

/-- The set of positions after an action. -/
def image (s : Finset Nat) : MarkAction → Finset Nat
  | add p => insert p s
  | apply e => s.image e.adjust
  | clear => ∅

/-- The marks after some actions in order, from none on. -/
def run (as : List MarkAction) : Marks := as.foldl perform .empty

/-- The set of positions after some actions in order, from the empty set on. -/
def imageAll (as : List MarkAction) : Finset Nat := as.foldl image ∅

end MarkAction

namespace Marks

variable (m : Marks) (p : Nat)

/-- The set of the marked positions. -/
def toFinset : Finset Nat := m.positions.toFinset

@[simp] theorem mem_toFinset {m : Marks} {p : Nat} : p ∈ m.toFinset ↔ p ∈ m.positions :=
  List.mem_toFinset

/-- The marks are the set in ascending order. -/
theorem positions_eq_sort : m.positions = m.toFinset.sort :=
  ((List.toFinset_sort (· ≤ ·) (m.ascending.imp Nat.ne_of_lt)).mpr
    (m.ascending.imp Nat.le_of_lt)).symm

/-- An action on marks is one on their set. -/
theorem toFinset_perform (a : MarkAction) : (a.perform m).toFinset = a.image m.toFinset := by
  cases a with
  | add p =>
    ext q
    simp [MarkAction.perform, MarkAction.image]
  | apply e =>
    ext q
    simp [MarkAction.perform, MarkAction.image]
  | clear => rfl

theorem toFinset_run (as : List MarkAction) :
    (MarkAction.run as).toFinset = MarkAction.imageAll as := by
  induction as using List.reverseRecOn with
  | nil => rfl
  | append_singleton as a ih =>
    simp only [MarkAction.run, MarkAction.imageAll, List.foldl_concat] at ih ⊢
    rw [toFinset_perform, ih]

/-! ## Neighbours -/

variable {q : Nat}

theorem forward_eq_some_iff : m.forward p = some q ↔ IsLeast {r | r ∈ m.toFinset ∧ p < r} q := by
  rw [forward_eq_head?, head?_filter_eq_some_iff (fun h => Nat.lt_asymm h) m.ascending]
  simp only [IsLeast, mem_lowerBounds, Set.mem_ofPred_eq, mem_toFinset, and_imp, and_assoc,
    le_iff_eq_or_lt, eq_comm]

theorem forward_eq_none_iff : m.forward p = none ↔ ¬ ∃ r ∈ m.toFinset, p < r := by
  simp [forward]

theorem backward_eq_some_iff :
    m.backward p = some q ↔ IsGreatest {r | r ∈ m.toFinset ∧ r < p} q := by
  rw [backward_eq_head?, head?_filter_eq_some_iff (fun h => Nat.lt_asymm h) m.descending]
  simp only [IsGreatest, mem_upperBounds, Set.mem_ofPred_eq, mem_toFinset, List.mem_reverse,
    and_imp, and_assoc, le_iff_eq_or_lt]

theorem backward_eq_none_iff : m.backward p = none ↔ ¬ ∃ r ∈ m.toFinset, r < p := by
  simp [backward_eq_head?]

end Marks

/-- After any actions, the marks are the set that the actions make of the empty set, in strictly
ascending order.  The mark forward of a position is the least one above it and the mark backward of it
the greatest one below it, and there is none just if the set has none.  Positions are natural numbers
of any size: an insertion of a made-up length, which would take a position out of the range of a
machine word, moves it on here like any other, and no text has room for such an insertion. -/
theorem Marks.run_eq_sort (as : List MarkAction) :
    let m := MarkAction.run as
    let s := MarkAction.imageAll as
    m.positions = s.sort ∧ m.positions.Pairwise (· < ·) ∧
      ∀ p, (∀ q, m.forward p = some q ↔ IsLeast {r | r ∈ s ∧ p < r} q) ∧
        (m.forward p = none ↔ ¬ ∃ r ∈ s, p < r) ∧
        (∀ q, m.backward p = some q ↔ IsGreatest {r | r ∈ s ∧ r < p} q) ∧
        (m.backward p = none ↔ ¬ ∃ r ∈ s, r < p) := by
  intro m s
  have hset : m.toFinset = s := toFinset_run as
  rw [← hset]
  exact ⟨m.positions_eq_sort, m.ascending, fun p => ⟨fun q => m.forward_eq_some_iff p,
    m.forward_eq_none_iff p, fun q => m.backward_eq_some_iff p, m.backward_eq_none_iff p⟩⟩

end TextTemplate
