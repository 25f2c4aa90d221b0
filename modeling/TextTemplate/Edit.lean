/-!
# Edits

An `Edit` tells what happened to a text by positions alone. `Edit.adjust` says where a position of
the old text lies in the new one. A position at an insertion stays in front of the new characters,
and a position inside a deleted range falls to its start. Positions are natural numbers without a
bound. The main fact is `adjust_mono`: an edit never swaps two positions.
-/

namespace TextTemplate

/-- A change to a text. -/
inductive Edit where
  /-- `len` characters appear at `pos`. -/
  | insert (pos len : Nat)
  /-- The characters between the two bounds disappear; either bound may be the smaller one. -/
  | delete (start stop : Nat)
deriving DecidableEq, Repr

namespace Edit

/-- Where a position lies after the edit. -/
def adjust : Edit → Nat → Nat
  | insert pos len, p => if pos < p then p + len else p
  | delete start stop, p =>
    if p ≤ min start stop then p
    else if max start stop ≤ p then p - (max start stop - min start stop)
    else min start stop

@[simp] theorem adjust_insert (pos len p : Nat) :
    (insert pos len).adjust p = if pos < p then p + len else p := rfl

@[simp] theorem adjust_delete_swap (start stop p : Nat) :
    (delete stop start).adjust p = (delete start stop).adjust p := by
  simp [adjust, Nat.min_comm, Nat.max_comm]

/-- Inserting nothing moves nothing. -/
@[simp] theorem adjust_insert_zero (pos p : Nat) : (insert pos 0).adjust p = p := by simp

/-- Edits keep the order of positions. -/
theorem adjust_mono (e : Edit) {p q : Nat} (h : p ≤ q) : e.adjust p ≤ e.adjust q := by
  cases e with
  | insert pos len => simp only [adjust_insert]; split <;> split <;> omega
  | delete start stop => simp only [adjust]; grind

end Edit

end TextTemplate
