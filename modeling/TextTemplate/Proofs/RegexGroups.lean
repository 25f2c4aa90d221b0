import TextTemplate.Proofs.RegexMatches

/-!
# Groups numbered one higher

A pattern in a group of its own is read with its groups numbered one higher.  It matches the same
and in the same order (`Node.ways_shift`), and is resolved to the same node but for these numbers
(`Ast.resolve?_succ`).
-/

namespace TextTemplate.Regex

/-- What a group matched, with the group numbered one higher. -/
def Capture.shift (c : Capture) : Capture := { c with index := c.index + 1 }

/-- A way with the groups numbered one higher. -/
def Way.shift (w : Way) : Way := (w.1, w.2.map Capture.shift)

/-- A pattern with the groups numbered one higher. -/
def Node.shift : Node → Node
  | empty => empty
  | set s => set s
  | look l => look l
  | group n a => group (n + 1) a.shift
  | seq a b => seq a.shift b.shift
  | alt a b => alt a.shift b.shift
  | repeated t greedy a => repeated t greedy a.shift

theorem Captures.find?_shift (cs : Captures) (n : Nat) :
    Captures.find? (cs.map Capture.shift) (n + 1) = (Captures.find? cs n).map Capture.shift := by
  have hindex : ((fun c : Capture => c.index == n + 1) ∘ Capture.shift) =
      fun c => c.index == n := by
    funext c
    simp [Capture.shift]
  rw [Captures.find?, List.find?_map, hindex, Captures.find?]

/-! ## Ways -/

namespace Way

section Shift

variable {f g : Way → List Way} {greedy : Bool} (hfg : ∀ w, g w.shift = (f w).map shift)

theorem map_inOrder (more done : List Way) :
    (inOrder greedy more done).map shift =
      inOrder greedy (more.map shift) (done.map shift) := by
  cases greedy <;> simp [inOrder]

/-- Ways go on from shifted ways as they did before. -/
theorem flatMap_shift {l : List Way} {more more' : Way → List Way}
    (h : ∀ w ∈ l, more' w.shift = (more w).map shift) :
    (l.map shift).flatMap more' = (l.flatMap more).map shift := by
  rw [List.flatMap_map, List.map_flatMap]
  exact List.flatMap_congr h

include hfg

theorem passes_shift (n : Nat) (w : Way) : passes g n w.shift = (passes f n w).map shift := by
  induction n generalizing w with
  | zero => rfl
  | succ n ih => rw [passes, passes, hfg, flatMap_shift fun w _ => ih w]

theorem optionalPasses_shift (n : Nat) (w : Way) :
    optionalPasses greedy g n w.shift = (optionalPasses greedy f n w).map shift := by
  induction n generalizing w with
  | zero => rfl
  | succ n ih =>
    rw [optionalPasses, optionalPasses, hfg, flatMap_shift fun w _ => ih w, map_inOrder]
    rfl

theorem growingPasses_shift (n : Nat) (w : Way) :
    growingPasses greedy g n w.shift = (growingPasses greedy f n w).map shift := by
  induction n generalizing w with
  | zero => rfl
  | succ n ih =>
    let more (h : Way → List Way) (v : Way) : List Way :=
      if w.1 < v.1 then growingPasses greedy h n v else []
    have hmore (v : Way) : more g v.shift = (more f v).map shift := by
      by_cases hlt : w.1 < v.1
      · simpa only [more, Way.shift, if_pos hlt] using ih v
      · simp only [more, Way.shift, if_neg hlt, List.map_nil]
    have hflatMap : (g w.shift).flatMap (more g) = ((f w).flatMap (more f)).map shift := by
      rw [hfg, flatMap_shift fun v _ => hmore v]
    rw [growingPasses, growingPasses, map_inOrder]
    exact congrArg (inOrder greedy · [w.shift]) hflatMap

theorem firstPass_shift (n : Nat) (w : Way) :
    firstPass greedy g n w.shift = (firstPass greedy f n w).map shift := by
  let more (h : Way → List Way) (v : Way) : List Way :=
    if w.1 < v.1 then growingPasses greedy h n v else [v]
  have hmore (v : Way) : more g v.shift = (more f v).map shift := by
    by_cases hlt : w.1 < v.1
    · simpa only [more, Way.shift, if_pos hlt] using growingPasses_shift hfg n v
    · simp only [more, Way.shift, if_neg hlt, List.map_cons, List.map_nil]
  have hflatMap : (g w.shift).flatMap (more g) = ((f w).flatMap (more f)).map shift := by
    rw [hfg, flatMap_shift fun v _ => hmore v]
  exact hflatMap

end Shift

end Way

namespace Node

variable {text : List Char}

open Way

/-- **Numbering groups higher changes only the numbers in what the groups matched.** -/
theorem ways_shift (a : Node) (w : Way) :
    a.shift.ways text w.shift = (a.ways text w).map Way.shift := by
  induction a generalizing w with
  | empty => rfl
  | set s =>
    simp only [Node.shift, ways, Way.shift]
    split <;> rfl
  | look l =>
    simp only [Node.shift, ways, Way.shift]
    split <;> rfl
  | group n a ih =>
    rw [Node.shift, ways, ways, ih, List.map_map, List.map_map]
    rfl
  | seq a b iha ihb => rw [Node.shift, ways, ways, iha, flatMap_shift fun w _ => ihb w]
  | alt a b iha ihb => rw [Node.shift, ways, ways, iha, ihb, List.map_append]
  | repeated t greedy a ih =>
    rcases t with ⟨least, _ | most⟩
    · cases least with
      | zero =>
        rw [Node.shift, ways, ways, firstPass_shift ih, map_inOrder]
        rfl
      | succ least =>
        rw [Node.shift, ways, ways, passes_shift ih,
          flatMap_shift fun w _ => firstPass_shift ih _ w]
    · rw [Node.shift, ways, ways, passes_shift ih,
        flatMap_shift fun w _ => optionalPasses_shift ih _ w]

end Node

/-! ## Resolving -/

namespace Ast

/-- What a pattern is resolved to, with the groups numbered one higher. -/
def shiftResolved (r : Node × Modes × Nat) : Node × Modes × Nat := (r.1.shift, r.2.1, r.2.2 + 1)

theorem shift_of_atom {m : Modes} {a : Atom} {b : Node} (h : a.resolve? m = some b) :
    b.shift = b := by
  cases a with
  | literal l =>
    obtain ⟨c, -, h⟩ := Option.bind_eq_some_iff.mp h
    split at h
    · exact nomatch h
    · exact Option.some.inj h ▸ rfl
  | dot =>
    simp only [Atom.resolve?] at h
    split at h
    · exact nomatch h
    · split at h
      · exact Option.some.inj h ▸ rfl
      · split at h <;> exact Option.some.inj h ▸ rfl
  | assertion a => exact Option.some.inj h ▸ rfl
  | short k negated | property q negated =>
    obtain ⟨s, -, rfl⟩ := Option.map_eq_some_iff.mp h
    rfl

mutual

/-- **A pattern read after one more group is the same with its groups numbered one higher.** -/
theorem resolve?_succ (m : Modes) (n : Nat) :
    ∀ a : Ast, a.resolve? m (n + 1) = (a.resolve? m n).map shiftResolved
  | empty => rfl
  | atom a => by
    rw [resolve?, resolve?]
    cases ha : a.resolve? m with
    | none => rfl
    | some b => simp only [Option.map_some, shiftResolved, shift_of_atom ha]
  | changeFlags fs => rfl
  | bracketed negated s => by
    rw [resolve?, resolve?, Option.map_map]
    rfl
  | repetition t greedy a => by
    rw [resolve?, resolve?, resolve?_succ m n a]
    cases a.resolve? m n <;> rfl
  | group .capture a => by
    rw [resolve?, resolve?, resolve?_succ m (n + 1) a]
    cases a.resolve? m (n + 1) <;> rfl
  | group (.plain fs) a => by
    rw [resolve?, resolve?, resolve?_succ (m.change fs) n a]
    cases a.resolve? (m.change fs) n <;> rfl
  | alternation as => by
    rw [resolve?, resolve?, resolveBranches?_succ m n as]
  | concat as => by
    rw [resolve?, resolve?, resolveParts?_succ m n as]

theorem resolveBranches?_succ (m : Modes) (n : Nat) :
    ∀ as : List Ast, resolveBranches? m (n + 1) as = (resolveBranches? m n as).map shiftResolved
  | [] => rfl
  | a :: as => by
    rw [resolveBranches?, resolveBranches?, resolve?_succ m n a]
    cases a.resolve? m n with
    | none => rfl
    | some r =>
      have hrest := resolveBranches?_succ r.2.1 r.2.2 as
      simp only [Option.map_some, shiftResolved, Option.bind_eq_bind, Option.bind_some, hrest]
      cases resolveBranches? r.2.1 r.2.2 as <;> rfl

theorem resolveParts?_succ (m : Modes) (n : Nat) :
    ∀ as : List Ast, resolveParts? m (n + 1) as = (resolveParts? m n as).map shiftResolved
  | [] => rfl
  | a :: as => by
    rw [resolveParts?, resolveParts?, resolve?_succ m n a]
    cases a.resolve? m n with
    | none => rfl
    | some r =>
      have hrest := resolveParts?_succ r.2.1 r.2.2 as
      simp only [Option.map_some, shiftResolved, Option.bind_eq_bind, Option.bind_some, hrest]
      cases resolveParts? r.2.1 r.2.2 as <;> rfl

end

end Ast

end TextTemplate.Regex
