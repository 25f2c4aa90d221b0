import TextTemplate.Proofs.RegexMatches

/-!
# The search follows the preferred way

A search works in two steps.  `Moves.reach` computes from where a pattern can get into a set of
positions, as numbers (`Node.testBit_reach`).  `Moves.walk` then tries the ways of the pattern in
their order, but turns away from those that cannot get into the set (`Node.walk_follows`).  Together
they find the first way that gets there, or none if none does.
-/

namespace TextTemplate.Regex

open Moves (guarded Onward)

/-! ## Sets of positions -/

namespace Positions

/-- Whether all positions of a set are in a text of some length. -/
def Within (length : Nat) (s : Positions) : Prop := ∀ i, s.testBit i = true → i ≤ length

theorem testBit_upTo (length i : Nat) : (upTo length).testBit i = decide (i ≤ length) := by
  rw [upTo, Nat.one_shiftLeft, Nat.testBit_two_pow_sub_one]
  exact decide_eq_decide.mpr Nat.lt_succ_iff

theorem within_upTo (length : Nat) : (upTo length).Within length := by
  intro i hi
  rw [testBit_upTo] at hi
  exact of_decide_eq_true hi

theorem testBit_zero_bit (s : Positions) (b : Bool) : (2 * s + b.toNat).testBit 0 = b := by
  cases b <;> simp [Nat.testBit_zero]

theorem testBit_succ_bit (s : Positions) (b : Bool) (i : Nat) :
    (2 * s + b.toNat).testBit (i + 1) = s.testBit i := by
  rw [Nat.testBit_succ, Nat.mul_add_div Nat.two_pos, Nat.div_eq_of_lt b.toNat_lt, Nat.add_zero]

theorem testBit_ofSet (s : CharSet) (text : List Char) (i : Nat) :
    (ofSet s text).testBit i = text[i]?.any s := by
  induction text generalizing i with
  | nil => simp [ofSet]
  | cons c text ih =>
    cases i with
    | zero => simpa [ofSet] using testBit_zero_bit (ofSet s text) (s c)
    | succ i => rw [ofSet, testBit_succ_bit, ih, List.getElem?_cons_succ]

theorem testBit_ofLook (l : Look) (c : Option Char) (text : List Char) (i : Nat) :
    (ofLook l c text).testBit i =
      (decide (i ≤ text.length) && l (if i = 0 then c else before? text i) text[i]?) := by
  induction text generalizing c i with
  | nil =>
    have hbit : ofLook l c [] = 2 * 0 + (l c none).toNat := (Nat.zero_add _).symm
    cases i with
    | zero =>
      rw [hbit, testBit_zero_bit]
      rfl
    | succ i => rw [hbit, testBit_succ_bit, Nat.zero_testBit]; rfl
  | cons d text ih =>
    cases i with
    | zero => simpa [ofLook] using testBit_zero_bit (ofLook l (some d) text) (l c (some d))
    | succ i =>
      rw [ofLook, testBit_succ_bit, ih]
      cases i <;> simp [before?]

end Positions

open Positions (Within testBit_upTo testBit_ofSet testBit_ofLook)

/-! ## Reaching a set -/

section Iterate

variable {α : Type} (f : α → α)

theorem iterate_apply (a : α) (n : Nat) : iterate f n (f a) = f (iterate f n a) := by
  induction n with
  | zero => rfl
  | succ n ih => rw [iterate, ih, iterate]

theorem iterates_succ (a : α) (n : Nat) :
    iterates f a (n + 1) = iterate f n a :: iterates f a n := by
  induction n with
  | zero => rfl
  | succ n ih => rw [iterates, ih, iterate]

end Iterate

/-- What does not change any more would not change later either. -/
theorem saturate_eq_iterate (f : Nat → Nat) (a n : Nat) : saturate f n a = iterate f n a := by
  induction n generalizing a with
  | zero => rfl
  | succ n ih =>
    rw [saturate]
    split
    · next ha =>
      have hfix (m : Nat) : iterate f m a = a := by
        induction m with
        | zero => rfl
        | succ m ih => rw [iterate, ih, ha]
      rw [hfix]
    · rw [ih, iterate_apply, iterate]

/-- Whether a function computes from where a relation gets into a set. -/
def Reaches (length : Nat) (R : Nat → Nat → Prop) (f : Positions → Positions) : Prop :=
  ∀ goal, Within length goal → ∀ i,
    (f goal).testBit i = true ↔ ∃ j, goal.testBit j = true ∧ R i j

namespace Reaches

variable {length : Nat} {R : Nat → Nat → Prop} {f : Positions → Positions}
  (hf : Reaches length R f) (hR : ∀ i j, R i j → i ≤ j)

include hf hR

theorem within {goal : Positions} (hgoal : Within length goal) : Within length (f goal) := by
  intro i hi
  obtain ⟨j, hj, hij⟩ := (hf goal hgoal i).mp hi
  exact Nat.le_trans (hR i j hij) (hgoal j hj)

theorem passes (n : Nat) : Reaches length (Passes R n) (iterate f n) := by
  intro goal hgoal
  induction n with
  | zero => exact fun i => ⟨fun hi => ⟨i, hi, rfl⟩, by rintro ⟨_, hj, rfl⟩; exact hj⟩
  | succ n ih =>
    have hwithin : Within length (iterate f n goal) := by
      intro i hi
      obtain ⟨j, hj, hij⟩ := (ih i).mp hi
      exact Nat.le_trans (hij.le hR) (hgoal j hj)
    intro i
    rw [iterate, hf _ hwithin]
    constructor
    · rintro ⟨j, hj, hij⟩
      obtain ⟨k, hk, hjk⟩ := (ih j).mp hj
      exact ⟨k, hk, j, hij, hjk⟩
    · rintro ⟨k, hk, j, hij, hjk⟩
      exact ⟨j, (ih j).mpr ⟨k, hk, hjk⟩, hij⟩

/-- Adding what gets into a set, so many times, adds what gets there by so many passes. -/
theorem optionalPasses (n : Nat) {goal : Positions} (hgoal : Within length goal) (i : Nat) :
    (iterate (fun s => goal ||| f s) n goal).testBit i = true ↔
      ∃ m, m ≤ n ∧ ∃ j, goal.testBit j = true ∧ Passes R m i j := by
  induction n generalizing i with
  | zero =>
    constructor
    · exact fun hi => ⟨0, Nat.le_refl 0, i, hi, rfl⟩
    · rintro ⟨m, hm, j, hj, hij⟩
      cases Nat.le_zero.mp hm
      cases hij
      exact hj
  | succ n ih =>
    have hwithin : Within length (iterate (fun s => goal ||| f s) n goal) := by
      intro i hi
      obtain ⟨m, -, j, hj, hij⟩ := (ih i).mp hi
      exact Nat.le_trans (hij.le hR) (hgoal j hj)
    rw [iterate, Nat.testBit_or, Bool.or_eq_true, hf _ hwithin]
    constructor
    · rintro (hi | ⟨j, hj, hij⟩)
      · exact ⟨0, Nat.zero_le _, i, hi, rfl⟩
      · obtain ⟨m, hm, k, hk, hjk⟩ := (ih j).mp hj
        exact ⟨m + 1, Nat.succ_le_succ hm, k, hk, j, hij, hjk⟩
    · rintro ⟨m, hm, k, hk, hik⟩
      cases m with
      | zero => exact .inl (hik ▸ hk)
      | succ m =>
        obtain ⟨j, hij, hjk⟩ := hik
        exact .inr ⟨j, (ih j).mpr ⟨m, Nat.le_of_succ_le_succ hm, k, hk, hjk⟩, hij⟩

/-- Adding until nothing is new adds all that gets into a set by passes. -/
theorem saturated {goal : Positions} (hgoal : Within length goal) (i : Nat) :
    (saturate (fun s => goal ||| f s) (length + 1) goal).testBit i = true ↔
      ∃ m j, goal.testBit j = true ∧ Passes R m i j := by
  rw [saturate_eq_iterate, hf.optionalPasses hR _ hgoal]
  constructor
  · rintro ⟨m, -, j, hj, hij⟩
    exact ⟨m, j, hj, hij⟩
  · rintro ⟨m, j, hj, hij⟩
    obtain ⟨n, -, hn, hgrowing⟩ := hij.exists_growing hR
    have := hgoal j hj
    exact ⟨n, by omega, j, hj, hgrowing.mono fun _ _ h => h.1⟩

end Reaches

/-- The positions from which passes of a loop that are not demanded get into a set. -/
def further (length : Nat) (t : Times) (f : Positions → Positions) (goal : Positions) : Positions :=
  match t.most with
  | some most => iterate (fun s => goal ||| f s) (most - t.least) goal
  | none => saturate (fun s => goal ||| f s) (length + 1) goal

theorem reach_repeated (length : Nat) (t : Times) (greedy nullable : Bool) (a : Moves)
    (goal : Positions) :
    (Moves.repeated t greedy nullable a).reach length goal =
      iterate (a.reach length) t.least (further length t (a.reach length) goal) := rfl

namespace Reaches

variable {length : Nat} {R : Nat → Nat → Prop} {f : Positions → Positions}
  (hf : Reaches length R f) (hR : ∀ i j, R i j → i ≤ j)

include hf hR

theorem testBit_further (t : Times) {goal : Positions} (hgoal : Within length goal) (i : Nat) :
    (further length t f goal).testBit i = true ↔
      ∃ more, (∀ most ∈ t.most, more ≤ most - t.least) ∧
        ∃ j, goal.testBit j = true ∧ Passes R more i j := by
  rcases t with ⟨least, _ | most⟩
  · rw [further, hf.saturated hR hgoal]
    simp
  · rw [further, hf.optionalPasses hR _ hgoal]
    simp

theorem within_further (t : Times) {goal : Positions} (hgoal : Within length goal) :
    Within length (further length t f goal) := by
  intro i hi
  obtain ⟨more, -, j, hj, hij⟩ := (hf.testBit_further hR t hgoal i).mp hi
  exact Nat.le_trans (hij.le hR) (hgoal j hj)

end Reaches

namespace Node

variable {text : List Char}

/-- **From where a pattern gets into a set of positions.** -/
theorem testBit_reach (a : Node) :
    Reaches text.length (a.Matches text) ((a.on text).reach text.length) := by
  induction a with
  | empty =>
    intro goal hgoal i
    simp only [on, Moves.reach, Nat.testBit_and, testBit_upTo, Bool.and_eq_true, decide_eq_true_eq]
    constructor
    · exact fun ⟨_, hi⟩ => ⟨i, hi, rfl⟩
    · rintro ⟨_, hj, rfl⟩
      exact ⟨hgoal i hj, hj⟩
  | set s =>
    intro goal hgoal i
    simp only [on, Moves.reach, Nat.testBit_and, testBit_ofSet, Nat.testBit_shiftRight,
      Bool.and_eq_true, Option.any_eq_true]
    constructor
    · rintro ⟨⟨c, hc, hs⟩, hi⟩
      exact ⟨1 + i, hi, Nat.add_comm 1 i, c, hc, hs⟩
    · rintro ⟨_, hj, rfl, c, hc, hs⟩
      exact ⟨⟨c, hc, hs⟩, Nat.add_comm i 1 ▸ hj⟩
  | look l =>
    intro goal hgoal i
    have hbefore : (if i = 0 then none else before? text i) = before? text i := by
      cases i <;> rfl
    simp only [on, Moves.reach, Nat.testBit_and, testBit_ofLook, hbefore, Bool.and_eq_true,
      decide_eq_true_eq]
    constructor
    · rintro ⟨⟨_, hl⟩, hi⟩
      exact ⟨i, hi, rfl, hl⟩
    · rintro ⟨_, hj, rfl, hl⟩
      exact ⟨⟨hgoal i hj, hl⟩, hj⟩
  | group n a ih => exact ih
  | seq a b iha ihb =>
    intro goal hgoal i
    have hwithin := ihb.within (fun _ _ => le_of_matches) hgoal
    rw [on, Moves.reach, iha _ hwithin]
    constructor
    · rintro ⟨j, hj, hij⟩
      obtain ⟨k, hk, hjk⟩ := (ihb goal hgoal j).mp hj
      exact ⟨k, hk, j, hij, hjk⟩
    · rintro ⟨k, hk, j, hij, hjk⟩
      exact ⟨j, (ihb goal hgoal j).mpr ⟨k, hk, hjk⟩, hij⟩
  | alt a b iha ihb =>
    intro goal hgoal i
    rw [on, Moves.reach, Nat.testBit_or, Bool.or_eq_true, iha goal hgoal, ihb goal hgoal]
    constructor
    · rintro (⟨j, hj, h⟩ | ⟨j, hj, h⟩)
      · exact ⟨j, hj, .inl h⟩
      · exact ⟨j, hj, .inr h⟩
    · rintro ⟨j, hj, h | h⟩
      · exact .inl ⟨j, hj, h⟩
      · exact .inr ⟨j, hj, h⟩
  | repeated t greedy a ih =>
    intro goal hgoal i
    have hle : ∀ i j, a.Matches text i j → i ≤ j := fun _ _ => le_of_matches
    have hfurther := ih.testBit_further hle t hgoal
    rw [on, reach_repeated, ih.passes hle t.least _ (ih.within_further hle t hgoal)]
    constructor
    · rintro ⟨j, hj, hij⟩
      obtain ⟨more, hmore, k, hk, hjk⟩ := (hfurther j).mp hj
      exact ⟨k, hk, more, hmore, hij.trans hjk⟩
    · rintro ⟨k, hk, more, hmore, h⟩
      obtain ⟨j, hij, hjk⟩ := h.split
      exact ⟨j, (hfurther j).mpr ⟨more, hmore, k, hk, hjk⟩, hij⟩

end Node

/-! ## Following a way -/

theorem findSome?_flatMap {α β γ : Type} (l : List α) (f : α → List β) (g : β → Option γ) :
    (l.flatMap f).findSome? g = l.findSome? fun a => (f a).findSome? g := by
  induction l with
  | nil => rfl
  | cons a l ih =>
    rw [List.flatMap_cons, List.findSome?_append, ih, List.findSome?_cons]
    cases (f a).findSome? g <;> rfl

theorem prefer_findSome? (greedy : Bool) (more done : List Way) (g : Way → Option Captures) :
    Moves.prefer greedy (fun _ => more.findSome? g) (fun _ => done.findSome? g) =
      (Way.inOrder greedy more done).findSome? g := by
  cases greedy <;> simp [Moves.prefer, Way.inOrder, List.findSome?_append]

/-- Going on from a way that has come into a set. -/
def into (goal : Positions) (k : Onward) (w : Way) : Option Captures :=
  guarded goal w.1 fun _ => k w.1 w.2

/-- Whether a search that is entered at the positions of a set finds the first of some ways from
which `g` goes on. -/
def Follows (enter : Positions) (search : Onward) (ways : Way → List Way)
    (g : Way → Option Captures) : Prop :=
  ∀ w, into enter search w = (ways w).findSome? g

namespace Follows

variable {enter goal : Positions} {search k : Onward} {ways : Way → List Way}
  {g : Way → Option Captures}

theorem exit (goal : Positions) (k : Onward) : Follows goal k (fun w => [w]) (into goal k) :=
  fun w => by rw [List.findSome?_singleton]

/-- No way leads into a set from a position from which it cannot be reached. -/
theorem eq_none_of_not_enter {w : Way}
    (hreach : ∀ v ∈ ways w, goal.testBit v.1 = true → enter.testBit w.1 = true)
    (hw : ¬enter.testBit w.1 = true) : (ways w).findSome? (into goal k) = none := by
  rw [List.findSome?_eq_none_iff]
  intro v hv
  rw [into, guarded, if_neg fun hgoal => hw (hreach v hv hgoal)]

theorem of_search
    (hsearch : ∀ w : Way, enter.testBit w.1 = true →
      search w.1 w.2 = (ways w).findSome? (into goal k))
    (hreach : ∀ w, ∀ v ∈ ways w, goal.testBit v.1 = true → enter.testBit w.1 = true) :
    Follows enter search ways (into goal k) := by
  intro w
  by_cases hw : enter.testBit w.1 = true
  · rw [into, guarded, if_pos hw, hsearch w hw]
  · rw [eq_none_of_not_enter (hreach w) hw, into, guarded, if_neg hw]

/-- One search after the other. -/
theorem comp {middle : Positions} {rest : Onward} {more : Way → List Way}
    (h : Follows enter search ways (into middle rest)) (hrest : Follows middle rest more g) :
    Follows enter search (fun w => (ways w).flatMap more) g := by
  intro w
  rw [h w, findSome?_flatMap]
  exact congrArg (fun g => (ways w).findSome? g) (funext hrest)

end Follows

section Loop

variable {length : Nat} {R : Nat → Nat → Prop} {f : Positions → Positions}
  {body : Nat → Captures → Positions → Onward → Option Captures} {ways : Way → List Way}
  (hf : Reaches length R f) (hR : ∀ i j, R i j → i ≤ j)
  (hways : ∀ {v w}, w ∈ ways v → R v.1 w.1)
  (hbody : ∀ goal, Within length goal → ∀ k,
    Follows (f goal) (fun i cs => body i cs goal k) ways (into goal k))

include hf hR hbody

theorem passes_follows {enter : Positions} {search : Onward} {more : Way → List Way}
    {g : Way → Option Captures} (henter : Within length enter)
    (hsearch : Follows enter search more g) (n : Nat) :
    Follows (iterate f n enter) (Moves.passes body search (iterates f enter n))
      (fun w => (Way.passes ways n w).flatMap more) g := by
  induction n with
  | zero =>
    simp only [Way.passes, List.flatMap_singleton]
    exact hsearch
  | succ n ih =>
    have hwithin : Within length (iterate f n enter) := (hf.passes hR n).within
      (fun _ _ h => h.le hR) henter
    rw [iterates_succ]
    simp only [Way.passes, List.flatMap_assoc]
    exact (hbody _ hwithin _).comp ih

include hways

theorem optionalPasses_follows {goal : Positions} (hgoal : Within length goal) (greedy : Bool)
    (k : Onward) (n : Nat) :
    Follows (iterate (fun s => goal ||| f s) n goal)
      (Moves.optionalPasses body f goal greedy k (iterates (fun s => goal ||| f s) goal n))
      (Way.optionalPasses greedy ways n) (into goal k) := by
  induction n with
  | zero => exact Follows.exit goal k
  | succ n ih =>
    have hwithin : Within length (iterate (fun s => goal ||| f s) n goal) := by
      intro i hi
      obtain ⟨m, -, j, hj, hij⟩ := (hf.optionalPasses hR n hgoal i).mp hi
      exact Nat.le_trans (hij.le hR) (hgoal j hj)
    rw [iterates_succ]
    refine Follows.of_search (fun w _ => ?_) fun w v hv hgoal' => ?_
    · rw [Way.optionalPasses, ← prefer_findSome?, ← ((hbody _ hwithin _).comp ih) w,
        ← Follows.exit goal k w]
      rfl
    · obtain ⟨m, hm, hpasses⟩ := Way.passes_of_mem_optionalPasses hways hv
      exact (hf.optionalPasses hR (n + 1) hgoal w.1).mpr ⟨m, hm, v.1, hgoal', hpasses⟩

end Loop

section Unbounded

variable {length : Nat} {R : Nat → Nat → Prop} {f : Positions → Positions}
  {body : Nat → Captures → Positions → Onward → Option Captures} {ways : Way → List Way}
  {goal loop : Positions} (greedy : Bool) (k : Onward)
  (hways : ∀ {v w}, w ∈ ways v → R v.1 w.1)
  (hbody : ∀ k, Follows (f loop) (fun i cs => body i cs loop k) ways (into loop k))
  (hloop : ∀ i, loop.testBit i = true ↔ ∃ m j, goal.testBit j = true ∧ Passes R m i j)

include hways hloop

theorem guarded_growingPasses (n : Nat) (v : Way) :
    (guarded loop v.1 fun _ => (Way.growingPasses greedy ways n v).findSome? (into goal k)) =
      (Way.growingPasses greedy ways n v).findSome? (into goal k) := by
  by_cases hv : loop.testBit v.1 = true
  · rw [guarded, if_pos hv]
  · rw [guarded, if_neg hv]
    refine (Follows.eq_none_of_not_enter (fun w hw hgoal => ?_) hv).symm
    obtain ⟨m, hm⟩ := Way.passes_of_mem_growingPasses hways hw
    exact (hloop v.1).mpr ⟨m, w.1, hgoal, hm⟩

include hbody

/-- Passes that get on are followed from every position. -/
theorem morePasses_eq (n : Nat) (w : Way) :
    Moves.morePasses (fun i cs k => body i cs loop k) (f loop) goal greedy k n w.1 w.2 =
      (Way.growingPasses greedy ways n w).findSome? (into goal k) := by
  induction n generalizing w with
  | zero => rfl
  | succ n ih =>
    let rest : Onward := fun j cs =>
      if w.1 < j then
        Moves.morePasses (fun i cs k => body i cs loop k) (f loop) goal greedy k n j cs
      else none
    have hrest (v : Way) : into loop rest v =
        (if w.1 < v.1 then Way.growingPasses greedy ways n v else []).findSome? (into goal k) := by
      by_cases hlt : w.1 < v.1
      · simp only [into, rest, if_pos hlt, ih]
        exact guarded_growingPasses greedy k hways hloop n v
      · simp only [into, rest, if_neg hlt, guarded, ite_self, List.findSome?_nil]
    rw [Way.growingPasses, ← prefer_findSome?, findSome?_flatMap, ← Follows.exit goal k w,
      ← funext hrest, ← hbody rest w]
    rfl

/-- A first pass may match nothing, and nothing follows then. -/
theorem firstPass_follows (n : Nat) :
    Follows (f loop)
      (fun i cs => body i cs loop fun j cs =>
        if i < j then
          Moves.morePasses (fun i cs k => body i cs loop k) (f loop) goal greedy k n j cs
        else guarded goal j fun _ => k j cs)
      (Way.firstPass greedy ways n) (into goal k) := by
  intro w
  have hrest (v : Way) : into loop (fun j cs =>
      if w.1 < j then
        Moves.morePasses (fun i cs k => body i cs loop k) (f loop) goal greedy k n j cs
      else guarded goal j fun _ => k j cs) v =
      (if w.1 < v.1 then Way.growingPasses greedy ways n v else [v]).findSome? (into goal k) := by
    by_cases hlt : w.1 < v.1
    · simp only [into, if_pos hlt, morePasses_eq greedy k hways hbody hloop]
      exact guarded_growingPasses greedy k hways hloop n v
    · simp only [into, if_neg hlt, List.findSome?_singleton, guarded]
      split
      · rfl
      · next hv => rw [if_neg fun hgoal => hv ((hloop v.1).mpr ⟨0, v.1, hgoal, rfl⟩)]
  rw [Way.firstPass, findSome?_flatMap, ← funext hrest]
  exact hbody _ w

end Unbounded

/-! The model does not look for a first pass that matches nothing where a pattern cannot match
nothing.  All its passes get on, and there are no more of them than characters. -/

section Growing

variable {length : Nat} {ways : Way → List Way} (greedy : Bool)
  (hlength : ∀ {v w}, w ∈ ways v → v.1 ≤ length → w.1 ≤ length)

include hlength

theorem growingPasses_eq_of_lt {m n : Nat} {v : Way} (hv : v.1 ≤ length)
    (hm : length < v.1 + m) (hn : length < v.1 + n) :
    Way.growingPasses greedy ways m v = Way.growingPasses greedy ways n v := by
  induction m generalizing n v with
  | zero => omega
  | succ m ih =>
    cases n with
    | zero => omega
    | succ n =>
      rw [Way.growingPasses, Way.growingPasses]
      congr 1
      refine List.flatMap_congr fun u hu => ?_
      by_cases hlt : v.1 < u.1
      · have hn' : length < u.1 + n := by omega
        rw [if_pos hlt, if_pos hlt, ih (hlength hu hv) (by omega) hn']
      · rw [if_neg hlt, if_neg hlt]

theorem inOrder_firstPass {w : Way} (hw : w.1 ≤ length) (hlt : ∀ u ∈ ways w, w.1 < u.1) :
    Way.inOrder greedy (Way.firstPass greedy ways (length + 1) w) [w] =
      Way.growingPasses greedy ways (length + 1) w := by
  rw [Way.growingPasses, Way.firstPass]
  congr 1
  refine List.flatMap_congr fun u hu => ?_
  have hu' := hlt u hu
  rw [if_pos hu', if_pos hu']
  exact growingPasses_eq_of_lt greedy hlength (hlength hu hw) (by omega) (by omega)

end Growing

namespace Node

variable {text : List Char}

/-- **The search follows the first way that gets into a set.** -/
theorem walk_follows (a : Node) : ∀ goal, Within text.length goal → ∀ k,
    Follows ((a.on text).reach text.length goal)
      (fun i cs => (a.on text).walk text.length i cs goal k) (a.ways text) (into goal k) := by
  induction a with
  | empty =>
    intro goal hgoal k
    refine Follows.of_search (fun w hw => ?_) fun w v hv hgoal' => ?_
    · obtain ⟨j, hj, rfl⟩ := (empty.testBit_reach goal hgoal w.1).mp hw
      have hhere : (Positions.upTo text.length).testBit w.1 = true := by
        rw [testBit_upTo]
        exact decide_eq_true (hgoal w.1 hj)
      rw [ways, List.findSome?_singleton, into, guarded, if_pos hj]
      exact if_pos hhere
    · exact (empty.testBit_reach goal hgoal w.1).mpr ⟨v.1, hgoal', matches_of_mem_ways hv⟩
  | set s =>
    intro goal hgoal k
    refine Follows.of_search (fun w hw => ?_) fun w v hv hgoal' => ?_
    · obtain ⟨j, hj, rfl, c, hc, hs⟩ := ((set s).testBit_reach goal hgoal w.1).mp hw
      have hany : text[w.1]?.any s = true := by rw [hc]; exact hs
      have hhere : (Positions.ofSet s text).testBit w.1 = true := by rw [testBit_ofSet, hany]
      rw [ways, if_pos hany, List.findSome?_singleton, into, guarded, if_pos hj]
      exact if_pos hhere
    · exact ((set s).testBit_reach goal hgoal w.1).mpr ⟨v.1, hgoal', matches_of_mem_ways hv⟩
  | look l =>
    intro goal hgoal k
    refine Follows.of_search (fun w hw => ?_) fun w v hv hgoal' => ?_
    · obtain ⟨j, hj, rfl, hl⟩ := ((look l).testBit_reach goal hgoal w.1).mp hw
      have hhere : (Positions.ofLook l none text).testBit w.1 = true := by
        have hreach := hw
        rw [on, Moves.reach, Nat.testBit_and, Bool.and_eq_true] at hreach
        exact hreach.1
      rw [ways, if_pos hl, List.findSome?_singleton, into, guarded, if_pos hj]
      exact if_pos hhere
    · exact ((look l).testBit_reach goal hgoal w.1).mpr ⟨v.1, hgoal', matches_of_mem_ways hv⟩
  | group n a ih =>
    intro goal hgoal k w
    rw [ways, List.findSome?_map]
    exact ih goal hgoal (fun j cs => k j (⟨n, w.1, j⟩ :: cs)) w
  | seq a b iha ihb =>
    intro goal hgoal k
    have hwithin := b.testBit_reach.within (fun _ _ => le_of_matches) hgoal
    exact (iha _ hwithin _).comp (ihb goal hgoal k)
  | alt a b iha ihb =>
    intro goal hgoal k
    refine Follows.of_search (fun w _ => ?_) fun w v hv hgoal' => ?_
    · rw [ways, List.findSome?_append, ← iha goal hgoal k w, ← ihb goal hgoal k w,
        Option.or_eq_orElse]
      rfl
    · exact ((alt a b).testBit_reach goal hgoal w.1).mpr ⟨v.1, hgoal', matches_of_mem_ways hv⟩
  | repeated t greedy a ih =>
    intro goal hgoal k
    have hle : ∀ i j, a.Matches text i j → i ≤ j := fun _ _ => le_of_matches
    have hreach : Reaches text.length (a.Matches text) ((a.on text).reach text.length) :=
      a.testBit_reach
    have hlength {v w : Way} (hw : w ∈ a.ways text v) : v.1 ≤ text.length → w.1 ≤ text.length :=
      (extends_of_mem_ways hw).le_length
    rcases t with ⟨least, _ | most⟩
    · have hloop := hreach.saturated hle hgoal
      have hwithin := hreach.within_further hle ⟨least, none⟩ hgoal
      have hfirst := firstPass_follows greedy k matches_of_mem_ways (ih _ hwithin) hloop
        (text.length + 1)
      cases least with
      | zero =>
        refine Follows.of_search (fun w hw => ?_) fun w v hv hgoal' => ?_
        · cases hnullable : a.nullable with
          | true =>
            rw [ways, ← prefer_findSome?, ← hfirst w, ← Follows.exit goal k w]
            simp only [on, Moves.walk, hnullable, if_true]
            rfl
          | false =>
            have hlt : ∀ u ∈ a.ways text w, w.1 < u.1 := fun u hu =>
              lt_of_matches_of_nullable_eq_false hnullable (matches_of_mem_ways hu)
            rw [ways, inOrder_firstPass greedy hlength (hwithin w.1 hw) hlt,
              ← morePasses_eq greedy k matches_of_mem_ways (ih _ hwithin) hloop]
            simp only [on, Moves.walk, hnullable, Bool.false_eq_true, if_false]
            rfl
        · exact ((repeated ⟨0, none⟩ greedy a).testBit_reach goal hgoal w.1).mpr
            ⟨v.1, hgoal', matches_of_mem_ways hv⟩
      | succ least =>
        have henter := hreach.within hle hwithin
        rw [on, reach_repeated, iterate, ← iterate_apply ((a.on text).reach text.length)]
        exact passes_follows hreach hle ih henter hfirst least
    · have hwithin := hreach.within_further hle ⟨least, some most⟩ hgoal
      rw [on, reach_repeated]
      exact passes_follows hreach hle ih hwithin
        (optionalPasses_follows hreach hle matches_of_mem_ways ih hgoal greedy k (most - least)) least

theorem find?_bind_eq_findSome? {α β : Type} {p : α → Bool} {g h : α → Option β} :
    ∀ {l : List α}, (∀ a ∈ l, p a = true → (g a).isSome = true) →
      (∀ a ∈ l, (if p a then g a else none) = h a) → (l.find? p).bind g = l.findSome? h
  | [], _, _ => rfl
  | a :: l, hsome, heq => by
    obtain ⟨hsomea, hsomel⟩ := List.forall_mem_cons.mp hsome
    obtain ⟨heqa, heql⟩ := List.forall_mem_cons.mp heq
    rw [List.find?_cons, List.findSome?_cons, ← heqa]
    cases hp : p a with
    | true =>
      obtain ⟨b, hb⟩ := Option.isSome_iff_exists.mp (hsomea hp)
      simp [hb]
    | false => simpa using find?_bind_eq_findSome? hsomel heql

/-- **A search finds the first way from the first position that has one.** -/
theorem search_eq (a : Node) (text : List Char) :
    a.search text =
      (List.range (text.length + 1)).findSome? fun i => (a.ways text (i, [])).head?.map (·.2) := by
  let everywhere := Positions.upTo text.length
  have hwithin : Within text.length everywhere := Positions.within_upTo text.length
  have hfollows := a.walk_follows everywhere hwithin fun _ cs => some cs
  have hfirst : ∀ i ∈ List.range (text.length + 1),
      into ((a.on text).reach text.length everywhere)
        (fun i cs => (a.on text).walk text.length i cs everywhere fun _ cs => some cs) (i, []) =
        (a.ways text (i, [])).head?.map (·.2) := by
    intro i hi
    rw [hfollows]
    cases hways : a.ways text (i, []) with
    | nil => rfl
    | cons w ws =>
      have hw : w ∈ a.ways text (i, []) := hways ▸ List.mem_cons_self
      have hend : everywhere.testBit w.1 = true := by
        rw [testBit_upTo]
        exact decide_eq_true ((extends_of_mem_ways hw).le_length
          (Nat.le_of_lt_succ (List.mem_range.mp hi)))
      rw [List.findSome?_cons, into, guarded, if_pos hend]
      rfl
  have hsome : ∀ i ∈ List.range (text.length + 1),
      ((a.on text).reach text.length everywhere).testBit i = true →
      ((a.on text).walk text.length i [] everywhere fun _ cs => some cs).isSome = true := by
    intro i hi hreach
    have hwalk := hfirst i hi
    rw [into, guarded, if_pos hreach] at hwalk
    obtain ⟨j, -, hmatches⟩ := (a.testBit_reach everywhere hwithin i).mp hreach
    obtain ⟨w, hw, -⟩ := exists_mem_ways (v := (i, []))
      (Nat.le_of_lt_succ (List.mem_range.mp hi)) hmatches
    obtain ⟨v, vs, hways⟩ := List.exists_cons_of_ne_nil (List.ne_nil_of_mem hw)
    rw [hwalk, hways]
    rfl
  exact find?_bind_eq_findSome? hsome hfirst

end Node

end TextTemplate.Regex
