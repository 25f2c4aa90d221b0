import TextTemplate.Regex.Node

/-!
# Searching a text for a pattern

Read against one text, a pattern is a plan of moves between its positions. Sets of positions are
numbers: position `i` belongs to the set if bit `i` is one. `Moves.reach` says from where a plan can
get to a given set. `Moves.walk` follows the preferred moves from a position, guided by these sets,
and notes what the groups matched.
-/

namespace TextTemplate.Regex

/-- A set of positions. -/
abbrev Positions := Nat

namespace Positions

/-- The positions of a text of a given length. -/
def upTo (length : Nat) : Positions := 1 <<< (length + 1) - 1

/-- The positions in front of the characters of a set. -/
def ofSet (s : CharSet) : List Char → Positions
  | [] => 0
  | c :: cs => 2 * ofSet s cs + (s c).toNat

/-- The positions where a condition holds; the first argument is the character in front. -/
def ofLook (l : Look) (before : Option Char) : List Char → Positions
  | [] => (l before none).toNat
  | c :: cs => 2 * ofLook l (some c) cs + (l before (some c)).toNat

end Positions

/-- A pattern read against one text. -/
inductive Moves where
  /-- Staying at one of some positions. -/
  | stay (here : Positions)
  /-- One character on, from one of some positions. -/
  | step (here : Positions)
  | group (index : Nat) (a : Moves)
  | seq (a b : Moves)
  | alt (a b : Moves)
  | repeated (times : Times) (greedy nullable : Bool) (a : Moves)

/-- The moves of a pattern in a text. -/
def Node.on (text : List Char) : Node → Moves
  | empty => .stay (.upTo text.length)
  | set s => .step (.ofSet s text)
  | look l => .stay (.ofLook l none text)
  | group i a => .group i (a.on text)
  | seq a b => .seq (a.on text) (b.on text)
  | alt a b => .alt (a.on text) (b.on text)
  | repeated t greedy a => .repeated t greedy a.nullable (a.on text)

/-- Applies a function so many times. -/
def iterate {α : Type} (f : α → α) : Nat → α → α
  | 0, a => a
  | n + 1, a => f (iterate f n a)

/-- What a function makes of a value, up to `n - 1` times applied, the most applied first. -/
def iterates {α : Type} (f : α → α) (a : α) : Nat → List α
  | 0 => []
  | 1 => [a]
  | n + 2 =>
    match iterates f a (n + 1) with
    | [] => [a]
    | b :: bs => f b :: b :: bs

/-- Applies a function until it changes nothing, at most so many times. -/
def saturate (f : Nat → Nat) : Nat → Nat → Nat
  | 0, a => a
  | n + 1, a => if f a = a then a else saturate f n (f a)

/-- What a group matched. -/
structure Capture where
  index : Nat
  start : Nat
  stop : Nat
deriving DecidableEq, Repr

/-- What the groups matched, the last one first. -/
abbrev Captures := List Capture

/-- What a group matched last. -/
def Captures.find? (cs : Captures) (index : Nat) : Option Capture := List.find? (·.index == index) cs

namespace Moves

/-- The positions from which moves get into a set; `length` is that of the text. -/
def reach (length : Nat) : Moves → Positions → Positions
  | stay here, goal => here &&& goal
  | step here, goal => here &&& (goal >>> 1)
  | group _ a, goal => a.reach length goal
  | seq a b, goal => a.reach length (b.reach length goal)
  | alt a b, goal => a.reach length goal ||| b.reach length goal
  | repeated t _ _ a, goal =>
    let onward := fun s => goal ||| a.reach length s
    let optional := match t.most with
      | some most => iterate onward (most - t.least) goal
      | none => saturate onward (length + 1) goal
    iterate (a.reach length) t.least optional

/-- The rest of a search from a position. -/
abbrev Onward := Nat → Captures → Option Captures

/-- The first of two searches that succeeds, the second one tried first if not `greedy`. -/
def prefer (greedy : Bool) (more done : Unit → Option Captures) : Option Captures :=
  if greedy then more () <|> done () else done () <|> more ()

/-- Goes on only from the positions of a set. -/
def guarded (s : Positions) (i : Nat) (k : Unit → Option Captures) : Option Captures :=
  if s.testBit i then k () else none

/-- One pass for each of some goals. -/
def passes (body : Nat → Captures → Positions → Onward → Option Captures) (k : Onward) :
    List Positions → Onward
  | [], i, cs => k i cs
  | goal :: goals, i, cs => body i cs goal (passes body k goals)

/-- At most one pass for each of some goals. -/
def optionalPasses (body : Nat → Captures → Positions → Onward → Option Captures)
    (enter : Positions → Positions) (exit : Positions) (greedy : Bool) (k : Onward) :
    List Positions → Onward
  | [], i, cs => k i cs
  | goal :: goals, i, cs =>
    prefer greedy
      (fun _ => guarded (enter goal) i fun _ =>
        body i cs goal (optionalPasses body enter exit greedy k goals))
      (fun _ => guarded exit i fun _ => k i cs)

/-- Further passes, each of which has to get on. -/
def morePasses (body : Nat → Captures → Onward → Option Captures) (enter exit : Positions)
    (greedy : Bool) (k : Onward) : Nat → Onward
  | 0, _, _ => none
  | n + 1, i, cs =>
    prefer greedy
      (fun _ => guarded enter i fun _ =>
        body i cs fun j cs => if i < j then morePasses body enter exit greedy k n j cs else none)
      (fun _ => guarded exit i fun _ => k i cs)

/-- Follows the preferred moves from a position into a goal, from whose positions `k` goes on. A
loop whose body can match nothing may do so in its first pass, and then ends. -/
def walk (length : Nat) : Moves → Nat → Captures → Positions → Onward → Option Captures
  | stay here, i, cs, _, k => guarded here i fun _ => k i cs
  | step here, i, cs, _, k => guarded here i fun _ => k (i + 1) cs
  | group index a, i, cs, goal, k =>
    a.walk length i cs goal fun j cs => k j (⟨index, i, j⟩ :: cs)
  | seq a b, i, cs, goal, k =>
    a.walk length i cs (b.reach length goal) fun j cs => b.walk length j cs goal k
  | alt a b, i, cs, goal, k =>
    guarded (a.reach length goal) i (fun _ => a.walk length i cs goal k) <|>
      guarded (b.reach length goal) i (fun _ => b.walk length i cs goal k)
  | repeated t greedy nullable a, i, cs, goal, k =>
    let onward := fun s => goal ||| a.reach length s
    match t.most with
    | some most =>
      let optional := iterates onward goal (most - t.least)
      let least := iterates (a.reach length) (iterate onward (most - t.least) goal) t.least
      passes (a.walk length)
        (optionalPasses (a.walk length) (a.reach length) goal greedy k optional) least i cs
    | none =>
      let loop := saturate onward (length + 1) goal
      let enter := a.reach length loop
      let body := fun i cs k => a.walk length i cs loop k
      let more := morePasses body enter goal greedy k (length + 1)
      let first := fun i cs =>
        body i cs fun j cs => if i < j then more j cs else guarded goal j fun _ => k j cs
      match t.least with
      | 0 =>
        if nullable then
          prefer greedy (fun _ => guarded enter i fun _ => first i cs)
            (fun _ => guarded goal i fun _ => k i cs)
        else more i cs
      | n + 1 => passes (a.walk length) first (iterates (a.reach length) enter n) i cs

end Moves

/-- What the groups of a pattern match at the first position of a text where it matches. -/
def Node.search (a : Node) (text : List Char) : Option Captures := do
  let moves := a.on text
  let everywhere := Positions.upTo text.length
  let starts := moves.reach text.length everywhere
  let i ← (List.range (text.length + 1)).find? starts.testBit
  moves.walk text.length i [] everywhere fun _ cs => some cs

end TextTemplate.Regex
