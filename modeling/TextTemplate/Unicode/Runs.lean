/-!
# Tables of code points

Properties of characters are kept as texts. `lengths` reads a set from the lengths of the runs of
code points that lie in turn outside and inside of it. `labelled` reads a map from labels of a fixed
width, each followed by the length of its run unless that is one.
-/

namespace TextTemplate.Unicode

/-- Code points from a first one up to, but not including, a last one. -/
structure Span where
  start : Nat
  stop : Nat
deriving DecidableEq, Repr

/-- Whether a code point lies in one of several ascending spans. -/
def inSpans (n : Nat) : List Span → Bool
  | [] => false
  | s :: ss => s.start ≤ n && (n < s.stop || inSpans n ss)

/-- The numbers in a text, the digits read so far first; any other character parts them. -/
def numbersFrom : Option Nat → List Char → List Nat
  | none, [] => []
  | some n, [] => [n]
  | acc, c :: cs =>
    if c.isDigit then numbersFrom (some (10 * acc.getD 0 + (c.toNat - 48))) cs
    else acc.toList ++ numbersFrom none cs

/-- The spans behind the lengths of runs outside and inside, from a code point on. -/
def spansFrom (n : Nat) : List Nat → List Span
  | outside :: inside :: rest =>
    ⟨n + outside, n + outside + inside⟩ :: spansFrom (n + outside + inside) rest
  | _ => []

/-- The numbers in some lines of text. -/
def numbers (lines : List String) : List Nat := lines.flatMap fun l => numbersFrom none l.toList

/-- The set whose runs some lines of text tell. -/
def lengths (lines : List String) : List Span := spansFrom 0 (numbers lines)

/-- Labels with lengths, where `label` holds the letters read so far, last one first. -/
def labelledFrom (width : Nat) (label : List Char) (count : Option Nat) :
    List Char → List (String × Nat)
  | [] => [(String.ofList label.reverse, count.getD 1)]
  | c :: cs =>
    if c.isDigit then
      labelledFrom width label (some (10 * count.getD 0 + (c.toNat - 48))) cs
    else if label.length < width then labelledFrom width (c :: label) none cs
    else (String.ofList label.reverse, count.getD 1) :: labelledFrom width [c] none cs

/-- The labelled runs that some lines of text tell. -/
def labelled (width : Nat) (lines : List String) : List (String × Nat) :=
  lines.flatMap fun l => labelledFrom width [] none l.toList

/-- The label of the run that a code point lies in. -/
def labelAt {α : Type} (n : Nat) : List (α × Nat) → Option α
  | [] => none
  | (a, len) :: rs => if n < len then some a else labelAt (n - len) rs

/-- The name of a property or of a value as it is compared: without case, blanks, hyphens and
underscores, without an initial `is`, and with ASCII characters only. -/
def looseName (s : String) : String :=
  let lower := s.toList.map Char.toLower
  let body := match lower with
    | 'i' :: 's' :: r => r
    | _ => lower
  let kept := body.filter fun c => c.toNat < 128 && c != ' ' && c != '_' && c != '-'
  String.ofList (if kept = ['c'] ∧ body ≠ lower then ['i', 's', 'c'] else kept)

end TextTemplate.Unicode
