import TextTemplate.Text.Blank

/-!
# Scanning patterns

Where the flag `spaced` holds, blanks and comments between the pieces of a pattern are passed over.
A comment runs from `#` to the end of the line. The functions here take that flag as their first
argument.
-/

namespace TextTemplate.Regex.Scanner

/-- Passes over blanks and comments; the argument tells whether a comment is open. -/
def skipBlanks : Bool → List Char → List Char
  | _, [] => []
  | true, c :: cs => skipBlanks (c != '\n') cs
  | false, c :: cs =>
    if Text.isBlank c then skipBlanks false cs
    else if c = '#' then skipBlanks true cs
    else c :: cs

/-- Passes over blanks and comments where that is allowed. -/
def skip (spaced : Bool) (s : List Char) : List Char := if spaced then skipBlanks false s else s

/-- The longest run of characters with a property, and what follows it. Blanks and comments in
front of each of them, and in front of what follows, are passed over where that is allowed; the
second argument tells whether a comment is open. -/
def takeRun (spaced : Bool) (p : Char → Bool) : Bool → List Char → List Char × List Char
  | _, [] => ([], [])
  | true, c :: cs => takeRun spaced p (c != '\n') cs
  | false, c :: cs =>
    if spaced && Text.isBlank c then takeRun spaced p false cs
    else if spaced && c == '#' then takeRun spaced p true cs
    else if p c then
      let r := takeRun spaced p false cs
      (c :: r.1, r.2)
    else ([], c :: cs)

/-- The next character past a hyphen that would continue a range. Past the start of a comment, the
first character that is not blank counts. -/
def peek (spaced : Bool) (s : List Char) : Option Char :=
  if spaced then
    let t := s.dropWhile Text.isBlank
    let u := if t.head? = some '#' then t.tail.dropWhile Text.isBlank else t
    (u ++ s).head?
  else s.head?

/-- Whether a character is a hexadecimal digit. -/
def isHex (c : Char) : Bool :=
  c.isDigit || ('a' ≤ c && c ≤ 'f') || ('A' ≤ c && c ≤ 'F')

/-- The value of a hexadecimal digit. -/
def hexValue (c : Char) : Nat :=
  if c.isDigit then c.toNat - 48
  else if 'a' ≤ c then c.toNat - 87
  else c.toNat - 55

/-- The value of hexadecimal digits. -/
def hexNumber (ds : List Char) : Nat := ds.foldl (fun n d => 16 * n + hexValue d) 0

/-- The character with a code point, if there is one. -/
def charOf? (n : Nat) : Option Char := if n.isValidChar then some (Char.ofNat n) else none

/-- The value of decimal digits, if it fits a half word. -/
def halfWord? (ds : List Char) : Option Nat :=
  let n := ds.foldl (fun n d => 10 * n + (d.toNat - 48)) 0
  if ds ≠ [] ∧ n < 1 <<< 32 then some n else none

/-- A decimal number with blanks around it. -/
def decimal? (spaced : Bool) (s : List Char) : Option (Nat × List Char) := do
  let r := takeRun spaced Char.isDigit false (s.dropWhile Text.isBlank)
  let n ← halfWord? r.1
  return (n, skip spaced (r.2.dropWhile Text.isBlank))

/-- Exactly so many hexadecimal digits. -/
def hexDigits? (spaced : Bool) : Nat → List Char → Option (List Char × List Char)
  | 0, s => some ([], s)
  | n + 1, s =>
    match skip spaced s with
    | c :: cs =>
      if isHex c then (hexDigits? spaced n cs).map fun r => (c :: r.1, r.2) else none
    | [] => none

end TextTemplate.Regex.Scanner
