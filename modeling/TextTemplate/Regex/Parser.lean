import TextTemplate.Regex.Scanner
import TextTemplate.Regex.Syntax
import TextTemplate.Unicode.Word
import TextTemplate.Text.Initial

/-!
# Reading patterns

`Ast.parse?` reads a whole pattern. The functions for its pieces take what is left of the pattern
and give back what is left after the piece. A pattern is accepted or not; why it is not accepted is
not told.
-/

namespace TextTemplate.Regex

open Scanner

/-- Characters that have a meaning of their own in patterns. -/
def isMeta (c : Char) : Bool :=
  ['\\', '.', '+', '*', '?', '(', ')', '|', '[', ']', '\x7b', '\x7d', '^', '$', '#', '&', '-',
    '~'].contains c

/-- Characters that a backslash in front does not change. -/
def isEscapable (c : Char) : Bool :=
  isMeta c || (c.toNat < 128 && !c.isAlphanum && c != '<' && c != '>')

/-- The characters with a one-letter escape. -/
def escapedLetter? : Char → Option Char
  | 'a' => some '\x07'
  | 'f' => some '\x0c'
  | 't' => some '\t'
  | 'n' => some '\n'
  | 'r' => some '\r'
  | 'v' => some '\x0b'
  | _ => none

/-- A character by its code point: some digits, or any number of them in braces. -/
def hexLiteral? (spaced : Bool) (digits : Nat) (s : List Char) : Option (Literal × List Char) :=
  match skip spaced s with
  | '\x7b' :: r => do
    let (ds, r) := takeRun spaced (· != '\x7d') false r
    match r with
    | '\x7d' :: r =>
      if ds ≠ [] ∧ ds.all isHex then
        let c ← charOf? (hexNumber ds)
        return ({ char := c }, r)
      else none
    | _ => none
  | r => do
    let (ds, r) ← hexDigits? spaced digits r
    let c ← charOf? (hexNumber ds)
    return ({ char := c, byte := digits == 2 }, r)

/-- Splits a text at the first place where a separator starts. -/
def splitAt? (sep : List Char) : List Char → Option (List Char × List Char)
  | [] => none
  | c :: cs =>
    match Text.after? sep (c :: cs) with
    | some r => some ([], r)
    | none => (splitAt? sep cs).map fun r => (c :: r.1, r.2)

/-- The question in the braces of a property escape, and whether it is turned round. -/
def propertyQuery (name : List Char) : PropertyQuery × Bool :=
  let value (r : List Char × List Char) := PropertyQuery.value (.ofList r.1) (.ofList r.2)
  if let some r := splitAt? ['!', '='] name then (value r, true)
  else if let some r := splitAt? [':'] name then (value r, false)
  else if let some r := splitAt? ['='] name then (value r, false)
  else (.named (.ofList name), false)

/-- A property escape after its letter. -/
def property? (spaced negated : Bool) (s : List Char) : Option (Atom × List Char) :=
  match skip spaced s with
  | [] | '\\' :: _ => none
  | '\x7b' :: r =>
    match takeRun spaced (· != '\x7d') false r with
    | (name, '\x7d' :: r) =>
      let (q, turned) := propertyQuery name
      some (.property q (negated != turned), r)
    | _ => none
  | c :: r => some (.property (.named (.ofList [c])) negated, r)

/-- The word assertions with a name in braces. -/
def namedBoundary? (name : List Char) : Option Assertion :=
  match String.ofList name with
  | "start" => some .wordStart
  | "end" => some .wordEnd
  | "start-half" => some .wordStartHalf
  | "end-half" => some .wordEndHalf
  | _ => none

/-- A word assertion after its letter. Braces that hold no name are left to be a repetition. -/
def boundary? (spaced : Bool) (s : List Char) : Option (Atom × List Char) :=
  match s with
  | '\x7b' :: r =>
    match skip spaced r with
    | [] => none
    | c :: _ =>
      if c.isAlpha || c == '-' then
        match takeRun spaced (fun c => c.isAlpha || c == '-') false r with
        | (name, '\x7d' :: r) => (namedBoundary? name).map fun a => (.assertion a, r)
        | _ => none
      else some (.assertion .wordBoundary, s)
  | _ => some (.assertion .wordBoundary, s)

/-- What follows a backslash. -/
def escape? (spaced : Bool) : List Char → Option (Atom × List Char)
  | [] => none
  | c :: r =>
    match c with
    | 'x' => (hexLiteral? spaced 2 r).map fun (l, r) => (.literal l, r)
    | 'u' => (hexLiteral? spaced 4 r).map fun (l, r) => (.literal l, r)
    | 'U' => (hexLiteral? spaced 8 r).map fun (l, r) => (.literal l, r)
    | 'p' => property? spaced false r
    | 'P' => property? spaced true r
    | 'd' => some (.short .digit false, r)
    | 'D' => some (.short .digit true, r)
    | 's' => some (.short .space false, r)
    | 'S' => some (.short .space true, r)
    | 'w' => some (.short .word false, r)
    | 'W' => some (.short .word true, r)
    | 'A' => some (.assertion .textStart, r)
    | 'z' => some (.assertion .textEnd, r)
    | 'b' => boundary? spaced r
    | 'B' => some (.assertion .notWordBoundary, r)
    | '<' => some (.assertion .wordStart, r)
    | '>' => some (.assertion .wordEnd, r)
    | c =>
      if isEscapable c then some (.literal { char := c }, r)
      else (escapedLetter? c).map fun c => (.literal { char := c }, r)

/-! ## Classes -/

/-- The class of ASCII characters with a name. -/
def AsciiClass.ofName? (name : List Char) : Option AsciiClass :=
  match String.ofList name with
  | "alnum" => some alnum
  | "alpha" => some alpha
  | "ascii" => some ascii
  | "blank" => some blank
  | "cntrl" => some cntrl
  | "digit" => some digit
  | "graph" => some graph
  | "lower" => some lower
  | "print" => some print
  | "punct" => some punct
  | "space" => some space
  | "upper" => some upper
  | "word" => some word
  | "xdigit" => some xdigit
  | _ => none

/-- A named class of ASCII characters, after its opening bracket. -/
def asciiClass? : List Char → Option (ClassSet × List Char)
  | ':' :: r =>
    let (negated, r) := match r with
      | '^' :: r => (true, r)
      | _ => (false, r)
    match Text.after? [':', ']'] (r.dropWhile (· != ':')) with
    | some rest => (AsciiClass.ofName? (r.takeWhile (· != ':'))).map fun k => (.ascii k negated, rest)
    | none => none
  | _ => none

/-- One item of a class before it is known whether a range starts with it. -/
def classAtom? (spaced : Bool) : List Char → Option (Atom × List Char)
  | [] => none
  | '\\' :: r => escape? spaced r
  | c :: r => some (.literal { char := c }, r)

/-- An atom as an item of a class; assertions and the dot are none. -/
def Atom.toItem? : Atom → Option ClassSet
  | .literal l => some (.literal l)
  | .short k negated => some (.short k negated)
  | .property q negated => some (.property q negated)
  | .dot | .assertion _ => none

/-- An atom as an end of a range. -/
def Atom.toLiteral? : Atom → Option Literal
  | .literal l => some l
  | _ => none

/-- A range or a single item of a class. -/
def classItem? (spaced : Bool) (s : List Char) : Option (ClassSet × List Char) := do
  let (first, r) ← classAtom? spaced s
  match skip spaced r with
  | [] => none
  | '-' :: r' =>
    if peek spaced r' = some ']' ∨ peek spaced r' = some '-' then
      let item ← first.toItem?
      return (item, '-' :: r')
    else
      let (last, r) ← classAtom? spaced (skip spaced r')
      let first ← first.toLiteral?
      let last ← last.toLiteral?
      if first.char ≤ last.char then return (.range first last, r) else none
  | r =>
    let item ← first.toItem?
    return (item, r)

/-- The start of a class after its opening bracket: whether it is negated, and the hyphens or the
closing bracket that stand for themselves there. -/
def classStart (spaced : Bool) (s : List Char) : Bool × List ClassSet × List Char :=
  let (negated, r) := match skip spaced s with
    | '^' :: r => (true, r)
    | r => (false, r)
  match takeRun spaced (· == '-') false r with
  | ([], ']' :: r) => (negated, [.literal { char := ']' }], r)
  | (hyphens, r) => (negated, hyphens.map fun c => .literal { char := c }, r)

/-- Ends the right side of an operation. -/
def ClassSet.close (pending : Option (ClassOp × ClassSet)) (items : List ClassSet) : ClassSet :=
  match pending with
  | none => ofItems items.reverse
  | some (op, left) => binary op left (ofItems items.reverse)

/-- The rest of a class up to its closing bracket, with the operation that waits for its right side
and the items read so far, the last one first. -/
def classBody? (spaced : Bool) : Nat → Option (ClassOp × ClassSet) → List ClassSet → List Char →
    Option (ClassSet × List Char)
  | 0, _, _, _ => none
  | n + 1, pending, items, s =>
    match skip spaced s with
    | [] => none
    | '[' :: r =>
      match asciiClass? r with
      | some (k, r) => classBody? spaced n pending (k :: items) r
      | none => do
        let (negated, first, r) := classStart spaced r
        let (inner, r) ← classBody? spaced n none first.reverse r
        classBody? spaced n pending (.bracketed negated inner :: items) r
    | ']' :: r => some (ClassSet.close pending items, r)
    | '&' :: '&' :: r => classBody? spaced n (some (.intersection, ClassSet.close pending items)) [] r
    | '-' :: '-' :: r => classBody? spaced n (some (.difference, ClassSet.close pending items)) [] r
    | '~' :: '~' :: r =>
      classBody? spaced n (some (.symmetricDifference, ClassSet.close pending items)) [] r
    | r => do
      let (item, r) ← classItem? spaced r
      classBody? spaced n pending (item :: items) r

/-- A class after its opening bracket. -/
def class? (spaced : Bool) (s : List Char) : Option (Ast × List Char) := do
  let (negated, first, r) := classStart spaced s
  let (inner, r) ← classBody? spaced (r.length + 1) none first.reverse r
  return (.bracketed negated inner, r)

/-! ## Repetitions -/

/-- Puts a repetition around the last part; there has to be one, and it has to be able to match. -/
def repeatLast? (times : Times) (greedy : Bool) : List Ast → Option (List Ast)
  | [] | .empty :: _ | .changeFlags _ :: _ => none
  | a :: as => some (.repetition times greedy a :: as)

/-- Whether a repetition prefers more, told by the mark that may follow it. -/
def greed : List Char → Bool × List Char
  | '?' :: r => (false, r)
  | r => (true, r)

/-- A counted repetition after its opening brace. -/
def counted? (spaced : Bool) (s : List Char) : Option (Times × List Char) := do
  let (least, r) ← decimal? spaced (skip spaced s)
  match r with
  | '\x7d' :: r => return (⟨least, some least⟩, r)
  | ',' :: r =>
    match skip spaced r with
    | '\x7d' :: r => return (⟨least, none⟩, r)
    | r =>
      let (most, r) ← decimal? spaced r
      match r with
      | '\x7d' :: r => if least ≤ most then return (⟨least, some most⟩, r) else none
      | _ => none
  | _ => none

/-! ## Groups -/

/-- The flag of a letter. -/
def Flag.ofLetter? : Char → Option Flag
  | 'i' => some caseInsensitive
  | 'm' => some multiLine
  | 's' => some dotAll
  | 'U' => some swapGreed
  | 'u' => some unicode
  | 'R' => some carriageReturn
  | 'x' => some spaced
  | _ => none

/-- Flag letters up to `:` or `)`. Every flag is named once at most, and a hyphen, after which flags
are turned off, stands once at most and not last. -/
def flagChanges? (negated : Bool) (changes : FlagChanges) (afterHyphen : Bool) :
    List Char → Option (FlagChanges × List Char)
  | [] => none
  | c :: r =>
    if c = ':' ∨ c = ')' then if afterHyphen then none else some (changes.reverse, c :: r)
    else if c = '-' then if negated then none else flagChanges? true changes true r
    else
      match Flag.ofLetter? c with
      | some f =>
        if changes.any (·.1 = f) then none
        else flagChanges? negated ((f, !negated) :: changes) false r
      | none => none

/-- Whether a character may stand in the name of a group, in front or later. -/
def isNameChar (first : Bool) (c : Char) : Bool :=
  if first then c == '_' || Unicode.isLetter c
  else c == '_' || c == '.' || c == '[' || c == ']' || Unicode.isLetterOrNumber c

/-- The name of a group up to `>`. -/
def groupName? (s : List Char) : Option (String × List Char) :=
  match s.takeWhile (· != '>'), s.dropWhile (· != '>') with
  | c :: cs, '>' :: r =>
    if isNameChar true c && cs.all (isNameChar false) then some (.ofList (c :: cs), r) else none
  | _, _ => none

/-- What an opening parenthesis starts. -/
inductive Opening where
  /-- Only a change of flags. -/
  | changes (fs : FlagChanges)
  /-- A group, perhaps with a name. -/
  | group (kind : GroupKind) (name : Option String)

/-- What stands between an opening parenthesis and the contents of its group. -/
def opening? (spaced : Bool) (s : List Char) : Option (Opening × List Char) :=
  match skip spaced s with
  | '?' :: '=' :: _ | '?' :: '!' :: _ | '?' :: '<' :: '=' :: _ | '?' :: '<' :: '!' :: _ => none
  | '?' :: 'P' :: '<' :: r | '?' :: '<' :: r =>
    (groupName? r).map fun (name, r) => (.group .capture (some name), r)
  | '?' :: r =>
    match flagChanges? false [] false r with
    | some (fs, ')' :: r) => if fs = [] then none else some (.changes fs, r)
    | some (fs, ':' :: r) => some (.group (.plain fs) none, r)
    | _ => none
  | r => some (.group .capture none, r)

/-- What changes of flags make of the flag `spaced`. -/
def FlagChanges.spaced (fs : FlagChanges) (spaced : Bool) : Bool := (fs.lookup .spaced).getD spaced

/-- What changes the flag `spaced` inside a group. -/
def GroupKind.spaced (k : GroupKind) (spaced : Bool) : Bool :=
  match k with
  | .capture => spaced
  | .plain fs => FlagChanges.spaced fs spaced

/-! ## Patterns -/

/-- How far a pattern is read: the flag `spaced`, the names of groups, the finished branches and
the parts of the open branch, the last ones first. -/
structure Progress where
  spaced : Bool
  names : List String := []
  branches : List Ast := []
  parts : List Ast := []

namespace Progress

/-- Adds a part. -/
def push (p : Progress) (a : Ast) : Progress := { p with parts := a :: p.parts }

/-- Starts a new branch. -/
def branch (p : Progress) : Progress :=
  { p with branches := Ast.ofParts p.parts.reverse :: p.branches, parts := [] }

/-- The pattern read so far. -/
def close (p : Progress) : Ast := Ast.ofBranches p.branch.branches.reverse

/-- Repeats the last part. -/
def repeated? (p : Progress) (times : Times) (greedy : Bool) : Option Progress :=
  (repeatLast? times greedy p.parts).map fun as => { p with parts := as }

end Progress

/-- Adds the name of a group; every name stands once at most. -/
def addName? (names : List String) : Option String → Option (List String)
  | none => some names
  | some n => if names.contains n then none else some (n :: names)

/-- Reads on up to the end of the group or of the pattern. -/
def parseFrom? : Nat → Progress → List Char → Option (Progress × List Char)
  | 0, _, _ => none
  | n + 1, p, s =>
    match skip p.spaced s with
    | [] => some (p, [])
    | ')' :: r => some (p, ')' :: r)
    | '|' :: r => parseFrom? n p.branch r
    | '(' :: r =>
      match opening? p.spaced r with
      | none => none
      | some (.changes fs, r) =>
        parseFrom? n { p.push (.changeFlags fs) with spaced := FlagChanges.spaced fs p.spaced } r
      | some (.group kind name, r) => do
        let names ← addName? p.names name
        let (inner, r) ← parseFrom? n { spaced := kind.spaced p.spaced, names } r
        match r with
        | ')' :: r =>
          parseFrom? n { p.push (.group kind inner.close) with names := inner.names } r
        | _ => none
    | '[' :: r => do
      let (a, r) ← class? p.spaced r
      parseFrom? n (p.push a) r
    | '?' :: r => do
      let (greedy, r) := greed r
      let p ← p.repeated? ⟨0, some 1⟩ greedy
      parseFrom? n p r
    | '*' :: r => do
      let (greedy, r) := greed r
      let p ← p.repeated? ⟨0, none⟩ greedy
      parseFrom? n p r
    | '+' :: r => do
      let (greedy, r) := greed r
      let p ← p.repeated? ⟨1, none⟩ greedy
      parseFrom? n p r
    | '\x7b' :: r => do
      let (times, r) ← counted? p.spaced r
      let (greedy, r) := greed (skip p.spaced r)
      let p ← p.repeated? times greedy
      parseFrom? n p r
    | '\\' :: r => do
      let (a, r) ← escape? p.spaced r
      parseFrom? n (p.push (.atom a)) r
    | '.' :: r => parseFrom? n (p.push (.atom .dot)) r
    | '^' :: r => parseFrom? n (p.push (.atom (.assertion .lineStart))) r
    | '$' :: r => parseFrom? n (p.push (.atom (.assertion .lineEnd))) r
    | c :: r => parseFrom? n (p.push (.atom (.literal { char := c }))) r

/-- Reads a whole pattern. -/
def Ast.parse? (pattern : List Char) : Option Ast :=
  match parseFrom? (pattern.length + 1) { spaced := false } pattern with
  | some (p, []) => if p.close.withinBounds then some p.close else none
  | _ => none

end TextTemplate.Regex
