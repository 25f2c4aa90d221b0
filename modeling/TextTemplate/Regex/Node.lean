import TextTemplate.Regex.Parser
import TextTemplate.Unicode.CaseFold
import TextTemplate.Unicode.Script
import TextTemplate.Unicode.Word

/-!
# Patterns with their flags worked out

A `Node` says by itself what it matches: sets of characters and conditions on positions are
predicates, and groups are numbered by their opening parentheses. `Ast.resolve` makes nodes. It
fails where a property is unknown or where, without the flag `unicode`, a part could match a piece
of a character.
-/

namespace TextTemplate.Regex

open Unicode

/-- A set of characters. -/
abbrev CharSet := Char → Bool

/-- A condition on the characters before and after a position. -/
abbrev Look := Option Char → Option Char → Bool

/-- A pattern without flags. -/
inductive Node where
  | empty
  | set (s : CharSet)
  | look (l : Look)
  | group (index : Nat) (a : Node)
  | seq (a b : Node)
  /-- Either node, the first one preferred. -/
  | alt (a b : Node)
  /-- The node so many times; more of them are preferred if `greedy`. -/
  | repeated (times : Times) (greedy : Bool) (a : Node)

namespace Node

/-- Whether the node can match nothing. -/
def nullable : Node → Bool
  | empty | look _ => true
  | set _ => false
  | group _ a => a.nullable
  | seq a b => a.nullable && b.nullable
  | alt a b => a.nullable || b.nullable
  | repeated t _ a => t.least == 0 || a.nullable

end Node

/-! ## Flags -/

/-- The flags in force. -/
structure Modes where
  caseInsensitive : Bool := false
  multiLine : Bool := false
  dotAll : Bool := false
  swapGreed : Bool := false
  unicode : Bool := true
  carriageReturn : Bool := false
deriving DecidableEq, Repr

namespace Modes

/-- Turns one flag on or off. -/
def set (m : Modes) (f : Flag) (on : Bool) : Modes :=
  match f with
  | .caseInsensitive => { m with caseInsensitive := on }
  | .multiLine => { m with multiLine := on }
  | .dotAll => { m with dotAll := on }
  | .swapGreed => { m with swapGreed := on }
  | .unicode => { m with unicode := on }
  | .carriageReturn => { m with carriageReturn := on }
  | .spaced => m

/-- The flags after some changes. -/
def change (m : Modes) (fs : FlagChanges) : Modes := fs.foldl (fun m f => m.set f.1 f.2) m

/-- The set that ignores case if the flags say so. -/
def fold (m : Modes) (s : CharSet) : CharSet :=
  if !m.caseInsensitive then s
  else if m.unicode then CaseFold.closure s
  else fun c => s c || s c.toLower || s c.toUpper

/-- What is not in a set; without `unicode` only bytes count. -/
def complement (m : Modes) (s : CharSet) : CharSet :=
  fun c => (m.unicode || c.toNat < 256) && !s c

/-- The set, if it holds characters only; without `unicode` these are the ASCII characters. -/
def wholeCharacters? (m : Modes) (s : CharSet) : Option CharSet :=
  if m.unicode || (List.range 128).all fun n => !s (Char.ofNat (128 + n)) then some s else none

/-- The set with the case ignored and then negated, as wanted. -/
def foldAndNegate? (m : Modes) (negated : Bool) (s : CharSet) : Option CharSet :=
  m.wholeCharacters? (if negated then m.complement (m.fold s) else m.fold s)

end Modes

/-! ## Sets -/

/-- Whether a character lies between two others. -/
def between (a b c : Char) : Bool := a ≤ c && c ≤ b

/-- The blank characters of ASCII. -/
def isAsciiSpace (c : Char) : Bool := between '\t' '\r' c || c == ' '

/-- The members of a named class of ASCII characters. -/
def AsciiClass.contains : AsciiClass → CharSet
  | alnum => Char.isAlphanum
  | alpha => Char.isAlpha
  | ascii => fun c => c.toNat < 128
  | blank => fun c => c == ' ' || c == '\t'
  | cntrl => fun c => c.toNat < 32 || c.toNat == 127
  | digit => Char.isDigit
  | graph => between '!' '~'
  | lower => between 'a' 'z'
  | print => between ' ' '~'
  | punct => fun c => between '!' '~' c && !c.isAlphanum
  | space => isAsciiSpace
  | upper => between 'A' 'Z'
  | word => isAsciiWord
  | xdigit => Scanner.isHex

/-- The members of a class with an escape. -/
def ShortClass.contains (unicode : Bool) : ShortClass → CharSet
  | digit => if unicode then isDecimal else Char.isDigit
  | space => if unicode then Text.isBlank else isAsciiSpace
  | word => if unicode then isWord else isAsciiWord

/-- A class with an escape, perhaps negated. -/
def ShortClass.resolve? (m : Modes) (k : ShortClass) (negated : Bool) : Option CharSet :=
  m.wholeCharacters?
    (if negated then m.complement (k.contains m.unicode) else k.contains m.unicode)

/-- The characters of a general category, or of a group of them. -/
def category? (name : String) : Option CharSet :=
  match name with
  | "any" => some fun _ => true
  | "ascii" => some fun c => c.toNat < 128
  | "assigned" => some fun c => GeneralCategory.of c != .unassigned
  | _ => (GeneralCategory.named? name).map Property.categories

/-- The characters of a script. -/
def script? (name : String) : Option CharSet :=
  (Script.named? name).map fun code c => Script.of c == code

/-- The characters used in a script. -/
def scriptExtensions? (name : String) : Option CharSet :=
  (Script.named? name).map fun code c => (Script.extensionsOf c).contains code

/-- The characters of a property. Three names mean a category although a property has them too. Of
the properties with a value, the general category, the script and its extensions are known; ages and
the classes that break a text into graphemes, words and sentences are not. -/
def PropertyQuery.contains? : PropertyQuery → Option CharSet
  | named name =>
    let name := looseName name
    let property := if ["cf", "sc", "lc"].contains name then none else Property.named? name
    property <|> category? name <|> script? name
  | value property wanted =>
    match looseName property with
    | "gc" | "generalcategory" => category? (looseName wanted)
    | "sc" | "script" => script? (looseName wanted)
    | "scx" | "scriptextensions" => scriptExtensions? (looseName wanted)
    | _ => none

/-- The characters of a property, perhaps negated; `unicode` has to be in force. -/
def PropertyQuery.resolve? (m : Modes) (q : PropertyQuery) (negated : Bool) : Option CharSet :=
  if m.unicode then q.contains?.bind (m.foldAndNegate? negated) else none

/-- The character of a literal. Without `unicode` two hexadecimal digits mean a byte, which has to
be an ASCII character. -/
def Literal.resolve? (m : Modes) (l : Literal) : Option Char :=
  if !m.unicode && l.byte && 128 ≤ l.char.toNat then none else some l.char

/-- The character of a literal in a class, where only ASCII is allowed without `unicode`. -/
def Literal.resolveInClass? (m : Modes) (l : Literal) : Option Char :=
  if !m.unicode && 128 ≤ l.char.toNat then none else some l.char

/-- The members of two sets taken together. -/
def ClassOp.apply : ClassOp → CharSet → CharSet → CharSet
  | intersection, s, t => fun c => s c && t c
  | difference, s, t => fun c => s c && !t c
  | symmetricDifference, s, t => fun c => s c != t c

namespace ClassSet

mutual

/-- The members of a set. -/
def resolve? (m : Modes) : ClassSet → Option CharSet
  | empty => some fun _ => false
  | literal l => (l.resolveInClass? m).map fun a c => c == a
  | range first last => do
    let a ← first.resolveInClass? m
    let b ← last.resolveInClass? m
    return between a b
  | ascii k negated => m.foldAndNegate? negated k.contains
  | short k negated => k.resolve? m negated
  | property q negated => q.resolve? m negated
  | bracketed negated s => (s.resolve? m).bind (m.foldAndNegate? negated)
  | union ss => resolveAll? m ss
  | binary op l r => do
    let s ← l.resolve? m
    let t ← r.resolve? m
    return op.apply (m.fold s) (m.fold t)

/-- The members of some sets. -/
def resolveAll? (m : Modes) : List ClassSet → Option CharSet
  | [] => some fun _ => false
  | s :: ss => do
    let t ← s.resolve? m
    let u ← resolveAll? m ss
    return fun c => t c || u c

end

end ClassSet

/-! ## Conditions -/

/-- Whether there is a character, and it belongs to a set. -/
def isIn (s : CharSet) : Option Char → Bool
  | none => false
  | some c => s c

/-- The condition of an assertion. -/
def Assertion.look (m : Modes) (a : Assertion) : Look :=
  let word := isIn (ShortClass.word.contains m.unicode)
  match a with
  | textStart => fun before _ => before == none
  | textEnd => fun _ after => after == none
  | lineStart =>
    if !m.multiLine then fun before _ => before == none
    else if m.carriageReturn then fun before after =>
      before == none || before == some '\n' || (before == some '\r' && after != some '\n')
    else fun before _ => before == none || before == some '\n'
  | lineEnd =>
    if !m.multiLine then fun _ after => after == none
    else if m.carriageReturn then fun before after =>
      after == none || after == some '\r' || (after == some '\n' && before != some '\r')
    else fun _ after => after == none || after == some '\n'
  | wordBoundary => fun before after => word before != word after
  | notWordBoundary => fun before after => word before == word after
  | wordStart => fun before after => !word before && word after
  | wordEnd => fun before after => word before && !word after
  | wordStartHalf => fun before _ => !word before
  | wordEndHalf => fun _ after => !word after

/-! ## Patterns -/

/-- The node of an atom. -/
def Atom.resolve? (m : Modes) : Atom → Option Node
  | literal l => do
    let a ← l.resolve? m
    if m.caseInsensitive && !m.unicode && 128 ≤ a.toNat then none
    else return .set (m.fold fun c => c == a)
  | dot =>
    if !m.unicode then none
    else if m.dotAll then some (.set fun _ => true)
    else if m.carriageReturn then some (.set fun c => c != '\n' && c != '\r')
    else some (.set fun c => c != '\n')
  | assertion a => some (.look (a.look m))
  | short k negated => (k.resolve? m negated).map .set
  | property q negated => (q.resolve? m negated).map .set

namespace Ast

mutual

/-- The node of a pattern, with the flags in force after it and the number for the next group. -/
def resolve? (m : Modes) (n : Nat) : Ast → Option (Node × Modes × Nat)
  | empty => some (.empty, m, n)
  | atom a => (a.resolve? m).map fun b => (b, m, n)
  | changeFlags fs => some (.empty, m.change fs, n)
  | bracketed negated s =>
    ((s.resolve? m).bind (m.foldAndNegate? negated)).map fun s => (.set s, m, n)
  | repetition t greedy a => do
    let (b, m', n') ← a.resolve? m n
    return (.repeated t (greedy != m'.swapGreed) b, m', n')
  | group .capture a => do
    let (b, _, n') ← a.resolve? m (n + 1)
    return (.group n b, m, n')
  | group (.plain fs) a => do
    let (b, _, n') ← a.resolve? (m.change fs) n
    return (b, m, n')
  | alternation as => resolveBranches? m n as
  | concat as => resolveParts? m n as

/-- The node of some branches. -/
def resolveBranches? (m : Modes) (n : Nat) : List Ast → Option (Node × Modes × Nat)
  | [] => some (.set fun _ => false, m, n)
  | a :: as => do
    let (b, m, n) ← a.resolve? m n
    let (c, m, n) ← resolveBranches? m n as
    return (.alt b c, m, n)

/-- The node of some parts one after the other. -/
def resolveParts? (m : Modes) (n : Nat) : List Ast → Option (Node × Modes × Nat)
  | [] => some (.empty, m, n)
  | a :: as => do
    let (b, m, n) ← a.resolve? m n
    let (c, m, n) ← resolveParts? m n as
    return (.seq b c, m, n)

end

end Ast

/-- The node of a written pattern; its first group is number one. -/
def Node.compile? (pattern : List Char) : Option Node := do
  let a ← Ast.parse? pattern
  let (b, _, _) ← a.resolve? {} 1
  return b

end TextTemplate.Regex
