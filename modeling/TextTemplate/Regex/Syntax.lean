/-!
# Pattern syntax

The tree that a written pattern stands for, before its flags are worked out. `Ast.depth` counts how
deep its parts are nested and `Ast.states` estimates how large a machine it takes; both are bounded.
-/

namespace TextTemplate.Regex

/-- A flag that changes how the rest of a group is read. -/
inductive Flag where
  | caseInsensitive
  | multiLine
  | dotAll
  | swapGreed
  | unicode
  | carriageReturn
  | spaced
deriving DecidableEq, Repr

/-- Flags as written: each is turned on or off. -/
abbrev FlagChanges := List (Flag × Bool)

/-- A single character. -/
structure Literal where
  char : Char
  /-- Whether it was written by exactly two hexadecimal digits, which can stand for a byte. -/
  byte : Bool := false
deriving DecidableEq, Repr

/-- The classes with a one-letter escape. -/
inductive ShortClass where
  | digit
  | space
  | word
deriving DecidableEq, Repr

/-- The named classes of ASCII characters. -/
inductive AsciiClass where
  | alnum
  | alpha
  | ascii
  | blank
  | cntrl
  | digit
  | graph
  | lower
  | print
  | punct
  | space
  | upper
  | word
  | xdigit
deriving DecidableEq, Repr

/-- A question about a Unicode property. -/
inductive PropertyQuery where
  /-- The name of a property that a character has or lacks, of a category or of a script. -/
  | named (name : String)
  /-- A property and the value wanted. -/
  | value (property value : String)
deriving DecidableEq, Repr

/-- An operation on two classes. -/
inductive ClassOp where
  | intersection
  | difference
  | symmetricDifference
deriving DecidableEq, Repr

/-- A set of characters written in brackets. -/
inductive ClassSet where
  | empty
  | literal (l : Literal)
  | range (first last : Literal)
  | ascii (k : AsciiClass) (negated : Bool)
  | short (k : ShortClass) (negated : Bool)
  | property (q : PropertyQuery) (negated : Bool)
  | bracketed (negated : Bool) (s : ClassSet)
  | union (items : List ClassSet)
  | binary (op : ClassOp) (left right : ClassSet)

/-- A condition on a position. -/
inductive Assertion where
  | lineStart
  | lineEnd
  | textStart
  | textEnd
  | wordBoundary
  | notWordBoundary
  | wordStart
  | wordEnd
  | wordStartHalf
  | wordEndHalf
deriving DecidableEq, Repr

/-- A part that stands alone: a pattern's smallest pieces. -/
inductive Atom where
  | literal (l : Literal)
  | dot
  | assertion (a : Assertion)
  | short (k : ShortClass) (negated : Bool)
  | property (q : PropertyQuery) (negated : Bool)
deriving DecidableEq, Repr

/-- How often a part is repeated: at least `least` times and at most `most` times, if bounded. -/
structure Times where
  least : Nat
  most : Option Nat
deriving DecidableEq, Repr

/-- What a pair of parentheses is for. -/
inductive GroupKind where
  | capture
  | plain (changes : FlagChanges)
deriving DecidableEq, Repr

/-- A pattern. -/
inductive Ast where
  | empty
  | atom (a : Atom)
  | changeFlags (changes : FlagChanges)
  | bracketed (negated : Bool) (s : ClassSet)
  | repetition (times : Times) (greedy : Bool) (a : Ast)
  | group (kind : GroupKind) (a : Ast)
  | alternation (branches : List Ast)
  | concat (parts : List Ast)

namespace ClassSet

/-- The union of some items, which a single item is by itself. -/
def ofItems : List ClassSet → ClassSet
  | [] => empty
  | [s] => s
  | ss => union ss

mutual

/-- How deep brackets and operations are nested. -/
def depth : ClassSet → Nat
  | bracketed _ s => s.depth + 1
  | union ss => depths ss + 1
  | binary _ l r => max l.depth r.depth + 1
  | _ => 0

/-- The largest depth of some sets. -/
def depths : List ClassSet → Nat
  | [] => 0
  | s :: ss => max s.depth (depths ss)

end

mutual

/-- An estimate of the states that a set takes. -/
def states : ClassSet → Nat
  | empty => 1
  | literal _ | range _ _ => 4
  | ascii _ _ => 8
  | short k _ => shortStates k
  | property _ _ => 600
  | bracketed _ s => s.states
  | union ss => statesOf ss
  | binary _ l r => l.states + r.states

/-- The sum of the estimates of some sets. -/
def statesOf : List ClassSet → Nat
  | [] => 0
  | s :: ss => s.states + statesOf ss

/-- An estimate of the states that a class with an escape takes. -/
def shortStates : ShortClass → Nat
  | .digit => 190
  | .space => 20
  | .word => 1560

end

end ClassSet

namespace Ast

/-- Some parts one after the other, which a single part is by itself. -/
def ofParts : List Ast → Ast
  | [] => empty
  | [a] => a
  | as => concat as

/-- Some branches, which a single branch is by itself. -/
def ofBranches : List Ast → Ast
  | [] => empty
  | [a] => a
  | as => alternation as

mutual

/-- How deep the parts of a pattern are nested. -/
def depth : Ast → Nat
  | empty | atom _ | changeFlags _ => 0
  | bracketed _ s => s.depth + 1
  | repetition _ _ a | group _ a => a.depth + 1
  | alternation as | concat as => depths as + 1

/-- The largest depth of some patterns. -/
def depths : List Ast → Nat
  | [] => 0
  | a :: as => max a.depth (depths as)

end

/-- An estimate of the states that an atom takes. -/
def atomStates : Atom → Nat
  | .literal l => if l.char.toNat < 128 then 1 else if l.char.toNat < 0x800 then 2 else 4
  | .dot => 10
  | .assertion _ => 1
  | .short k _ => ClassSet.shortStates k
  | .property _ _ => 600

mutual

/-- An estimate of the states that a machine for the pattern has. -/
def states : Ast → Nat
  | empty | changeFlags _ => 1
  | atom a => atomStates a
  | bracketed _ s => s.states + 1
  | repetition t _ a => (max t.least (t.most.getD 0) + 1) * (a.states + 1)
  | group _ a => a.states + 2
  | alternation as | concat as => statesOf as + 1

/-- The sum of the estimates of some patterns. -/
def statesOf : List Ast → Nat
  | [] => 0
  | a :: as => a.states + statesOf as

end

/-- The deepest nesting that is accepted. -/
def maxDepth : Nat := 250

/-- The largest estimate that is accepted. -/
def maxStates : Nat := 327680

/-- Whether the pattern keeps within the bounds. -/
def withinBounds (a : Ast) : Bool := a.depth ≤ maxDepth && a.states ≤ maxStates

end Ast

end TextTemplate.Regex
