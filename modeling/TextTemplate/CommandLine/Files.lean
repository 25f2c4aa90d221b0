import TextTemplate.Table

/-!
# Files

Texts under paths. A path names the same file however it is spelled, so `Path.ofString` leaves out
what leads nowhere. There is a directory wherever a path goes on to a file.
-/

namespace TextTemplate.CommandLine

/-- A way to a file, from the root or from the current directory. -/
structure Path where
  absolute : Bool := false
  parts : List String := []
deriving DecidableEq, Repr

namespace Path

/-- One part further. `.` and empty parts stay, `..` goes back where that is possible. -/
def step (p : Path) (part : String) : Path :=
  if part = "" ∨ part = "." then p
  else if part ≠ ".." then { p with parts := p.parts ++ [part] }
  else
    match p.parts.getLast? with
    | none => if p.absolute then p else { p with parts := [part] }
    | some ".." => { p with parts := p.parts ++ [part] }
    | some _ => { p with parts := p.parts.dropLast }

/-- The path that a text spells. -/
def ofString (s : String) : Path :=
  ((s.toList.splitOn '/').map String.ofList).foldl step { absolute := s.toList.head? = some '/' }

/-- The shortest spelling of a path. -/
def toString (p : Path) : String := (if p.absolute then "/" else "") ++ "/".intercalate p.parts

/-- Whether a path goes on to another one. -/
def leadsTo (p q : Path) : Bool :=
  p.absolute == q.absolute && p.parts.isPrefixOf q.parts && p.parts != q.parts

end Path

/-- Files with text. -/
structure Files where
  byPath : Table Path String := {}

namespace Files

/-- Files with these spellings of their paths. -/
def ofList (fs : List (String × String)) : Files :=
  ⟨fs.foldl (fun t f => t.insert (.ofString f.1) f.2) {}⟩

/-- The text in a file. -/
def read? (fs : Files) (path : String) : Option String := fs.byPath.get? (.ofString path)

/-- Puts a text into a file. -/
def write (fs : Files) (path text : String) : Files := ⟨fs.byPath.insert (.ofString path) text⟩

/-- Takes a file away. -/
def remove (fs : Files) (path : String) : Files := ⟨fs.byPath.erase (.ofString path)⟩

@[simp] theorem read?_write (fs : Files) (p q text : String) :
    (fs.write p text).read? q = if Path.ofString q = .ofString p then some text else fs.read? q :=
  Table.get?_insert ..

@[simp] theorem read?_remove (fs : Files) (p q : String) :
    (fs.remove p).read? q = if Path.ofString q = .ofString p then none else fs.read? q :=
  Table.get?_erase ..

/-- Whether a path names a directory. -/
def isDirectory (fs : Files) (path : String) : Bool :=
  fs.byPath.keys.any fun p => (Path.ofString path).leadsTo p

/-- Whether there is a file where the way to a path needs a directory. -/
def blocks (fs : Files) (path : String) : Bool :=
  fs.byPath.keys.any fun p => p.leadsTo (.ofString path)

end Files

end TextTemplate.CommandLine
