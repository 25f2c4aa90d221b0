import TextTemplate.Config.Flags
import TextTemplate.Text.Blank

/-!
# Files of flags

One flag a line. Everything after the first blank of a line is the flag's value, later blanks
included. Empty lines and lines that start with `#` say nothing.
-/

namespace TextTemplate.Config

/-- The tokens of one trimmed line. -/
def lineTokens (line : List Char) : List String :=
  let flag := line.takeWhile fun c => !Text.isBlank c
  match line.dropWhile fun c => !Text.isBlank c with
  | [] => [String.ofList line]
  | _ :: value =>
    if '=' ∈ flag then [String.ofList line]
    else [String.ofList flag, String.ofList (Text.trim value)]

/-- The tokens of a file. -/
def fileTokens (content : String) : List String :=
  (content.toList.splitOn '\n').map Text.trim
    |>.filter (fun line => line ≠ [] ∧ line.head? ≠ some '#')
    |>.flatMap lineTokens

namespace Flags

/-- The flags in a file. -/
def ofFile (content : String) : Flags := ofTokens (fileTokens content)

/-- The lines that a file of flags holds. -/
def fileLines (f : Flags) : List String :=
  ["# tempo defaults (saved with --save)"]
    ++ (if f.interactive then ["--interactive"] else [])
    ++ (if f.silent then ["--silent"] else [])
    ++ (if f.json then ["--json"] else [])
    ++ (f.maxDepth.map fun n => "--max-depth " ++ toString n).toList
    ++ (f.signal.map fun s => "--signal " ++ s.name).toList
    ++ (f.library.map fun p => "--library " ++ p).toList

/-- The file that keeps the flags. -/
def toFile (f : Flags) : String := "\n".intercalate f.fileLines ++ "\n"

end Flags

end TextTemplate.Config
