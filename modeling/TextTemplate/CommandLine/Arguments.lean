import TextTemplate.Config.Flags
import TextTemplate.Text.Blank

/-!
# Arguments

The command line has options for every command, two options that keep or forget defaults, and one
command with options of its own. `Invocation.parse?` reads it. Options are spelled `--name value`,
`--name=value`, `-n value`, `-nvalue` or `-n=value`, and one hyphen may lead several short ones. A
value in an argument of its own does not start with a hyphen unless it is just that. `--` ends the
options. An option that is not a list stands once at most in front of the command and once after it.
-/

namespace TextTemplate.CommandLine

open Config (Flags Signal)

/-- What an option takes. -/
inductive Arity where
  | flag
  | single (valid : String → Bool)
  | list (valid : String → Bool)

namespace Arity

/-- Whether the option takes a value. -/
def takesValue : Arity → Bool
  | flag => false
  | _ => true

/-- Whether the option may be repeated. -/
def repeats : Arity → Bool
  | list _ => true
  | _ => false

/-- Whether a value is one for the option. -/
def accepts : Arity → String → Bool
  | flag, _ => true
  | single valid, v | list valid, v => valid v

end Arity

/-- An option. -/
structure OptionSpec where
  name : String
  letter : Option Char := none
  arity : Arity

/-- The options and other arguments of a part of the command line. -/
structure Scanned where
  /-- Options by name with their values, that of a flag being empty, in order. -/
  options : List (String × String) := []
  positionals : List String := []
  /-- A command and the arguments after it. -/
  command : Option (String × List String) := none

namespace Scanned

/-- Puts an option in front. -/
def withOption (o : OptionSpec) (value : String) (s : Scanned) : Scanned :=
  { s with options := (o.name, value) :: s.options }

/-- Puts another argument in front. -/
def withPositional (a : String) (s : Scanned) : Scanned :=
  { s with positionals := a :: s.positionals }

/-- The values of an option. -/
def values (s : Scanned) (name : String) : List String :=
  (s.options.filter fun o => o.1 = name).map (·.2)

/-- Whether an option is given. -/
def has (s : Scanned) (name : String) : Bool := s.options.any fun o => o.1 = name

/-- Whether all options have valid values, and none but lists are repeated. -/
def valid (specs : List OptionSpec) (s : Scanned) : Bool :=
  specs.all fun o =>
    (s.values o.name).all o.arity.accepts && (o.arity.repeats || (s.values o.name).length ≤ 1)

end Scanned

/-- Whether an argument cannot be the value of the option in front of it. -/
def looksLikeOption (a : String) : Bool := a.toList.head? == some '-' && a != "-"

/-- The options that one hyphen leads. The last of them may have its value in the same argument, or
wait for it. -/
def cluster? (specs : List OptionSpec) :
    List Char → Option (List (OptionSpec × String) × Option OptionSpec)
  | [] => some ([], none)
  | c :: cs =>
    match specs.find? fun o => o.letter == some c with
    | none => none
    | some o =>
      if o.arity.takesValue then
        match cs with
        | [] => some ([], some o)
        | '=' :: v | v => some ([(o, String.ofList v)], none)
      else (cluster? specs cs).map fun (os, waiting) => ((o, "") :: os, waiting)

/-- What one argument says. -/
inductive Argument where
  /-- Some options, the last of which may wait for its value. -/
  | options (os : List (OptionSpec × String)) (waiting : Option OptionSpec)
  | other

/-- Reads one argument. -/
def Argument.ofString? (specs : List OptionSpec) (a : String) : Option Argument :=
  match a.toList with
  | '-' :: '-' :: cs =>
    let name := String.ofList (cs.takeWhile (· != '='))
    match specs.find? (·.name = name), cs.dropWhile (· != '=') with
    | none, _ => none
    | some o, [] => if o.arity.takesValue then some (.options [] o) else some (.options [(o, "")] none)
    | some o, _ :: v => if o.arity.takesValue then some (.options [(o, String.ofList v)] none) else none
  | '-' :: c :: cs => (cluster? specs (c :: cs)).map fun (os, waiting) => .options os waiting
  | _ => some .other

/-- Reads arguments up to a command. -/
def scan? (specs : List OptionSpec) (commands : List String) : List String → Option Scanned
  | [] => some {}
  | a :: as =>
    if a = "--" then some { positionals := as }
    else
      match Argument.ofString? specs a, as with
      | none, _ => none
      | some .other, as =>
        if a ∈ commands then some { command := some (a, as) }
        else (scan? specs commands as).map (·.withPositional a)
      | some (.options os none), as =>
        (scan? specs commands as).map fun s => os.foldr (fun o s => s.withOption o.1 o.2) s
      | some (.options os (some o)), v :: as =>
        if looksLikeOption v then none
        else (scan? specs commands as).map fun s =>
          os.foldr (fun o s => s.withOption o.1 o.2) (s.withOption o v)
      | some (.options _ (some _)), [] => none

/-- Reads arguments and checks the options. -/
def scanValid? (specs : List OptionSpec) (commands as : List String) : Option Scanned :=
  (scan? specs commands as).filter (·.valid specs)

/-! ## Options -/

/-- Two positions, parted by a colon, with blanks around them. -/
def region? (s : String) : Option (Nat × Nat) :=
  let cs := s.toList
  match cs.dropWhile (· != ':') with
  | [] => none
  | _ :: r => do
    let p ← Text.word? (Text.trim (cs.takeWhile (· != ':')))
    let q ← Text.word? (Text.trim r)
    return (p, q)

/-- Whether a value is a number of one word. -/
def isWord (v : String) : Bool := (Text.word? v.toList).isSome

/-- The options for every command. -/
def globalOptions : List OptionSpec := [
  { name := "library", letter := some 'l', arity := .single (· != "") },
  { name := "interactive", letter := some 'i', arity := .flag },
  { name := "silent", arity := .flag },
  { name := "max-depth", arity := .single isWord },
  { name := "signal", arity := .single fun v => (Signal.ofName? v).isSome },
  { name := "json", arity := .flag }]

/-- The options in front of the command. -/
def topOptions : List OptionSpec :=
  globalOptions ++ [{ name := "save", arity := .flag }, { name := "clear", arity := .flag }]

/-- The options of the commands that open a buffer. -/
def bufferOptions : List OptionSpec := [
  { name := "input", arity := .single (· != "") },
  { name := "at", arity := .single isWord },
  { name := "answer", arity := .list fun _ => true }]

/-- The options after `expand`. -/
def expandOptions : List OptionSpec :=
  globalOptions ++ bufferOptions
    ++ [{ name := "region", arity := .single fun v => (region? v).isSome }]

/-- The options after `complete`. -/
def completeOptions : List OptionSpec :=
  globalOptions ++ bufferOptions ++ [{ name := "scope", arity := .list fun _ => true }]

/-! ## Commands -/

/-- How a buffer is opened. -/
structure BufferArgs where
  /-- The file with the text, or a hyphen for standard input. -/
  input : Option String := none
  /-- Where point is. -/
  point : Option Nat := none
  answers : List String := []
deriving DecidableEq, Repr

/-- What is to be done. -/
inductive Command where
  | expand (name : String) (region : Option (Nat × Nat)) (buffer : BufferArgs)
  | complete (scopes : List String) (buffer : BufferArgs)
  | list
deriving DecidableEq, Repr

/-- A command line. -/
structure Invocation where
  /-- The options for every command, those after the command taken over those before it. -/
  flags : Flags := {}
  /-- Whether the flags are kept as defaults. -/
  save : Bool := false
  /-- Whether the defaults are forgotten. -/
  clear : Bool := false
  command : Option Command := none
deriving DecidableEq, Repr

namespace Scanned

/-- The value of an option that is no list. -/
def value? (s : Scanned) (name : String) : Option String := (s.values name).head?

/-- The options for every command. -/
def flags (s : Scanned) : Flags where
  interactive := s.has "interactive"
  silent := s.has "silent"
  json := s.has "json"
  maxDepth := (s.value? "max-depth").bind fun v => Text.word? v.toList
  signal := (s.value? "signal").bind Signal.ofName?
  library := s.value? "library"

/-- The options of a command that opens a buffer. -/
def bufferArgs (s : Scanned) : BufferArgs where
  input := s.value? "input"
  point := (s.value? "at").bind fun v => Text.word? v.toList
  answers := s.values "answer"

end Scanned

/-- Reads a command with its arguments. -/
def Command.parse? (name : String) (as : List String) : Option (Command × Flags) :=
  match name with
  | "expand" => do
    let s ← scanValid? expandOptions [] as
    match s.positionals with
    | [template] =>
      return (.expand template ((s.value? "region").bind region?) s.bufferArgs, s.flags)
    | _ => none
  | "complete" => do
    let s ← scanValid? completeOptions [] as
    if s.positionals = [] then return (.complete (s.values "scope") s.bufferArgs, s.flags) else none
  | "list" => do
    let s ← scanValid? globalOptions [] as
    if s.positionals = [] then return (.list, s.flags) else none
  | _ => none

/-- Reads a command line. -/
def Invocation.parse? (as : List String) : Option Invocation := do
  let s ← scanValid? topOptions ["expand", "complete", "list"] as
  if s.positionals ≠ [] then none
  else
    let save := s.has "save"
    let clear := s.has "clear"
    match s.command with
    | none => return { flags := s.flags, save, clear }
    | some (name, as) =>
      let (command, flags) ← Command.parse? name as
      return { flags := s.flags.union flags, save, clear, command }

end TextTemplate.CommandLine
