import TextTemplate.CommandLine.Arguments
import TextTemplate.CommandLine.Files
import TextTemplate.Config.File
import TextTemplate.Engine.Complete
import TextTemplate.Json.Pretty
import TextTemplate.Library.Decode
import TextTemplate.Library.Install

/-!
# Running a command line

A run starts with what it can see of the world outside, and ends with an exit code, what it prints,
and the files as it leaves them.
-/

namespace TextTemplate.CommandLine

open Config (Flags Signal)

/-- What a run can see. -/
structure World where
  /-- Environment variables. -/
  env : List (String × String) := []
  files : Files := {}
  stdin : String := ""

/-- What a run leaves. -/
structure Result where
  code : Nat := 0
  stdout : String := ""
  stderr : String := ""
  files : Files

/-- Why a run failed: what was being done, and the causes behind it. -/
structure Failure where
  message : String
  causes : List String := []
deriving DecidableEq, Repr

namespace Failure

/-- The causes, numbered if there are several. -/
def causeLines : List String → List String
  | [] => []
  | [c] => ["    " ++ c]
  | cs => cs.mapIdx fun i c => "    " ++ toString i ++ ": " ++ c

/-- The text of a failure. -/
def render (f : Failure) : String :=
  "Error: " ++ f.message
    ++ (if f.causes = [] then "" else "\n\nCaused by:\n" ++ "\n".intercalate (causeLines f.causes))
    ++ "\n"

end Failure

/-- What a command prints, or why it failed. Text on standard error comes before the failure. -/
structure Printed where
  stdout : String := ""
  stderr : String := ""
  failure : Option Failure := none

/-! ## Files of defaults -/

/-- A path inside a directory. -/
def inDirectory (directory path : String) : String :=
  if directory = "" ∨ directory.toList.getLast? = some '/' then directory ++ path
  else directory ++ "/" ++ path

/-- Where the defaults for all directories are kept. -/
def globalPath (w : World) : String :=
  match w.env.lookup "XDG_CONFIG_HOME", w.env.lookup "HOME" with
  | some d, _ => inDirectory d "tempo/config"
  | none, some d => inDirectory d ".config/tempo/config"
  | none, none => ".temporc"

/-- Where the defaults for the current directory are kept. -/
def localPath : String := ".temporc"

/-- The directory that a path is in. -/
def directoryOf (path : String) : String :=
  .ofList ((path.toList.reverse.dropWhile (· != '/')).drop 1).reverse

/-- The flags in a file; a file that is not there has none. -/
def loadFlags (files : Files) (path : String) : Except Failure Flags :=
  if files.isDirectory path then
    .error { message := "Failed to read config " ++ path, causes := ["Is a directory"] }
  else .ok (((files.read? path).map Flags.ofFile).getD {})

/-- Takes a file of flags away. -/
def removeFlags (files : Files) (path : String) : Except Failure Files :=
  if files.isDirectory path then
    .error { message := "Failed to remove " ++ path, causes := ["Is a directory"] }
  else .ok (files.remove path)

/-- Writes a file of flags. -/
def saveFlags (files : Files) (path : String) (f : Flags) : Except Failure Files :=
  if files.blocks path then
    .error {
      message := "Failed to create config dir " ++ directoryOf path
      causes := ["Not a directory"] }
  else if files.isDirectory path then
    .error { message := "Failed to write config " ++ path, causes := ["Is a directory"] }
  else .ok (files.write path f.toFile)

/-- The files after defaults are forgotten and kept, as wanted. -/
def updateDefaults (w : World) (i : Invocation) (given : Flags) : Except Failure Files := do
  let files ← if i.clear then removeFlags w.files (globalPath w) else .ok w.files
  if i.save then saveFlags files (globalPath w) given else .ok files

/-- The flags in force: those given over the local defaults, and these over the global ones. -/
def effectiveFlags (w : World) (i : Invocation) (given : Flags) : Except Failure Flags := do
  if i.clear then return given
  let everywhere ← loadFlags w.files (globalPath w)
  let here ← loadFlags w.files localPath
  return (everywhere.union here).union given

/-! ## Buffers -/

/-- The lines of a text without the line feeds and carriage returns at their ends; nothing after the
last line feed is no line. -/
def answerLines (s : String) : List String :=
  let ls := s.toList.splitOn '\n'
  let ls := if ls.getLast? = some [] then ls.dropLast else ls
  ls.map fun l => .ofList (l.reverse.dropWhile (· == '\r')).reverse

/-- Answers prompts with the lines of a text. -/
def linePrompter (s : String) : Prompter := fun asked _ => (answerLines s)[asked.length]?

/-- Where point is in a new buffer: at the end, in front of a final line break. -/
def defaultPoint (s : List Char) : Nat :=
  match s.reverse with
  | '\n' :: '\r' :: r => r.length
  | '\n' :: r => r.length
  | r => r.length

/-- The text to edit, and what is left of standard input. -/
def readInput (w : World) : Option String → Except Failure (String × String)
  | none => .ok ("", w.stdin)
  | some path =>
    if path = "-" then .ok (w.stdin, "")
    else
      match w.files.read? path with
      | some s => .ok (s, w.stdin)
      | none => .error { message := "Failed to read input " ++ path, causes := ["No such file"] }

/-- Opens a buffer; an interactive one asks for answers on standard input. -/
def openBuffer (w : World) (a : BufferArgs) (interactive : Bool) : Except Failure Buffer := do
  let (text, rest) ← readInput w a.input
  let b : Buffer := {
    id := 1
    text := text.toList
    answers := a.answers
    prompter := if interactive then some (linePrompter rest) else none }
  return b.moveTo (a.point.getD (defaultPoint b.text))

/-! ## Commands -/

/-- An engine with a library installed, which was read from a path. -/
def loadEngine (w : World) (settings : Settings) (path : String) :
    Except Failure (Engine Empty) := do
  let source ← match w.files.read? path with
    | some s => .ok s
    | none => .error { message := "Failed to read library " ++ path, causes := ["No such file"] }
  let library ← match Library.parse? source with
    | some l => .ok l
    | none =>
      .error { message := "In library " ++ path, causes := ["Failed to parse template library"] }
  match ({ settings } : Engine Empty).install library with
  | (g, .ok _) => .ok g
  | (_, .error e) =>
    .error {
      message := "Failed to install library " ++ path
      causes := [e.context, e.cause.message] }

/-- What a command reports about its buffer. -/
def report (g : Engine Empty) (b : Buffer) (outcome : String) (details : List (String × String))
    (json : Bool) : String :=
  if json then
    Json.pretty (.object (
      ("outcome", .string outcome) :: details.map (fun d => (d.1, .string d.2))
        ++ [("text", .string (.ofList b.text)), ("cursor", .number b.point),
          ("marks", .array ((g.marks b.id).positions.map .number))])) ++ "\n"
  else .ofList b.text

/-- How a signal shows. -/
def signalText : Signal → String
  | .bell => "\x07"
  | .flash => "[tempo] no completion\n"
  | .quiet => ""

/-- What completion reports. -/
def describe : Completion → String × List (String × String)
  | .expanded tag _ => ("expanded", [("tag", tag)])
  | .partially shared _ => ("partial", [("prefix", shared)])
  | .noMatch => ("no-match", [])

/-- Prints the names of templates. -/
def listNames (g : Engine Empty) (json : Bool) : Printed :=
  { stdout :=
      if json then Json.pretty (.array (g.registry.names.map .string)) ++ "\n"
      else String.join (g.registry.names.map (· ++ "\n")) }

/-- Expands a template in a buffer. -/
def expand (g : Engine Empty) (f : Flags) (name : String) (region : Option (Nat × Nat))
    (b : Buffer) : Printed :=
  let b := match region with
    | some (p, q) => (b.moveTo p).setMark (some q)
    | none => b
  let o := g.insertNamed b name region.isSome
  let stderr := String.join o.buffer.asked
  match o.result with
  | .ok _ => { stdout := report o.engine o.buffer "expanded" [] f.json, stderr }
  | .error e =>
    { stderr
      failure := some { message := "Failed to expand template " ++ name, causes := [e.message] } }

/-- Installs scopes on a buffer in order. -/
def useScopes (g : Engine Empty) (b : Buffer) : List String → Except Failure (Engine Empty)
  | [] => .ok g
  | s :: ss =>
    match g.useScope b.id s with
    | .ok g => useScopes g b ss
    | .error e => .error { message := "Cannot use scope " ++ s, causes := [e.message] }

/-- Completes the tag in a buffer, and signals if that got nowhere. -/
def complete (g : Engine Empty) (f : Flags) (scopes : List String) (b : Buffer) : Printed :=
  match useScopes g b scopes with
  | .error e => { failure := some e }
  | .ok g =>
    let o := g.completeTag b f.silent
    let asked := String.join o.buffer.asked
    match o.result with
    | .error e =>
      { stderr := asked, failure := some { message := "Completion failed", causes := [e.message] } }
    | .ok c =>
      let (outcome, details) := describe c
      { stdout := report o.engine o.buffer outcome details f.json
        stderr := asked ++ if o.buffer.dings = 0 then "" else signalText f.effectiveSignal }

/-- Carries out a command. -/
def perform (w : World) (f : Flags) (c : Command) : Printed :=
  match f.library with
  | none =>
    let message := "No template library given; pass --library FILE or save one with --save"
    { failure := some { message } }
  | some path =>
    match loadEngine w f.settings path with
    | .error e => { failure := some e }
    | .ok g =>
      match c with
      | .list => listNames g f.json
      | .expand name region a =>
        match openBuffer w a f.interactive with
        | .error e => { failure := some e }
        | .ok b => expand g f name region b
      | .complete scopes a =>
        match openBuffer w a f.interactive with
        | .error e => { failure := some e }
        | .ok b => complete g f scopes b

/-- Does what is asked for once the flags in force are known. -/
def conclude (w : World) (i : Invocation) (f : Flags) : Printed :=
  match i.command with
  | some c => perform w f c
  | none =>
    if i.save || i.clear then {}
    else { failure := some { message := "No command given (see --help)" } }

/-- Runs a command line. -/
def run (w : World) (as : List String) : Result :=
  match Invocation.parse? as with
  | none => { code := 2, stderr := "error: invalid command line\n", files := w.files }
  | some i =>
    let given := Flags.ofTokens as
    match updateDefaults w i given with
    | .error e => { code := 1, stderr := e.render, files := w.files }
    | .ok files =>
      let w := { w with files }
      match effectiveFlags w i given with
      | .error e => { code := 1, stderr := e.render, files }
      | .ok f =>
        let p := conclude w i f
        match p.failure with
        | none => { stdout := p.stdout, stderr := p.stderr, files }
        | some e => { code := 1, stdout := p.stdout, stderr := p.stderr ++ e.render, files }

/-- The command that a run comes to, and the flags in force. -/
def commandInForce? (w : World) (as : List String) : Option (Command × Flags) := do
  let i ← Invocation.parse? as
  let given := Flags.ofTokens as
  let files ← (updateDefaults w i given).toOption
  let f ← (effectiveFlags { w with files } i given).toOption
  return (← i.command, f)

/-- The input of a command. -/
def Command.input? : Command → Option String
  | .expand _ _ a | .complete _ a => a.input
  | .list => none

/-- The files that a run reads once it knows its flags. -/
def filesRead (w : World) (as : List String) : List String :=
  match commandInForce? w as with
  | some (c, f) => f.library.toList ++ c.input?.toList.filter (· ≠ "-")
  | none => []

/-- Whether a run reads standard input. -/
def readsStdin (w : World) (as : List String) : Bool :=
  match commandInForce? w as with
  | some (.list, _) => false
  | some (c, f) => c.input? = some "-" || f.interactive
  | none => false

end TextTemplate.CommandLine
