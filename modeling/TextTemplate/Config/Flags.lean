import TextTemplate.Settings
import TextTemplate.Text.Decimal
import TextTemplate.Text.Initial

/-!
# Flags

The options that hold for every command and can be kept as defaults. They are picked out of a list
of tokens; tokens that say nothing about them are passed over.
-/

namespace TextTemplate.Config

/-- How a completion that failed or made no progress is reported. -/
inductive Signal where
  | bell
  | flash
  | quiet
deriving DecidableEq, Repr

namespace Signal

/-- The name of a signal. -/
def name : Signal → String
  | bell => "bell"
  | flash => "flash"
  | quiet => "quiet"

/-- The signal of a name. -/
def ofName? : String → Option Signal
  | "bell" => some bell
  | "flash" => some flash
  | "quiet" => some quiet
  | _ => none

@[simp] theorem ofName?_name (s : Signal) : ofName? s.name = some s := by
  cases s <;> rfl

end Signal

/-- Flags; one that is absent says nothing. -/
structure Flags where
  interactive : Bool := false
  silent : Bool := false
  json : Bool := false
  maxDepth : Option Nat := none
  signal : Option Signal := none
  library : Option String := none
deriving DecidableEq, Repr

/-- A flag that is on or off. -/
inductive Switch where
  | interactive
  | silent
  | json
deriving DecidableEq, Repr

/-- A flag that carries a value. -/
inductive Setting where
  | maxDepth
  | signal
  | library
deriving DecidableEq, Repr

/-- What one token asks for. -/
inductive Token where
  /-- Turn a switch on. -/
  | switch (s : Switch)
  /-- Give a setting the value written in the same token. -/
  | assign (s : Setting) (value : String)
  /-- Give a setting the next token as its value. -/
  | awaits (s : Setting)
  /-- Nothing. -/
  | other
deriving DecidableEq, Repr

/-- Reads one token. -/
def Token.ofString (t : String) : Token :=
  if t = "--interactive" ∨ t = "-i" then .switch .interactive
  else if t = "--silent" then .switch .silent
  else if t = "--json" then .switch .json
  else if t = "--max-depth" then .awaits .maxDepth
  else if t = "--signal" then .awaits .signal
  else if t = "--library" ∨ t = "-l" then .awaits .library
  else if let some v := Text.afterString? "--max-depth=" t then .assign .maxDepth v
  else if let some v := Text.afterString? "--signal=" t then .assign .signal v
  else if let some v := Text.afterString? "--library=" t then .assign .library v
  else .other

namespace Flags

/-- Turns a switch on. -/
def turnOn (f : Flags) : Switch → Flags
  | .interactive => { f with interactive := true }
  | .silent => { f with silent := true }
  | .json => { f with json := true }

/-- Gives a setting a value; a malformed value leaves the setting absent. -/
def set (f : Flags) (s : Setting) (value : String) : Flags :=
  match s with
  | .maxDepth => { f with maxDepth := Text.word? value.toList }
  | .signal => { f with signal := Signal.ofName? value }
  | .library => { f with library := some value }

/-- Adds what a list of tokens asks for. -/
def readTokens (f : Flags) : List String → Flags
  | [] => f
  | t :: ts =>
    match Token.ofString t, ts with
    | .switch s, ts => (f.turnOn s).readTokens ts
    | .assign s v, ts => (f.set s v).readTokens ts
    | .awaits s, v :: ts => (f.set s v).readTokens ts
    | .awaits _, [] => f
    | .other, ts => f.readTokens ts

/-- The flags in a list of tokens. -/
def ofTokens (ts : List String) : Flags := readTokens {} ts

/-- Both sets of flags; where both give a value the second one holds. -/
def union (f g : Flags) : Flags where
  interactive := f.interactive || g.interactive
  silent := f.silent || g.silent
  json := f.json || g.json
  maxDepth := g.maxDepth <|> f.maxDepth
  signal := g.signal <|> f.signal
  library := g.library <|> f.library

/-- The settings for an engine. -/
def settings (f : Flags) : Settings where
  interactive := f.interactive
  maxDepth := f.maxDepth.getD ({} : Settings).maxDepth

/-- The signal in force: none when silent, otherwise the bell unless another one is chosen. -/
def effectiveSignal (f : Flags) : Signal :=
  if f.silent then .quiet else f.signal.getD .bell

end Flags

end TextTemplate.Config
