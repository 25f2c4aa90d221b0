import TextTemplate.CommandLine.Run

/-!
# The program

Reads what a run needs, runs, and writes what it leaves.
-/

open TextTemplate TextTemplate.CommandLine

/-- Adds those of some files that can be read. -/
def readFiles (w : World) (paths : List String) : IO World :=
  paths.foldlM (fun w (path : String) => do
    try
      let content ← IO.FS.readFile path
      return { w with files := w.files.write path content }
    catch _ => return w) w

/-- Makes a file hold what it should, or removes it. -/
def writeFile (path : String) (before after : Option String) : IO Unit := do
  if before = after then return
  match after with
  | none => IO.FS.removeFile path
  | some content =>
    let directory := directoryOf path
    if directory ≠ "" then IO.FS.createDirAll directory
    IO.FS.writeFile path content

/-- Runs the command line. -/
def main (args : List String) : IO UInt32 := do
  let names := ["XDG_CONFIG_HOME", "HOME"]
  let env ← names.filterMapM fun n => return (← IO.getEnv n).map fun v => (n, v)
  let w ← readFiles { env } [globalPath { env }, localPath]
  let w ← readFiles w (filesRead w args)
  let stdin ← if readsStdin w args then (← IO.getStdin).readToEnd else pure ""
  let r := run { w with stdin } args
  for path in (w.files.byPath.keys ++ r.files.byPath.keys).eraseDups do
    writeFile path.toString (w.files.byPath.get? path) (r.files.byPath.get? path)
  IO.eprint r.stderr
  IO.print r.stdout
  return r.code.toUInt32
