import ColumnDecl.Cli.Run

/-!
The `typedecl` command line. It reads what a run may need from outside (standard input when a
declaration is `-`, the files that the arguments may name, and the settings file nearest the
working directory), runs the program on them and writes its output and exit status.
-/

open ColumnDecl.Cli

/-- All of a stream, line by line. -/
partial def readAll (s : IO.FS.Stream) (acc : String) : IO String := do
  let line ← s.getLine
  if line.isEmpty then pure acc else readAll s (acc ++ line)

/-- What a path names on disk. -/
def entryAt (path : String) : IO PathEntry := do
  if path.isEmpty then return .missing
  try
    return .file (← IO.FS.readFile path)
  catch e =>
    -- reading a directory fails with "is a directory" (code 21)
    match e with
    | .inappropriateType _ 21 _ => return .directory
    | _ => return .missing

/-- The directories from `dir` up to the root. -/
def upwards (dir : String) : List String :=
  let parts := (dir.splitOn "/").filter (!·.isEmpty)
  (List.range (parts.length + 1)).reverse.map fun n => "/" ++ "/".intercalate (parts.take n)

/-- The text of the settings file nearest the working directory, upwards. -/
def nearestSettings : IO (Option String) := do
  let cwd ← IO.currentDir
  for dir in upwards cwd.toString do
    let file := if dir = "/" then "/" ++ settingsFileName else dir ++ "/" ++ settingsFileName
    if let .file text ← entryAt file then return some text
  return none

/-- The most characters this program builds into one text: a longer run of spaces is refused for
want of memory rather than attempted. -/
def memoryLimit : Nat := 4294967296

def main (args : List String) : IO UInt32 := do
  let stdin ← if args.contains "-" then readAll (← IO.getStdin) "" else pure ""
  let named := args ++ args.filterMap fun a =>
    if a.startsWith "--config=" then some (a.drop 9).toString else none
  let entries ← named.mapM fun p => do pure (p, ← entryAt p)
  let view : FileView := ⟨fun p => (entries.lookup p).getD .missing, ← nearestSettings⟩
  let o := run memoryLimit programName view stdin args
  IO.print o.stdout
  IO.eprint (String.join (o.log.map (· ++ "\n")) ++ o.stderr)
  if let some f := o.fault then IO.eprintln f.message
  return o.exitCode.toUInt32
