/-!
What the command line sees of the file system: whether a path names nothing, a directory or a
file and what the file holds, and the text of the settings file nearest the working directory,
if there is one. `Sandbox` is such a view of a small tree held in memory: a top directory that
may hold a settings file, the directories made on the way to the working directory, and the
working directory. Paths resolve from the working directory, `..` going up; above the top only
the directories that hold it and those made there are known, and a path through a file names
nothing.
-/

namespace ColumnDecl.Cli

/-- What a path names. -/
inductive PathEntry where
  | missing
  | directory
  | file (text : String)
  deriving Repr

/-- A view of the file system. -/
structure FileView where
  lookup : String → PathEntry
  nearestSettings : Option String

/-- The name of the settings file. -/
def settingsFileName : String := "typedecl.toml"

/-- A directory, as the way to it from the top of a sandbox: `up` levels above the top, then
down through `names`. -/
structure Location where
  up : Nat := 0
  names : List String := []
  deriving DecidableEq, Repr

namespace Location

/-- The directory that holds this one: the last name dropped, or one level further up. -/
def parent : Location → Location
  | ⟨up, []⟩ => ⟨up + 1, []⟩
  | ⟨up, names⟩ => ⟨up, names.dropLast⟩

/-- Where one part of a path leads from here: the empty part and `.` stay, `..` goes to the
parent, a name goes down into it. -/
def step (l : Location) (part : String) : Location :=
  if part = "" ∨ part = "." then l
  else if part = ".." then l.parent
  else ⟨l.up, l.names ++ [part]⟩

end Location

/-- Whether a part of a path names an entry rather than this directory or its parent. -/
def isEntryName (part : String) : Bool := !(part = "" ∨ part = "." ∨ part = "..")

/-- A tree held in memory: the settings file at its top, if any, the directories made in it,
and the working directory. -/
structure Sandbox where
  settings : Option String
  made : List Location
  workDir : Location

namespace Sandbox

/-- The sandbox whose working directory is reached by the relative path `work` from the top,
each directory named on the way made if it is missing, as `mkdir -p` makes them; a part `..`
climbs to the directory that holds the one reached so far, which is then already there. -/
def make (settings : Option String) (work : String) : Sandbox :=
  let (here, made) := (work.splitOn "/").foldl (fun (acc : Location × List Location) part =>
      let next := acc.1.step part
      (next, if isEntryName part then next :: acc.2 else acc.2)) ({}, [])
  ⟨settings, made, here⟩

/-- Whether a location is a directory: the top and those above it, or one that was made. -/
def isDirectory (sb : Sandbox) (l : Location) : Bool := l.names.isEmpty || sb.made.contains l

/-- Where a path leads: a directory, a file, or nowhere. -/
inductive Place where
  | dir (l : Location)
  | file (text : String)
  | nowhere

/-- One step of a path from `p`: only a directory has entries, and its entries are the
directories in it and, at the top, the settings file. -/
def step (sb : Sandbox) (p : Place) (part : String) : Place :=
  match p with
  | .nowhere | .file _ => .nowhere
  | .dir l =>
    let next := l.step part
    if sb.isDirectory next then .dir next
    else match sb.settings with
      | some text => if next = { names := [settingsFileName] } then .file text else .nowhere
      | none => .nowhere

/-- What a path names, from the working directory. -/
def lookup (sb : Sandbox) (path : String) : PathEntry :=
  if path.isEmpty then .missing
  else if path.startsWith "/" then
    if (path.splitOn "/").all (fun p => p = "" ∨ p = "." ∨ p = "..") then .directory else .missing
  else
    match (path.splitOn "/").foldl sb.step (.dir sb.workDir) with
    | .dir _ => .directory
    | .file text => .file text
    | .nowhere => .missing

/-- The settings file nearest the working directory: the one at the top, when the working
directory lies at or below the top. -/
def nearestSettings (sb : Sandbox) : Option String :=
  if sb.workDir.up = 0 then sb.settings else none

/-- The sandbox as a view of the file system. -/
def view (sb : Sandbox) : FileView := ⟨sb.lookup, sb.nearestSettings⟩

end Sandbox

end ColumnDecl.Cli
