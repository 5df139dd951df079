import ColumnDecl.Cli.Spec
import ColumnDecl.Cli.Suggest

/-!
Reading a command line against a list of options. An argument that starts with `-` and has more
characters is an option: a long one by its whole name, with its value after `=` or in the next
argument, or else a cluster of short ones, one character each. `--` ends the options. Other
arguments are positional; where options may not follow them, the first one ends the options.
An unknown long option is reported with the known long names close to it.
-/

namespace ColumnDecl.Cli

/-- An option given on the command line: its place in the option list and its value. -/
structure Given where
  option : Nat
  value : Option String
  deriving Repr

/-- A command line read against options: the options given, in order, and the positional
arguments. -/
structure ArgList where
  given : List Given := []
  positional : List String := []
  deriving Repr

/-- The option with a long name, and its place. -/
def findLong (opts : List OptionSpec) (n : String) : Option (Nat × OptionSpec) :=
  (opts.zipIdx.find? fun (o, _) => o.names.any fun m => m == n && !isShortName m).map
    fun (o, i) => (i, o)

/-- The option with a short name, and its place. -/
def findShort (opts : List OptionSpec) (n : String) : Option (Nat × OptionSpec) :=
  (opts.zipIdx.find? fun (o, _) => o.names.any fun m => m == n && isShortName m).map
    fun (o, i) => (i, o)

/-- The long names of the options. -/
def longNames (opts : List OptionSpec) : List String :=
  opts.flatMap fun o => o.names.filter fun m => !isShortName m

/-- The options of a cluster of short names `cs`, with the arguments after it `rest`; an option
that takes a value takes the rest of the cluster, or else the next argument. -/
def shortCluster (opts : List OptionSpec) (cs : List Char) (rest : List String) :
    Except UsageError (List Given × { r : List String // r.length ≤ rest.length }) :=
  match cs with
  | [] => .ok ([], ⟨rest, Nat.le_refl _⟩)
  | c :: more =>
    let n := String.ofList ['-', c]
    match findShort opts n with
    | none => .error (.noSuchOption n [])
    | some (i, o) =>
      if o.takesValue then
        if more.isEmpty then
          match rest with
          | v :: r => .ok ([⟨i, some v⟩], ⟨r, by simp⟩)
          | [] => .error (.missingValue n)
        else .ok ([⟨i, some (String.ofList more)⟩], ⟨rest, Nat.le_refl _⟩)
      else do
        let (gs, r) ← shortCluster opts more rest
        pure (⟨i, none⟩ :: gs, r)

/-- The option argument `a`, with the arguments after it `rest`. -/
def optionArg (opts : List OptionSpec) (a : String) (rest : List String) :
    Except UsageError (List Given × { r : List String // r.length ≤ rest.length }) :=
  let (long, explicit) := match a.splitOn "=" with
    | n :: v :: vs => (n, some ("=".intercalate (v :: vs)))
    | _ => (a, none)
  match findLong opts long with
  | some (i, o) =>
    if o.takesValue then
      match explicit with
      | some v => .ok ([⟨i, some v⟩], ⟨rest, Nat.le_refl _⟩)
      | none =>
        match rest with
        | v :: r => .ok ([⟨i, some v⟩], ⟨r, by simp⟩)
        | [] => .error (.missingValue long)
    else
      match explicit with
      | some _ => .error (.unexpectedValue long)
      | none => .ok ([⟨i, none⟩], ⟨rest, Nat.le_refl _⟩)
  | none =>
    if a.startsWith "--" then .error (.noSuchOption long (closeMatches long (longNames opts)))
    else shortCluster opts (a.toList.drop 1) rest

/-- Reads `args` against `opts` after what `acc` holds; `interspersed` lets options follow
positional arguments. -/
def readArgs (opts : List OptionSpec) (interspersed : Bool) (acc : ArgList) (args : List String) :
    Except UsageError ArgList :=
  match args with
  | [] => .ok acc
  | a :: rest =>
    if a = "--" then .ok { acc with positional := acc.positional ++ rest }
    else if a.startsWith "-" ∧ a.length > 1 then
      match optionArg opts a rest with
      | .error e => .error e
      | .ok (gs, ⟨r, _⟩) => readArgs opts interspersed { acc with given := acc.given ++ gs } r
    else if interspersed then
      readArgs opts interspersed { acc with positional := acc.positional ++ [a] } rest
    else .ok { acc with positional := acc.positional ++ a :: rest }
termination_by args.length
decreasing_by
  all_goals simp only [List.length_cons]
  all_goals omega

/-- Whether option `i` was given. -/
def ArgList.has (l : ArgList) (i : Nat) : Bool := l.given.any (·.option == i)

/-- The last value given to option `i`. -/
def ArgList.lastValue? (l : ArgList) (i : Nat) : Option String :=
  (l.given.filter (·.option == i)).getLast?.bind (·.value)

/-- Of the options `eager`, the one given first. -/
def ArgList.firstOf? (l : ArgList) (eager : List Nat) : Option Nat :=
  (l.given.find? fun g => eager.contains g.option).map (·.option)

end ColumnDecl.Cli
