import ColumnDecl.Text.Quoted

/-!
The command line's interface: its commands and options with their help, the usage lines and
help pages drawn from them, and the usage errors with their wording. A help page is the usage
line, the description indented by two, and the options (and, for the program, the commands) as
two columns, the first as wide as its widest entry and two spaces before the second.
-/

namespace ColumnDecl.Cli

/-- The name the version message gives the program. -/
def programName : String := "typedecl"

/-- The version of the program. -/
def version : String := "0.1.0"

/-- An option: its names, the placeholder of its value if it takes one, and its help. -/
structure OptionSpec where
  names : List String
  metavar : Option String := none
  help : String
  deriving Repr

/-- Whether an option name is short: one prefix character and one name character. -/
def isShortName (n : String) : Bool := n.length = 2 ∧ n.startsWith "-" ∧ !n.startsWith "--"

namespace OptionSpec

/-- Whether the option takes a value. -/
def takesValue (o : OptionSpec) : Bool := o.metavar.isSome

/-- The option's first column in help: its names and the placeholder of its value. -/
def label (o : OptionSpec) : String :=
  ", ".intercalate o.names ++ (match o.metavar with | some m => " " ++ m | none => "")

end OptionSpec

/-- The option that prints help. -/
def helpOption : OptionSpec := ⟨["--help"], none, "Show this message and exit."⟩

/-- The commands of the program. -/
inductive Command where
  | tokens
  | fields
  | format
  | highlight
  deriving DecidableEq, Repr

namespace Command

/-- Every command, in the order help lists them. -/
def all : List Command := [.fields, .format, .highlight, .tokens]

/-- The name that selects the command. -/
def name : Command → String
  | .tokens => "tokens"
  | .fields => "fields"
  | .format => "format"
  | .highlight => "highlight"

/-- The command with a name. -/
def ofName? (n : String) : Option Command := all.find? (·.name == n)

/-- What the command does, in one line. -/
def summary : Command → String
  | .tokens => "Print the token tree of DECLARATION (`-` reads stdin)."
  | .fields => "Print the field definitions of DECLARATION (`-` reads stdin)."
  | .format => "Print DECLARATION in canonical form (`-` reads stdin)."
  | .highlight => "Print DECLARATION with syntax colors (`-` reads stdin)."

/-- The command's options, help last. -/
def options : Command → List OptionSpec
  | .tokens => [⟨["--json"], none, "Emit the token tree as JSON."⟩, helpOption]
  | .format => [⟨["--check"], none, "Only report declarations that are not canonical."⟩, helpOption]
  | _ => [helpOption]

end Command

/-- The program's own options, in the order help lists them. -/
def programOptions : List OptionSpec :=
  [⟨["--version"], none, "Show the version and exit."⟩,
   ⟨["--config"], some "FILE", "Path to typedecl.toml (default: nearest one upwards)."⟩,
   ⟨["-v", "--verbose"], none, "Enable debug logging."⟩,
   helpOption]

/-- The program's description. -/
def programSummary : String := "Tokenize nested column-type declarations."

/-- Rows of two columns, the first padded to the widest entry and two spaces after it. -/
def twoColumns (rows : List (String × String)) : List String :=
  let width := rows.foldl (fun w r => max w r.1.length) 0
  rows.map fun (a, b) => "  " ++ a ++ String.ofList (List.replicate (width - a.length + 2) ' ') ++ b

/-- The usage line of the program, called `prog`. -/
def programUsage (prog : String) : String := "Usage: " ++ prog ++ " [OPTIONS] COMMAND [ARGS]..."

/-- The usage line of a command. -/
def Command.usage (prog : String) (c : Command) : String :=
  "Usage: " ++ prog ++ " " ++ c.name ++ " [OPTIONS] DECLARATION"

/-- The program's help page. -/
def programHelp (prog : String) : String :=
  "\n".intercalate ([programUsage prog, "", "  " ++ programSummary, "", "Options:"] ++
    twoColumns (programOptions.map fun o => (o.label, o.help)) ++ ["", "Commands:"] ++
    twoColumns (Command.all.map fun c => (c.name, c.summary)))

/-- A command's help page. -/
def Command.help (prog : String) (c : Command) : String :=
  "\n".intercalate ([c.usage prog, "", "  " ++ c.summary, "", "Options:"] ++
    twoColumns (c.options.map fun o => (o.label, o.help)))

/-- What is wrong with a command line. -/
inductive UsageError where
  /-- An option that the program or command does not have, with names close to it. -/
  | noSuchOption (name : String) (close : List String)
  /-- A value given to an option that takes none. -/
  | unexpectedValue (name : String)
  /-- An option that takes a value given none. -/
  | missingValue (name : String)
  /-- No declaration given. -/
  | missingDeclaration
  /-- Arguments beyond the declaration. -/
  | extraArguments (args : List String)
  /-- No command given. -/
  | missingCommand
  /-- A command the program does not have. -/
  | noSuchCommand (name : String)
  /-- A settings file that cannot be used: missing, or a directory. -/
  | badSettingsPath (path : String) (isDirectory : Bool)
  deriving Repr

/-- Whether the error is shown under the usage lines. An error about the value of an option,
given to one that takes none or missing from one that needs it, is reported by the option
reader on its own, with no usage. -/
def UsageError.showsUsage : UsageError → Bool
  | .unexpectedValue _ | .missingValue _ => false
  | _ => true

/-- The text of a usage error. -/
def UsageError.message : UsageError → String
  | .noSuchOption n [] => "No such option: " ++ n
  | .noSuchOption n [c] => "No such option: " ++ n ++ " Did you mean " ++ c ++ "?"
  | .noSuchOption n cs =>
    "No such option: " ++ n ++ " (Possible options: " ++ ", ".intercalate (cs.mergeSort (· ≤ ·)) ++ ")"
  | .unexpectedValue n => "Option " ++ Text.quote n ++ " does not take a value."
  | .missingValue n => "Option " ++ Text.quote n ++ " requires an argument."
  | .missingDeclaration => "Missing argument 'DECLARATION'."
  | .extraArguments [a] => "Got unexpected extra argument (" ++ a ++ ")"
  | .extraArguments as => "Got unexpected extra arguments (" ++ " ".intercalate as ++ ")"
  | .missingCommand => "Missing command."
  | .noSuchCommand n => "No such command " ++ Text.quote n ++ "."
  | .badSettingsPath p false =>
    "Invalid value for '--config': File " ++ Text.quote p ++ " does not exist."
  | .badSettingsPath p true =>
    "Invalid value for '--config': File " ++ Text.quote p ++ " is a directory."

end ColumnDecl.Cli
