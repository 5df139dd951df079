import ColumnDecl.Cli.Args
import ColumnDecl.Cli.Files
import ColumnDecl.Settings
import ColumnDecl.Field.OfTokens
import ColumnDecl.Token.Json
import ColumnDecl.Json.Write
import ColumnDecl.Diagnostic.Render
import ColumnDecl.Highlight.Terminal

/-!
A run of the command line. The program's options are read first, then its command; the
settings are loaded from the file that `--config` names or the nearest one, and the command
reads its own options and one declaration, or with `-` every non-blank line of standard input.
Each declaration is checked against the length limit and tokenized; a refused one is reported
on standard error and the run ends with status 1. What a command shows goes to standard output,
free of terminal escapes. Help and version end the run with status 0, a usage error with
status 2 and its usage line; a settings value that cannot be used ends it at once.
-/

namespace ColumnDecl.Cli

open Toml

/-- What a run produced: its exit status, its two output streams, its debug log, and the
fault that ended it early, if one did. -/
structure Outcome where
  exitCode : Nat
  stdout : String := ""
  stderr : String := ""
  log : List String := []
  fault : Option ConfigFault := none
  deriving Repr

/-- The outcome as a caller that reads both streams back as text sees it, each `\r\n` read
as `\n`. -/
def Outcome.captured (o : Outcome) : Outcome :=
  { o with stdout := o.stdout.replace "\r\n" "\n", stderr := o.stderr.replace "\r\n" "\n" }

/-- Terminal escapes `ESC [ params letter` removed from text. -/
def stripEscapes (cs : List Char) : List Char :=
  match cs with
  | [] => []
  | '\x1b' :: '[' :: r =>
    let isParam (c : Char) : Bool := c = ';' ∨ c = '?' ∨ c.isDigit
    match h : r.dropWhile isParam with
    | c :: r' => if c.isAlpha then stripEscapes r' else '\x1b' :: stripEscapes ('[' :: r)
    | [] => '\x1b' :: stripEscapes ('[' :: r)
  | c :: r => c :: stripEscapes r
termination_by cs.length
decreasing_by
  all_goals simp only [List.length_cons]
  all_goals first
    | omega
    | have := Scan.length_lt_of_dropWhile_eq_cons h; omega

/-- Output so far: both streams, the log, and whether a declaration failed. -/
structure Transcript where
  out : String := ""
  err : String := ""
  log : List String := []
  failed : Bool := false

namespace Transcript

/-- A line on standard output. -/
def say (t : Transcript) (s : String) : Transcript :=
  { t with out := t.out ++ String.ofList (stripEscapes (s ++ "\n").toList) }

/-- A line on standard error. -/
def warn (t : Transcript) (s : String) : Transcript :=
  { t with err := t.err ++ String.ofList (stripEscapes (s ++ "\n").toList) }

/-- The run as it ends: failed declarations give status 1. -/
def finish (t : Transcript) : Outcome :=
  ⟨if t.failed then 1 else 0, t.out, t.err, t.log, none⟩

/-- The run ended at once by a fault, with what it had produced. -/
def abort (t : Transcript) (f : ConfigFault) : Outcome := ⟨1, t.out, t.err, t.log, some f⟩

end Transcript

/-- How a command's work on one declaration can fail. -/
inductive ShowError where
  /-- The tree nests too deeply to show. -/
  | tooDeep
  /-- A setting cannot be used. -/
  | config (f : ConfigFault)

/-- What a command showed for one declaration: the lines it wrote, whether it is content with
the declaration, and what stopped it after those lines, if something did. -/
structure Shown where
  lines : List String := []
  content : Bool := true
  stop : Option ShowError := none

/-- Rows written with the indent repeated once per level before each, up to the first row
whose padding cannot be made on a machine that holds `memory` characters in one text, where the
fault stops them. -/
def indented (memory : Nat) (indent : Value) (rows : List (Nat × String)) : Shown :=
  go [] rows
where
  /-- The rows left, after the lines `acc` written so far, latest first. -/
  go (acc : List String) : List (Nat × String) → Shown
    | [] => { lines := acc.reverse }
    | (level, s) :: rest =>
      match indent.padding memory level with
      | .error f => { lines := acc.reverse, stop := some (.config f) }
      | .ok pad => go ((pad ++ s) :: acc) rest

/-- A token tree as rows, one token per row at its level: a leaf's kind and quoted lexeme, or
`NESTED`. -/
def tokenRows (ts : List Token) : List (Nat × String) :=
  (Token.walkLevels ts).map fun (level, t) => (level, match t with
    | .leaf k l _ => k.label ++ " " ++ Text.quote l
    | .nested .. => "NESTED")

/-- Field definitions as rows, a field before the fields inside it, one level further in:
the name or `-`, the type and the length in parentheses. -/
def fieldRows (fs : List Field) : List (Nat × String) :=
  go 0 (Field.listDepth fs + 1) fs
where
  /-- The rows of `fs` at `level`, for trees at most `fuel` deep. -/
  go (level : Nat) : Nat → List Field → List (Nat × String)
    | 0, _ => []
    | fuel + 1, fs => fs.flatMap fun f =>
      (level, f.name.getD "-" ++ ": " ++ f.type ++
        (match f.length with | some l => "(" ++ l ++ ")" | none => "")) ::
        go (level + 1) fuel f.fields

/-- What a command shows for one tokenized declaration, on a machine that holds `memory`
characters in one text. -/
def Command.show (memory : Nat) (c : Command) (flag : Bool) (st : Settings) (text : String)
    (ts : List Token) : Shown :=
  let stopped (e : ShowError) : Shown := { stop := some e }
  match c with
  | .tokens =>
    if flag then
      match Token.document? ts, st.indent.jsonIndent memory with
      | .error _, _ => stopped .tooDeep
      | .ok _, .error f => stopped (.config f)
      | .ok doc, .ok indent => { lines := [doc.write indent] }
    else indented memory st.indent (tokenRows ts)
  | .fields =>
    match Field.ofTokens ts with
    | .error _ => stopped .tooDeep
    | .ok fs => indented memory st.indent (fieldRows fs)
  | .format =>
    match Field.renderTokens ts with
    | .error _ => stopped .tooDeep
    | .ok canonical =>
      if !flag then { lines := [canonical] }
      else if canonical != text then
        { lines := ["would reformat: " ++ text ++ " -> " ++ canonical], content := false }
      else {}
  | .highlight => { lines := [Highlight.highlight text st.color.isOn] }

/-- Text as a text stream reads it: `\r\n` and a lone `\r` are read as `\n`. -/
def universalNewlines : List Char → List Char
  | [] => []
  | '\r' :: '\n' :: r => '\n' :: universalNewlines r
  | '\r' :: r => '\n' :: universalNewlines r
  | c :: r => c :: universalNewlines r

/-- The declarations a command works on: the one given, or for `-` the non-blank lines of
standard input, trimmed, where `\r\n`, `\r` and `\n` end a line. -/
def declarations (given stdin : String) : List String :=
  if given = "-" then
    let lines := (universalNewlines stdin.toList).splitOn '\n'
    (lines.map fun l => String.ofList (Text.trimChars l)).filter (!·.isEmpty)
  else [given]

/-- The debug line for a tokenized declaration. -/
def logLine (text : String) : Except Malformed (List Token) → Option String
  | .ok ts => some ("DEBUG typedecl.tokenizer: tokenized " ++ Text.quote text ++ " into " ++
      toString ts.length ++ " top-level tokens")
  | .error (.empty _) => none
  | .error m => some ("DEBUG typedecl.tokenizer: malformed type declaration " ++
      Text.quote text ++ ": " ++ m.diagnostic.summary)

/-- Runs command `c` over the declarations, with its flag (`--json` or `--check`), on a machine
that holds `memory` characters in one text. -/
def runCommand (memory : Nat) (c : Command) (flag verbose : Bool) (st : Settings)
    (texts : List String) : Outcome :=
  go {} texts
where
  /-- The run from transcript `t` over the declarations left. -/
  go (t : Transcript) : List String → Outcome
    | [] => t.finish
    | text :: more =>
      match st.maxLength.isExceededBy text.length with
      | .error f => t.abort f
      | .ok true =>
        go ({ t.warn ("error: declaration is " ++ toString text.length ++
          " characters long, limit is " ++ st.maxLength.limitText) with failed := true }) more
      | .ok false =>
        let result := tokenize text
        let t := match verbose, logLine text result with
          | true, some l => { t with log := t.log ++ [l] }
          | _, _ => t
        match result with
        | .error m =>
          go ({ t.warn (m.diagnostic.render st.color.isOn text) with failed := true }) more
        | .ok ts =>
          let shown := c.show memory flag st text ts
          let t := shown.lines.foldl Transcript.say t
          match shown.stop with
          | some (.config f) => t.abort f
          | some .tooDeep =>
            go ({ t.warn "error: declaration nests too deeply to display" with failed := true }) more
          | none => go (if shown.content then t else { t with failed := true }) more

/-- A usage error, shown under the usage line `usage` of the command line `path` when it
shows usage at all. -/
def usageFailure (usage path : String) (e : UsageError) : Outcome :=
  let heading := if e.showsUsage then usage ++ "\nTry '" ++ path ++ " --help' for help.\n\n" else ""
  ⟨2, "", heading ++ "Error: " ++ e.message ++ "\n", [], none⟩

/-- The program's options after reading: help or version shown, a usage error, or the
settings file named and whether to log. -/
inductive ProgramStart where
  | done (o : Outcome)
  | go (settingsFile : Option String) (verbose : Bool) (rest : List String)

/-- Reads the program's options from `args`. -/
def startProgram (prog : String) (files : FileView) (args : List String) : ProgramStart :=
  match readArgs programOptions false {} args with
  | .error e => .done (usageFailure (programUsage prog) prog e)
  | .ok l =>
    match l.firstOf? [0, 3] with
    | some 0 => .done ⟨0, programName ++ ", version " ++ version ++ "\n", "", [], none⟩
    | some _ => .done ⟨0, programHelp prog ++ "\n", "", [], none⟩
    | none =>
      match l.lastValue? 1 with
      | some path =>
        match files.lookup path with
        | .missing => .done (usageFailure (programUsage prog) prog (.badSettingsPath path false))
        | .directory => .done (usageFailure (programUsage prog) prog (.badSettingsPath path true))
        | .file text => .go (some text) (l.has 2) l.positional
      | none => .go none (l.has 2) l.positional

/-- Whether a command name looks like an option: it starts with neither a letter nor a digit. -/
def looksLikeOption (n : String) : Bool :=
  match n.toList with
  | c :: _ => !(Text.isLetter c || Text.isNumeric c)
  | [] => false

/-- A run of the program called `prog` on the arguments `args`, with standard input `stdin`, on
a machine that holds `memory` characters in one text. -/
def run (memory : Nat) (prog : String) (files : FileView) (stdin : String) (args : List String) :
    Outcome :=
  if args.isEmpty then ⟨2, "", programHelp prog ++ "\n", [], none⟩
  else
    match startProgram prog files args with
    | .done o => o
    | .go settingsFile verbose rest =>
      match rest with
      | [] => usageFailure (programUsage prog) prog .missingCommand
      | name :: cmdArgs =>
        match Command.ofName? name with
        | none =>
          let again := if looksLikeOption name then startProgram prog files rest else .go none false []
          match again with
          | .done o => o
          | .go .. => usageFailure (programUsage prog) prog (.noSuchCommand name)
        | some c =>
          let loaded := match settingsFile.orElse fun _ => files.nearestSettings with
            | some text => Settings.read text
            | none => .ok {}
          match loaded with
          | .error f => ⟨1, "", "", [], some f⟩
          | .ok st =>
            let path := prog ++ " " ++ c.name
            match readArgs c.options true {} cmdArgs with
            | .error e => usageFailure (c.usage prog) path e
            | .ok l =>
              let helpAt := c.options.length - 1
              if l.has helpAt then ⟨0, c.help prog ++ "\n", "", [], none⟩
              else
                match l.positional with
                | [] => usageFailure (c.usage prog) path .missingDeclaration
                | [decl] =>
                  runCommand memory c (l.has 0 && helpAt > 0) verbose st (declarations decl stdin)
                | _ :: extra => usageFailure (c.usage prog) path (.extraArguments extra)

end ColumnDecl.Cli
