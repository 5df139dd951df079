import ColumnDecl.Diagnostic.Basic
import ColumnDecl.Text.Tabs

/-!
Diagnostics drawn as annotated excerpts of the declaration. The header is `error[code]: message`.
Each label shows the line that holds its start, with the line's number and the column of the
start, and under it a row of markers, `^` for the primary label and `-` for a secondary one,
as wide as the label's text on that line and at least one; a label with a message repeats the
indent before the message. Notes close the drawing. Lines are measured with their tabs
expanded, so markers stand under the characters they mean.
-/

namespace ColumnDecl

/-- The escapes that colour a drawing: the error, the bold message, the gutter, and the reset. -/
structure Palette where
  error : String
  bold : String
  gutter : String
  reset : String

namespace Palette

/-- Terminal colours: bold red errors, bold messages and a bold blue gutter. -/
def terminal : Palette := ⟨"\x1b[1;31m", "\x1b[1m", "\x1b[1;34m", "\x1b[0m"⟩

/-- No colour at all. -/
def plain : Palette := ⟨"", "", "", ""⟩

/-- The palette for a colour setting. -/
def ofColor (color : Bool) : Palette := if color then terminal else plain

end Palette

/-- Where an offset lies in a text: its line number from one, and the offsets where that line
starts and ends. The offset is held to the text first. -/
structure LinePlace where
  number : Nat
  start : Nat
  stop : Nat
  deriving DecidableEq, Repr

/-- The line around offset `k` of `cs`. -/
def LinePlace.locate (cs : List Char) (k : Nat) : LinePlace :=
  let before := cs.take k
  let number := before.count '\n' + 1
  let start := match Text.lastBefore '\n' cs k with
    | some i => i + 1
    | none => 0
  let stop := match Text.firstFrom '\n' cs k with
    | some i => i
    | none => cs.length
  ⟨number, start, stop⟩

/-- `s` right-aligned in a field of `width` characters. -/
def padLeft (width : Nat) (s : String) : String :=
  String.ofList (List.replicate (width - s.length) ' ') ++ s

/-- The width on screen of the first `k` characters of a line, tabs expanded; a negative `k`
leaves that many characters off the end of the line. -/
def shownWidth (line : List Char) (k : Int) : Nat :=
  (Text.expandTabs (Text.prefixTo line k)).length

/-- The lines that draw one label of a diagnostic against the characters `cs`. The label's
line is the one around its start read as an index; the column and the widths are measured from
the start as given, so a start before the line counts back from the line's end. -/
def Label.draw (p : Palette) (cs : List Char) (l : Label) : List String :=
  let place := LinePlace.locate cs (Text.resolveIndex cs.length l.span.start)
  let line := Text.between cs place.start place.stop
  let column := l.span.start - place.start + 1
  let pad := shownWidth line (l.span.start - place.start)
  let stopWidth := shownWidth line (min l.span.stop place.stop - place.start)
  let markers := max 1 ((stopWidth : Int) - pad)
  let marker := match l.style with
    | .primary => '^'
    | .secondary => '-'
  let padding := String.ofList (List.replicate pad ' ')
  let bar := "  " ++ p.gutter ++ "     |" ++ p.reset
  [ "  " ++ p.gutter ++ "-->" ++ p.reset ++ " <input>:" ++ toString place.number ++ ":"
      ++ toString column,
    bar,
    "  " ++ p.gutter ++ padLeft 4 (toString place.number) ++ " |" ++ p.reset ++ " "
      ++ String.ofList (Text.expandTabs line),
    bar ++ " " ++ padding ++ p.error ++ String.ofList (List.replicate markers.toNat marker)
      ++ p.reset ] ++
  (if l.message.isEmpty then [] else [bar ++ " " ++ padding ++ p.error ++ l.message ++ p.reset])

/-- The diagnostic drawn against the declaration `decl`, one line per row. -/
def Diagnostic.draw (p : Palette) (d : Diagnostic) (decl : String) : List String :=
  let cs := decl.toList
  (p.error ++ "error[" ++ d.code ++ "]" ++ p.reset ++ p.bold ++ ": " ++ d.message ++ p.reset) ::
    (d.labels.flatMap (Label.draw p cs) ++
      d.notes.map fun n => "  " ++ p.gutter ++ "=" ++ p.reset ++ " note: " ++ n)

/-- The diagnostic drawn against `decl`, in colour or not. -/
def Diagnostic.render (color : Bool) (d : Diagnostic) (decl : String) : String :=
  "\n".intercalate (d.draw (Palette.ofColor color) decl)

end ColumnDecl
