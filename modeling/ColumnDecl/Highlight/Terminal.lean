import ColumnDecl.Highlight.Lexer

/-!
Declarations coloured for a terminal. The text is first made regular: a leading byte order mark
goes, every line ending becomes a line feed, line feeds at either end go and one closes the
text. Each lexeme is then written in the colour of its class: keywords and numbers blue, type
names cyan, names and constants red, errors underlined bright red, blanks and punctuation
plain. The closing line feeds are dropped from the result. With colour off the declaration is
shown as it is.
-/

namespace ColumnDecl.Highlight

/-- The escape that starts a lexeme of the class, none for plain text. -/
def Class.escape : Class → Option String
  | .declaration | .number => some "\x1b[34m"
  | .typeName => some "\x1b[36m"
  | .fieldName | .constant => some "\x1b[31m"
  | .error => some "\x1b[04m\x1b[91m"
  | .text | .punctuation => none

/-- The escape that ends a coloured lexeme. -/
def resetEscape : String := "\x1b[39;49;00m"

/-- The text with every line ending a line feed. -/
def unifyLineEnds : List Char → List Char
  | [] => []
  | '\r' :: '\n' :: r => '\n' :: unifyLineEnds r
  | '\r' :: r => '\n' :: unifyLineEnds r
  | c :: r => c :: unifyLineEnds r

/-- The text made regular for colouring: no byte order mark, line feeds only, none at either
end, and one closing it. -/
def regular (cs : List Char) : List Char :=
  let cs := match cs with
    | '\uFEFF' :: r => r
    | _ => cs
  let trimmed := ((unifyLineEnds cs).dropWhile (· == '\n')).reverse.dropWhile (· == '\n')
  (('\n' :: trimmed).reverse)

/-- A lexeme in its colour. -/
def Lexeme.paint (l : Lexeme) : String :=
  match l.cls.escape with
  | some e => e ++ l.text ++ resetEscape
  | none => l.text

/-- The declaration coloured for a terminal. -/
def colored (decl : String) : String :=
  let out := String.join ((lexFrom 0 0 none (regular decl.toList)).map Lexeme.paint)
  String.ofList (out.toList.reverse.dropWhile (· == '\n')).reverse

/-- The declaration coloured when `color` is on, and as it is otherwise. -/
def highlight (decl : String) (color : Bool) : String :=
  if color then colored decl else decl

end ColumnDecl.Highlight
