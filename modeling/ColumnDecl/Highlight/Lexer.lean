import ColumnDecl.Token.Scan
import ColumnDecl.Text.Letter
import ColumnDecl.Text.Numeric

/-!
The highlighter's reading of a declaration: a sequence of lexemes, each a run of text with a
class, that together spell the text exactly. Unlike the tokenizer it never refuses: what it
cannot place is one character of class `error`.

At the top level, blanks are `text`; `ARRAY`, `STRUCT` and `RANGE` standing as whole words
before an optional blank run and a `<` are `declaration` keywords; an identifier followed by
blanks and another identifier is a `fieldName`, any other identifier a `typeName`; `(` opens a
length argument and `(`, `<`, `>` and `,` are `punctuation`. Inside a length argument, ASCII
digit runs are `number`, identifiers `constant`, `(` and `)` nest and close, and other runs are
`text`. Blanks are Unicode blanks; a whole word has no letter, digit or `_` of any script on
either side.
-/

namespace ColumnDecl.Highlight

open Scan

/-- The class of a lexeme. -/
inductive Class where
  | text
  | declaration
  | fieldName
  | typeName
  | punctuation
  | number
  | constant
  | error
  deriving DecidableEq, Repr

/-- The class's place in the usual hierarchy of highlighting classes. -/
def Class.path : Class → String
  | .text => "Token.Text"
  | .declaration => "Token.Keyword.Declaration"
  | .fieldName => "Token.Name.Variable"
  | .typeName => "Token.Keyword.Type"
  | .punctuation => "Token.Punctuation"
  | .number => "Token.Literal.Number.Integer"
  | .constant => "Token.Name.Constant"
  | .error => "Token.Error"

/-- A lexeme: where it starts, its class and its text. -/
structure Lexeme where
  offset : Nat
  cls : Class
  text : String
  deriving DecidableEq, Repr

/-- A character of a word in any script: a letter, a numeric character or `_`. -/
def isWordChar (c : Char) : Bool := Text.isLetter c || Text.isNumeric c || c = '_'

/-- The keywords that open a nested region. -/
def declarationKeywords : List (List Char) := ["ARRAY".toList, "STRUCT".toList, "RANGE".toList]

/-- The length of the keyword that `cs` starts with as a whole word before a `<`, if any;
`prev` is the character before `cs`. -/
def declarationAt (prev : Option Char) (cs : List Char) : Option Nat :=
  if prev.any isWordChar then none
  else
    (declarationKeywords.find? fun kw =>
      kw.isPrefixOf cs && ((cs.drop kw.length).dropWhile Text.isSpace).head? == some '<').map
      List.length

/-- Whether blanks and then an identifier start `cs`. -/
def nameFollows (cs : List Char) : Bool :=
  match cs with
  | c :: _ =>
    Text.isSpace c && match cs.dropWhile Text.isSpace with
      | d :: _ => isIdentStart d
      | [] => false
  | [] => false

/-- A character that a length argument groups into runs of plain text. -/
def isPlainInLength (c : Char) : Bool :=
  !(Text.isSpace c || c.isAlphanum || c = '_' || c = ',' || c = '(' || c = ')')

/-- The lexeme at the front of `c :: r` inside `depth` open length arguments, after `prev`:
its class, how many characters of `r` it takes besides `c`, and the depth after it. -/
def step (depth : Nat) (prev : Option Char) (c : Char) (r : List Char) : Class × Nat × Nat :=
  if depth = 0 then
    if Text.isSpace c then (.text, (r.takeWhile Text.isSpace).length, 0)
    else match declarationAt prev (c :: r) with
      | some n => (.declaration, n - 1, 0)
      | none =>
        if isIdentStart c then
          let extra := (r.takeWhile isIdentChar).length
          (if nameFollows (r.drop extra) then .fieldName else .typeName, extra, 0)
        else if c = '(' then (.punctuation, 0, 1)
        else if c = '<' ∨ c = '>' ∨ c = ',' then (.punctuation, 0, 0)
        else (.error, 0, 0)
  else
    if Text.isSpace c then (.text, (r.takeWhile Text.isSpace).length, depth)
    else if c.isDigit then (.number, (r.takeWhile Char.isDigit).length, depth)
    else if isIdentStart c then (.constant, (r.takeWhile isIdentChar).length, depth)
    else if c = ',' then (.punctuation, 0, depth)
    else if c = '(' then (.punctuation, 0, depth + 1)
    else if c = ')' then (.punctuation, 0, depth - 1)
    else (.text, (r.takeWhile isPlainInLength).length, depth)

/-- The lexemes of `cs`, which starts at offset `pos` inside `depth` open length arguments,
after the character `prev`. -/
def lexFrom (depth pos : Nat) (prev : Option Char) (cs : List Char) : List Lexeme :=
  match cs with
  | [] => []
  | c :: r =>
    let (cls, extra, depth') := step depth prev c r
    let taken := c :: r.take extra
    ⟨pos, cls, String.ofList taken⟩ ::
      lexFrom depth' (pos + taken.length) taken.getLast? (r.drop extra)
termination_by cs.length
decreasing_by
  simp only [List.length_drop, List.length_cons]
  omega

/-- The lexemes of a declaration. -/
def lex (decl : String) : List Lexeme := lexFrom 0 0 none decl.toList

end ColumnDecl.Highlight
