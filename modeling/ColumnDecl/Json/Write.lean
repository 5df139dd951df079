import ColumnDecl.Json.Value
import ColumnDecl.Text.Quoted

/-!
JSON text in the layout of the command line's output. Without an indent a document is one line,
with `, ` between items and `: ` after keys. With an indent text, every item and member starts
a line of its own, prefixed by the indent once per level of nesting, items end with `,`, and an
empty array or object stays `[]` or `{}`. Strings are ASCII: quotes, backslashes and the usual
control characters take short escapes, and every other character outside printable ASCII is a
`\u` escape of four lowercase hexadecimal digits, characters beyond the basic plane a pair of
surrogates.
-/

namespace ColumnDecl.Json

/-- The escapes for one character of a string. -/
def escapeChar (c : Char) : List Char :=
  if c = '\x22' then ['\\', '\x22']
  else if c = '\\' then ['\\', '\\']
  else if c = '\n' then ['\\', 'n']
  else if c = '\r' then ['\\', 'r']
  else if c = '\t' then ['\\', 't']
  else if c = '\x08' then ['\\', 'b']
  else if c = '\x0c' then ['\\', 'f']
  else if 0x20 ≤ c.toNat ∧ c.toNat < 0x7f then [c]
  else if c.toNat < 0x10000 then '\\' :: 'u' :: Text.hexDigits 4 c.toNat
  else
    let v := c.toNat - 0x10000
    '\\' :: 'u' :: Text.hexDigits 4 (0xD800 + v / 0x400) ++
      '\\' :: 'u' :: Text.hexDigits 4 (0xDC00 + v % 0x400)

/-- A string literal, quoted and escaped. -/
def quoteString (s : String) : String :=
  String.ofList ('\x22' :: s.toList.flatMap escapeChar ++ ['\x22'])

/-- The text of an integer. -/
def intText (i : Int) : String :=
  if i < 0 then "-" ++ toString i.natAbs else toString i.natAbs

mutual
/-- A value on one line. -/
def Value.compact : Value → String
  | .null => "null"
  | .bool b => if b then "true" else "false"
  | .int i => intText i
  | .str s => quoteString s
  | .arr items => "[" ++ Value.compactItems items ++ "]"
  | .obj members => "\x7b" ++ Value.compactMembers members ++ "\x7d"

/-- Array items on one line, separated by `, `. -/
def Value.compactItems : List Value → String
  | [] => ""
  | [v] => v.compact
  | v :: vs => v.compact ++ ", " ++ Value.compactItems vs

/-- Object members on one line, separated by `, `. -/
def Value.compactMembers : List (String × Value) → String
  | [] => ""
  | [(k, v)] => quoteString k ++ ": " ++ v.compact
  | (k, v) :: ms => quoteString k ++ ": " ++ v.compact ++ ", " ++ Value.compactMembers ms
end

/-- The line break and indent before an item at nesting `level`. -/
def lineAt (indent : String) (level : Nat) : String :=
  "\n" ++ String.join (List.replicate level indent)

mutual
/-- A value with one item or member per line, at nesting `level`. -/
def Value.indented (indent : String) (level : Nat) : Value → String
  | .arr [] => "[]"
  | .obj [] => "\x7b\x7d"
  | .arr items =>
    "[" ++ Value.indentedItems indent (level + 1) items ++ lineAt indent level ++ "]"
  | .obj members =>
    "\x7b" ++ Value.indentedMembers indent (level + 1) members ++ lineAt indent level ++ "\x7d"
  | v => v.compact

/-- Array items, each on a line of its own at nesting `level`. -/
def Value.indentedItems (indent : String) (level : Nat) : List Value → String
  | [] => ""
  | [v] => lineAt indent level ++ v.indented indent level
  | v :: vs => lineAt indent level ++ v.indented indent level ++ "," ++
      Value.indentedItems indent level vs

/-- Object members, each on a line of its own at nesting `level`. -/
def Value.indentedMembers (indent : String) (level : Nat) : List (String × Value) → String
  | [] => ""
  | [(k, v)] => lineAt indent level ++ quoteString k ++ ": " ++ v.indented indent level
  | (k, v) :: ms => lineAt indent level ++ quoteString k ++ ": " ++ v.indented indent level ++
      "," ++ Value.indentedMembers indent level ms
end

/-- A document as text: on one line without an indent, one item per line with one. -/
def Value.write (indent : Option String) (v : Value) : String :=
  match indent with
  | none => v.compact
  | some ind => v.indented ind 0

end ColumnDecl.Json
