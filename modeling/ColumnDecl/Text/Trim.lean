import ColumnDecl.Text.Space

/-!
Trimming text of Unicode blanks at both ends. A length argument that trims to nothing is
empty, and lines read from standard input are trimmed before use.
-/

namespace ColumnDecl.Text

/-- The characters of `cs` without its leading and trailing blanks. -/
def trimChars (cs : List Char) : List Char :=
  ((cs.dropWhile isSpace).reverse.dropWhile isSpace).reverse

/-- `s` without its leading and trailing blanks. -/
def trim (s : String) : String := String.ofList (trimChars s.toList)

end ColumnDecl.Text
