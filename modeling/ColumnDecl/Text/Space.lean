import ColumnDecl.Text.CodeRanges

/-!
Blank characters: the code points of bidirectional class WS, B or S or of general category
Zs, as of Unicode 14.0. Text is trimmed of these at both ends and the highlighter's blank
class is this set.
-/

namespace ColumnDecl.Text

/-- Blank code points as inclusive ranges, ascending and disjoint. -/
def spaceRanges : CodeRanges := [
  (0x0009, 0x000D), (0x001C, 0x0020), (0x0085, 0x0085), (0x00A0, 0x00A0), (0x1680, 0x1680),
  (0x2000, 0x200A), (0x2028, 0x2029), (0x202F, 0x202F), (0x205F, 0x205F), (0x3000, 0x3000)]

/-- Whether `c` is blank in the Unicode sense (this includes `\x0c`, `\x1c`, U+00A0 and U+3000). -/
def isSpace (c : Char) : Bool := CodeRanges.contains spaceRanges c

end ColumnDecl.Text
