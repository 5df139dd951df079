import ColumnDecl.Text.Printable

/-!
Quoted text, as token lexemes and declarations are shown in dumps and log lines. The quote is
`'` unless the text holds `'` and no `"`. A backslash and the chosen quote are escaped with a
backslash; tab, line feed and carriage return are written `\t`, `\n`, `\r`; other characters
that are not printable are written as a hexadecimal escape of two, four or eight digits.
-/

namespace ColumnDecl.Text

/-- The lowercase hexadecimal digits of `n`, padded with zeros to `width`. -/
def hexDigits (width n : Nat) : List Char :=
  let ds := Nat.toDigits 16 n
  List.replicate (width - ds.length) '0' ++ ds

/-- The escape for a character that is not printable: `\x`, `\u` or `\U` and two, four or
eight hexadecimal digits, the fewest of these that hold its code point. -/
def hexEscape (c : Char) : List Char :=
  if c.toNat < 0x100 then '\\' :: 'x' :: hexDigits 2 c.toNat
  else if c.toNat < 0x10000 then '\\' :: 'u' :: hexDigits 4 c.toNat
  else '\\' :: 'U' :: hexDigits 8 c.toNat

/-- How one character is written inside quotes `q`. -/
def quoteChar (q c : Char) : List Char :=
  if c = q ∨ c = '\\' then ['\\', c]
  else if c = '\t' then ['\\', 't']
  else if c = '\n' then ['\\', 'n']
  else if c = '\r' then ['\\', 'r']
  else if c.toNat < 0x20 ∨ c.toNat = 0x7f then hexEscape c
  else if c.toNat < 0x7f then [c]
  else if isPrintable c then [c]
  else hexEscape c

/-- The quote character for `cs`: a double quote only if `cs` holds a single quote and no
double quote. -/
def quoteFor (cs : List Char) : Char :=
  if '\x27' ∈ cs ∧ '\x22' ∉ cs then '\x22' else '\x27'

/-- `cs` between quotes, with escapes. -/
def quoteChars (cs : List Char) : List Char :=
  let q := quoteFor cs
  q :: cs.flatMap (quoteChar q) ++ [q]

/-- `s` between quotes, with escapes. -/
def quote (s : String) : String := String.ofList (quoteChars s.toList)

end ColumnDecl.Text
