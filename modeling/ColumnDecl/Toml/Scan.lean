import ColumnDecl.Text.Quoted

/-!
The character level of TOML documents: faults with their place, character classes, and the
runs that strings, keys and comments are made of. A document is held as an array of characters
and read by offset; each reader returns the offset after what it read.
-/

namespace ColumnDecl.Toml

/-- Why a document is refused: the text leaves the grammar at an offset, for the reason the
message gives; a decimal integer has more digits than are converted, `count` of them; or values
nest deeper than the reader descends. -/
inductive Fault where
  | grammar (message : String) (pos : Nat)
  | tooManyDigits (count : Nat)
  | tooDeep
  deriving Repr

/-- The place of an offset: its line and column from one, or the end of the document. -/
def place (src : Array Char) (pos : Nat) : String :=
  if pos ≥ src.size then "end of document"
  else
    let before := src.toList.take pos
    let line := before.count '\n' + 1
    let column :=
      if line = 1 then pos + 1
      else pos - (((before.zipIdx.filter (·.1 == '\n')).getLast?.map (·.2)).getD 0)
    "line " ++ toString line ++ ", column " ++ toString column

/-- A message with the place of the offset it concerns. -/
def describeAt (src : Array Char) (message : String) (pos : Nat) : String :=
  message ++ " (at " ++ place src pos ++ ")"

/-- Refuses the document at `pos`, where it leaves the grammar. -/
def fail {α : Type} (pos : Nat) (message : String) : Except Fault α := .error (.grammar message pos)

/-- Blanks within a line: space and tab. -/
def isBlank (c : Char) : Bool := c = ' ' || c = '\t'

/-- Blanks and line feeds. -/
def isBlankOrNewline (c : Char) : Bool := isBlank c || c = '\n'

/-- Characters of a bare key: ASCII letters and digits, `-` and `_`. -/
def isBareKeyChar (c : Char) : Bool := c.isAlphanum || c = '-' || c = '_'

/-- ASCII control characters. -/
def isControl (c : Char) : Bool := c.toNat < 32 || c.toNat = 127

/-- Characters refused in one-line strings and comments: controls other than tab. -/
def refusedInLine (c : Char) : Bool := isControl c && c != '\t'

/-- Characters refused in multi-line strings: controls other than tab and line feed. -/
def refusedInLines (c : Char) : Bool := isControl c && c != '\t' && c != '\n'

/-- Hexadecimal digits of either case. -/
def isHexDigit (c : Char) : Bool :=
  c.isDigit || ('a' ≤ c && c ≤ 'f') || ('A' ≤ c && c ≤ 'F')

/-- The offset after the run of characters satisfying `p` from `pos`. -/
def skipWhile (src : Array Char) (p : Char → Bool) (pos : Nat) : Nat :=
  if h : pos < src.size then
    if p src[pos] then skipWhile src p (pos + 1) else pos
  else pos
termination_by src.size - pos

/-- Whether the characters of `s` stand at `pos`. -/
def startsAt (src : Array Char) (pos : Nat) (s : String) : Bool :=
  s.toList.zipIdx.all fun (c, i) => src[pos + i]? == some c

/-- The characters from `a` up to `b`. -/
def slice (src : Array Char) (a b : Nat) : String := String.ofList (src.extract a b).toList

/-- The first offset from `pos` where `s` stands. -/
def findFrom (src : Array Char) (s : String) (pos : Nat) : Option Nat :=
  if pos + s.length ≤ src.size ∧ pos < src.size then
    if startsAt src pos s then some pos else findFrom src s (pos + 1)
  else none
termination_by src.size - pos

/-- The first offset from `pos` before `stop` whose character satisfies `p`. -/
def firstWhere (src : Array Char) (p : Char → Bool) (pos stop : Nat) : Option Nat :=
  if pos < stop then
    match src[pos]? with
    | some c => if p c then some pos else firstWhere src p (pos + 1) stop
    | none => none
  else none
termination_by stop - pos

/-- The offset of the next `s` from `pos`, or the end when `s` does not follow and the end is
allowed. A character satisfying `refused` before it is a fault. -/
def skipUntil (src : Array Char) (pos : Nat) (s : String) (refused : Char → Bool)
    (needed : Bool) : Except Fault Nat := do
  let stop ← match findFrom src s pos with
    | some p => pure p
    | none => if needed then fail src.size ("Expected " ++ Text.quote s) else pure src.size
  match firstWhere src refused pos stop with
  | some p => fail p ("Found invalid character " ++ Text.quote (slice src p (p + 1)))
  | none => pure stop

/-- The offset after a comment at `pos`, or `pos` when no comment starts there. -/
def skipComment (src : Array Char) (pos : Nat) : Except Fault Nat :=
  if src[pos]? == some '#' then skipUntil src (pos + 1) "\n" refusedInLine false else pure pos

/-- The offset after blanks, line feeds and comments from `pos`, as between array items. -/
def skipArrayGaps (src : Array Char) (pos : Nat) : Except Fault Nat := do
  let p ← skipComment src (skipWhile src isBlankOrNewline pos)
  if pos < p ∧ pos < src.size then skipArrayGaps src p else pure pos
termination_by src.size - pos

end ColumnDecl.Toml
