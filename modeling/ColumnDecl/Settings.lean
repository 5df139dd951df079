import ColumnDecl.Toml.Parse
import ColumnDecl.Toml.Show

/-!
Settings read from a `typedecl.toml` file: the longest declaration accepted
(`tokenizer.max_length`, 65536 by default), whether output is coloured (`output.color`, on by
default) and the indent of dumps (`output.indent`, 2 by default). The values are kept as the
file gives them, of whatever type, and each use says what it makes of them: a colour setting
counts as on unless it is false, zero or empty; a limit must be a number; an indent must be an
integer, or for JSON also a string used as it is or a value that counts as off. A run of spaces
is a repeat count: one outside the signed 64-bit range is refused, and so is one longer than the
machine can hold in one text. How long that is depends on the machine, not on the program, so it
is a parameter `memory` of everything that builds such a run, up to the run of the command line.
A file that cannot be read is refused as the reader refuses it: text outside the
grammar, a decimal integer of too many digits, or values nested too deep; settings are reported
only when every integer in them can be written in decimal.
-/

namespace ColumnDecl

open Toml

/-- The settings of a run. -/
structure Settings where
  maxLength : Value := .int 65536
  color : Value := .bool true
  indent : Value := .int 2

/-- Why settings cannot be read or used. -/
inductive ConfigFault where
  /-- The file is not valid TOML. -/
  | unreadable (message : String)
  /-- The file writes a decimal integer of `count` digits, more than are converted. -/
  | tooManyDigits (count : Nat)
  /-- The file nests values deeper than the reader descends. -/
  | tooDeep
  /-- A setting holds an integer of more decimal digits than are written. -/
  | tooLongToWrite
  /-- A section is a value of this type, which has no entries to look settings up in. -/
  | notSection (type : String)
  /-- The length limit is a value of this type, which a length cannot be compared with. -/
  | incomparableLimit (type : String)
  /-- The indent is a value of this type, by which text cannot be repeated. -/
  | cannotRepeat (type : String)
  /-- The indent is a value of this type, which cannot be multiplied by a depth. -/
  | cannotMultiply (type : String)
  /-- The indent asks for a count of spaces beyond what an index can hold. -/
  | indexOverflow
  /-- The indent asks for more spaces than memory holds. -/
  | outOfMemory
  deriving Repr

/-- The text of a fault. -/
def ConfigFault.message : ConfigFault → String
  | .unreadable m => m
  | .tooManyDigits n => "Exceeds the limit (" ++ toString decimalDigitLimit ++
      " digits) for integer string conversion: value has " ++ toString n ++
      " digits; use sys.set_int_max_str_digits() to increase the limit"
  | .tooDeep => "maximum recursion depth exceeded"
  | .tooLongToWrite => "Exceeds the limit (" ++ toString decimalDigitLimit ++
      " digits) for integer string conversion; " ++
      "use sys.set_int_max_str_digits() to increase the limit"
  | .notSection t => "'" ++ t ++ "' object has no attribute 'get'"
  | .incomparableLimit t => "'>' not supported between instances of 'int' and '" ++ t ++ "'"
  | .cannotRepeat t => "can't multiply sequence by non-int of type '" ++ t ++ "'"
  | .cannotMultiply t => "unsupported operand type(s) for *: '" ++ t ++ "' and 'int'"
  | .indexOverflow => "cannot fit 'int' into an index-sized integer"
  | .outOfMemory => ""

namespace Settings

/-- The entries of a section, when the section is a table. -/
def section? (doc : Table) (name : String) : Except ConfigFault (Option Table) :=
  match doc.get? name with
  | none => .ok none
  | some (.table t) => .ok (some t)
  | some v => .error (.notSection v.qualifiedTypeName)

/-- The settings that a document gives, the tokenizer section read first. -/
def ofTable (doc : Table) : Except ConfigFault Settings := do
  let tokenizer ← section? doc "tokenizer"
  let output ← section? doc "output"
  let d : Settings := {}
  pure {
    maxLength := (tokenizer.bind (·.get? "max_length")).getD d.maxLength
    color := (output.bind (·.get? "color")).getD d.color
    indent := (output.bind (·.get? "indent")).getD d.indent }

/-- The settings that the text of a settings file gives. -/
def read (text : String) : Except ConfigFault Settings :=
  match Toml.parse text with
  | .ok doc => ofTable doc
  | .error (.decode m) => .error (.unreadable m)
  | .error (.tooManyDigits n) => .error (.tooManyDigits n)
  | .error .tooDeep => .error .tooDeep

/-- The settings as they are reported, each value written out: one that holds an integer too
long to write is a fault. -/
def report (st : Settings) : Except ConfigFault Settings :=
  if [st.maxLength, st.color, st.indent].all Value.writable then .ok st else .error .tooLongToWrite

end Settings

/-- Indices are signed 64-bit integers: a repeat count lies in `[-2^63, 2^63)`. -/
def indexBound : Nat := 9223372036854775808

/-- `n` spaces, none when `n` is not positive, if `n` is a repeat count that fits in an index
and the machine can hold: `memory` is the most characters that one text of the machine holds,
and building a longer one fails for want of memory. -/
def spaces (memory : Nat) (n : Int) : Except ConfigFault String :=
  if n < -(indexBound : Int) ∨ (indexBound : Int) ≤ n then .error .indexOverflow
  else if (memory : Int) < n then .error .outOfMemory
  else .ok (String.ofList (List.replicate n.toNat ' '))

namespace Toml.Value

/-- Whether the value counts as on: anything but false, zero, and empty text, arrays and
tables. -/
def isOn : Value → Bool
  | .bool b => b
  | .int i => i ≠ 0
  | .float f => f.isNonzero
  | .str s => !s.isEmpty
  | .array items => !items.isEmpty
  | .table entries => !entries.isEmpty
  | .date _ | .time _ | .dateTime .. => true

/-- Whether a length `n` exceeds the limit `v`; only numbers are limits. -/
def isExceededBy (v : Value) (n : Nat) : Except ConfigFault Bool :=
  match v with
  | .int i => .ok ((n : Int) > i)
  | .bool b => .ok (n > (if b then 1 else 0))
  | .float f => .ok (f.natGreater n)
  | v => .error (.incomparableLimit v.qualifiedTypeName)

/-- The padding of a dump line `depth` levels deep: the indent times the depth, in spaces, on a
machine that holds `memory` characters in one text. -/
def padding (memory : Nat) (v : Value) (depth : Nat) : Except ConfigFault String :=
  match v with
  | .int i => spaces memory (i * depth)
  | .bool b => spaces memory (if b then depth else 0)
  | .float _ | .str _ | .array _ => .error (.cannotRepeat v.typeName)
  | v => .error (.cannotMultiply v.qualifiedTypeName)

/-- The indent of JSON output: none for one line, otherwise the text of one level, on a machine
that holds `memory` characters in one text. -/
def jsonIndent (memory : Nat) (v : Value) : Except ConfigFault (Option String) :=
  if !v.isOn then .ok none
  else match v with
    | .int i => some <$> spaces memory i
    | .bool _ => .ok (some " ")
    | .str s => .ok (some s)
    | v => .error (.cannotRepeat v.qualifiedTypeName)

/-- The value as a limit is written in messages: numbers in decimal, floats shortest,
booleans as `True` and `False`. -/
def limitText (v : Value) : String := v.display

end Toml.Value

end ColumnDecl
