import ColumnDecl.Toml.Value
import ColumnDecl.Decimal.Shortest
import ColumnDecl.Text.Quoted

/-!
Values as the settings report shows them: the name of each value's type and its text. Strings
are quoted, booleans are `True` and `False`, floats take their shortest text, arrays and tables
are written in brackets and braces with `, ` between items and `: ` after keys, and dates and
times are written as constructor calls of the `datetime` module, with trailing zero seconds and
microseconds left out and an offset from UTC as a `timezone`. A value can be written when
every integer in it has at most `decimalDigitLimit` decimal digits.
-/

namespace ColumnDecl.Toml

/-- A signed integer in decimal. -/
def intText (i : Int) : String := if i < 0 then "-" ++ toString i.natAbs else toString i.natAbs

/-- The numbers of a time of day as written: hour and minute, then the second and microsecond
while any of them is not zero. -/
def TimeOfDay.parts (t : TimeOfDay) : List Nat :=
  if t.micro ≠ 0 then [t.hour, t.minute, t.second, t.micro]
  else if t.second ≠ 0 then [t.hour, t.minute, t.second]
  else [t.hour, t.minute]

/-- Numbers separated by `, `. -/
def joinNumbers (ns : List Nat) : String := ", ".intercalate (ns.map toString)

/-- A span of seconds as days and the seconds left over, as the `timedelta` it is. -/
def deltaText (seconds : Int) : String :=
  let days := seconds / 86400
  let rest := seconds % 86400
  let parts := (if days ≠ 0 then ["days=" ++ intText days] else []) ++
    (if rest ≠ 0 then ["seconds=" ++ intText rest] else [])
  "datetime.timedelta(" ++ (if parts.isEmpty then "0" else ", ".intercalate parts) ++ ")"

/-- An offset from UTC in minutes, as the `timezone` it is; no offset is UTC itself. -/
def offsetText (minutes : Int) : String :=
  if minutes = 0 then "datetime.timezone.utc"
  else "datetime.timezone(" ++ deltaText (minutes * 60) ++ ")"

namespace Value

/-- The short name of the value's type. -/
def typeName : Value → String
  | .str _ => "str"
  | .int _ => "int"
  | .float _ => "float"
  | .bool _ => "bool"
  | .date _ => "date"
  | .time _ => "time"
  | .dateTime .. => "datetime"
  | .array _ => "list"
  | .table _ => "dict"

/-- The name of the value's type with its module, for the types that belong to one. -/
def qualifiedTypeName (v : Value) : String :=
  match v with
  | .date _ | .time _ | .dateTime .. => "datetime." ++ v.typeName
  | _ => v.typeName

mutual
/-- The text of a value. -/
def display : Value → String
  | .str s => Text.quote s
  | .int i => intText i
  | .float f => f.toText
  | .bool b => if b then "True" else "False"
  | .date d => "datetime.date(" ++ joinNumbers [d.year, d.month, d.day] ++ ")"
  | .time t => "datetime.time(" ++ joinNumbers t.parts ++ ")"
  | .dateTime d t offset =>
    "datetime.datetime(" ++ joinNumbers ([d.year, d.month, d.day] ++ t.parts) ++
      (match offset with
        | some o => ", tzinfo=" ++ offsetText o
        | none => "") ++ ")"
  | .array items => "[" ++ displayItems items ++ "]"
  | .table entries => "\x7b" ++ displayEntries entries ++ "\x7d"

/-- The texts of array items, separated by `, `. -/
def displayItems : List Value → String
  | [] => ""
  | [v] => display v
  | v :: vs => display v ++ ", " ++ displayItems vs

/-- The texts of table entries, key and value, separated by `, `. -/
def displayEntries : List (String × Value) → String
  | [] => ""
  | [(k, v)] => Text.quote k ++ ": " ++ display v
  | (k, v) :: es => Text.quote k ++ ": " ++ display v ++ ", " ++ displayEntries es
end

mutual
/-- Whether every integer in the value has at most `decimalDigitLimit` decimal digits. -/
def writable : Value → Bool
  | .int i => (toString i.natAbs).length ≤ decimalDigitLimit
  | .array items => itemsWritable items
  | .table entries => entriesWritable entries
  | _ => true

/-- Whether every item can be written. -/
def itemsWritable : List Value → Bool
  | [] => true
  | v :: vs => writable v && itemsWritable vs

/-- Whether every entry's value can be written. -/
def entriesWritable : List (String × Value) → Bool
  | [] => true
  | (_, v) :: es => writable v && entriesWritable es
end

end Value

end ColumnDecl.Toml
