import ColumnDecl.Toml.Scan
import ColumnDecl.Toml.Value

/-!
The values of a TOML document that hold no other values: strings of the four kinds, keys,
integers, floats, booleans, dates and times. Each reader starts at an offset and returns the
offset after what it read with the value.
-/

namespace ColumnDecl.Toml

/-- A literal string whose opening `'` is at `pos`. -/
def literalString (src : Array Char) (pos : Nat) : Except Fault (Nat × String) := do
  let stop ← skipUntil src (pos + 1) "'" refusedInLine true
  pure (stop + 1, slice src (pos + 1) stop)

/-- The value of hexadecimal digits. -/
def hexValue (cs : List Char) : Nat :=
  cs.foldl (fun n c =>
    n * 16 + (if c.isDigit then c.toNat - '0'.toNat
      else if c ≤ 'F' then c.toNat - 'A'.toNat + 10 else c.toNat - 'a'.toNat + 10)) 0

/-- The character of a `\u` or `\U` escape: `n` hexadecimal digits at `pos` naming a Unicode
scalar value. -/
def hexEscape (src : Array Char) (pos n : Nat) : Except Fault (Nat × String) :=
  let ds := (src.extract pos (pos + n)).toList
  if ds.length != n || !ds.all isHexDigit then fail pos "Invalid hex value"
  else
    let v := hexValue ds
    if v ≤ 0xD7FF ∨ (0xE000 ≤ v ∧ v ≤ 0x10FFFF) then pure (pos + n, (Char.ofNat v).toString)
    else fail (pos + n) "Escaped character is not a Unicode scalar value"

/-- The escape whose backslash is at `pos`. In a multi-line string a backslash before blanks
and a line end takes the blanks and line ends after it. -/
def escape (src : Array Char) (pos : Nat) (multiline : Bool) : Except Fault (Nat × String) :=
  let id := slice src pos (pos + 2)
  let p := pos + 2
  if multiline ∧ (id = "\\ " ∨ id = "\\\t" ∨ id = "\\\n") then
    if id = "\\\n" then pure (skipWhile src isBlankOrNewline p, "")
    else
      let q := skipWhile src isBlank p
      match src[q]? with
      | none => pure (q, "")
      | some '\n' => pure (skipWhile src isBlankOrNewline (q + 1), "")
      | some _ => fail q "Unescaped '\\' in a string"
  else if id = "\\u" then hexEscape src p 4
  else if id = "\\U" then hexEscape src p 8
  else if id = "\\b" then pure (p, "\x08")
  else if id = "\\t" then pure (p, "\t")
  else if id = "\\n" then pure (p, "\n")
  else if id = "\\f" then pure (p, "\x0c")
  else if id = "\\r" then pure (p, "\r")
  else if id = "\\\x22" then pure (p, "\x22")
  else if id = "\\\\" then pure (p, "\\")
  else fail p "Unescaped '\\' in a string"

/-- The rest of a basic string from `pos`, its text so far being `acc` and the characters from
`start` not yet added to it. -/
def basicString (src : Array Char) (multiline : Bool) (acc : String) (start pos : Nat) :
    Except Fault (Nat × String) :=
  if h : pos < src.size then
    let c := src[pos]
    if c = '\x22' then
      if !multiline then pure (pos + 1, acc ++ slice src start pos)
      else if startsAt src pos "\x22\x22\x22" then pure (pos + 3, acc ++ slice src start pos)
      else basicString src multiline acc start (pos + 1)
    else if c = '\\' then do
      let (p, s) ← escape src pos multiline
      if pos < p then basicString src multiline (acc ++ slice src start pos ++ s) p p
      else pure (p, acc)
    else if (if multiline then refusedInLines c else refusedInLine c) then
      fail pos ("Illegal character " ++ Text.quote c.toString)
    else basicString src multiline acc start (pos + 1)
  else fail pos "Unterminated string"
termination_by src.size - pos

/-- A multi-line string whose opening delimiter is at `pos`; up to two more delimiters after
the closing three belong to the string. -/
def multilineString (src : Array Char) (pos : Nat) (literal : Bool) :
    Except Fault (Nat × String) := do
  let p := pos + 3
  let p := if startsAt src p "\n" then p + 1 else p
  let (p, text) ← if literal then do
      let stop ← skipUntil src p "'''" refusedInLines true
      pure (stop + 3, slice src p stop)
    else basicString src true "" p p
  let delim := if literal then "'" else "\x22"
  if !startsAt src p delim then pure (p, text)
  else if !startsAt src (p + 1) delim then pure (p + 1, text ++ delim)
  else pure (p + 2, text ++ delim ++ delim)

/-- One part of a key: bare, literal or basic. -/
def keyPart (src : Array Char) (pos : Nat) : Except Fault (Nat × String) :=
  match src[pos]? with
  | some c =>
    if isBareKeyChar c then
      let stop := skipWhile src isBareKeyChar pos
      pure (stop, slice src pos stop)
    else if c = '\x27' then literalString src pos
    else if c = '\x22' then basicString src false "" (pos + 1) (pos + 1)
    else fail pos "Invalid initial character for a key part"
  | none => fail pos "Invalid initial character for a key part"

/-- The further parts of a dotted key from `pos`, after the parts `acc`; each part takes the
blanks after it. -/
def keyRest (src : Array Char) (pos : Nat) (acc : Key) : Except Fault (Nat × Key) :=
  if h : pos < src.size then
    if src[pos] = '.' then do
      let (p, part) ← keyPart src (skipWhile src isBlank (pos + 1))
      let q := skipWhile src isBlank p
      if pos < q then keyRest src q (acc ++ [part])
      else pure (q, acc ++ [part])
    else pure (pos, acc)
  else pure (pos, acc)
termination_by src.size - pos

end ColumnDecl.Toml

namespace ColumnDecl.Toml

/-- A key, dotted or not, and the blanks after it. -/
def key (src : Array Char) (pos : Nat) : Except Fault (Nat × Key) := do
  let (p, part) ← keyPart src pos
  keyRest src (skipWhile src isBlank p) [part]

/-- The value of the ASCII digits at `pos` to `pos + n`, if they are all digits. -/
def digitsAt (src : Array Char) (pos n : Nat) : Option Nat :=
  let ds := (src.extract pos (pos + n)).toList
  if ds.length = n ∧ ds.all Char.isDigit then
    some (ds.foldl (fun v c => v * 10 + (c.toNat - '0'.toNat)) 0)
  else none

/-- Whether `year` is a leap year of the Gregorian calendar. -/
def isLeap (year : Nat) : Bool := year % 4 = 0 ∧ (year % 100 ≠ 0 ∨ year % 400 = 0)

/-- The number of days of a month. -/
def daysIn (year month : Nat) : Nat :=
  if month = 2 then (if isLeap year then 29 else 28)
  else if month = 4 ∨ month = 6 ∨ month = 9 ∨ month = 11 then 30 else 31

/-- A date `YYYY-MM-DD` at `pos` with a month from 01 to 12 and a day from 01 to 31. -/
def dateAt (src : Array Char) (pos : Nat) : Option Date := do
  let y ← digitsAt src pos 4
  guard (src[pos + 4]? == some '-')
  let m ← digitsAt src (pos + 5) 2
  guard (src[pos + 7]? == some '-')
  let d ← digitsAt src (pos + 8) 2
  guard (1 ≤ m ∧ m ≤ 12 ∧ 1 ≤ d ∧ d ≤ 31)
  pure ⟨y, m, d⟩

/-- A time `HH:MM:SS` at `pos`, with an optional fraction of which six digits count, and the
offset after it. -/
def timeAt (src : Array Char) (pos : Nat) : Option (TimeOfDay × Nat) := do
  let h ← digitsAt src pos 2
  guard (src[pos + 2]? == some ':')
  let m ← digitsAt src (pos + 3) 2
  guard (src[pos + 5]? == some ':')
  let s ← digitsAt src (pos + 6) 2
  guard (h ≤ 23 ∧ m ≤ 59 ∧ s ≤ 59)
  let p := pos + 8
  match src[p]?, src[p + 1]? with
  | some '.', some c =>
    if c.isDigit then
      let stop := skipWhile src Char.isDigit (p + 1)
      let ds := ((src.extract (p + 1) stop).toList.take 6)
      let micro := (ds ++ List.replicate (6 - ds.length) '0').foldl
        (fun v c => v * 10 + (c.toNat - '0'.toNat)) 0
      pure (⟨h, m, s, micro⟩, stop)
    else pure (⟨h, m, s, 0⟩, p)
  | _, _ => pure (⟨h, m, s, 0⟩, p)

/-- An offset from UTC at `pos`: `Z` for none, or a sign, hours to 23 and minutes, in minutes
east of UTC. -/
def offsetAt (src : Array Char) (pos : Nat) : Option (Int × Nat) :=
  match src[pos]? with
  | some 'Z' | some 'z' => some (0, pos + 1)
  | some c =>
    if c = '+' ∨ c = '-' then do
      let h ← digitsAt src (pos + 1) 2
      guard (src[pos + 3]? == some ':')
      let m ← digitsAt src (pos + 4) 2
      guard (h ≤ 23 ∧ m ≤ 59)
      let minutes : Int := h * 60 + m
      pure (if c = '-' then -minutes else minutes, pos + 6)
    else none
  | none => none

/-- A date, or a date and a time with an optional offset, at `pos`; the date must exist. -/
def dateTimeAt? (src : Array Char) (pos : Nat) : Option (Except Fault (Nat × Value)) := do
  let d ← dateAt src pos
  let valid := 1 ≤ d.year ∧ d.day ≤ daysIn d.year d.month
  let timed : Option (Nat × Value) :=
    match src[pos + 10]? with
    | some c =>
      if c = 'T' ∨ c = 't' ∨ c = ' ' then
        (timeAt src (pos + 11)).map fun (t, p) =>
          match offsetAt src p with
          | some (o, q) => (q, .dateTime d t (some o))
          | none => (p, .dateTime d t none)
      else none
    | none => none
  let (stop, v) := timed.getD (pos + 10, .date d)
  pure (if valid then .ok (stop, v) else fail pos "Invalid date or datetime")

/-- The offset after digits from `pos` where single underscores may stand between digits. -/
def digitRun (src : Array Char) (isDigit : Char → Bool) (pos : Nat) : Nat :=
  if h : pos < src.size then
    if isDigit src[pos] then digitRun src isDigit (pos + 1)
    else if src[pos] = '_' ∧ (src[pos + 1]?.map isDigit).getD false then
      digitRun src isDigit (pos + 2)
    else pos
  else pos
termination_by src.size - pos

/-- The value of digits in base `base`, underscores skipped. -/
def baseValue (base : Nat) (cs : List Char) : Nat :=
  (cs.filter (· != '_')).foldl (fun v c =>
    v * base + (if c.isDigit then c.toNat - '0'.toNat
      else if c ≤ 'F' then c.toNat - 'A'.toNat + 10 else c.toNat - 'a'.toNat + 10)) 0

/-- A number at `pos`: a hexadecimal, octal or binary integer, or a decimal integer or float
with an optional sign, fraction and exponent. A decimal integer of more than
`decimalDigitLimit` digits is refused with its digit count; hexadecimal, octal and binary
integers have no such limit. -/
def numberAt? (src : Array Char) (pos : Nat) : Option (Except Fault (Nat × Value)) :=
  let prefixed : Option (Nat × Value) :=
    if src[pos]? == some '0' then
      match src[pos + 1]? with
      | some 'x' => radix 16 isHexDigit
      | some 'b' => radix 2 (fun c => c = '0' ∨ c = '1')
      | some 'o' => radix 8 (fun c => '0' ≤ c ∧ c ≤ '7')
      | _ => none
    else none
  match prefixed with
  | some r => some (.ok r)
  | none => decimal
where
  /-- An integer in base `base` after its two-character prefix. -/
  radix (base : Nat) (isDigit : Char → Bool) : Option (Nat × Value) :=
    if (src[pos + 2]?.map isDigit).getD false then
      let stop := digitRun src isDigit (pos + 3)
      some (stop, .int (baseValue base (src.extract (pos + 2) stop).toList))
    else none
  /-- A decimal integer or float. -/
  decimal : Option (Except Fault (Nat × Value)) := do
    let neg := src[pos]? == some '-'
    let p := if src[pos]? == some '-' ∨ src[pos]? == some '+' then pos + 1 else pos
    let intStop ← match src[p]? with
      | some '0' => some (p + 1)
      | some c => if '1' ≤ c ∧ c ≤ '9' then some (digitRun src Char.isDigit (p + 1)) else none
      | none => none
    let fracStop :=
      if src[intStop]? == some '.' ∧ (src[intStop + 1]?.map Char.isDigit).getD false then
        digitRun src Char.isDigit (intStop + 2)
      else intStop
    let expStop :=
      if src[fracStop]? == some 'e' ∨ src[fracStop]? == some 'E' then
        let q := if src[fracStop + 1]? == some '+' ∨ src[fracStop + 1]? == some '-'
          then fracStop + 2 else fracStop + 1
        if (src[q]?.map Char.isDigit).getD false then digitRun src Char.isDigit (q + 1)
        else fracStop
      else fracStop
    let intDigits := (src.extract p intStop).toList
    if expStop = intStop then
      let count := (intDigits.filter (· != '_')).length
      if count > decimalDigitLimit then pure (.error (.tooManyDigits count))
      else
        let v : Int := baseValue 10 intDigits
        pure (.ok (intStop, .int (if neg then -v else v)))
    else
      let frac := if fracStop = intStop then [] else (src.extract (intStop + 1) fracStop).toList
      let fracDigits := frac.filter (· != '_')
      let expo : Int :=
        if expStop = fracStop then 0
        else
          let e := (src.extract (fracStop + 1) expStop).toList
          match e with
          | '-' :: ds => -(baseValue 10 ds : Int)
          | '+' :: ds => baseValue 10 ds
          | ds => baseValue 10 ds
      let mantissa := baseValue 10 (intDigits ++ fracDigits)
      pure (.ok (expStop, .float (Decimal.Binary64.ofDecimal neg mantissa (expo - fracDigits.length))))

/-- `inf` or `nan`, with an optional sign, at `pos`. -/
def specialFloatAt? (src : Array Char) (pos : Nat) : Option (Nat × Value) :=
  let word := slice src pos (pos + 3)
  if word = "inf" then some (pos + 3, .float (.infinite false))
  else if word = "nan" then some (pos + 3, .float .nan)
  else
    let signed := slice src pos (pos + 4)
    if signed = "-inf" then some (pos + 4, .float (.infinite true))
    else if signed = "+inf" then some (pos + 4, .float (.infinite false))
    else if signed = "-nan" ∨ signed = "+nan" then some (pos + 4, .float .nan)
    else none

end ColumnDecl.Toml
