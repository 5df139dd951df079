import ColumnDecl.Decimal.Binary

/-!
TOML values: strings, integers of any size, binary64 floats, booleans, dates, times of day,
date-times with an optional offset from UTC, arrays, and tables whose keys keep the order in
which they were first written.
-/

namespace ColumnDecl.Toml

/-- The most digits that an integer is converted from or to decimal text with. -/
def decimalDigitLimit : Nat := 4300

/-- A calendar date. -/
structure Date where
  year : Nat
  month : Nat
  day : Nat
  deriving DecidableEq, Repr

/-- A time of day, to the microsecond. -/
structure TimeOfDay where
  hour : Nat
  minute : Nat
  second : Nat
  micro : Nat
  deriving DecidableEq, Repr

/-- A TOML value. -/
inductive Value where
  | str (s : String)
  | int (i : Int)
  | float (f : Decimal.Binary64)
  | bool (b : Bool)
  | date (d : Date)
  | time (t : TimeOfDay)
  /-- A date and time, with its offset east of UTC in minutes when it has one. -/
  | dateTime (d : Date) (t : TimeOfDay) (offset : Option Int)
  | array (items : List Value)
  | table (entries : List (String × Value))
  deriving Repr, Inhabited

/-- A table: its keys in the order they were first written. -/
abbrev Table := List (String × Value)

/-- A dotted key: the names of the tables on the way and of the entry. -/
abbrev Key := List String

namespace Table

/-- The value under `k`. -/
def get? (t : Table) (k : String) : Option Value := t.lookup k

/-- Whether `k` has a value. -/
def contains (t : Table) (k : String) : Bool := (t.get? k).isSome

/-- The table with `k` set to `v`: in its place if `k` was there, last otherwise. -/
def set (t : Table) (k : String) (v : Value) : Table :=
  if t.contains k then t.map fun (k', v') => if k' = k then (k', v) else (k', v')
  else t ++ [(k, v)]

end Table

/-- Whether the value is a table or an array, which fixes its contents once written inline. -/
def Value.isContainer : Value → Bool
  | .table _ | .array _ => true
  | _ => false

end ColumnDecl.Toml
