import ColumnDecl.Toml.Leaf
import ColumnDecl.Toml.Marks

/-!
Reading a TOML document. A document is a sequence of statements, one per line: a key and a
value, a table header `[key]`, an array-of-tables header `[[key]]`, a comment, or nothing. The
values written inline, arrays and inline tables, nest; reading them is bounded by a budget of
steps that the length of the document always covers, and by how deep the reader may descend:
each array level takes two levels of descent and each inline table three, out of
`descentBudget`, and a value nested deeper is refused as `tooDeep`. A key may be written once;
a header may not declare a table twice nor reopen one written inline; a dotted key may not
reach into a table declared by a header. Each refusal is a `Fault` at the offset where it is
found.
-/

namespace ColumnDecl.Toml

/-- The text of a key as a tuple of quoted names: `('a',)` or `('a', 'b')`. -/
def keyText (k : Key) : String :=
  match k with
  | [part] => "(" ++ Text.quote part ++ ",)"
  | parts => "(" ++ ", ".intercalate (parts.map Text.quote) ++ ")"

/-- Applies `f` to the table at `path` below `t`, creating the tables missing on the way. An
array on the way stands for its last table when `throughArrays`; any other value on the way
is the fault `blocked`. -/
def updateAt (throughArrays : Bool) (blocked : Fault) (f : Table → Except Fault Table) :
    Key → Table → Except Fault Table
  | [], t => f t
  | k :: ks, t =>
    match t.get? k with
    | none => do
      let inner ← updateAt throughArrays blocked f ks []
      pure (t.set k (.table inner))
    | some (.table inner) => do
      let inner ← updateAt throughArrays blocked f ks inner
      pure (t.set k (.table inner))
    | some (.array items) =>
      match throughArrays, items.getLast? with
      | true, some (.table inner) => do
        let inner ← updateAt throughArrays blocked f ks inner
        pure (t.set k (.array (items.dropLast ++ [.table inner])))
      | _, _ => .error blocked
    | some _ => .error blocked

/-- A date, time, number or special float at `pos`. -/
def scalar (src : Array Char) (pos : Nat) : Except Fault (Nat × Value) :=
  match dateTimeAt? src pos with
  | some r => r
  | none =>
    match timeAt src pos with
    | some (t, p) => pure (p, .time t)
    | none =>
      match numberAt? src pos with
      | some r => r
      | none =>
        match specialFloatAt? src pos with
        | some r => pure r
        | none => fail pos "Invalid value"

/-- The levels of descent the reader has for one value of a statement: the interpreter's limit
of 1000 frames, less those that the command line and the reader take before the value. -/
def descentBudget : Nat := 982

/-- The levels of descent an array takes: the array and each of its items. -/
def arrayDescent : Nat := 2

/-- The levels of descent an inline table takes: the table, each entry and its value. -/
def tableDescent : Nat := 3

mutual
/-- The value at `pos`, with `room` levels of descent left. -/
def value (src : Array Char) : Nat → Nat → Nat → Except Fault (Nat × Value)
  | 0, _, pos => fail pos "Invalid value"
  | fuel + 1, room, pos =>
    match src[pos]? with
    | some '\x22' =>
      if startsAt src pos "\x22\x22\x22" then
        (multilineString src pos false).map fun (p, s) => (p, .str s)
      else (basicString src false "" (pos + 1) (pos + 1)).map fun (p, s) => (p, .str s)
    | some '\x27' =>
      if startsAt src pos "'''" then (multilineString src pos true).map fun (p, s) => (p, .str s)
      else (literalString src pos).map fun (p, s) => (p, .str s)
    | some '[' =>
      if room < arrayDescent then .error .tooDeep else array src fuel (room - arrayDescent) pos
    | some '\x7b' =>
      if room < tableDescent then .error .tooDeep
      else inlineTable src fuel (room - tableDescent) pos
    | some c =>
      if c = 't' ∧ startsAt src pos "true" then pure (pos + 4, .bool true)
      else if c = 'f' ∧ startsAt src pos "false" then pure (pos + 5, .bool false)
      else scalar src pos
    | none => scalar src pos

/-- An array whose `[` is at `pos`, its items with `room` levels of descent. -/
def array (src : Array Char) : Nat → Nat → Nat → Except Fault (Nat × Value)
  | 0, _, pos => fail pos "Unclosed array"
  | fuel + 1, room, pos => do
    let p ← skipArrayGaps src (pos + 1)
    if startsAt src p "]" then pure (p + 1, .array [])
    else arrayItems src fuel room p []

/-- The items of an array from `pos`, after the items `acc`, latest first. -/
def arrayItems (src : Array Char) : Nat → Nat → Nat → List Value → Except Fault (Nat × Value)
  | 0, _, pos, _ => fail pos "Unclosed array"
  | fuel + 1, room, pos, acc => do
    let (p, v) ← value src fuel room pos
    let p ← skipArrayGaps src p
    match src[p]? with
    | some ']' => pure (p + 1, .array (v :: acc).reverse)
    | some ',' =>
      let q ← skipArrayGaps src (p + 1)
      if startsAt src q "]" then pure (q + 1, .array (v :: acc).reverse)
      else arrayItems src fuel room q (v :: acc)
    | _ => fail p "Unclosed array"

/-- An inline table whose opening brace is at `pos`, its values with `room` levels of descent. -/
def inlineTable (src : Array Char) : Nat → Nat → Nat → Except Fault (Nat × Value)
  | 0, _, pos => fail pos "Unclosed inline table"
  | fuel + 1, room, pos =>
    let p := skipWhile src isBlank (pos + 1)
    if startsAt src p "\x7d" then pure (p + 1, .table [])
    else tableItems src fuel room p [] Marks.empty

/-- The entries of an inline table from `pos`, after the entries `t` with their marks. -/
def tableItems (src : Array Char) : Nat → Nat → Nat → Table → Marks →
    Except Fault (Nat × Value)
  | 0, _, pos, _, _ => fail pos "Unclosed inline table"
  | fuel + 1, room, pos, t, marks => do
    let (p, k, v) ← keyValue src fuel room pos
    if marks.has .sealed k then fail p ("Cannot mutate immutable namespace " ++ keyText k)
    let stem := k.getLast?.getD ""
    let t ← updateAt false (.grammar "Cannot overwrite a value" p) (fun inner =>
      if inner.contains stem then fail p ("Duplicate inline table key " ++ Text.quote stem)
      else pure (inner.set stem v)) k.dropLast t
    let p := skipWhile src isBlank p
    match src[p]? with
    | some '\x7d' => pure (p + 1, .table t)
    | some ',' =>
      let marks := if v.isContainer then marks.mark .sealed true k else marks
      tableItems src fuel room (skipWhile src isBlank (p + 1)) t marks
    | _ => fail p "Unclosed inline table"

/-- A key, `=` and a value, from `pos`, the value with `room` levels of descent. -/
def keyValue (src : Array Char) : Nat → Nat → Nat → Except Fault (Nat × Key × Value)
  | 0, _, pos => fail pos "Invalid value"
  | fuel + 1, room, pos => do
    let (p, k) ← key src pos
    if src[p]? != some '=' then fail p "Expected '=' after a key in a key/value pair"
    let (q, v) ← value src fuel room (skipWhile src isBlank (p + 1))
    pure (q, k, v)
end

end ColumnDecl.Toml
