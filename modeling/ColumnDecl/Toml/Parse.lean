import ColumnDecl.Toml.Document

/-!
The statements of a TOML document and the table they build. Each statement works on the
current table, the one named by the last header: a key and value adds an entry below it, a
`[key]` header makes `key` current, and a `[[key]]` header adds a table to the array `key` and
makes that table current. Tables on the way of a dotted key become declared when the next header
is read, so later headers cannot declare them. Line endings `\r\n` count as `\n`.
-/

namespace ColumnDecl.Toml

/-- Why a document cannot be read: it leaves the grammar (the message with its place), it
writes a decimal integer of more digits than are converted (`count` of them), or its values
nest deeper than the reader descends. -/
inductive ReadError where
  | decode (message : String)
  | tooManyDigits (count : Nat)
  | tooDeep
  deriving Repr

/-- What the statements read so far have built: the document's table, the marks of its keys,
the marks that take effect at the next header, and the current table's key. -/
structure Progress where
  data : Table
  marks : Marks
  pending : List (Key × Mark)
  header : Key

namespace Progress

/-- Nothing read yet. -/
def initial : Progress := ⟨[], Marks.empty, [], []⟩

/-- The marks that wait for the next header, set. -/
def settle (st : Progress) : Progress :=
  { st with marks := st.pending.foldl (fun m (k, which) => m.mark which false k) st.marks, pending := [] }

end Progress

/-- The steps that reading one value of the text may take. -/
def valueBudget (src : Array Char) : Nat := 4 * src.size + 8

/-- A key and value statement at `pos`. -/
def keyValueStatement (src : Array Char) (pos : Nat) (st : Progress) :
    Except Fault (Nat × Progress) := do
  let (p, k, v) ← keyValue src (valueBudget src) descentBudget pos
  let stem := k.getLast?.getD ""
  let parent := st.header ++ k.dropLast
  let pending ← (List.range (k.length - 1)).foldlM (fun pending i => do
    let way := st.header ++ k.take (i + 1)
    if st.marks.has .declared way then fail p ("Cannot redefine namespace " ++ keyText way)
    pure (pending ++ [(way, Mark.declared)])) st.pending
  if st.marks.has .sealed parent then
    fail p ("Cannot mutate immutable namespace " ++ keyText parent)
  let data ← updateAt true (.grammar "Cannot overwrite a value" p) (fun t =>
    if t.contains stem then fail p "Cannot overwrite a value" else pure (t.set stem v))
    parent st.data
  let marks := if v.isContainer then st.marks.mark .sealed true (st.header ++ k) else st.marks
  pure (p, { st with data, marks, pending })

/-- A table header whose `[` is at `pos`. -/
def tableHeader (src : Array Char) (pos : Nat) (st : Progress) :
    Except Fault (Nat × Progress) := do
  let (p, k) ← key src (skipWhile src isBlank (pos + 1))
  if st.marks.has .declared k || st.marks.has .sealed k then
    fail p ("Cannot declare " ++ keyText k ++ " twice")
  let marks := st.marks.mark .declared false k
  let data ← updateAt true (.grammar "Cannot overwrite a value" p) pure k st.data
  if !startsAt src p "]" then fail p "Expected ']' at the end of a table declaration"
  pure (p + 1, { st with data, marks, header := k })

/-- An array-of-tables header whose `[[` is at `pos`. -/
def arrayHeader (src : Array Char) (pos : Nat) (st : Progress) :
    Except Fault (Nat × Progress) := do
  let (p, k) ← key src (skipWhile src isBlank (pos + 2))
  if st.marks.has .sealed k then fail p ("Cannot mutate immutable namespace " ++ keyText k)
  let marks := (st.marks.clear k).mark .declared false k
  let last := k.getLast?.getD ""
  let data ← updateAt true (.grammar "Cannot overwrite a value" p) (fun t =>
    match t.get? last with
    | some (.array items) => pure (t.set last (.array (items ++ [.table []])))
    | some _ => fail p "Cannot overwrite a value"
    | none => pure (t.set last (.array [.table []]))) k.dropLast st.data
  if !startsAt src p "]]" then fail p "Expected ']]' at the end of an array declaration"
  pure (p + 2, { st with data, marks, header := k })

/-- The statements from `pos`, at most `fuel` of them; each takes at least one character. -/
def statements (src : Array Char) : Nat → Nat → Progress → Except Fault Table
  | 0, _, st => pure st.data
  | fuel + 1, pos, st =>
    let pos := skipWhile src isBlank pos
    match src[pos]? with
    | none => pure st.data
    | some '\n' => statements src fuel (pos + 1) st
    | some c => do
      let (p, st) ←
        if isBareKeyChar c ∨ c = '\x22' ∨ c = '\x27' then do
          let (p, st) ← keyValueStatement src pos st
          pure (skipWhile src isBlank p, st)
        else if c = '[' then do
          let st := st.settle
          let (p, st) ←
            if src[pos + 1]? == some '[' then arrayHeader src pos st else tableHeader src pos st
          pure (skipWhile src isBlank p, st)
        else if c = '#' then pure (pos, st)
        else fail pos "Invalid statement"
      let p ← skipComment src p
      match src[p]? with
      | none => pure st.data
      | some '\n' => statements src fuel (p + 1) st
      | some _ => fail p "Expected newline or end of document after a statement"

/-- The table of a TOML document, or why it cannot be read. -/
def parse (text : String) : Except ReadError Table :=
  let src := ((text.replace "\r\n" "\n").toList).toArray
  match statements src (src.size + 1) 0 Progress.initial with
  | .ok t => .ok t
  | .error (.grammar message pos) => .error (.decode (describeAt src message pos))
  | .error (.tooManyDigits count) => .error (.tooManyDigits count)
  | .error .tooDeep => .error .tooDeep

end ColumnDecl.Toml
