import ColumnDecl.Token.Basic
import ColumnDecl.Token.Scan
import ColumnDecl.Diagnostic.Malformed

/-!
Reading a declaration into a token tree. A declaration is a comma-separated list of field
definitions; a field definition is an optional name and a type, each an identifier, followed by
a length argument `(...)`, a nested region `<...>` holding field definitions of its own, or
nothing. A `<` opens a region on a stack and its `>` closes it into one nested token of the
enclosing region, so the depth of nesting costs stack entries and never recursion.

The reader alternates two steps: `fieldAt` reads one field definition, and `closeAt` reads
what follows a complete one (a comma, a `>` that closes a region, or the end). Each step
consumes at least one character before the next, which is the measure of the recursion.
Offsets count code points; every token's span covers its lexeme, a length token's span the
text between the parentheses, a nested token's span the region from `<` through `>`.
-/

namespace ColumnDecl

open Scan

/-- A region opened by a `<` and not closed yet: the offset of the `<` and its tokens so far,
latest first. -/
structure Region where
  opened : Nat
  tokens : List Token

/-- The tokens read so far: those of the top level, latest first, and the open regions,
innermost first. -/
structure Reading where
  top : List Token
  regions : List Region

namespace Reading

/-- The reading before any token. -/
def initial : Reading := ⟨[], []⟩

/-- Adds a token to the innermost open region, or to the top level. -/
def push (t : Token) : Reading → Reading
  | ⟨top, []⟩ => ⟨t :: top, []⟩
  | ⟨top, r :: rs⟩ => ⟨top, { r with tokens := t :: r.tokens } :: rs⟩

/-- Adds the tokens of a list, in order. -/
def pushAll (ts : List Token) (st : Reading) : Reading := ts.foldl (fun st t => st.push t) st

/-- Opens a region at the `<` at `pos`. -/
def openAt (pos : Nat) (st : Reading) : Reading := ⟨st.top, ⟨pos, []⟩ :: st.regions⟩

/-- The tokens of the innermost open region, or of the top level, latest first. -/
def current (st : Reading) : List Token :=
  match st.regions with
  | [] => st.top
  | r :: _ => r.tokens

/-- The span of the comma that the next field follows, if it follows one. -/
def afterComma (st : Reading) : Option Span :=
  match st.current with
  | .leaf .delimiter _ s :: _ => some s
  | _ => none

/-- Why no field definition starts at `pos`, where `found` stands, in text of length `len`:
the text ends inside a region, a region closes before its first field, or a type name is
missing. -/
def missingType (len pos : Nat) (found : Option Char) (st : Reading) : Malformed :=
  match st.regions, found with
  | r :: _, none => .unclosedAngle r.opened len
  | r :: _, some '>' =>
    if r.tokens.isEmpty then .emptyNested r.opened pos
    else .missingType pos found st.afterComma
  | _, _ => .missingType pos found st.afterComma

end Reading

/-- Why `c`, followed by `r`, cannot stand at `pos` after a complete field definition: an
identifier is one word too many, any other character is out of place. -/
def unexpectedAt (pos : Nat) (c : Char) (r : List Char) : Malformed :=
  if isIdentStart c then
    let w := c :: r.takeWhile isIdentChar
    .extraWord (String.ofList w) ⟨pos, pos + w.length⟩
  else .unexpected pos c

/-- The identifier `c :: r` at `pos` and, when another identifier follows after blanks, that one
too: the first is then the name and the second the type, otherwise the first is the type.
Returns the tokens, the offset after the last identifier and the text from there. -/
def typeNames (pos : Nat) (c : Char) (r : List Char) : List Token × Nat × List Char :=
  let w := c :: r.takeWhile isIdentChar
  let after := r.dropWhile isIdentChar
  let q := pos + w.length
  match after.dropWhile isBlank with
  | d :: r2 =>
    if isIdentStart d then
      let q2 := q + (after.takeWhile isBlank).length
      let w2 := d :: r2.takeWhile isIdentChar
      ([.leaf .name (String.ofList w) ⟨pos, q⟩,
        .leaf .type (String.ofList w2) ⟨q2, q2 + w2.length⟩],
        q2 + w2.length, r2.dropWhile isIdentChar)
    else ([.leaf .type (String.ofList w) ⟨pos, q⟩], q, after)
  | [] => ([.leaf .type (String.ofList w) ⟨pos, q⟩], q, after)

theorem length_typeNames_le (pos : Nat) (c : Char) (r : List Char) :
    (typeNames pos c r).2.2.length ≤ r.length := by
  unfold typeNames
  dsimp only
  have h1 := length_dropWhile_le isIdentChar r
  split
  · rename_i d r2 h
    have h2 := length_lt_of_dropWhile_eq_cons h
    have h3 := length_dropWhile_le isIdentChar r2
    split <;> simp only <;> omega
  · simp only
    omega

mutual
/-- Reads a field definition from `cs`, which starts at offset `pos` of a declaration of
length `len`, and the rest of the declaration after it. -/
def fieldAt (len : Nat) (st : Reading) (pos : Nat) (cs : List Char) :
    Except Malformed (List Token) :=
  let p := pos + (cs.takeWhile isBlank).length
  match h : cs.dropWhile isBlank with
  | [] => .error (st.missingType len p none)
  | c :: r =>
    if isIdentStart c then
      match hn : typeNames p c r with
      | (names, q, rest) =>
        let st := st.pushAll names
        let a := q + (rest.takeWhile isBlank).length
        match ha : rest.dropWhile isBlank with
        | '(' :: r3 =>
          match hp : closeParen 0 r3 with
          | none => .error (.unclosedParen a)
          | some (inner, r4) =>
            let stop := a + 1 + inner.length
            if Text.trimChars inner = [] then .error (.emptyLength a stop)
            else
              closeAt len (st.push (.leaf .length (String.ofList inner) ⟨a + 1, stop⟩))
                (stop + 1) r4
        | '<' :: r3 => fieldAt len (st.openAt a) (a + 1) r3
        | _ => closeAt len st q rest
    else .error (st.missingType len p (some c))
termination_by cs.length
decreasing_by
  all_goals
    have h0 := length_lt_of_dropWhile_eq_cons h
    have h1 : rest.length ≤ r.length := by
      have := length_typeNames_le p c r
      rw [hn] at this
      exact this
  · have h2 := length_lt_of_dropWhile_eq_cons ha
    have h3 := length_lt_of_closeParen hp
    omega
  · have h2 := length_lt_of_dropWhile_eq_cons ha
    omega
  · omega

/-- Reads what follows a complete field definition from `cs`, which starts at offset `pos`:
a comma and the next field, a `>` that closes the innermost region, or the end. -/
def closeAt (len : Nat) (st : Reading) (pos : Nat) (cs : List Char) :
    Except Malformed (List Token) :=
  let p := pos + (cs.takeWhile isBlank).length
  match h : cs.dropWhile isBlank with
  | [] =>
    match st.regions with
    | [] => .ok st.top.reverse
    | r :: _ => .error (.unclosedAngle r.opened len)
  | c :: r =>
    if c = ',' then fieldAt len (st.push (.leaf .delimiter "," ⟨p, p + 1⟩)) (p + 1) r
    else if c = '>' then
      match st.regions with
      | [] => .error (.unexpected p c)
      | reg :: outer =>
        closeAt len ((Reading.mk st.top outer).push (.nested reg.tokens.reverse ⟨reg.opened, p + 1⟩))
          (p + 1) r
    else .error (unexpectedAt p c r)
termination_by cs.length
decreasing_by
  all_goals
    have h0 := length_lt_of_dropWhile_eq_cons h
    omega
end

/-- The token tree of a declaration, or why it is refused. -/
def tokenize (decl : String) : Except Malformed (List Token) :=
  let cs := decl.toList
  if cs.all isBlank then .error (.empty cs.length)
  else fieldAt cs.length Reading.initial 0 cs

end ColumnDecl
