import ColumnDecl.Diagnostic.Basic
import ColumnDecl.Text.Letter
import ColumnDecl.Text.Numeric

/-!
Why a declaration is refused. Each cause records the offsets it concerns, and
`Malformed.diagnostic` words it as a coded diagnostic:

* E100 the declaration is blank;
* E101 a `<` is never closed, E102 a `(` is never closed;
* E103 a nested region holds no field, E104 a length argument holds only blanks;
* E105 a type name is missing, E106 something stands where nothing more may;
* E107 a single field definition was asked for and another count was found.
-/

namespace ColumnDecl

/-- Why a declaration is refused. -/
inductive Malformed where
  /-- The declaration of length `len` holds only blanks. -/
  | empty (len : Nat)
  /-- The `<` at `opened` is never closed before the end `len`. -/
  | unclosedAngle (opened len : Nat)
  /-- The `(` at `opened` is never closed. -/
  | unclosedParen (opened : Nat)
  /-- The region opened at `opened` is closed at `closed` before any field. -/
  | emptyNested (opened closed : Nat)
  /-- The length argument opened at `opened` and closed at `closed` holds only blanks. -/
  | emptyLength (opened closed : Nat)
  /-- A type name was expected at `pos`, where `found` stands (nothing at the end); `comma`
  is the delimiter that the field follows, if it follows one. -/
  | missingType (pos : Nat) (found : Option Char) (comma : Option Span)
  /-- The identifier `word` at `span` follows a complete field definition. -/
  | extraWord (word : String) (span : Span)
  /-- The character `c` at `pos` follows a complete field definition. -/
  | unexpected (pos : Nat) (c : Char)
  /-- One field definition was asked for in text of length `len`, and `count` were found. -/
  | fieldCount (count len : Nat)
  deriving DecidableEq, Repr

namespace Malformed

/-- The note for a character that cannot start a type name, if it looks like part of one. -/
def identifierNote (c : Char) : List String :=
  if Text.isDigit c then ["type names start with a letter or `_`"]
  else if Text.isLetter c then ["only ASCII letters, digits and `_` form identifiers"]
  else []

/-- The character between backticks, as messages quote it. -/
def ticked (c : Char) : String := "`" ++ c.toString ++ "`"

/-- The code of each cause. -/
def code : Malformed → String
  | .empty .. => "E100"
  | .unclosedAngle .. => "E101"
  | .unclosedParen .. => "E102"
  | .emptyNested .. => "E103"
  | .emptyLength .. => "E104"
  | .missingType .. => "E105"
  | .extraWord .. | .unexpected .. => "E106"
  | .fieldCount .. => "E107"

/-- The cause worded as a diagnostic. -/
def diagnostic : Malformed → Diagnostic
  | .empty len =>
    ⟨"E100", "empty type declaration", [⟨⟨0, len⟩, "expected a type", .primary⟩], []⟩
  | .unclosedAngle opened len =>
    ⟨"E101", "unclosed `<` in nested type",
      [⟨⟨opened, opened + 1⟩, "this `<` is never closed", .primary⟩,
       ⟨⟨len, len⟩, "expected `>` before end of input", .secondary⟩], []⟩
  | .unclosedParen opened =>
    ⟨"E102", "unclosed `(` in length argument",
      [⟨⟨opened, opened + 1⟩, "this `(` is never closed", .primary⟩], []⟩
  | .emptyNested opened closed =>
    ⟨"E103", "empty nested type",
      [⟨⟨opened, closed + 1⟩, "expected at least one field definition", .primary⟩],
      ["ARRAY needs an element type and STRUCT at least one member"]⟩
  | .emptyLength opened closed =>
    ⟨"E104", "empty length argument",
      [⟨⟨opened, closed + 1⟩, "expected a length or precision here", .primary⟩], []⟩
  | .missingType pos found comma =>
    let (what, span, notes) := match found with
      | some c => (ticked c, (⟨pos, pos + 1⟩ : Span), identifierNote c)
      | none => ("end of input", ⟨pos, pos⟩, [])
    let primary : Label := ⟨span, "expected a field definition", .primary⟩
    let related : List Label := match comma with
      | some s => [⟨s, "after this `,`", .secondary⟩]
      | none => []
    ⟨"E105", "expected a type name, found " ++ what, primary :: related, notes⟩
  | .extraWord word span =>
    ⟨"E106", "unexpected identifier `" ++ word ++ "`",
      [⟨span, "a field definition is at most a name and a type", .primary⟩], []⟩
  | .unexpected pos c =>
    let span : Span := ⟨pos, pos + 1⟩
    if c = '>' ∨ c = ')' then
      ⟨"E106", "unmatched " ++ ticked c, [⟨span, "no opening bracket for this", .primary⟩], []⟩
    else if c = '(' ∨ c = '<' then
      ⟨"E106", "unexpected " ++ ticked c,
        [⟨span, "a type takes either one length argument or one nested region", .primary⟩], []⟩
    else
      ⟨"E106", "unexpected character " ++ ticked c, [⟨span, "", .primary⟩],
        if Text.isLetter c then ["only ASCII letters, digits and `_` form identifiers"] else []⟩
  | .fieldCount count len =>
    ⟨"E107", "expected one field definition, found " ++ toString count,
      [⟨⟨0, len⟩, "", .primary⟩], []⟩

theorem code_diagnostic (m : Malformed) : m.diagnostic.code = m.code := by
  cases m with
  | missingType pos found comma => cases found <;> cases comma <;> rfl
  | unexpected pos c =>
    simp only [diagnostic]
    split
    · rfl
    · split <;> rfl
  | _ => rfl

end Malformed

end ColumnDecl
