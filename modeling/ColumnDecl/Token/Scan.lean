import ColumnDecl.Text.Trim
import ColumnDecl.Diagnostic.Malformed

/-!
The lexical classes of a declaration and the runs they form. Blanks between tokens are space,
tab, carriage return and line feed; an identifier is an ASCII letter or `_` followed by ASCII
letters, digits and `_`; a length argument runs from a `(` to its matching `)`, so commas and
inner parentheses belong to it. Each run is read off the front of a list of characters, with a
lemma that the rest is shorter, which is what the tokenizer's recursion decreases.

`readLength` reads a length argument by offsets into the whole declaration instead: it counts
parentheses from the offset of the `(` until the count returns to zero, and refuses the argument
when it never does or when the text between holds only blanks.
-/

namespace ColumnDecl.Scan

/-- Blanks between tokens: space, tab, carriage return and line feed. -/
def isBlank (c : Char) : Bool := c = ' ' || c = '\t' || c = '\r' || c = '\n'

/-- An identifier starts with an ASCII letter or `_`. -/
def isIdentStart (c : Char) : Bool := c.isAlpha || c = '_'

/-- An identifier goes on with ASCII letters, digits and `_`. -/
def isIdentChar (c : Char) : Bool := c.isAlphanum || c = '_'

/-- The text after a `(` split at the matching `)`: what stands between them, and what follows
the `)`. `depth` counts the parentheses opened since, and none is returned when the text ends
first. -/
def closeParen (depth : Nat) : List Char → Option (List Char × List Char)
  | [] => none
  | c :: r =>
    if c = ')' then
      if depth = 0 then some ([], r)
      else (closeParen (depth - 1) r).map fun x => (c :: x.1, x.2)
    else if c = '(' then (closeParen (depth + 1) r).map fun x => (c :: x.1, x.2)
    else (closeParen depth r).map fun x => (c :: x.1, x.2)

theorem length_dropWhile_le {α : Type} (p : α → Bool) :
    ∀ l : List α, (l.dropWhile p).length ≤ l.length
  | [] => Nat.le_refl _
  | c :: cs => by
    rw [List.dropWhile_cons]
    split
    · exact Nat.le_succ_of_le (length_dropWhile_le p cs)
    · exact Nat.le_refl _

theorem length_lt_of_dropWhile_eq_cons {α : Type} {p : α → Bool} {l r : List α} {c : α}
    (h : l.dropWhile p = c :: r) : r.length < l.length := by
  have := length_dropWhile_le p l
  rw [h, List.length_cons] at this
  omega

/-- Nothing is lost at a matching parenthesis: the text is the interior, the `)` and the rest. -/
theorem closeParen_eq_some {d : Nat} {cs i r : List Char} (h : closeParen d cs = some (i, r)) :
    cs = i ++ ')' :: r := by
  induction cs generalizing d i r with
  | nil => simp [closeParen] at h
  | cons c cs ih =>
    simp only [closeParen] at h
    split at h
    · split at h
      · simp only [Option.some.injEq, Prod.mk.injEq] at h
        obtain ⟨rfl, rfl⟩ := h
        simp_all
      · obtain ⟨x, hx, hx'⟩ := Option.map_eq_some_iff.1 h
        simp only [Prod.mk.injEq] at hx'
        obtain ⟨rfl, rfl⟩ := hx'
        simp [ih hx, *]
    · split at h <;>
      · obtain ⟨x, hx, hx'⟩ := Option.map_eq_some_iff.1 h
        simp only [Prod.mk.injEq] at hx'
        obtain ⟨rfl, rfl⟩ := hx'
        simp [ih hx]

theorem length_lt_of_closeParen {d : Nat} {cs i r : List Char}
    (h : closeParen d cs = some (i, r)) : r.length < cs.length := by
  rw [closeParen_eq_some h]
  simp only [List.length_append, List.length_cons]
  omega

/-! ## Length arguments by offset -/

/-- The offset of the `)` at which the parentheses counted from offset `pos`, `depth` of them
open so far, are all closed again, in the text `cs` that starts at `pos`; none when the text
ends first. Only a `)` ends the scan, so a count that falls below zero is not a return to zero
until a `(` has raised it again. -/
def closingAt (depth : Int) (pos : Nat) : List Char → Option Nat
  | [] => none
  | c :: r =>
    if c = '(' then closingAt (depth + 1) (pos + 1) r
    else if c = ')' then
      if depth - 1 = 0 then some pos else closingAt (depth - 1) (pos + 1) r
    else closingAt depth (pos + 1) r

/-- The length argument whose `(` stands at offset `pos` of `decl`: the text between that `(`
and the `)` at which the count of parentheses from `pos` returns to zero, its span, and the
offset after the `)`. The argument is refused when the count never returns to zero, and when the
text between holds only Unicode blanks. -/
def readLength (decl : String) (pos : Nat) : Except Malformed (String × Span × Nat) :=
  match closingAt 0 pos (decl.toList.drop pos) with
  | none => .error (.unclosedParen pos)
  | some close =>
    let interior : Span := ⟨pos + 1, close⟩
    let lexeme := interior.text decl
    if Text.trim lexeme = "" then .error (.emptyLength pos close)
    else .ok (lexeme, interior, close + 1)

end ColumnDecl.Scan
