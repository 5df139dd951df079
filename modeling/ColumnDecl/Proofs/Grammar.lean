import ColumnDecl.Token.Tokenize

/-
The grammar of declarations, as relations on text that also say which token shapes a derivation yields.

Blanks W are space, tab, carriage return and line feed. An identifier is an ASCII letter or `_`, then ASCII letters,
digits and `_`. A length argument L is text whose parentheses balance (no prefix closes more than it opens, and the
whole closes all it opens) and that is not blank once trimmed of Unicode blanks. The grammar is

  decl  ::= ws seq ws
  seq   ::= field (ws ',' ws field)*
  field ::= ident (W+ ident)? (ws '(' L ')' | ws '<' ws seq ws '>')?

Each relation `R t r out` says that `t` is a text derived from `R` followed by the text `r`, and that the derivation
yields the shapes `out`: a field its NAME, TYPE and LENGTH or NESTED shapes, a sequence its fields with a
FIELD_DELIMITER between each two. The shapes are built from the derivation and never constrain it, so `Decl`, which
forgets them, is the language of the grammar.

Also here: the character classes the tokenizer tests, and what the text of a derivation starts with, which is what
lets a scanner that reads ahead agree with a grammar that does not.
-/

namespace ColumnDecl.Grammar

open Scan

/-! ## Character classes -/

/-- a run of blanks -/
def Blanks (w : List Char) : Prop := ∀ c ∈ w, isBlank c = true

/-- an identifier -/
def IsIdent : List Char → Prop
  | [] => False
  | c :: cs => isIdentStart c = true ∧ ∀ d ∈ cs, isIdentChar d = true

/-- no prefix of `l` closes more parentheses than it opens, and the whole of `l` closes all it opens -/
def Balanced (l : List Char) : Prop :=
  (∀ n, (l.take n).count ')' ≤ (l.take n).count '(') ∧ l.count ')' = l.count '('

/-- the text between the parentheses of a length argument -/
def LengthText (l : List Char) : Prop := Balanced l ∧ Text.trimChars l ≠ []

@[simp] theorem blanks_nil : Blanks [] := by simp [Blanks]

@[simp] theorem blanks_cons {c : Char} {w : List Char} : Blanks (c :: w) ↔ isBlank c = true ∧ Blanks w := by
  simp [Blanks]

@[simp] theorem blanks_append {w w' : List Char} : Blanks (w ++ w') ↔ Blanks w ∧ Blanks w' := by
  simp only [Blanks, List.mem_append]
  grind

theorem isIdentChar_of_isIdentStart {c : Char} (h : isIdentStart c = true) : isIdentChar c = true := by
  simp only [isIdentStart, isIdentChar, Char.isAlphanum, Bool.or_eq_true] at h ⊢
  rcases h with h | h
  · exact .inl (.inl h)
  · exact .inr h

theorem isBlank_eq_false_of_isIdentChar {c : Char} (h : isIdentChar c = true) : isBlank c = false := by
  cases hb : isBlank c
  · rfl
  · simp only [isBlank, Bool.or_eq_true, decide_eq_true_eq] at hb
    rcases hb with ((rfl | rfl) | rfl) | rfl <;> exact absurd h (by decide)

/-- The punctuation of a declaration is neither blank nor part of an identifier. -/
theorem punct_classes {c : Char} (h : c = '(' ∨ c = '<' ∨ c = ',' ∨ c = '>' ∨ c = ')') :
    isBlank c = false ∧ isIdentChar c = false := by
  rcases h with rfl | rfl | rfl | rfl | rfl <;> decide

theorem isIdentStart_eq_false_of_punct {c : Char} (h : c = '(' ∨ c = '<' ∨ c = ',' ∨ c = '>' ∨ c = ')') :
    isIdentStart c = false := by
  cases hs : isIdentStart c
  · rfl
  · have := isIdentChar_of_isIdentStart hs
    rw [(punct_classes h).2] at this
    exact this.symm

/-! ## The grammar -/

/-- the identifiers a field definition opens with: its type, or its name, blanks and its type -/
inductive Names : List Char → List Char → List Shape → Prop
  | type {l r} : IsIdent l → Names (l ++ r) r [.leaf .type (String.ofList l)]
  | named {n b w l r} : IsIdent n → isBlank b = true → Blanks w → IsIdent l →
      Names (n ++ b :: (w ++ l ++ r)) r [.leaf .name (String.ofList n), .leaf .type (String.ofList l)]

mutual
/-- what follows the identifiers of a field definition: nothing, a length argument, or a nested region -/
inductive Suffix : List Char → List Char → List Shape → Prop
  | none {t} : Suffix t t []
  | length {w l r} : Blanks w → LengthText l →
      Suffix (w ++ '(' :: (l ++ ')' :: r)) r [.leaf .length (String.ofList l)]
  | nested {w₁ w₂ w₃ t t' r f u} : Blanks w₁ → Blanks w₂ → Field t t' f → More t' (w₃ ++ '>' :: r) u →
      Blanks w₃ → Suffix (w₁ ++ '<' :: (w₂ ++ t)) r [.nested (f ++ u)]

/-- a field definition -/
inductive Field : List Char → List Char → List Shape → Prop
  | mk {t t' r h s} : Names t t' h → Suffix t' r s → Field t r (h ++ s)

/-- the field definitions of a sequence after its first, each after a comma -/
inductive More : List Char → List Char → List Shape → Prop
  | nil {t} : More t t []
  | cons {w₁ w₂ t t' r f u} : Blanks w₁ → Blanks w₂ → Field t t' f → More t' r u →
      More (w₁ ++ ',' :: (w₂ ++ t)) r (.leaf .delimiter "," :: (f ++ u))
end

/-- field definitions separated by commas -/
def Seq (t r : List Char) (out : List Shape) : Prop := ∃ t' f u, Field t t' f ∧ More t' r u ∧ out = f ++ u

/-- a declaration, with the shapes of its tokens -/
def Declares (t : List Char) (out : List Shape) : Prop :=
  ∃ w₁ w₂ t', Blanks w₁ ∧ Blanks w₂ ∧ t = w₁ ++ t' ∧ Seq t' w₂ out

/-- the language of the grammar -/
def Decl (t : List Char) : Prop := ∃ out, Declares t out

end ColumnDecl.Grammar
