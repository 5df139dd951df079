import ColumnDecl.Span

/-!
Diagnostics: a coded error with labels that point into the declaration and notes that explain
it. The primary label marks the fault itself; a secondary one points at related text, such as
the comma after which a field was expected. `Diagnostic.summary` is the one-line form,
`code: message`.
-/

namespace ColumnDecl

/-- How a label is drawn: the primary label marks the fault, a secondary one related text. -/
inductive LabelStyle where
  | primary
  | secondary
  deriving DecidableEq, Repr

/-- A span of the declaration with a message to show under it. -/
structure Label where
  span : Span
  message : String
  style : LabelStyle := .primary
  deriving DecidableEq, Repr

/-- A coded error with labels into the declaration and notes. -/
structure Diagnostic where
  code : String
  message : String
  labels : List Label
  notes : List String
  deriving DecidableEq, Repr

namespace Diagnostic

/-- The span of the first primary label, if there is one. -/
def primarySpan? (d : Diagnostic) : Option Span :=
  (d.labels.find? (·.style == .primary)).map (·.span)

/-- The diagnostic on one line: its code and message. -/
def summary (d : Diagnostic) : String := d.code ++ ": " ++ d.message

end Diagnostic

end ColumnDecl
