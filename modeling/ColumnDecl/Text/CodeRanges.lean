/-!
Character classes given as lists of inclusive code point ranges. The Unicode properties that
the tokenizer's notes, the highlighter and quoted text rely on are tables of this shape.
-/

namespace ColumnDecl.Text

/-- A set of code points, as inclusive ranges `(lo, hi)`. -/
abbrev CodeRanges := List (Nat × Nat)

/-- Whether the code point of `c` lies in one of the ranges. -/
def CodeRanges.contains (rs : CodeRanges) (c : Char) : Bool :=
  rs.any fun r => r.1 ≤ c.toNat && c.toNat ≤ r.2

theorem CodeRanges.contains_iff (rs : CodeRanges) (c : Char) :
    rs.contains c = true ↔ ∃ r ∈ rs, r.1 ≤ c.toNat ∧ c.toNat ≤ r.2 := by
  simp [CodeRanges.contains]

end ColumnDecl.Text
