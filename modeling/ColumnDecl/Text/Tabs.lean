/-!
Tab expansion with stops every eight columns. A tab advances to the next stop; a line feed or
carriage return starts a new line at column zero. Diagnostics show source lines expanded this
way and measure their carets on the expanded text.
-/

namespace ColumnDecl.Text

/-- The distance between tab stops. -/
def tabWidth : Nat := 8

/-- `cs` with its tabs expanded, starting at column `col`. -/
def expandTabsFrom (col : Nat) : List Char → List Char
  | [] => []
  | c :: r =>
    if c = '\t' then
      let k := tabWidth - col % tabWidth
      List.replicate k ' ' ++ expandTabsFrom (col + k) r
    else if c = '\n' ∨ c = '\r' then
      c :: expandTabsFrom 0 r
    else
      c :: expandTabsFrom (col + 1) r

/-- `cs` with its tabs expanded from column zero. -/
def expandTabs (cs : List Char) : List Char := expandTabsFrom 0 cs

/-- Text without tabs is left as it is. -/
theorem expandTabsFrom_of_no_tab (col : Nat) (cs : List Char) (h : '\t' ∉ cs) :
    expandTabsFrom col cs = cs := by
  induction cs generalizing col with
  | nil => rfl
  | cons c r ih =>
    simp only [List.mem_cons, not_or] at h
    have hc : c ≠ '\t' := fun e => h.1 e.symm
    simp only [expandTabsFrom, hc, if_false]
    split <;> simp [ih _ h.2]

end ColumnDecl.Text
