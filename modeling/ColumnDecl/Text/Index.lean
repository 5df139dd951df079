/-!
Positions into text that may lie past its end, or count from its end when negative. An index
`k` into text of length `n` resolves to `k + n` when negative and is then held to `[0, n]`;
a prefix up to such an index, and searches for a character before or from an offset, are
what a diagnostic needs to find the line around an offset.
-/

namespace ColumnDecl.Text

/-- The offset that index `k` names in text of length `n`: negative indices count from the
end, and the result is held to `[0, n]`. -/
def resolveIndex (n : Nat) (k : Int) : Nat :=
  if k < 0 then (k + n).toNat else min k.toNat n

/-- The characters of `cs` before index `k`. -/
def prefixTo (cs : List Char) (k : Int) : List Char :=
  cs.take (resolveIndex cs.length k)

/-- The characters of `cs` from offset `a` up to offset `b`; none when `b ≤ a`. -/
def between (cs : List Char) (a b : Nat) : List Char :=
  (cs.drop a).take (b - a)

/-- How many times `c` occurs in `cs` before offset `k`. -/
def countBefore (c : Char) (cs : List Char) (k : Nat) : Nat :=
  (cs.take k).count c

/-- The offset of the last `c` before offset `k`, if any. -/
def lastBefore (c : Char) (cs : List Char) (k : Nat) : Option Nat :=
  ((cs.take k).zipIdx.filter (·.1 == c)).getLast?.map (·.2)

/-- The offset of the first `c` at or after offset `k`, if any. -/
def firstFrom (c : Char) (cs : List Char) (k : Nat) : Option Nat :=
  ((cs.drop k).findIdx? (· == c)).map (· + k)

theorem resolveIndex_le (n : Nat) (k : Int) : resolveIndex n k ≤ n := by
  unfold resolveIndex
  split <;> omega

theorem prefixTo_of_nonneg (cs : List Char) (k : Nat) : prefixTo cs k = cs.take k := by
  simp only [prefixTo, resolveIndex]
  split
  · omega
  · simp only [Int.toNat_natCast]
    rw [List.take_eq_take_iff]
    omega

end ColumnDecl.Text
