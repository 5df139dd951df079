/-!
Suggestions for a mistyped option: the known names whose similarity to the typed one is at
least three fifths. Similarity is `2·M / T`, where `T` is the two names' total length and `M`
the number of characters they have in common in order: the longest common run, found first in
the known name and then in the typed one, and recursively the common characters to its left
and to its right. In a typed name of 200 characters or more, a character that occurs more than
once per hundred characters (plus one) does not start a common run but may extend one. At most
three names are suggested, the most similar first and equal ones by name, last name first.
-/

namespace ColumnDecl.Cli

/-- The longest common run of `a[alo:ahi]` and `b[blo:bhi]`, as `(i, j, k)`: it starts at `i`
in `a` and `j` in `b` and is `k` long. Characters `rare` says are too frequent in `b` do not
start a run but may extend one. -/
def longestMatch (a b : Array Char) (rare : Char → Bool) (alo ahi blo bhi : Nat) :
    Nat × Nat × Nat :=
  -- lengths of the common runs ending at each j of b, for the previous i
  let step (acc : (Nat × Nat × Nat) × List (Nat × Nat)) (i : Nat) :=
    let (best, prev) := acc
    let ai := a[i]?.getD ' '
    let (best, next) := (List.range' blo (bhi - blo)).foldl (fun (st : (Nat × Nat × Nat) × List (Nat × Nat)) j =>
      let (best, next) := st
      if b[j]? == some ai ∧ rare ai then
        let k := ((prev.lookup (j - 1)).filter (fun _ => j > 0)).getD 0 + 1
        let best := if k > best.2.2 then (i + 1 - k, j + 1 - k, k) else best
        (best, (j, k) :: next)
      else (best, next)) (best, [])
    (best, next)
  let (best, _) := (List.range' alo (ahi - alo)).foldl step ((alo, blo, 0), [])
  let (i, j, k) := best
  -- extend the run over equal characters on both sides
  let back := ((List.range (min (i - alo) (j - blo))).takeWhile fun d =>
    a[i - 1 - d]? == b[j - 1 - d]?).length
  let (i, j, k) := (i - back, j - back, k + back)
  let fwd := ((List.range (min (ahi - (i + k)) (bhi - (j + k)))).takeWhile fun d =>
    a[i + k + d]? == b[j + k + d]?).length
  (i, j, k + fwd)

/-- The number of characters of `a[alo:ahi]` and `b[blo:bhi]` in common, taking the longest
common run and then recursively what lies on either side of it. -/
def matchedCount (a b : Array Char) (rare : Char → Bool) :
    Nat → Nat → Nat → Nat → Nat → Nat
  | 0, _, _, _, _ => 0
  | fuel + 1, alo, ahi, blo, bhi =>
    let (i, j, k) := longestMatch a b rare alo ahi blo bhi
    if k = 0 then 0
    else
      let left := if alo < i ∧ blo < j then matchedCount a b rare fuel alo i blo j else 0
      let right := if i + k < ahi ∧ j + k < bhi then
        matchedCount a b rare fuel (i + k) ahi (j + k) bhi else 0
      k + left + right

/-- The common characters of a known name `a` and a typed name `b`. -/
def commonCount (a b : String) : Nat :=
  let ac := a.toList.toArray
  let bc := b.toList.toArray
  let n := bc.size
  let rare : Char → Bool := fun c =>
    n < 200 || (bc.toList.count c) ≤ n / 100 + 1
  matchedCount ac bc rare (ac.size + bc.size + 1) 0 ac.size 0 bc.size

/-- The close names among `known` for `typed`, each with its common count and total length. -/
def closeMatches (typed : String) (known : List String) : List String :=
  let scored := known.filterMap fun name =>
    let m := commonCount name typed
    let t := name.length + typed.length
    if 10 * m ≥ 3 * t ∧ t > 0 then some (m, t, name) else none
  -- most similar first: m/t larger, then the name larger
  let before (x y : Nat × Nat × String) : Bool :=
    x.1 * y.2.1 > y.1 * x.2.1 || (x.1 * y.2.1 = y.1 * x.2.1 && x.2.2 > y.2.2)
  ((scored.mergeSort before).take 3).map (·.2.2)

end ColumnDecl.Cli
