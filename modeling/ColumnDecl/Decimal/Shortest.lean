import ColumnDecl.Decimal.Binary

/-!
The shortest decimal text of a binary64 value. Among the decimals that read back as the value,
those with the fewest significant digits are taken, and of these the one nearest the value,
a tie going to the even last digit. The digits are written positionally when the decimal point
falls within sixteen places left of the last integer digit and four places right of the point
(`1e16` is written `1e+16`, `0.0001` as it is, `0.00001` as `1e-05`), with `.0` after a whole
number; otherwise as one digit, the rest after a point, `e`, a sign and two or more exponent
digits. Infinities are `inf` and `-inf`, not-a-number `nan`, and zero keeps its sign.
-/

namespace ColumnDecl.Decimal

/-- The exponent `k` with `10^k ≤ num / den < 10^(k+1)`, for positive `num` and `den`. -/
def floorLog10 (num den : Nat) : Int :=
  let est : Int := (digitCount num : Int) - digitCount den
  let (a, b) := pow10 est
  if num * b ≥ den * a then est else est - 1

/-- The decimal digits of a positive finite value `m · 2^e` with the fewest significant
digits that read back as it, and the place of the decimal point: the value is `0.d₁d₂… ·
10^point`. -/
def shortestDigits (m : Nat) (e : Int) : List Char × Int :=
  -- In units of 2^(e-2) the value is 4m and it reads back from the open or closed interval
  -- between its neighbours' midpoints.
  let boundary := m = Nat.pow 2 52 ∧ e > -1074
  let lo := if boundary then 4 * m - 1 else 4 * m - 2
  let hi := 4 * m + 2
  let closed := m % 2 = 0
  let (ua, ub) := pow2 (e - 2)
  -- The value is num / den.
  let num := 4 * m * ua
  let den := ub
  let top := floorLog10 num den
  -- Whether c · 10^q lies within the interval.
  let within (c : Nat) (q : Int) : Bool :=
    let (ta, tb) := pow10 q
    let lhs := c * ta * ub
    let above := if closed then lhs ≥ lo * ua * tb else lhs > lo * ua * tb
    let below := if closed then lhs ≤ hi * ua * tb else lhs < hi * ua * tb
    above && below
  let rec search (k : Nat) (left : Nat) : Nat × Int :=
    let q := top - k + 1
    let (ta, tb) := pow10 q
    let c1 := num * tb / (den * ta)
    let c2 := c1 + 1
    match left, within c1 q, within c2 q with
    | 0, _, _ => (c1, q)
    | _, true, false => (c1, q)
    | _, false, true => (c2, q)
    | _, true, true =>
      -- the nearer of the two, a tie to the even one
      let twice := 2 * num * tb
      let mid := (c1 + c2) * den * ta
      if twice < mid then (c1, q)
      else if twice > mid then (c2, q)
      else if c1 % 2 = 0 then (c1, q) else (c2, q)
    | left + 1, false, false => search (k + 1) left
  let (c, q) := search 1 17
  let ds := Nat.toDigits 10 c
  let point := (ds.length : Int) + q
  ((ds.reverse.dropWhile (· == '0')).reverse, point)

/-- The exponent of scientific notation: a sign and at least two digits. -/
def exponentText (x : Int) : String :=
  let ds := Nat.toDigits 10 x.natAbs
  (if x < 0 then "-" else "+") ++ String.ofList (List.replicate (2 - ds.length) '0' ++ ds)

/-- Digits `0.ds · 10^point` as text, positional or scientific. -/
def digitsText (ds : List Char) (point : Int) : String :=
  if -4 < point ∧ point ≤ 16 then
    if point ≤ 0 then "0." ++ String.ofList (List.replicate point.natAbs '0' ++ ds)
    else if point.toNat ≥ ds.length then
      String.ofList (ds ++ List.replicate (point.toNat - ds.length) '0') ++ ".0"
    else String.ofList (ds.take point.toNat) ++ "." ++ String.ofList (ds.drop point.toNat)
  else
    match ds with
    | [] => "0"
    | [d] => String.ofList [d] ++ "e" ++ exponentText (point - 1)
    | d :: rest => String.ofList (d :: '.' :: rest) ++ "e" ++ exponentText (point - 1)

/-- The shortest text of a value. -/
def Binary64.toText : Binary64 → String
  | .nan => "nan"
  | .infinite neg => if neg then "-inf" else "inf"
  | .finite neg m e =>
    let body := if m = 0 then "0.0" else
      let (ds, point) := shortestDigits m e
      digitsText ds point
    if neg then "-" ++ body else body

end ColumnDecl.Decimal
