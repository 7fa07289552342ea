import SeededDraws.Binary64
/-!
# The shortest text of a double

The fewest digits that read back as the same double; of two such numerals the nearer one.
-/

namespace SeededDraws.Binary64

/-- The power of ten of the leading digit of a positive quotient. -/
def leadingPower (num den : Nat) : Int :=
  if den ≤ num then (digitCount (num / den) : Int) - 1 else -(digitCount ((den - 1) / num) : Int)

/-- The ends of the interval of reals that round to a double, as quotients over one denominator:
(lower, value, upper, denominator). Below a power of two the gap is half as wide. -/
def interval (m : Nat) (e : Int) : Nat × Nat × Nat × Nat :=
  let below := if m = leastNormal ∧ lowestExponent < e then 1 else 2
  let (a, b) := scaled 1 (e - 2)
  ((4 * m - below) * a, 4 * m * a, (4 * m + 2) * a, b)

/-- The digits of the value on the grid of `10 ^ power` that reads back, if there is one: the nearer
of the two neighbours, the even one of a tie. -/
def onGrid (m : Nat) (e : Int) (power : Int) : Option Nat :=
  let (low, value, high, den) := interval m e
  let (scale, unit) :=
    if 0 ≤ power then (Nat.pow 10 power.toNat, 1) else (1, Nat.pow 10 (-power).toNat)
  -- everything is compared over the denominator `den * unit`
  let step := scale * den
  let down := value * unit / step
  let inside (d : Nat) : Bool :=
    if m % 2 = 0 then low * unit ≤ d * step && d * step ≤ high * unit
    else low * unit < d * step && d * step < high * unit
  let below := value * unit - down * step
  let above := (down + 1) * step - value * unit
  match inside down, inside (down + 1) with
  | true, true =>
    some (if below < above then down else if above < below then down + 1 else down + down % 2)
  | true, false => some down
  | false, true => some (down + 1)
  | false, false => none

/-- The first of the grids with 1 to 17 digits that holds a point; digits and their power. -/
def shortest (m : Nat) (e : Int) : Nat × Int :=
  let (a, b) := scaled m e
  let top := leadingPower a b
  ((List.range 17).findSome? fun (k : Nat) =>
    (onGrid m e (top - k)).map fun d => (d, top - k)).getD (m, e)

/-- Positional while the decimal point stands at most three places before the first digit and at
most sixteen after it, scientific beyond. -/
def layout (digits : List Char) (point : Int) : List Char :=
  if point ≤ -4 ∨ 16 < point then
    let exponent := point - 1
    let tail := match digits.drop 1 with
      | [] => []
      | rest => '.' :: rest
    let size := padDigits exponent.natAbs
    digits.take 1 ++ tail ++ ['e', if exponent < 0 then '-' else '+'] ++ size
  else if point ≤ 0 then '0' :: '.' :: List.replicate (-point).toNat '0' ++ digits
  else
    let whole := digits.take point.toNat
    let fraction := digits.drop point.toNat
    whole ++ List.replicate (point.toNat - whole.length) '0' ++ '.' ::
      (if fraction.isEmpty then ['0'] else fraction)
where
  padDigits (n : Nat) : List Char :=
    let ds := Nat.toDigits 10 n
    List.replicate (2 - ds.length) '0' ++ ds

def dropZeros (digits : List Char) : List Char := (digits.reverse.dropWhile (· == '0')).reverse

def text : Binary64 → String
  | .nan => "nan"
  | .infinite negative => if negative then "-inf" else "inf"
  | .finite negative m e =>
    let body :=
      if m = 0 then ['0', '.', '0']
      else
        let (d, power) := shortest m e
        let ds := Nat.toDigits 10 d
        layout (dropZeros ds) (ds.length + power)
    String.ofList (if negative then '-' :: body else body)

end SeededDraws.Binary64
