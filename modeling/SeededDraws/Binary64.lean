/-!
# Double precision numbers

Exact dyadic values, rounded to the nearest, ties to even. Nothing here uses machine floating point.
-/

namespace SeededDraws

/-- A finite value is `significand * 2 ^ exponent`, with the significand below `2 ^ 53` and the
exponent at least -1074; unless the exponent is -1074 the significand is at least `2 ^ 52`. -/
inductive Binary64 where
  | finite (negative : Bool) (significand : Nat) (exponent : Int)
  | infinite (negative : Bool)
  | nan
deriving DecidableEq, Inhabited

namespace Binary64

def lowestExponent : Int := -1074
def highestExponent : Int := 971

/-- The least significand of a normal value. -/
def leastNormal : Nat := Nat.pow 2 52

def zero : Binary64 := .finite false 0 lowestExponent

/-- The numerator and denominator of `n * 2 ^ e`. -/
def scaled (n : Nat) (e : Int) : Nat × Nat :=
  if 0 ≤ e then (n * Nat.pow 2 e.toNat, 1) else (n, Nat.pow 2 (-e).toNat)

/-- The integer nearest to a quotient, the even one of two. -/
def roundDiv (num den : Nat) : Nat :=
  let q := num / den
  let r := num % den
  if 2 * r < den then q else if den < 2 * r then q + 1 else q + q % 2

/-- The greatest exponent that leaves a quotient at least `2 ^ 52`, if there is room below. -/
def exponentOf (num den : Nat) : Int :=
  let guess : Int := (Nat.log2 num : Int) - Nat.log2 den - 52
  let (a, b) := scaled num (-guess)
  let e := if a < leastNormal * (b * den) then guess - 1 else guess
  max e lowestExponent

def roundAt (negative : Bool) (num den : Nat) (e : Int) : Binary64 :=
  let (a, b) := scaled num (-e)
  let m := roundDiv a (b * den)
  let (m, e) := if m = 2 * leastNormal then (leastNormal, e + 1) else (m, e)
  if highestExponent < e then .infinite negative else .finite negative m e

/-- The double nearest to a quotient with a positive denominator. -/
def ofQuotient (negative : Bool) (num den : Nat) : Binary64 :=
  if num = 0 then .finite negative 0 lowestExponent
  else roundAt negative num den (exponentOf num den)

/-- The double nearest to a natural number, infinite beyond the range. -/
def ofNat (n : Nat) : Binary64 := ofQuotient false n 1

/-- `none` if the integer is beyond the range. -/
def ofInt? (n : Int) : Option Binary64 :=
  match ofQuotient (n < 0) n.natAbs 1 with
  | .infinite _ => none
  | x => some x

def digitCount (n : Nat) : Nat := (Nat.toDigits 10 n).length

/-- The double nearest to `digits * 10 ^ power`; far outside the range the digits do not matter. -/
def ofDecimal (negative : Bool) (digits : Nat) (power : Int) : Binary64 :=
  let point := digitCount digits + power
  if digits = 0 ∨ point < -400 then .finite negative 0 lowestExponent
  else if 400 < point then .infinite negative
  else if 0 ≤ power then ofQuotient negative (digits * Nat.pow 10 power.toNat) 1
  else ofQuotient negative digits (Nat.pow 10 (-power).toNat)

def signedMantissa (negative : Bool) (m : Nat) : Int := if negative then -(m : Int) else m

/-- A significand moved up by a number of places that is not negative. -/
def shifted (negative : Bool) (m : Nat) (places : Int) : Int :=
  signedMantissa negative (m * Nat.pow 2 places.toNat)

def add : Binary64 → Binary64 → Binary64
  | .nan, _ => .nan
  | _, .nan => .nan
  | .infinite s, .infinite t => if s = t then .infinite s else .nan
  | .infinite s, _ => .infinite s
  | _, .infinite t => .infinite t
  | .finite s m e, .finite t n f =>
    let low := min e f
    let sum := shifted s m (e - low) + shifted t n (f - low)
    if sum = 0 then .finite (s && t) 0 lowestExponent
    else
      let (a, b) := scaled sum.natAbs low
      ofQuotient (sum < 0) a b

/-- Toward zero. -/
def truncate (m : Nat) (e : Int) : Nat := let (a, b) := scaled m e; a / b

/-- How a double stands to an integer; a nan stands nowhere. -/
def compareInt : Binary64 → Int → Option Ordering
  | .nan, _ => none
  | .infinite negative, _ => some (if negative then .lt else .gt)
  | .finite negative m e, n =>
    let (a, b) := scaled m e
    some (compare (signedMantissa negative a) (n * b))

def isZero : Binary64 → Bool
  | .finite _ m _ => m == 0
  | _ => false

def lessEqual : Binary64 → Binary64 → Bool
  | .nan, _ => false
  | _, .nan => false
  | .infinite s, .infinite t => s || !t
  | .infinite s, _ => s
  | _, .infinite t => !t
  | .finite s m e, .finite t n f =>
    let low := min e f
    shifted s m (e - low) ≤ shifted t n (f - low)

/-- A nan is neither less nor greater. -/
def less (x y : Binary64) : Bool := x.lessEqual y && !y.lessEqual x

/-- Toward zero; what is not finite has no integer. -/
def toInt? : Binary64 → Option Int
  | .finite negative m e => some (signedMantissa negative (truncate m e))
  | _ => none

end Binary64

end SeededDraws
