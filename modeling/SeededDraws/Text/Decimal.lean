/-!
# Digits and powers of ten

The parts of a number with a point: runs of ASCII digits, and an exponent behind an e.
-/

namespace SeededDraws.Decimal

def isDigit (c : Char) : Bool := '0' ≤ c && c ≤ '9'

def value (digits : List Char) : Nat := digits.foldl (fun n c => n * 10 + (c.toNat - 48)) 0

/-- A run of digits in front, and what stands behind it. -/
def splitDigits (text : List Char) : List Char × List Char :=
  (text.takeWhile isDigit, text.dropWhile isDigit)

/-- At least one digit behind a sign, or behind none. -/
def signed? (text : List Char) : Option (Int × List Char) :=
  let (negative, rest) := match text with
    | '-' :: rest => (true, rest)
    | '+' :: rest => (false, rest)
    | rest => (false, rest)
  match splitDigits rest with
  | ([], _) => none
  | (digits, rest) => some (if negative then -(value digits : Int) else value digits, rest)

/-- The exponent in front, if there is a whole one; otherwise nothing is taken. -/
def power (text : List Char) : Option Int × List Char :=
  match text with
  | [] => (none, [])
  | c :: more =>
    if c = 'e' ∨ c = 'E' then
      match signed? more with
      | some (n, rest) => (some n, rest)
      | none => (none, text)
    else (none, text)

end SeededDraws.Decimal
