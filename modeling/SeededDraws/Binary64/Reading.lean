import SeededDraws.Binary64
import SeededDraws.Text.Decimal
import SeededDraws.Text.Numeral
/-!
# Doubles written as text

White space around, one sign, and then a word for what is not finite, or digits with a point and an
exponent. Single underscores may stand between digits. What is beyond the range is infinite.
-/

namespace SeededDraws.Binary64

/-- The text without its underscores, if each of them stands between two digits. -/
def dropUnderscores? (before : Char) : List Char → Option (List Char)
  | [] => if before = '_' then none else some []
  | c :: rest =>
    if c = '_' then if Decimal.isDigit before then dropUnderscores? c rest else none
    else if before = '_' && !Decimal.isDigit c then none
    else (dropUnderscores? c rest).map (c :: ·)

/-- Digits on at least one side of the point. -/
def readFinite? (negative : Bool) (text : List Char) : Option Binary64 :=
  let (whole, rest) := Decimal.splitDigits text
  let (fraction, rest) := match rest with
    | '.' :: rest => Decimal.splitDigits rest
    | rest => ([], rest)
  let (power, rest) := Decimal.power rest
  let digits := whole ++ fraction
  if digits.isEmpty || !rest.isEmpty then none
  else some (.ofDecimal negative (Decimal.value digits) (power.getD 0 - fraction.length))

def readUnsigned? (negative : Bool) (text : List Char) : Option Binary64 :=
  let word := String.ofList (text.map Char.toLower)
  if word = "inf" ∨ word = "infinity" then some (.infinite negative)
  else if word = "nan" then some .nan
  else readFinite? negative text

def readSigned? : List Char → Option Binary64
  | '-' :: rest => readUnsigned? true rest
  | '+' :: rest => readUnsigned? false rest
  | text => readUnsigned? false text

/-- Digits of any script count as digits. -/
def read? (text : List Char) : Option Binary64 :=
  (dropUnderscores? ' ' (trimBy isSpacing (text.map Numeral.plain))).bind readSigned?

end SeededDraws.Binary64
