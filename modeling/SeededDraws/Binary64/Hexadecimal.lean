import SeededDraws.Binary64.Text
import SeededDraws.Text.Hex
/-!
# Doubles in hexadecimal

The significand with one digit before the point and thirteen behind it, and a power of two. Zero is
written short, and what is not finite as a word.
-/

namespace SeededDraws.Binary64

def powerText (e : Int) : String := (if e < 0 then "-" else "+") ++ toString e.natAbs

def hexText : Binary64 → String
  | .finite negative m e =>
    let sign := if negative then "-" else ""
    if m = 0 then sign ++ "0x0.0p+0"
    else
      let places := String.ofList (Hex.padded 13 (m % leastNormal))
      s!"{sign}0x{m / leastNormal}.{places}p{powerText (e + 52)}"
  | x => x.text

end SeededDraws.Binary64
