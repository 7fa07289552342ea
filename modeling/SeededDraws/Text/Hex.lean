import SeededDraws.Bytes
import SeededDraws.Text.Blank
/-!
# Hexadecimal pairs

Writing uses lowercase digits; reading takes either case and lets ASCII white space stand between
pairs, never inside one.
-/

namespace SeededDraws.Hex

def digits : List Char := "0123456789abcdef".toList

def digit (n : Nat) : Char := digits.getD n '0'

def value? (c : Char) : Option Nat :=
  if '0' ≤ c ∧ c ≤ '9' then some (c.toNat - 48)
  else if 'a' ≤ c ∧ c ≤ 'f' then some (c.toNat - 87)
  else if 'A' ≤ c ∧ c ≤ 'F' then some (c.toNat - 55)
  else none

def ofByte (x : UInt8) : List Char := [digit (x.toNat / 16), digit (x.toNat % 16)]

def write (b : Bytes) : List Char := b.flatMap ofByte

def read : List Char → Option Bytes
  | [] => some []
  | [c] => if isSpacing c then some [] else none
  | c :: d :: rest =>
    if isSpacing c then read (d :: rest)
    else do
      let high ← value? c
      let low ← value? d
      let tail ← read rest
      return UInt8.ofNat (high * 16 + low) :: tail

/-- The digits of a number without leading zeros. -/
def ofNat (n : Nat) : List Char := Nat.toDigits 16 n

def ofInt : Int → String
  | .ofNat n => "0x" ++ String.ofList (ofNat n)
  | .negSucc n => "-0x" ++ String.ofList (ofNat (n + 1))

/-- A code point in a fixed number of digits. -/
def padded (width n : Nat) : List Char := (ofNat n).leftpad width '0'

@[simp] theorem length_write (b : Bytes) : (write b).length = 2 * b.length := by
  induction b with
  | nil => rfl
  | cons x rest ih =>
    simp only [write, List.flatMap_cons, List.length_append, List.length_cons] at ih ⊢
    rw [ih]
    simp [ofByte]
    omega

end SeededDraws.Hex

namespace SeededDraws

def Bytes.hex (b : Bytes) : String := String.ofList (Hex.write b)

/-- The digits behind a 0x. -/
def Bytes.marked (b : Bytes) : String := "0x" ++ b.hex

end SeededDraws
