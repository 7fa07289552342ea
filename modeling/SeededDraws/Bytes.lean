/-!
# Byte strings

Byte strings and big-endian numerals. `Bytes.numeral` writes a number in a fixed width,
`Bytes.value` reads a byte string of any width.
-/

namespace SeededDraws

abbrev Bytes := List UInt8

namespace Bytes

def zeros (count : Nat) : Bytes := List.replicate count 0

/-- Zero bytes in front, up to `width` bytes in all; a longer string is left alone. -/
def padLeft (width : Nat) (b : Bytes) : Bytes := zeros (width - b.length) ++ b

def value (b : Bytes) : Nat := b.foldl (fun total x => total * 256 + x.toNat) 0

/-- The `width` low bytes of a number, highest first. -/
def numeral : Nat → Nat → Bytes
  | 0, _ => []
  | width + 1, n => numeral width (n / 256) ++ [UInt8.ofNat n]

/-- Cuts a byte string into words of `width` bytes; the last may be shorter. -/
def chunks (width : Nat) (b : Bytes) : List Bytes :=
  if _h : 0 < width ∧ b ≠ [] then b.take width :: chunks width (b.drop width) else []
termination_by b.length
decreasing_by
  have := List.length_pos_iff.mpr _h.2
  rw [List.length_drop]
  omega

@[simp] theorem length_zeros (count : Nat) : (zeros count).length = count := by simp [zeros]

@[simp] theorem length_numeral (width n : Nat) : (numeral width n).length = width := by
  induction width generalizing n with
  | zero => rfl
  | succ width ih => simp [numeral, ih]

theorem length_padLeft (width : Nat) (b : Bytes) :
    (padLeft width b).length = max width b.length := by
  simp [padLeft]
  omega

end Bytes

/-- The byte counts of the two wire layouts. -/
def wordSize : Nat := 32
def addressSize : Nat := 20
def nonceSize : Nat := 8
def selectorSize : Nat := 4

def maxUint256 : Nat := Nat.pow 2 256 - 1
def maxUint64 : Nat := Nat.pow 2 64 - 1

def zeroWord : Bytes := Bytes.zeros wordSize

end SeededDraws
