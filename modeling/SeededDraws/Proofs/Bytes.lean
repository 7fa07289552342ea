import Mathlib.Data.List.Induction
import SeededDraws.Bytes
/-!
# Numerals and values

Writing a number in a fixed width and reading a byte string are inverse to each other: a number that
fits the width is read back, and every byte string is the numeral of its value.
-/

namespace SeededDraws.Bytes

theorem value_concat (b : Bytes) (x : UInt8) : value (b ++ [x]) = value b * 256 + x.toNat := by
  rw [value, List.foldl_append]
  rfl

theorem value_lt (b : Bytes) : b.value < Nat.pow 256 b.length := by
  induction b using List.reverseRecOn with
  | nil => exact Nat.one_pos
  | append_singleton b x ih =>
    have byte := x.toNat_lt
    have wider : Nat.pow 256 (b.length + 1) = Nat.pow 256 b.length * 256 := rfl
    rw [value_concat, List.length_append, List.length_singleton, wider]
    omega

theorem value_lt_of_length {b : Bytes} {size : Nat} (sized : b.length = size) :
    b.value < Nat.pow 256 size := sized ▸ value_lt b

/-- A number that fits the width is read back. -/
theorem value_numeral {width n : Nat} (fits : n < Nat.pow 256 width) :
    value (numeral width n) = n := by
  induction width generalizing n with
  | zero =>
    have none : n = 0 := Nat.lt_one_iff.mp fits
    rw [none]
    rfl
  | succ width ih =>
    have high : n / 256 < Nat.pow 256 width := (Nat.div_lt_iff_lt_mul (by decide)).mpr fits
    have low : (UInt8.ofNat n).toNat = n % 256 := UInt8.toNat_ofNat'
    rw [numeral, value_concat, ih high, low]
    omega

theorem value_numeral_word {n : Nat} (fits : n < Nat.pow 2 256) :
    value (numeral wordSize n) = n :=
  value_numeral (Nat.lt_of_lt_of_eq fits (by decide))

/-- Leading zeros are kept, for the length fixes the width. -/
theorem numeral_value {b : Bytes} {width : Nat} (sized : b.length = width) :
    numeral width (value b) = b := by
  subst sized
  induction b using List.reverseRecOn with
  | nil => rfl
  | append_singleton b x ih =>
    have byte := x.toNat_lt
    have high : (value b * 256 + x.toNat) / 256 = value b := by omega
    have low : UInt8.ofNat (value b * 256 + x.toNat) = x := by
      apply UInt8.toNat_inj.mp
      have cut : (UInt8.ofNat (value b * 256 + x.toNat)).toNat =
          (value b * 256 + x.toNat) % 256 := UInt8.toNat_ofNat'
      omega
    rw [value_concat, List.length_append, List.length_singleton, numeral, high, low, ih]

theorem eq_of_value {a b : Bytes} (sized : a.length = b.length) (same : a.value = b.value) :
    a = b := by
  rw [← numeral_value sized, same, numeral_value rfl]

theorem value_append (a b : Bytes) : value (a ++ b) = value a * Nat.pow 256 b.length + value b := by
  induction b using List.reverseRecOn with
  | nil => rw [List.append_nil]; exact (Nat.mul_one _).symm
  | append_singleton b x ih =>
    have wider : Nat.pow 256 (b.length + 1) = Nat.pow 256 b.length * 256 := rfl
    rw [← List.append_assoc, value_concat, value_concat, ih, List.length_append,
      List.length_singleton, wider, Nat.add_mul, Nat.mul_assoc, Nat.add_assoc]

theorem value_zeros (count : Nat) : value (zeros count) = 0 := by
  induction count with
  | zero => rfl
  | succ count ih =>
    have shorter : value (List.replicate count 0) = 0 := ih
    rw [zeros, List.replicate_succ', value_concat, shorter]
    rfl

/-- Filling up on the left keeps the value. -/
theorem padLeft_eq_numeral {b : Bytes} {width : Nat} (short : b.length ≤ width) :
    padLeft width b = numeral width b.value := by
  have sized : (padLeft width b).length = width := by
    rw [length_padLeft, Nat.max_eq_left short]
  have value : (padLeft width b).value = b.value := by
    rw [padLeft, value_append, value_zeros, Nat.zero_mul, Nat.zero_add]
  rw [← numeral_value sized, value]

theorem value_eq_zero {b : Bytes} : b.value = 0 ↔ b = zeros b.length := by
  constructor
  · intro nothing
    exact eq_of_value (length_zeros _).symm (nothing.trans (value_zeros _).symm)
  · intro zero
    rw [zero]
    exact value_zeros _

end SeededDraws.Bytes
