import SeededDraws.Datum.Reading
/-!
# Unsigned integers

An integer, or a hexadecimal numeral behind 0x, that fits a number of bits. Truth values are refused
although they count as integers elsewhere.
-/

namespace SeededDraws

namespace Uint

/-- The number of binary digits; zero has none. -/
def bitLength (n : Nat) : Nat := if n = 0 then 0 else Nat.log2 n + 1

/-- The width is looked at only for what is not negative. -/
def check (bits : Datum) (n : Int) : Outcome Nat := do
  if n < 0 then .error (.misfit (.outOfRange bits))
  else if ← bits.isBelow (bitLength n.toNat) then .error (.misfit (.outOfRange bits))
  else return n.toNat

def ofText (bits : Datum) (t : Text) : Outcome Nat :=
  let cs := t.strip.faces
  if hasMarker cs then
    match Numeral.read? .hexadecimal cs with
    | some n => check bits n
    | none => .error (.bare .value)
  else .error (.misfit .unmarkedText)

def read (bits : Datum) (d : Datum) : Outcome Nat :=
  match d with
  | .bool _ => .error (.misfit .truthValue)
  | .text t => ofText bits t
  | .int n => check bits n
  | _ => .error (.misfit (.notInteger bits d.typeName))

theorem bitLength_le_iff {n k : Nat} : bitLength n ≤ k ↔ n < Nat.pow 2 k := by
  unfold bitLength
  split
  · next h => exact iff_of_true (Nat.zero_le k) (h ▸ Nat.two_pow_pos k)
  · next h => exact Nat.succ_le_iff.trans (Nat.log2_lt h)

theorem isBelow_ofNat (k m : Nat) : (Datum.ofNat k).isBelow m = .ok (decide (k < m)) := by
  have order : compare (k : Int) (m : Int) = .lt ↔ k < m := by
    simp only [compare, compareOfLessAndEq]
    grind
  by_cases h : k < m
  · simp [Datum.isBelow, Datum.ofNat, Datum.compareInt?, Datum.integer?, order.mpr h, h]
  · simp [Datum.isBelow, Datum.ofNat, Datum.compareInt?, Datum.integer?, mt order.mp h, h]

/-- A width that is a natural number bounds the value by a power of two. -/
theorem check_ofNat (k : Nat) (n : Int) :
    check (.ofNat k) n =
      if 0 ≤ n ∧ n.toNat < Nat.pow 2 k then .ok n.toNat
      else .error (.misfit (.outOfRange (.ofNat k))) := by
  unfold check
  by_cases h : n < 0
  · rw [if_pos h, if_neg fun c => absurd h (Int.not_lt.mpr c.1)]
  · rw [if_neg h, isBelow_ofNat]
    by_cases fits : n.toNat < Nat.pow 2 k
    · rw [if_pos ⟨Int.not_lt.mp h, fits⟩,
        decide_eq_false (Nat.not_lt.mpr (bitLength_le_iff.mpr fits))]
      rfl
    · rw [if_neg fun c => fits c.2,
        decide_eq_true (Nat.lt_of_not_le fun c => fits (bitLength_le_iff.mp c))]
      rfl

end Uint

def encodeUint256 (d : Datum) : Outcome Bytes :=
  return Bytes.numeral wordSize (← Uint.read (.ofNat 256) d)

def encodeUint64 (d : Datum) : Outcome Bytes :=
  return Bytes.numeral nonceSize (← Uint.read (.ofNat 64) d)

def readAddress (d : Datum) : Outcome Bytes := do
  let b ← d.bytesOr (.misfit .addressType)
  if b.length = addressSize then .ok b else .error (.misfit (.addressLength b.length))

def encodeAddress (d : Datum) : Outcome Bytes := return (← readAddress d).padLeft wordSize

end SeededDraws
