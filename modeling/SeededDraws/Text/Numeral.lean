import SeededDraws.Text.Blank
import SeededDraws.Text.DecimalDigit
/-!
# Numerals

Integers written as text: white space around, one sign, digits of any script with single underscores
between them. With a free radix the numeral says its own by 0x, 0o or 0b, and a decimal must not
start with a zero unless it is zero. A decimal has at most 4300 digits.
-/

namespace SeededDraws.Numeral

inductive Radix where
  | decimal
  | hexadecimal
  | free
deriving DecidableEq

def digitLimit : Nat := 4300

/-- Characters above ASCII count as what they stand for: white space or a digit. -/
def plain (c : Char) : Char :=
  if c.toNat < 128 then c
  else if isBlank c then ' '
  else match decimalValue? c with
    | some v => Char.ofNat (48 + v)
    | none => '?'

def digit? (base : Nat) (c : Char) : Option Nat :=
  let n := c.toNat
  let v :=
    if 48 ≤ n ∧ n ≤ 57 then n - 48
    else if 97 ≤ n ∧ n ≤ 122 then n - 87
    else if 65 ≤ n ∧ n ≤ 90 then n - 55
    else base
  if v < base then some v else none

structure Digits where
  value : Nat
  count : Nat
deriving DecidableEq

/-- Reads on after at least one digit. -/
def moreDigits (base : Nat) (read : Digits) : List Char → Option Digits
  | [] => some read
  | '_' :: c :: rest => do
    let v ← digit? base c
    moreDigits base ⟨read.value * base + v, read.count + 1⟩ rest
  | c :: rest => do
    let v ← digit? base c
    moreDigits base ⟨read.value * base + v, read.count + 1⟩ rest

def digits? (base : Nat) : List Char → Option Digits
  | [] => none
  | c :: rest => do
    let v ← digit? base c
    moreDigits base ⟨v, 1⟩ rest

def decimal? (text : List Char) : Option Nat := do
  let read ← digits? 10 text
  if read.count ≤ digitLimit then some read.value else none

/-- One underscore may follow the marker of a radix. -/
def marked? (base : Nat) : List Char → Option Nat
  | '_' :: rest => (digits? base rest).map (·.value)
  | text => (digits? base text).map (·.value)

def unsigned? : Radix → List Char → Option Nat
  | .decimal, text => decimal? text
  | .hexadecimal, text => if hasMarker text then marked? 16 (dropMarker text)
      else (digits? 16 text).map (·.value)
  | .free, '0' :: 'x' :: rest => marked? 16 rest
  | .free, '0' :: 'X' :: rest => marked? 16 rest
  | .free, '0' :: 'o' :: rest => marked? 8 rest
  | .free, '0' :: 'O' :: rest => marked? 8 rest
  | .free, '0' :: 'b' :: rest => marked? 2 rest
  | .free, '0' :: 'B' :: rest => marked? 2 rest
  | .free, '0' :: rest => (decimal? ('0' :: rest)).filter (· == 0)
  | .free, text => decimal? text

def signed? (radix : Radix) : List Char → Option Int
  | '-' :: rest => (unsigned? radix rest).map fun n => -(n : Int)
  | '+' :: rest => (unsigned? radix rest).map fun n => (n : Int)
  | text => (unsigned? radix text).map fun n => (n : Int)

def read? (radix : Radix) (text : List Char) : Option Int :=
  signed? radix (trimBy isSpacing (text.map plain))

end SeededDraws.Numeral
