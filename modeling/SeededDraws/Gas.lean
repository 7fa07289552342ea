import SeededDraws.Datum.Reading
/-!
# Gas

What an attempt costs, and the meter of one call. The cost depends on the length of the payload
alone, and a charge is taken before anything is decoded.
-/

namespace SeededDraws

structure GasSchedule where
  base : Nat
  perWord : Nat
deriving DecidableEq

namespace GasSchedule

def standard : GasSchedule := ⟨1024, 0⟩

def make (base perWord : Datum) : Outcome GasSchedule := do
  let b ← base.intAtLeast "base" 0
  let w ← perWord.intAtLeast "per_word" 0
  return ⟨b.toNat, w.toNat⟩

/-- Whole words of the payload are charged; a rest is free. -/
def required (s : GasSchedule) (size : Nat) : Nat := s.base + s.perWord * (size / wordSize)

end GasSchedule

/-- What is left of `supplied` after `cost`. -/
def deductGas (supplied cost : Datum) : Outcome Nat := do
  let s ← supplied.intAtLeast "supplied gas" 0
  let c ← cost.intAtLeast "cost" 0
  if s < c then .error (.failure (.outOfGas (.int s) (.int c))) else .ok (s - c).toNat

structure GasMeter where
  limit : Nat
  used : Nat
deriving DecidableEq

namespace GasMeter

def start (limit : Nat) : GasMeter := ⟨limit, 0⟩

def make (limit : Datum) : Outcome GasMeter := do
  let l ← limit.intAtLeast "limit" 0
  return start l.toNat

def remaining (m : GasMeter) : Nat := m.limit - m.used

/-- The remaining gas and the meter after a charge; a refused charge leaves the meter alone. -/
def consume (m : GasMeter) (amount : Datum) : Outcome Nat × GasMeter :=
  match deductGas (.ofNat m.remaining) amount with
  | .ok left => (.ok left, { m with used := m.limit - left })
  | .error fault => (.error fault, m)

end GasMeter

end SeededDraws
