import SeededDraws.Contract
import SeededDraws.Proofs.Binary64
/-!
# Metrics never stand in the way

The double nearest to an integer below `2 ^ 1023` is finite, so amounts of that size are always
counted and a call that ended keeps its result. An amount without a nearest double raises, and by
then the call has been counted.
-/

namespace SeededDraws

/-- Below the bound an amount is read as the nearest double. -/
theorem Datum.toDouble_natCast {n : Nat} (small : n < Binary64.overflowBound) :
    (Datum.ofNat n).toDouble = .ok (.ofNat n) := by
  simp only [Datum.ofNat, toDouble, integer?, Binary64.ofInt?_natCast small]

theorem Datum.toDouble_ofNat {n k : Nat} (small : n < Nat.pow 2 k) (range : k ≤ 1023) :
    ∃ x, (Datum.ofNat n).toDouble = .ok x :=
  ⟨_, toDouble_natCast (Nat.lt_of_lt_of_le small (Binary64.pow_le_overflowBound range))⟩

/-- From the bound on it raises. -/
theorem Datum.toDouble_overflow {n : Nat} (large : Binary64.overflowBound ≤ n) :
    (Datum.ofNat n).toDouble = .error (.bare .overflow) := by
  have none := Binary64.ofInt?_eq_none (n := n).mpr large
  simp only [Datum.ofNat, toDouble, integer?, none]

namespace Metrics

/-- The metrics with an amount of gas added, if it is positive and has a double. -/
def charge (m : Metrics) (amount : Nat) : Metrics :=
  if 0 < amount ∧ amount < Binary64.overflowBound then
    { m with gas := m.gas.add (.ofNat amount) }
  else m

theorem calls_charge (m : Metrics) (amount : Nat) : (m.charge amount).calls = m.calls := by
  rw [charge]
  split <;> rfl

theorem values_charge (m : Metrics) (amount : Nat) : (m.charge amount).values = m.values := by
  rw [charge]
  split <;> rfl

theorem gas_charge_count (m : Metrics) (label : Label) (amount : Nat) :
    ((m.count label).charge amount).gas = (m.charge amount).gas := by
  rw [charge, charge]
  split <;> rfl

/-- Values that were observed before stay as they are. -/
theorem charge_count_observed (m : Metrics) (values : Histogram) (label : Label) (amount : Nat) :
    (({ m with values := values } : Metrics).count label).charge amount =
      { (m.count label).charge amount with values := values } := by
  rw [charge, charge]
  split <;> rfl

theorem addGas_eq (m : Metrics) (amount : Nat) :
    m.addGas (.ofNat amount) =
      if amount < Binary64.overflowBound then .ok (m.charge amount)
      else .error (.bare .overflow) := by
  have order : (Datum.ofNat amount).compareInt? 0 = some (some (compare (amount : Int) 0)) := rfl
  rw [addGas, order, charge]
  cases amount with
  | zero => exact (if_pos (by decide +kernel)).symm
  | succ n =>
    have positive : compare ((n + 1 : Nat) : Int) 0 = .gt := Int.compare_eq_gt.mpr (by omega)
    rw [positive]
    by_cases small : n + 1 < Binary64.overflowBound
    · simp only [if_pos small, if_pos (And.intro (Nat.succ_pos n) small),
        Datum.toDouble_natCast small]
      rfl
    · simp only [if_neg small, Datum.toDouble_overflow (Nat.le_of_not_lt small)]
      rfl

theorem addGas_ofNat (m : Metrics) {n k : Nat} (small : n < Nat.pow 2 k) (range : k ≤ 1023) :
    ∃ after, m.addGas (.ofNat n) = .ok after := by
  have bound := Nat.lt_of_lt_of_le small (Binary64.pow_le_overflowBound range)
  exact ⟨m.charge n, (m.addGas_eq n).trans (if_pos bound)⟩

end Metrics

namespace Contract

/-- A call is counted under its label first. It then keeps its result if the gas that it was charged
has a double. -/
theorem countResult_read {code : Datum} {label : Label} (read : Label.read code = .ok label)
    (w : World) (charged : Nat) (result : CallResult) :
    countResult w code charged result =
      (if charged < Binary64.overflowBound then .ok result else .error (.bare .overflow),
        { w with metrics := (w.metrics.count label).charge charged }) := by
  have recorded : w.metrics.recordCall code = .ok (w.metrics.count label) := by
    rw [Metrics.recordCall, read]
    rfl
  by_cases small : charged < Binary64.overflowBound
  · simp only [countResult, recorded, Metrics.addGas_eq, if_pos small]
  · have same : (w.metrics.count label).charge charged = w.metrics.count label :=
      if_neg fun both => small both.2
    simp only [countResult, recorded, Metrics.addGas_eq, if_neg small, same]

/-- A call under a textual code keeps its result if the gas that it was charged fits a double. -/
theorem countResult_eq (w : World) (code : Text) (charged : Nat) (result : CallResult) :
    (countResult w (.text code) charged result).1 =
      (Datum.ofNat charged).toDouble.map fun _ => result := by
  have read : Label.read (.text code) = .ok (.ofText code) := rfl
  rw [countResult_read read]
  by_cases small : charged < Binary64.overflowBound
  · rw [Datum.toDouble_natCast small, if_pos small]
    rfl
  · rw [Datum.toDouble_overflow (Nat.le_of_not_lt small), if_neg small]
    rfl

end Contract

end SeededDraws
