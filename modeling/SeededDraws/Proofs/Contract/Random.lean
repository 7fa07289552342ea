import SeededDraws.Proofs.Contract.Ending
import SeededDraws.Proofs.Contract.Terms
import SeededDraws.Proofs.Ledger.WellFormed
import SeededDraws.Proofs.Seed
/-!
# Runs of the random contract

The bodies of the random contract are followed step by step, from the charge to the encoded answer.
They only ever read the state, through a view of their own, so the ledger stays what it is.
-/

namespace SeededDraws

/-! ### Steps of bodies -/

theorem Ledger.step_getNonce (l : Ledger) {caller : Bytes} (sized : caller.length = addressSize) :
    l.step (.getNonce (.ofBytes caller)) = (.ok (l.contents.account caller).nonce, l) := by
  have read : addressOf (.ofBytes caller) = .ok caller :=
    Datum.exactBytes_eq_ok.mpr ⟨rfl, sized⟩
  simp only [step, reply, read]
  rfl

/-- A charge on a fresh meter is paid or refused as a whole. -/
theorem GasMeter.consume_start (gas cost : Nat) :
    (start gas).consume (.ofNat cost) =
      if gas < cost then (.error (.failure (.outOfGas (.ofNat gas) (.ofNat cost))), start gas)
      else (.ok (gas - cost), ⟨gas, cost⟩) := by
  have read : ∀ (name : String) (n : Nat), (Datum.ofNat n).intAtLeast name 0 = .ok (n : Int) := by
    intro name n
    simp [Datum.intAtLeast, Datum.ofNat, Datum.properInt?]
  have left : (start gas).remaining = gas := Nat.sub_zero gas
  simp only [consume, left, deductGas, read, bind, Except.bind, Int.ofNat_lt]
  by_cases short : gas < cost
  · rw [if_pos short, if_pos short]
    rfl
  · rw [if_neg short, if_neg short]
    simp only [start, GasMeter.mk.injEq, Prod.mk.injEq, Except.ok.injEq, true_and]
    omega

namespace Terms.Describe

variable {t : Terms} {r : RandomContract} {block : Option BlockEnv} {l : Ledger} {callee : Callee}
  {context : CallContext} {f : Frame}

end Terms.Describe

end SeededDraws
