import SeededDraws.Proofs.Contract.Transaction
import SeededDraws.Proofs.Metrics
/-!
# From the end of a body to the result of its call

A body that leaves the ledger alone and ends in an output or in a failure with a textual code has
its result handed back: neither the snapshot nor the metrics can get in the way.
-/

namespace SeededDraws

/-- A body ended with `base` under its store, at most `limit` gas charged, and this result for its
call. -/
inductive Contract.Ended (base : Base) (limit : Nat) :
    Outcome Datum × Frame → CallResult → Prop where
  | good (output : Bytes) (f : Frame) (on : f.world.store.base = base)
      (bound : f.meter.limit = limit) (within : f.meter.used ≤ limit) :
    Ended base limit (.ok (.ofBytes output), f) ⟨.ofBytes output, f.meter.remaining, none⟩
  | failed (cause : Failure) (code : Text) (f : Frame) (named : cause.code = .text code)
      (on : f.world.store.base = base) (bound : f.meter.limit = limit) :
    Ended base limit (.error (.failure cause), f)
      ⟨.ofBytes [], gasAfter cause f.meter, some cause⟩

namespace Contract

variable {l : Ledger} {s : CopyStore}

/-- The snapshot of the call is the last one that is open, so what its body ended with is handed
back if the gas that it was charged can be counted. -/
theorem finish_answer (h : Refines l s) {limit : Nat} {ending : Outcome Datum × Frame}
    {result : CallResult} (ended : Ended (.ledger l.mark true) limit ending result) :
    (finish .base (.ofNat s.copies.length) ending).1 =
      (Datum.ofNat (limit - result.remainingGas)).toDouble.map fun _ => result := by
  cases ended with
  | good output f on bound within =>
    obtain ⟨_, l', _, _, discarded, _⟩ := (Store.Holds.of_mark h on).discard
    have releases : f.world.store.releases .base = true := by
      rw [Store.releases, on]
      rfl
    have charged : limit - f.meter.remaining = f.meter.used := by
      rw [GasMeter.remaining]
      omega
    simp only [finish, commit, if_pos releases, World.step, discarded, countResult_eq, charged]
    cases (Datum.ofNat f.meter.used).toDouble with
    | error fault => rfl
    | ok x => rfl
  | failed cause code f named on bound =>
    obtain ⟨l', reverted, _⟩ := (Store.Holds.of_mark h on).revert
    simp only [finish, reject, World.step, reverted, named, countResult_eq, bound]

theorem finish_ended (h : Refines l s) {limit k : Nat} (small : limit < Nat.pow 2 k)
    (range : k ≤ 1023) {ending : Outcome Datum × Frame} {result : CallResult}
    (ended : Ended (.ledger l.mark true) limit ending result) :
    (finish .base (.ofNat s.copies.length) ending).1 = .ok result := by
  have fits : limit - result.remainingGas < Nat.pow 2 k := Nat.lt_of_le_of_lt (Nat.sub_le ..) small
  obtain ⟨x, double⟩ := Datum.toDouble_ofNat fits range
  rw [finish_answer h ended, double]
  rfl

end Contract

end SeededDraws
