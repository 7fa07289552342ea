import SeededDraws.Proofs.Fault
import SeededDraws.Proofs.Metrics
/-!
# How calls close

The last step of a call on its state releases the snapshot that it took, or reverts to it. After
that the call is only counted. So a failure can leave a call by that step alone, and the failure of
a body is handed back if the step is carried out and the count has room.
-/

namespace SeededDraws

/-- The call handed the failure back, without an output. -/
def Reported (call : Outcome CallResult) (cause : Failure) : Prop :=
  ∃ result, call = .ok result ∧ result.error = some cause ∧ result.output = .ofBytes []

/-! ### Counting -/

/-- The metrics have a label for the failure and room for the gas that it leaves charged. -/
def Frame.Counts (f : Frame) (cause : Failure) : Prop :=
  ∃ counted after, f.world.metrics.recordCall cause.code = .ok counted ∧
    counted.addGas (.ofNat (f.meter.limit - Contract.gasAfter cause f.meter)) = .ok after

theorem Frame.counts_text {f : Frame} {cause : Failure} {code : Text} {k : Nat}
    (named : cause.code = .text code) (small : f.meter.limit < Nat.pow 2 k) (range : k ≤ 1023) :
    f.Counts cause := by
  have fits : f.meter.limit - Contract.gasAfter cause f.meter < Nat.pow 2 k :=
    Nat.lt_of_le_of_lt (Nat.sub_le ..) small
  obtain ⟨after, added⟩ :=
    (f.world.metrics.count (Label.ofText code)).addGas_ofNat fits range
  refine ⟨_, after, ?_, added⟩
  rw [named]
  rfl

namespace Metrics

theorem recordCall_plain (m : Metrics) (code : Datum) : (m.recordCall code).Plain := by
  have label : (Label.read code).Plain := by
    rw [Label.read.eq_def]
    split
    · exact Outcome.plain_ok _
    · exact Outcome.plain_ok _
    · exact Outcome.plain_ok _
    · exact Outcome.plain_error.mpr (by simp)
  exact label.bind fun _ => Outcome.plain_ok _

theorem addGas_ofNat_plain (m : Metrics) (n : Nat) : (m.addGas (.ofNat n)).Plain := by
  rw [addGas_eq]
  split
  · exact Outcome.plain_ok _
  · exact Outcome.plain_error.mpr (by simp)

end Metrics

namespace Contract

/-- Counting may stand in the way of a result, but not with a failure. -/
theorem countResult_plain (w : World) (code : Datum) (charged : Nat) (result : CallResult) :
    (countResult w code charged result).1.Plain := by
  have recorded := w.metrics.recordCall_plain code
  rw [countResult]
  cases counted : w.metrics.recordCall code with
  | error fault =>
    rw [counted, Outcome.plain_error] at recorded
    exact Outcome.plain_error.mpr recorded
  | ok metrics =>
    have gas := metrics.addGas_ofNat_plain charged
    simp only []
    cases added : metrics.addGas (.ofNat charged) with
    | error fault =>
      rw [added, Outcome.plain_error] at gas
      exact Outcome.plain_error.mpr gas
    | ok after => exact Outcome.plain_ok result

theorem countResult_eq_ok {w : World} {code : Datum} {charged : Nat} {result r : CallResult} :
    (countResult w code charged result).1 = .ok r ↔
      (∃ counted after, w.metrics.recordCall code = .ok counted ∧
        counted.addGas (.ofNat charged) = .ok after) ∧ r = result := by
  rw [countResult]
  cases w.metrics.recordCall code with
  | error fault => simp
  | ok counted =>
    cases added : counted.addGas (.ofNat charged) with
    | error fault => simp [added]
    | ok after => simp [added, eq_comm]

/-! ### Closing a call -/

variable {handle : Handle} {snapshot : Datum} {f : Frame}

/-- A failure is handed back if the state carries the revert out and the failure is counted. -/
theorem reject_reported_iff {cause : Failure} :
    Reported (reject handle snapshot cause f).1 cause ↔
      (∃ answer, (f.world.step handle (.revert snapshot)).1 = .ok answer) ∧ f.Counts cause := by
  rw [reject]
  cases reverted : f.world.step handle (.revert snapshot) with
  | mk last w =>
    have metrics : w.metrics = f.world.metrics := congrArg (World.metrics ·.2) reverted.symm
    cases last with
    | error fault => simp [Reported]
    | ok answer =>
      constructor
      · rintro ⟨result, counted, _⟩
        have counts := (countResult_eq_ok.mp counted).1
        rw [metrics] at counts
        exact ⟨⟨answer, rfl⟩, counts⟩
      · rintro ⟨_, counts⟩
        rw [Frame.Counts, ← metrics] at counts
        exact ⟨_, countResult_eq_ok.mpr ⟨counts, rfl⟩, rfl, rfl⟩

theorem reject_plain_iff {cause : Failure} :
    (reject handle snapshot cause f).1.Plain ↔
      (f.world.step handle (.revert snapshot)).1.Plain := by
  rw [reject]
  cases f.world.step handle (.revert snapshot) with
  | mk last w =>
    cases last with
    | error fault => simp only [Outcome.plain_error]
    | ok answer =>
      have counted := countResult_plain w cause.code (f.meter.limit - gasAfter cause f.meter)
        ⟨.ofBytes [], gasAfter cause f.meter, some cause⟩
      exact iff_of_true counted (Outcome.plain_ok answer)

theorem abandon_plain_iff {fault : Fault} (other : ∀ cause, fault ≠ .failure cause) :
    (abandon handle snapshot fault f).1.Plain ↔
      (f.world.step handle (.revert snapshot)).1.Plain := by
  rw [abandon]
  cases f.world.step handle (.revert snapshot) with
  | mk last w =>
    cases last with
    | error later => simp only [Outcome.plain_error]
    | ok answer => exact iff_of_true (Outcome.plain_error.mpr other) (Outcome.plain_ok answer)

theorem commit_plain_iff {output : Datum} (releases : f.world.store.releases handle = true) :
    (commit handle snapshot output f).1.Plain ↔
      (f.world.step handle (.discard snapshot)).1.Plain := by
  have measured : output.length.Plain := by
    rw [Datum.length.eq_def]
    split <;> first | exact Outcome.plain_ok _ | exact Outcome.plain_error.mpr (by simp)
  rw [commit]
  simp only [if_pos releases]
  cases f.world.step handle (.discard snapshot) with
  | mk last w =>
    cases last with
    | error fault => simp only [Outcome.plain_error]
    | ok answer =>
      have counted := countResult_plain w (.text "ok") f.meter.used
        ⟨output, f.meter.remaining, none⟩
      have whole := counted.bind fun result => measured.bind fun _ => Outcome.plain_ok result
      exact iff_of_true whole (Outcome.plain_ok answer)

/-- How a call closes behind a body. -/
def closing (snapshot : Datum) : Outcome Datum → StateOp
  | .ok _ => .discard snapshot
  | .error _ => .revert snapshot

theorem closing_release (snapshot : Datum) (outcome : Outcome Datum) :
    closing snapshot outcome = .revert snapshot ∨ closing snapshot outcome = .discard snapshot := by
  cases outcome with
  | ok output => exact .inr rfl
  | error fault => exact .inl rfl

/-- A failure leaves a call exactly if the state answers the last step with one. -/
theorem finish_plain_iff {ended : Outcome Datum × Frame}
    (releases : ended.2.world.store.releases handle = true) :
    (finish handle snapshot ended).1.Plain ↔
      (ended.2.world.step handle (closing snapshot ended.1)).1.Plain := by
  obtain ⟨outcome, f⟩ := ended
  cases outcome with
  | ok output => exact commit_plain_iff releases
  | error fault =>
    by_cases failed : ∃ cause, fault = .failure cause
    · obtain ⟨cause, rfl⟩ := failed
      exact reject_plain_iff
    · have other : ∀ cause, fault ≠ .failure cause := fun cause same => failed ⟨cause, same⟩
      have abandoned : finish handle snapshot (.error fault, f) =
          abandon handle snapshot fault f := by
        cases fault with
        | failure cause => exact absurd rfl (other cause)
        | _ => rfl
      rw [abandoned]
      exact abandon_plain_iff other

end Contract

end SeededDraws
