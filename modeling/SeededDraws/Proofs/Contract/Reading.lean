import SeededDraws.Contract.Random
import SeededDraws.Proofs.Contract.Transaction
import SeededDraws.Proofs.Metrics
import SeededDraws.Proofs.Overlay
/-!
# Contracts that only read

A body that does nothing to the state but read it learns nothing except what the ledger holds and
how much gas is left. Views that it makes, values that it counts and remarks that it leaves never
come back to it. So its call is answered from the ledger alone, and takes back the one snapshot that
it made.
-/

namespace SeededDraws

/-- Whatever comes back to it, the body only reads and calls no other contract. -/
def Body.Reads : Body → Prop
  | .done _ => True
  | .fail _ => True
  | .charge _ next => ∀ left, (next left).Reads
  | .keep next => next.Reads
  | .state _ op next => op.IsRead ∧ ∀ answer, (next answer).Reads
  | .call .. => False
  | .observe _ next => next.Reads
  | .note _ next => next.Reads

theorem Body.Reads.done (output : Datum) : (Body.done output).Reads := trivial

theorem Body.Reads.orFail {α : Type} {result : Outcome α} {next : α → Body}
    (reads : ∀ x, (next x).Reads) : (Body.orFail result next).Reads := by
  cases result with
  | ok x => exact reads x
  | error fault => trivial

/-! ### What a reading body sees -/

/-- The frame stands on this ledger, with this meter. -/
structure Frame.Stands (l : Ledger) (meter : GasMeter) (f : Frame) : Prop where
  base : f.world.store.base = .ledger l true
  meter : f.meter = meter

namespace Frame.Stands

variable {l : Ledger} {meter : GasMeter} {f : Frame}

theorem guard (h : f.Stands l meter) (handle : Handle) (readOnly : Bool) :
    (f.guard handle readOnly).2.Stands l meter :=
  ⟨(f.world.store.base_guard handle readOnly).trans h.base, h.meter⟩

theorem reach (h : f.Stands l meter) (handle : Handle) (readOnly : Bool) (via : Access) :
    (f.reach handle readOnly via).2.Stands l meter := by
  cases via with
  | guarded => exact h.guard handle readOnly
  | kept index =>
    rw [Frame.reach]
    split
    · exact h
    · exact h.guard handle readOnly
  | direct => exact h
  | observing => exact h.guard handle true

theorem step (h : f.Stands l meter) {op : StateOp} (read : op.IsRead) (handle : Handle) :
    f.step handle op = ((l.step op).1, f) := by
  rw [Frame.step, World.step, Store.step_isRead h.base read]

theorem observe (h : f.Stands l meter) (count : Nat) : (f.observe count).2.Stands l meter := by
  constructor
  · rw [f.store_observe count]
    exact h.base
  · rw [f.meter_observe count]
    exact h.meter

end Frame.Stands

/-- Whether values can be counted does not depend on those counted before. -/
theorem Frame.observe_answer (f : Frame) (count : Nat) :
    (f.observe count).1 = (Datum.ofNat count).toDouble.map fun _ => () := by
  rw [observe, Metrics.observeValues]
  cases (Datum.ofNat count).toDouble with
  | error fault => rfl
  | ok x => rfl

/-- How a reading body ends is a function of the ledger and the meter. -/
theorem Body.Reads.run {body : Body} (reads : body.Reads) (l : Ledger) (callee : Callee)
    (handle : Handle) (context : CallContext) (meter : GasMeter) :
    ∃ outcome left, ∀ f, f.Stands l meter →
      (body.run callee handle context f).1 = outcome ∧
        (body.run callee handle context f).2.Stands l left := by
  induction body generalizing meter with
  | done output => exact ⟨.ok output, meter, fun f stands => ⟨rfl, stands⟩⟩
  | fail fault => exact ⟨.error fault, meter, fun f stands => ⟨rfl, stands⟩⟩
  | charge amount next ih =>
    obtain ⟨outcome, left, ends⟩ := ih (meter.consume amount).1 (reads _) (meter.consume amount).2
    refine ⟨outcome, left, ?_⟩
    intro f stands
    obtain ⟨base, rfl⟩ := stands
    exact ends { f with meter := (f.meter.consume amount).2 } ⟨base, rfl⟩
  | keep next ih =>
    obtain ⟨outcome, left, ends⟩ := ih reads meter
    refine ⟨outcome, left, ?_⟩
    intro f stands
    exact ends (f.keep handle context.readOnly) ⟨(stands.guard ..).base, stands.meter⟩
  | state via op next ih =>
    obtain ⟨outcome, left, ends⟩ := ih (l.step op).1 (reads.2 _) meter
    refine ⟨outcome, left, ?_⟩
    intro f stands
    have reached := stands.reach handle context.readOnly via
    rw [run_state]
    simp only [reached.step reads.1]
    exact ends _ reached
  | call => exact reads.elim
  | observe count next ih =>
    obtain ⟨outcome, left, ends⟩ := ih reads meter
    cases counted : (Datum.ofNat count).toDouble with
    | error fault =>
      refine ⟨.error fault, meter, ?_⟩
      intro f stands
      have answer := f.observe_answer count
      have after := stands.observe count
      rw [counted] at answer
      rw [Body.run]
      cases seen : f.observe count with
      | mk first g =>
        rw [seen] at answer after
        cases answer
        exact ⟨rfl, after⟩
    | ok x =>
      refine ⟨outcome, left, ?_⟩
      intro f stands
      have answer := f.observe_answer count
      have after := stands.observe count
      rw [counted] at answer
      rw [Body.run]
      cases seen : f.observe count with
      | mk first g =>
        rw [seen] at answer after
        cases answer
        exact ends g after
  | note remark next ih =>
    obtain ⟨outcome, left, ends⟩ := ih reads meter
    refine ⟨outcome, left, ?_⟩
    intro f stands
    exact ends (f.note remark) ⟨stands.base, stands.meter⟩

/-! ### Calls that only read -/

namespace Contract

/-- Whatever the input is, the body that it is routed to only reads. -/
def Reads (c : Contract) : Prop :=
  ∀ input body args, c.route input = .ok (body, args) → ∀ call, (body call).Reads

variable {c : Contract}

theorem Reads.execute (reads : c.Reads) (l : Ledger) (callee : Callee) (setting : Setting)
    (context : CallContext) (meter : GasMeter) :
    ∃ outcome left, ∀ f, f.Stands l meter →
      (c.execute callee setting context f).1 = outcome ∧
        (c.execute callee setting context f).2.Stands l left := by
  simp only [Contract.execute]
  cases routed : c.route context.input with
  | error fault => exact ⟨.error fault, meter, fun f stands => ⟨rfl, stands⟩⟩
  | ok target =>
    obtain ⟨body, args⟩ := target
    exact (reads context.input body args routed _).run l callee setting.handle context meter

/-- Whether a call can be counted does not depend on the calls counted before. -/
theorem countResult_answer (code : Datum) (charged : Nat) (result : CallResult) :
    ∃ answer, ∀ w, (countResult w code charged result).1 = answer := by
  cases read : Label.read code with
  | error fault =>
    refine ⟨.error fault, ?_⟩
    intro w
    simp only [countResult, Metrics.recordCall, read, bind, Except.bind]
  | ok label =>
    refine ⟨if charged < Binary64.overflowBound then .ok result else .error (.bare .overflow), ?_⟩
    intro w
    rw [countResult_read read]

variable {l : Ledger}

/-- A call on a ledger begins with one more mark. -/
theorem entry_stands {w : World} (on : w.store.base = .ledger l true) (block : Option BlockEnv)
    (context : CallContext) :
    (w.step .base .snapshot).1 = .ok (.ofNat l.openSnapshots) ∧
      (entry ⟨.base, block⟩ context w).Stands (l.marked 1) (.start context.suppliedGas) := by
  have stepped : w.step .base .snapshot = (.ok (.ofNat l.openSnapshots),
      { w with store := ⟨.ledger (l.marked 1) true, w.store.views⟩ }) := by
    rw [World.step, Store.step, Store.onBase_ledger on]
    rfl
  rw [entry, stepped]
  exact ⟨rfl, rfl, rfl⟩

/-- The last step of a call lets go of its snapshot, and the old ledger is back. -/
theorem close_stands {f : Frame} {meter : GasMeter} (stands : f.Stands (l.marked 1) meter)
    (idle : l.marks = [] → l.journal = []) {op : StateOp}
    (release : op = .revert (.ofNat l.openSnapshots) ∨ op = .discard (.ofNat l.openSnapshots)) :
    f.world.step .base op =
      (.ok .null, { f.world with store := ⟨.ledger l true, f.world.store.views⟩ }) := by
  rw [World.step, Store.step, Store.onBase_ledger stands.base, l.step_first_marked idle release]

/-- The end of a call takes back its snapshot, and the rest of its answer is counting. -/
theorem finish_stands (idle : l.marks = [] → l.journal = []) (outcome : Outcome Datum)
    (meter : GasMeter) :
    ∃ answer, ∀ f : Frame, f.Stands (l.marked 1) meter →
      (finish .base (.ofNat l.openSnapshots) (outcome, f)).1 = answer ∧
        (finish .base (.ofNat l.openSnapshots) (outcome, f)).2.store.base = .ledger l true := by
  cases outcome with
  | ok output =>
    obtain ⟨counted, same⟩ :=
      countResult_answer (.text "ok") meter.used ⟨output, meter.remaining, none⟩
    refine ⟨counted.bind fun result => output.length.map fun _ => result, ?_⟩
    intro f stands
    have releases : f.world.store.releases .base = true := by
      rw [Store.releases, stands.base]
      rfl
    simp only [finish, commit, if_pos releases, close_stands stands idle (.inr rfl), stands.meter,
      same]
    exact ⟨trivial, congrArg Store.base (store_countResult ..)⟩
  | error fault =>
    by_cases failed : ∃ cause, fault = .failure cause
    · obtain ⟨cause, rfl⟩ := failed
      obtain ⟨counted, same⟩ := countResult_answer cause.code
        (meter.limit - gasAfter cause meter) ⟨.ofBytes [], gasAfter cause meter, some cause⟩
      refine ⟨counted, ?_⟩
      intro f stands
      simp only [finish, reject, close_stands stands idle (.inl rfl), stands.meter, same]
      exact ⟨trivial, congrArg Store.base (store_countResult ..)⟩
    · refine ⟨.error fault, ?_⟩
      intro f stands
      obtain ⟨store, _, raised⟩ := finish_error (f := f) fault
        (congrArg (fun stepped => (stepped.1, stepped.2.store))
          (close_stands stands idle (.inl rfl)))
      exact ⟨raised.resolve_left failed, congrArg Store.base store⟩

/-- A reading call is answered from the ledger alone, and leaves it to the last record as it was. -/
theorem Reads.run (reads : c.Reads) (idle : l.marks = [] → l.journal = []) (callee : Callee)
    (block : Option BlockEnv) (address caller input gas readOnly : Datum) :
    ∃ answer, ∀ w : World, w.store.base = .ledger l true →
      (c.run callee ⟨.base, block⟩ w address caller input gas readOnly).1 = answer ∧
        (c.run callee ⟨.base, block⟩ w address caller input gas readOnly).2.store.base =
          .ledger l true := by
  cases made : CallContext.make caller address input gas readOnly with
  | error fault =>
    refine ⟨.error fault, ?_⟩
    intro w on
    simp only [Contract.run, made]
    exact ⟨trivial, on⟩
  | ok context =>
    obtain ⟨outcome, left, ends⟩ := reads.execute (l.marked 1) callee ⟨.base, block⟩ context
      (.start context.suppliedGas)
    obtain ⟨answer, finishes⟩ := finish_stands idle outcome left
    refine ⟨answer, ?_⟩
    intro w on
    obtain ⟨taken, begins⟩ := entry_stands on block context
    have ended := ends _ begins
    rw [run_eq c callee ⟨.base, block⟩ w made taken]
    obtain ⟨rfl, stands⟩ := ended
    exact finishes _ stands

end Contract

end SeededDraws
