import SeededDraws.Contract
import SeededDraws.Proofs.Store
/-!
# Runs of bodies

What a body may do to the state is a condition on its run, not on its text: which operation comes
next depends on the answers so far. `Body.Uses` is that condition, and what every allowed step keeps
the whole run keeps.
-/

namespace SeededDraws

/-- Along its run a body calls no other contract, and every operation that it carries out through a
handle is an allowed one. -/
def Body.Uses (allowed : Handle → StateOp → Prop) (handle : Handle) (context : CallContext) :
    Body → Frame → Prop
  | .done _, _ => True
  | .fail _, _ => True
  | .charge amount next, f =>
    (next (f.meter.consume amount).1).Uses allowed handle context
      { f with meter := (f.meter.consume amount).2 }
  | .keep next, f => next.Uses allowed handle context (f.keep handle context.readOnly)
  | .state via op next, f =>
    let reached := f.reach handle context.readOnly via
    allowed reached.1 op ∧
      (next (reached.2.step reached.1 op).1).Uses allowed handle context
        (reached.2.step reached.1 op).2
  | .call .., _ => False
  | .observe count next, f =>
    match f.observe count with
    | (.error _, _) => True
    | (.ok _, f) => next.Uses allowed handle context f
  | .note remark next, f => next.Uses allowed handle context (f.note remark)

namespace Frame

theorem store_observe (f : Frame) (count : Nat) :
    (f.observe count).2.world.store = f.world.store := by
  rw [observe]
  split <;> rfl

theorem kept_observe (f : Frame) (count : Nat) : (f.observe count).2.kept = f.kept := by
  rw [observe]
  split <;> rfl

theorem meter_observe (f : Frame) (count : Nat) : (f.observe count).2.meter = f.meter := by
  rw [observe]
  split <;> rfl

theorem meter_reach (f : Frame) (handle : Handle) (readOnly : Bool) (via : Access) :
    (f.reach handle readOnly via).2.meter = f.meter := by
  cases via with
  | kept index =>
    rw [reach]
    split <;> rfl
  | _ => rfl

end Frame

theorem GasMeter.limit_consume (m : GasMeter) (amount : Datum) :
    (m.consume amount).2.limit = m.limit := by
  rw [consume]
  split <;> rfl

namespace Body

variable {allowed : Handle → StateOp → Prop} {keeps : Store → Prop} {callee : Callee}
  {handle : Handle} {context : CallContext}

theorem run_state (via : Access) (op : StateOp) (next : Outcome Datum → Body) (f : Frame) :
    (state via op next).run callee handle context f =
      let reached := f.reach handle context.readOnly via
      let stepped := reached.2.step reached.1 op
      (next stepped.1).run callee handle context stepped.2 := rfl

theorem run_charge (amount : Datum) (next : Outcome Nat → Body) (f : Frame) :
    (charge amount next).run callee handle context f =
      let taken := f.meter.consume amount
      (next taken.1).run callee handle context { f with meter := taken.2 } := rfl

theorem keeps_reach (guarded : ∀ s h readOnly, keeps s → keeps (s.guard h readOnly).2)
    (f : Frame) (via : Access) (start : keeps f.world.store) :
    keeps (f.reach handle context.readOnly via).2.world.store := by
  cases via with
  | guarded => exact guarded _ handle context.readOnly start
  | kept index =>
    rw [Frame.reach]
    split
    · exact start
    · exact guarded _ handle context.readOnly start
  | direct => exact start
  | observing => exact guarded _ handle true start

/-- What new views and allowed operations keep, the run of a body keeps. -/
theorem run_keeps (guarded : ∀ s h readOnly, keeps s → keeps (s.guard h readOnly).2)
    (stepped : ∀ s h op, allowed h op → keeps s → keeps (s.step h op).2)
    (body : Body) (f : Frame) (uses : body.Uses allowed handle context f)
    (start : keeps f.world.store) : keeps (body.run callee handle context f).2.world.store := by
  induction body generalizing f with
  | done output => exact start
  | fail fault => exact start
  | charge amount next ih => exact ih _ _ uses start
  | keep next ih => exact ih _ uses (guarded _ handle context.readOnly start)
  | state via op next ih =>
    have reached : keeps (f.reach handle context.readOnly via).2.world.store :=
      keeps_reach guarded f via start
    exact ih _ _ uses.2 (stepped _ _ op uses.1 reached)
  | call => exact uses.elim
  | observe count next ih =>
    have same := f.store_observe count
    rw [run]
    rw [Uses] at uses
    cases ho : f.observe count with
    | mk seen after =>
      rw [ho] at same uses
      cases seen with
      | error fault => exact same ▸ start
      | ok _ => exact ih after uses (same ▸ start)
  | note remark next ih => exact ih _ uses start

/-- No body moves the limit of its meter. -/
theorem limit_run (body : Body) (f : Frame) :
    (body.run callee handle context f).2.meter.limit = f.meter.limit := by
  induction body generalizing f with
  | done output => rfl
  | fail fault => rfl
  | charge amount next ih => exact (ih _ _).trans (f.meter.limit_consume amount)
  | keep next ih => exact ih _
  | state via op next ih =>
    have reached := congrArg GasMeter.limit (f.meter_reach handle context.readOnly via)
    exact (ih _ _).trans reached
  | call address input gas readOnly next ih => exact ih _ _
  | observe count next ih =>
    have same := f.meter_observe count
    rw [run]
    cases ho : f.observe count with
    | mk seen after =>
      rw [ho] at same
      cases seen with
      | error fault => exact congrArg GasMeter.limit same
      | ok _ => exact (ih after).trans (congrArg GasMeter.limit same)
  | note remark next ih => exact ih _

end Body

end SeededDraws
