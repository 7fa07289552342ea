import SeededDraws.Proofs.Contract.Body
/-!
# What a body does

The acts of one run of a body, in their order, each with what came back. A claim about a run can
then speak of all that the body did and of every answer that it got, whichever way it went on.
-/

namespace SeededDraws

/-- Something that a body does, with what comes back. -/
inductive Act where
  | charge (amount : Datum) (answer : Outcome Nat)
  | state (via : Access) (op : StateOp) (answer : Outcome Datum)
  | call (answer : Outcome CallResult)

def Body.acts (callee : Callee) (handle : Handle) (context : CallContext) :
    Body → Frame → List Act
  | .done _, _ => []
  | .fail _, _ => []
  | .charge amount next, f =>
    let (left, meter) := f.meter.consume amount
    .charge amount left :: (next left).acts callee handle context { f with meter := meter }
  | .keep next, f => next.acts callee handle context (f.keep handle context.readOnly)
  | .state via op next, f =>
    let (target, f) := f.reach handle context.readOnly via
    let (answer, f) := f.step target op
    .state via op answer :: (next answer).acts callee handle context f
  | .call address input gas readOnly next, f =>
    let (result, world) := callee f.world address (.ofBytes context.address) input gas readOnly
    .call result :: (next result).acts callee handle context { f with world := world }
  | .observe count next, f =>
    match f.observe count with
    | (.error _, _) => []
    | (.ok _, f) => next.acts callee handle context f
  | .note remark next, f => next.acts callee handle context (f.note remark)

namespace Contract

/-- What the body does that a call is routed to. -/
def actsIn (c : Contract) (callee : Callee) (setting : Setting) (context : CallContext)
    (f : Frame) : List Act :=
  match c.route context.input with
  | .error _ => []
  | .ok (body, args) => (body ⟨context, args, setting.block⟩).acts callee setting.handle context f

/-- What the body of a call does. It does nothing if its context is refused, if no snapshot can be
taken or if there is no body for the input. -/
def acts (c : Contract) (callee : Callee) (setting : Setting) (w : World)
    (address caller input gas readOnly : Datum) : List Act :=
  match CallContext.make caller address input gas readOnly, w.step setting.handle .snapshot with
  | .ok context, (.ok _, w) =>
    c.actsIn callee setting context ⟨w, GasMeter.start context.suppliedGas, []⟩
  | _, _ => []

end Contract

namespace Body

variable {handle : Handle} {context : CallContext} {allowed good : Act → Prop}
  {holds : Frame → Prop} {callee : Callee}

/-- What holds of the store and of the kept states goes on to hold as long as a body does only what
is allowed, and makes each of its acts a good one. Calls of other contracts are not allowed. -/
structure Invariant (handle : Handle) (context : CallContext) (allowed good : Act → Prop)
    (holds : Frame → Prop) : Prop where
  blind : ∀ f g : Frame, f.world.store = g.world.store → f.kept = g.kept → holds f → holds g
  alone : ∀ answer, ¬allowed (.call answer)
  charge : ∀ amount answer, good (.charge amount answer)
  keep : ∀ f, holds f → holds (f.keep handle context.readOnly)
  state : ∀ f via op, holds f →
    let reached := f.reach handle context.readOnly via
    let stepped := reached.2.step reached.1 op
    allowed (.state via op stepped.1) → holds stepped.2 ∧ good (.state via op stepped.1)

/-- What one act keeps, the run keeps. -/
theorem Invariant.run (inv : Invariant handle context allowed good holds) (body : Body) (f : Frame)
    (all : ∀ act ∈ body.acts callee handle context f, allowed act) (start : holds f) :
    holds (body.run callee handle context f).2 ∧
      ∀ act ∈ body.acts callee handle context f, good act := by
  -- only the state and what is kept of it can change what `holds`; all other acts are passed over
  induction body generalizing f with
  | done output =>
    refine ⟨start, ?_⟩
    intro act held
    cases held
  | fail fault =>
    refine ⟨start, ?_⟩
    intro act held
    cases held
  | charge amount next ih =>
    have after := inv.blind f { f with meter := (f.meter.consume amount).2 } rfl rfl start
    obtain ⟨ends, goods⟩ := ih _ _ (fun act held => all act (List.mem_cons_of_mem _ held)) after
    refine ⟨ends, ?_⟩
    intro act held
    rcases List.mem_cons.mp held with rfl | later
    · exact inv.charge amount _
    · exact goods act later
  | keep next ih => exact ih _ all (inv.keep f start)
  | state via op next ih =>
    obtain ⟨after, first⟩ := inv.state f via op start (all _ (List.mem_cons_self ..))
    obtain ⟨ends, goods⟩ := ih _ _ (fun act held => all act (List.mem_cons_of_mem _ held)) after
    refine ⟨ends, ?_⟩
    intro act held
    rcases List.mem_cons.mp held with rfl | later
    · exact first
    · exact goods act later
  | call address input gas readOnly next ih =>
    exact absurd (all _ (List.mem_cons_self ..)) (inv.alone _)
  | observe count next ih =>
    have same := f.store_observe count
    have kept := f.kept_observe count
    rw [Body.acts] at all ⊢
    rw [Body.run]
    cases ho : f.observe count with
    | mk seen after =>
      rw [ho] at same kept all
      have behind : holds after := inv.blind f after same.symm kept.symm start
      cases seen with
      | error fault =>
        refine ⟨behind, ?_⟩
        intro act held
        cases held
      | ok _ => exact ih after all behind
  | note remark next ih => exact ih _ all (inv.blind f (f.note remark) rfl rfl start)

end Body

end SeededDraws
