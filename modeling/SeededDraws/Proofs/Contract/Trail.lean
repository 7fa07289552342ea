import SeededDraws.Proofs.Accounts
import SeededDraws.Proofs.Contract.Snapshots
import SeededDraws.Proofs.Contract.Transaction
import SeededDraws.Proofs.Seed
import SeededDraws.Registry
/-!
# Trails of calls

All that a call does to the state, in order: the snapshot that it takes, the moves of its body with
the trails of the calls inside, and the release at the end. A history of uses and of calls is then one
list of moves, and what holds of the state behind every list of moves holds inside of calls as well.
-/

namespace SeededDraws

/-! ### Trails -/

/-- What a callee does to the state, given what the callee is given. -/
abbrev Trailer := World → Datum → Datum → Datum → Datum → Datum → List Move

/-- The moves of a body, those of the calls inside it included. -/
def Body.trail (callee : Callee) (nested : Trailer) (handle : Handle) (context : CallContext) :
    Body → Frame → List Move
  | .done _, _ => []
  | .fail _, _ => []
  | .charge amount next, f =>
    let (left, meter) := f.meter.consume amount
    (next left).trail callee nested handle context { f with meter := meter }
  | .keep next, f =>
    handle.looks context.readOnly ++
      next.trail callee nested handle context (f.keep handle context.readOnly)
  | .state via op next, f =>
    let reached := f.reach handle context.readOnly via
    let stepped := reached.2.step reached.1 op
    f.looks handle context.readOnly via ++
      .use reached.1 op :: (next stepped.1).trail callee nested handle context stepped.2
  | .call address input gas readOnly next, f =>
    let (result, world) := callee f.world address (.ofBytes context.address) input gas readOnly
    nested f.world address (.ofBytes context.address) input gas readOnly ++
      (next result).trail callee nested handle context { f with world := world }
  | .observe count next, f =>
    match f.observe count with
    | (.error _, _) => []
    | (.ok _, f) => next.trail callee nested handle context f
  | .note remark next, f => next.trail callee nested handle context (f.note remark)

namespace Contract

def trailIn (c : Contract) (callee : Callee) (nested : Trailer) (setting : Setting)
    (context : CallContext) (f : Frame) : List Move :=
  match c.route context.input with
  | .error _ => []
  | .ok (body, args) =>
    (body ⟨context, args, setting.block⟩).trail callee nested setting.handle context f

/-- The release of the snapshot that a call took. -/
def lastMoves (handle : Handle) (snapshot : Datum) : Outcome Datum × Frame → List Move
  | (.ok _, f) =>
    if f.world.store.releases handle then [.use handle (.discard snapshot)] else []
  | (.error _, _) => [.use handle (.revert snapshot)]

def trail (c : Contract) (callee : Callee) (nested : Trailer) (setting : Setting) (w : World)
    (address caller input gas readOnly : Datum) : List Move :=
  match CallContext.make caller address input gas readOnly with
  | .error _ => []
  | .ok context =>
    .use setting.handle .snapshot ::
      match (w.step setting.handle .snapshot).1 with
      | .error _ => []
      | .ok id =>
        let f := entry setting context w
        c.trailIn callee nested setting context f ++
          lastMoves setting.handle id (c.execute callee setting context f)

end Contract

def Registry.trail (r : Registry) (setting : Setting) : Nat → Trailer
  | 0, _, _, _, _, _, _ => []
  | depth + 1, w, address, caller, input, gas, readOnly =>
    match r.lookUp address with
    | .error _ => []
    | .ok contract =>
      contract.trail (r.enter setting depth) (r.trail setting depth) setting w address caller input
        gas readOnly

/-- The trail leads from the state before every call to the state behind it. -/
def Callee.Leaves (callee : Callee) (nested : Trailer) : Prop :=
  ∀ w address caller input gas readOnly,
    (callee w address caller input gas readOnly).2.store =
      w.store.afterMoves (nested w address caller input gas readOnly)

section

variable {callee : Callee} {nested : Trailer} (leaves : Callee.Leaves callee nested)

include leaves

theorem Body.store_run {handle : Handle} {context : CallContext} (body : Body) (f : Frame) :
    (body.run callee handle context f).2.world.store =
      f.world.store.afterMoves (body.trail callee nested handle context f) := by
  induction body generalizing f with
  | done output => rfl
  | fail fault => rfl
  | charge amount next ih => exact ih _ _
  | keep next ih =>
    rw [trail, Store.afterMoves_append, Store.afterMoves_looks]
    exact ih _
  | state via op next ih =>
    rw [trail, Store.afterMoves_append, ← f.store_reach]
    exact ih _ _
  | call address input gas readOnly next ih =>
    rw [trail, Store.afterMoves_append, ← leaves]
    exact ih _ _
  | observe count next ih =>
    have same := f.store_observe count
    rw [run, trail]
    cases seen : f.observe count with
    | mk answer after =>
      rw [seen] at same
      cases answer with
      | error fault => exact same
      | ok _ =>
        rw [← same]
        exact ih after
  | note remark next ih => exact ih _

namespace Contract

theorem store_execute (c : Contract) (setting : Setting) (context : CallContext) (f : Frame) :
    (c.execute callee setting context f).2.world.store =
      f.world.store.afterMoves (c.trailIn callee nested setting context f) := by
  rw [execute, trailIn]
  cases c.route context.input with
  | error fault => rfl
  | ok routed => exact Body.store_run leaves _ f

omit leaves in
theorem store_finish (handle : Handle) (snapshot : Datum) (ended : Outcome Datum × Frame) :
    (finish handle snapshot ended).2.store =
      ended.2.world.store.afterMoves (lastMoves handle snapshot ended) := by
  obtain ⟨outcome, f⟩ := ended
  cases outcome with
  | error fault => exact store_finish_error handle snapshot fault f
  | ok output =>
    rw [store_finish_ok, lastMoves]
    split <;> rfl

theorem store_run (c : Contract) (setting : Setting) (w : World)
    (address caller input gas readOnly : Datum) :
    (c.run callee setting w address caller input gas readOnly).2.store =
      w.store.afterMoves (c.trail callee nested setting w address caller input gas readOnly) := by
  rw [trail]
  cases made : CallContext.make caller address input gas readOnly with
  | error fault =>
    rw [run, made]
    rfl
  | ok context =>
    have entered : (entry setting context w).world.store =
        w.store.move (.use setting.handle .snapshot) := rfl
    simp only []
    cases taken : (w.step setting.handle .snapshot).1 with
    | error fault =>
      simp only [run, made, runIn, taken]
      rfl
    | ok id =>
      rw [c.run_eq callee setting w made taken, store_finish, store_execute leaves,
        ← Store.afterMoves_append, entered]
      rfl

end Contract

end

theorem Registry.leaves_enter (r : Registry) (setting : Setting) (depth : Nat) :
    Callee.Leaves (r.enter setting depth) (r.trail setting depth) := by
  induction depth with
  | zero => exact fun _ _ _ _ _ _ => rfl
  | succ depth ih =>
    intro w address caller input gas readOnly
    rw [enter, trail]
    cases r.lookUp address with
    | error fault => rfl
    | ok contract => exact contract.store_run ih ..

/-! ### Histories -/

/-- Something that happens to the state: a move, or a call of any contract. The calls inside it go to
the registry, up to `depth` levels deep. -/
inductive Happening where
  | move (m : Move)
  | call (r : Registry) (depth : Nat) (contract : Contract) (setting : Setting)
    (address caller input gas readOnly : Datum)

namespace Happening

def run (w : World) : Happening → World
  | .move m => { w with store := w.store.move m }
  | .call r depth contract setting address caller input gas readOnly =>
    (contract.run (r.enter setting depth) setting w address caller input gas readOnly).2

def trail (w : World) : Happening → List Move
  | .move m => [m]
  | .call r depth contract setting address caller input gas readOnly =>
    contract.trail (r.enter setting depth) (r.trail setting depth) setting w address caller input
      gas readOnly

theorem store_run (w : World) (h : Happening) :
    (h.run w).store = w.store.afterMoves (h.trail w) := by
  cases h with
  | move m => rfl
  | call r depth contract setting address caller input gas readOnly =>
    exact contract.store_run (r.leaves_enter setting depth) ..

end Happening

namespace World

def behind (w : World) (history : List Happening) : World := history.foldl Happening.run w

def trail (w : World) : List Happening → List Move
  | [] => []
  | h :: rest => h.trail w ++ (h.run w).trail rest

theorem store_behind (w : World) (history : List Happening) :
    (w.behind history).store = w.store.afterMoves (w.trail history) := by
  induction history generalizing w with
  | nil => rfl
  | cons h rest ih =>
    rw [trail, Store.afterMoves_append, ← h.store_run]
    exact ih _

end World

/-! ### What bodies are answered -/

section

variable {callee : Callee} {nested : Trailer} (leaves : Callee.Leaves callee nested)
  {keeps : Store → Prop} (kept : ∀ s m, keeps s → keeps (s.move m))

include kept

theorem Store.keeps_afterMoves (s : Store) (moves : List Move) (start : keeps s) :
    keeps (s.afterMoves moves) := by
  induction moves generalizing s with
  | nil => exact start
  | cons m rest ih => exact ih _ (kept s m start)

include leaves

/-- Every answer that a body gets is that of a store with whatever all moves keep. -/
theorem Body.answered {handle : Handle} {context : CallContext} (body : Body) (f : Frame)
    (start : keeps f.world.store) {via : Access} {op : StateOp} {answer : Outcome Datum}
    (held : .state via op answer ∈ body.acts callee handle context f) :
    ∃ s target, keeps s ∧ (Store.step s target op).1 = answer := by
  induction body generalizing f with
  | done output => cases held
  | fail fault => cases held
  | charge amount next ih =>
    rcases List.mem_cons.mp held with same | later
    · cases same
    · exact ih _ { f with meter := (f.meter.consume amount).2 } start later
  | keep next ih =>
    have guarded := Store.keeps_afterMoves kept _ (handle.looks context.readOnly) start
    rw [Store.afterMoves_looks] at guarded
    exact ih _ guarded held
  | state via' op' next ih =>
    have reached := Store.keeps_afterMoves kept _ (f.looks handle context.readOnly via') start
    rw [← f.store_reach] at reached
    rcases List.mem_cons.mp held with same | later
    · cases same
      exact ⟨_, _, reached, rfl⟩
    · exact ih _ _ (kept _ (.use _ op') reached) later
  | call address input gas readOnly next ih =>
    rcases List.mem_cons.mp held with same | later
    · cases same
    · refine ih _ _ ?_ later
      rw [leaves]
      exact Store.keeps_afterMoves kept _ _ start
  | observe count next ih =>
    have same := f.store_observe count
    rw [acts] at held
    cases seen : f.observe count with
    | mk answer after =>
      rw [seen] at same held
      cases answer with
      | error fault => cases held
      | ok _ => exact ih after (same ▸ start) held
  | note remark next ih => exact ih (f.note remark) start held

theorem Contract.answered (c : Contract) (setting : Setting) (w : World)
    {address caller input gas readOnly : Datum} (start : keeps w.store) {via : Access}
    {op : StateOp} {answer : Outcome Datum}
    (held : .state via op answer ∈
      c.acts callee setting w address caller input gas readOnly) :
    ∃ s target, keeps s ∧ (Store.step s target op).1 = answer := by
  rw [acts] at held
  cases made : CallContext.make caller address input gas readOnly with
  | error fault =>
    rw [made] at held
    cases held
  | ok context =>
    cases taken : w.step setting.handle .snapshot with
    | mk snapshot entered =>
      rw [made, taken] at held
      cases snapshot with
      | error fault => cases held
      | ok id =>
        have store : entered.store = w.store.move (.use setting.handle .snapshot) :=
          congrArg (fun out => World.store out.2) taken.symm
        have begun : keeps entered.store := store ▸ kept _ _ start
        simp only [actsIn] at held
        cases routed : c.route context.input with
        | error fault =>
          rw [routed] at held
          cases held
        | ok found =>
          rw [routed] at held
          exact Body.answered leaves kept _ ⟨entered, _, []⟩ begun held

end

end SeededDraws
