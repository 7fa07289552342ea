import SeededDraws.Proofs.Context
import SeededDraws.Proofs.Contract.Acts
import SeededDraws.Proofs.Contract.Transaction
import SeededDraws.Proofs.Fault
import SeededDraws.Proofs.Overlay
/-!
# Static calls

A body in a read-only call gets views, and views that are new in the call own no snapshot but those
that were taken in it. So whatever the body does, the ledger differs from the one before the call by
snapshots on top alone, and the call's own revert or release takes these away again.
-/

namespace SeededDraws

/-! ### Views that are new in a call -/

namespace Store

/-- Nothing but snapshots happened to the ledger since the call began, and no view from `floor` on
remembers a snapshot of before or the call's own one. -/
structure Undisturbed (before : Ledger) (floor : Nat) (s : Store) : Prop where
  base : ∃ more, s.base = .ledger (before.marked (more + 1)) true
  grown : floor ≤ s.views.length
  above : ∀ v, floor ≤ v → ∀ n ∈ s.viewAt v, (before.openSnapshots : Int) < n

namespace Undisturbed

variable {before : Ledger} {floor : Nat} {s : Store}

/-- The call's own snapshot counts as an old one for the views that are new in the call. -/
theorem iff_overlaid : s.Undisturbed before floor ↔ s.Overlaid before.mark floor := by
  constructor
  · rintro ⟨⟨more, on⟩, grown, above⟩
    refine ⟨⟨more, ?_⟩, grown, ?_⟩
    · rw [Ledger.marked_mark, on]
    · intro v high n held
      rw [Ledger.openSnapshots_mark]
      exact above v high n held
  · rintro ⟨⟨more, on⟩, grown, above⟩
    refine ⟨⟨more, ?_⟩, grown, ?_⟩
    · rw [on, Ledger.marked_mark]
    · intro v high n held
      have reached := above v high n held
      rw [Ledger.openSnapshots_mark] at reached
      exact reached

theorem guard (h : s.Undisturbed before floor) (handle : Handle) (readOnly : Bool) :
    (s.guard handle readOnly).2.Undisturbed before floor :=
  iff_overlaid.mpr ((iff_overlaid.mp h).guard handle readOnly)

/-- The call's own snapshot, the lowest of the new ones, stays open. -/
theorem step (h : s.Undisturbed before floor) {v : Nat} (high : floor ≤ v) (op : StateOp) :
    (s.step (.view v) op).2.Undisturbed before floor :=
  iff_overlaid.mpr ((iff_overlaid.mp h).step Ledger.idle_mark high op)

/-- The call's own release ends with the ledger of before. -/
theorem release (h : s.Undisturbed before floor) (idle : before.marks = [] → before.journal = [])
    {op : StateOp} (release : op = .revert (.ofNat before.openSnapshots) ∨
      op = .discard (.ofNat before.openSnapshots)) :
    s.step .base op = (.ok .null, { s with base := .ledger before true }) := by
  obtain ⟨more, on⟩ := h.base
  rw [Store.step, onBase_ledger on, Ledger.step_first_marked idle release]

end Undisturbed

end Store

/-! ### Bodies of static calls -/

/-- The state is used as the call hands it out, or through a new view, and no other contract is
called. -/
def Act.isGuarded : Act → Bool
  | .charge .. => true
  | .state .direct _ _ => false
  | .state .. => true
  | .call _ => false

/-- A write is answered by write protection. -/
def Act.Refused : Act → Prop
  | .state _ op answer =>
    op.mutates = true → answer = .error (.failure (.writeProtection (.text op.name)))
  | _ => True

/-- Every kept state is a view that is new in the call. -/
def Frame.Static (before : Ledger) (floor : Nat) (f : Frame) : Prop :=
  f.world.store.Undisturbed before floor ∧ ∀ handle ∈ f.kept, ∃ v, handle = .view v ∧ floor ≤ v

namespace Frame.Static

variable {before : Ledger} {floor : Nat} {f : Frame}

/-- At first there is the call's own snapshot, and no new view yet. -/
theorem entry (before : Ledger) (views : List View) (metrics : Metrics) (notes : List Datum)
    (block : Option BlockEnv) (context : CallContext) :
    (Contract.entry ⟨.base, block⟩ context
      ⟨⟨.ledger before true, views⟩, metrics, notes⟩).Static before views.length := by
  constructor
  · exact Store.Undisturbed.iff_overlaid.mpr (.start before.mark views)
  · intro handle held
    cases held

theorem guard (h : f.Static before floor) :
    (∃ v, (f.guard .base true).1 = .view v ∧ floor ≤ v) ∧
      (f.guard .base true).2.Static before floor :=
  ⟨⟨f.world.store.views.length, rfl, h.1.grown⟩, h.1.guard .base true, h.2⟩

theorem reach (h : f.Static before floor) {via : Access} (guarded : via ≠ .direct) :
    (∃ v, (f.reach .base true via).1 = .view v ∧ floor ≤ v) ∧
      (f.reach .base true via).2.Static before floor := by
  cases via with
  | guarded => exact h.guard
  | direct => exact absurd rfl guarded
  | observing => exact h.guard
  | kept index =>
    rw [Frame.reach]
    split
    · next handle found => exact ⟨h.2 handle (List.mem_of_getElem? found), h⟩
    · exact h.guard

theorem keep (h : f.Static before floor) : (f.keep .base true).Static before floor := by
  obtain ⟨view, after⟩ := h.guard
  refine ⟨after.1, ?_⟩
  intro handle held
  rcases List.mem_append.mp held with old | new
  · exact h.2 handle old
  · rw [List.mem_singleton.mp new]
    exact view

theorem invariant (before : Ledger) (floor : Nat) {context : CallContext}
    (static : context.readOnly = true) :
    Body.Invariant .base context (fun act => act.isGuarded = true) Act.Refused
      (fun f => f.Static before floor) where
  blind f g store kept h := ⟨store ▸ h.1, kept ▸ h.2⟩
  alone answer allowed := by cases allowed
  charge amount answer := trivial
  keep f h := by
    rw [static]
    exact h.keep
  state f via op h := by
    rw [static]
    intro reached stepped allowed
    have guarded : via ≠ .direct := by
      intro direct
      rw [direct] at allowed
      cases allowed
    obtain ⟨⟨v, through, high⟩, after⟩ := h.reach guarded
    have target : reached.1 = .view v := through
    have answered : stepped = reached.2.step (.view v) op := by rw [← target]
    rw [answered]
    refine ⟨⟨after.1.step high op, after.2⟩, ?_⟩
    intro mutating
    exact congrArg Prod.fst (reached.2.world.store.step_mutating v mutating)

end Frame.Static

/-! ### Whole calls -/

theorem CallContext.readOnly_of_make {caller address input gas readOnly : Datum}
    {context : CallContext} (made : make caller address input gas readOnly = .ok context) :
    context.readOnly = readOnly.truthy := by
  obtain ⟨_, _, _, _, truth⟩ := make_eq_ok.mp made
  exact truth.symm

namespace Contract

variable {before : Ledger} {floor : Nat} {context : CallContext}

/-- The body of a static call, if there is one for the input, leaves snapshots and no more. -/
theorem execute_static (static : context.readOnly = true) (c : Contract) (callee : Callee)
    (block : Option BlockEnv) {f : Frame} (start : f.Static before floor)
    (guarded : ∀ act ∈ c.actsIn callee ⟨.base, block⟩ context f, act.isGuarded = true) :
    (c.execute callee ⟨.base, block⟩ context f).2.Static before floor ∧
      ∀ act ∈ c.actsIn callee ⟨.base, block⟩ context f, act.Refused := by
  rw [actsIn] at guarded ⊢
  rw [execute]
  cases routed : c.route context.input with
  | error fault =>
    refine ⟨start, ?_⟩
    intro act held
    cases held
  | ok found =>
    rw [routed] at guarded
    exact (Frame.Static.invariant before floor static).run _ f guarded start

/-- However the body ends, the call's own revert or release restores the ledger. -/
theorem finish_static {f : Frame} (h : f.world.store.Undisturbed before floor)
    (idle : before.marks = [] → before.journal = []) (outcome : Outcome Datum) :
    (finish .base (.ofNat before.openSnapshots) (outcome, f)).2.store.base =
      .ledger before true := by
  cases outcome with
  | ok output =>
    have releases : f.world.store.releases .base = true := by
      obtain ⟨more, on⟩ := h.base
      rw [Store.releases, on]
      rfl
    rw [finish_ok output releases (h.release idle (.inr rfl))]
  | error fault => rw [(finish_error fault (h.release idle (.inl rfl))).1]

end Contract

/-- A static call changes nothing. Whatever its body does to the state that the call hands it, and
however it ends, the ledger with its open snapshots and the records to restore them is the one from
before the call, and every write that the body tried was refused. -/
theorem static_call_changes_nothing (txHash : Bytes) (history : List StateOp) (c : Contract)
    (callee : Callee) (block : Option BlockEnv) (views : List View) (metrics : Metrics)
    (notes : List Datum) (address caller input gas readOnly : Datum)
    (static : readOnly.truthy = true) :
    let before := (Ledger.start txHash).after history
    let w : World := ⟨⟨.ledger before true, views⟩, metrics, notes⟩
    let acts := c.acts callee ⟨.base, block⟩ w address caller input gas readOnly
    (∀ act ∈ acts, act.isGuarded = true) →
    (c.run callee ⟨.base, block⟩ w address caller input gas readOnly).2.store.base =
      .ledger before true ∧
    ∀ act ∈ acts, act.Refused := by
  intro before w acts guarded
  cases made : CallContext.make caller address input gas readOnly with
  | error fault =>
    have idle : acts = [] := by
      simp only [acts, Contract.acts, made]
    have refused : c.run callee ⟨.base, block⟩ w address caller input gas readOnly =
        (.error fault, w) := by
      simp only [Contract.run, made]
    rw [refused, idle]
    refine ⟨rfl, ?_⟩
    intro act held
    cases held
  | ok context =>
    have inert : context.readOnly = true := (CallContext.readOnly_of_make made).trans static
    have taken : w.step .base .snapshot = (.ok (.ofNat before.openSnapshots),
        { w with store := ⟨.ledger (before.marked 1) true, views⟩ }) := rfl
    have inside : acts =
        c.actsIn callee ⟨.base, block⟩ context (Contract.entry ⟨.base, block⟩ context w) := by
      simp only [acts, Contract.acts, made, taken, Contract.entry]
    have start := Frame.Static.entry before views metrics notes block context
    rw [inside] at guarded ⊢
    obtain ⟨ended, refused⟩ := c.execute_static inert callee block start guarded
    have idle := (refines_after txHash history).idle
    have finished := c.run_eq callee ⟨.base, block⟩ w made (congrArg Prod.fst taken)
    rw [finished]
    exact ⟨Contract.finish_static ended.1 idle _, refused⟩

namespace Prying

/-- Takes snapshots through a view that it keeps and through a new one, tries to release those of
before and the call's own, leaves one open and is at last refused a write. -/
def body : Body :=
  .keep <|
  .state (.kept 0) .snapshot fun _ =>
  .state .guarded .snapshot fun _ =>
  .state (.kept 0) (.discard (.int 0)) fun _ =>
  .state .guarded (.revert (.int 1)) fun _ =>
  .state (.kept 0) (.revert (.int 2)) fun _ =>
  .state (.kept 0) .snapshot fun _ =>
  .state (.kept 0) (.setNonce Leaking.account (.int 9)) fun answer =>
    match answer with
    | .ok output => .done output
    | .error fault => .fail fault

def contract : Contract := ⟨[], some fun _ => body⟩

def acts : List Act :=
  contract.acts Leaking.alone ⟨.base, none⟩ Leaking.world Leaking.account Leaking.account
    (.ofBytes []) (.int 10) (.bool true)

def call : Outcome CallResult × World :=
  contract.run Leaking.alone ⟨.base, none⟩ Leaking.world Leaking.account Leaking.account
    (.ofBytes []) (.int 10) (.bool true)

end Prying

open Prying in
/-- On top of one open snapshot. -/
theorem static_call_changes_nothing_prying :
    acts.length = 7 ∧ call.2.store.base = Leaking.world.store.base ∧ ∀ act ∈ acts, act.Refused := by
  have guarded : acts.all Act.isGuarded = true := by decide +kernel
  have seven : acts.length = 7 := by decide +kernel
  exact ⟨seven, static_call_changes_nothing zeroWord Leaking.history contract Leaking.alone none []
    .fresh [] Leaking.account Leaking.account (.ofBytes []) (.int 10) (.bool true) rfl
    (List.all_eq_true.mp guarded)⟩

end SeededDraws
