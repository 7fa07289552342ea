import SeededDraws.Proofs.Contract.Charges
import SeededDraws.Proofs.Contract.Transaction
import SeededDraws.Proofs.Metrics
import SeededDraws.Proofs.Ownership
/-!
# Calls on a ledger without release

A ledger need not know how to release a snapshot. Every good call then leaves its snapshot open, and
the next calls run on top of it. The store of copies has one copy more for each of them, and a
failed call leaves it as it was. So the copies below a call are those of the good calls before it,
and they stay there whatever follows.
-/

namespace SeededDraws

/-! ### Copies on top of others -/

/-- Everything that `below` holds is still held: its copies, and on top of them a copy of its
contents. -/
structure CopyStore.Extends (r below : CopyStore) : Prop where
  txHash : r.txHash = below.txHash
  copies : below.copies ++ [below.contents] <+: r.copies

namespace CopyStore.Extends

variable {r below : CopyStore}

theorem step (h : r.Extends below) {op : StateOp} (spares : op.Spares below.copies.length) :
    (r.step op).2.Extends below := by
  have held := List.prefix_iff_eq_take.mp h.copies
  rw [List.length_append, List.length_singleton] at held
  have open_ : below.copies.length < r.copies.length := by
    have longer := h.copies.length_le
    rw [List.length_append, List.length_singleton] at longer
    exact longer
  obtain ⟨hash, kept⟩ := step_spares spares open_
  refine ⟨hash.trans h.txHash, ?_⟩
  rw [held, ← kept]
  exact List.take_prefix ..

/-- Reverting to the held copy leaves nothing of what came later. -/
theorem revert (h : r.Extends below) {l : Ledger} (refines : Refines l r) :
    ∃ back, l.step (.revert (.ofNat below.copies.length)) = (.ok .null, back) ∧
      Refines back below := by
  obtain ⟨hash, newer, split⟩ := h
  have copy : r.copies[below.copies.length]? = some below.contents := by
    rw [← split, List.append_assoc, List.getElem?_append_right (Nat.le_refl _), Nat.sub_self]
    rfl
  obtain ⟨back, reverted, _, _, refines'⟩ := refines.step_revert copy
  rw [← split, List.append_assoc, List.take_left, hash] at refines'
  exact ⟨back, reverted, refines'⟩

end CopyStore.Extends

/-- Ledgers that nothing tells apart: they read the same, have the same snapshots open, and answer
all that may be asked later in the same way. -/
structure Ledger.Alike (l l' : Ledger) : Prop where
  contents : l.contents.Same l'.contents
  openSnapshots : l.openSnapshots = l'.openSnapshots
  trace : ∀ later, l.trace later = l'.trace later

theorem Refines.alike {l l' : Ledger} {s : CopyStore} (h : Refines l s) (h' : Refines l' s) :
    l.Alike l' where
  contents := h.contents.trans h'.contents.symm
  openSnapshots := h.size.trans h'.size.symm
  trace later := (h.trace later).trans (h'.trace later).symm

/-! ### Without release -/

namespace Base

theorem step_known (l : Ledger) {op : StateOp} (known : (ledger l false).lacks op = false) :
    (ledger l false).step op = ((l.step op).1, ledger (l.step op).2 false) := by
  rw [step, known, if_neg Bool.false_ne_true]

theorem step_unreleased (l : Ledger) (op : StateOp) :
    ((ledger l false).step op).2 = ledger l false ∨
      ((ledger l false).step op).2 = ledger (l.step op).2 false := by
  cases known : (ledger l false).lacks op with
  | true =>
    rw [step, known, if_pos rfl]
    exact .inl rfl
  | false =>
    rw [step_known l known]
    exact .inr rfl

/-- Going back to the snapshot at place `n` is carried out and leaves the ledger `back`. -/
def GoesBack (b : Base) (n : Nat) (back : Ledger) : Prop :=
  b.step (.revert (.ofNat n)) = (.ok .null, ledger back false)

theorem GoesBack.unique {b : Base} {n : Nat} {back back' : Ledger} (h : b.GoesBack n back)
    (h' : b.GoesBack n back') : back = back' := by
  cases h.symm.trans h'
  rfl

theorem goesBack {l : Ledger} {r below : CopyStore} (refines : Refines l r)
    (h : r.Extends below) :
    ∃ back, (ledger l false).GoesBack below.copies.length back ∧ Refines back below := by
  obtain ⟨back, reverted, refines'⟩ := h.revert refines
  refine ⟨back, ?_, refines'⟩
  rw [GoesBack, step_known l rfl, reverted]

end Base

/-- The store stands on a ledger without release that answers as the store of copies does. -/
def Store.On (s : Store) (r : CopyStore) : Prop := ∃ l, s.base = .ledger l false ∧ Refines l r

/-- Everything that `below` holds is still held by what the store stands on. -/
def Store.Retains (below : CopyStore) (s : Store) : Prop := ∃ r, s.On r ∧ r.Extends below

namespace Store.Retains

variable {below : CopyStore} {s : Store}

theorem guard (h : s.Retains below) (handle : Handle) (readOnly : Bool) :
    (s.guard handle readOnly).2.Retains below := by
  obtain ⟨r, ⟨l, on, refines⟩, held⟩ := h
  exact ⟨r, ⟨l, (s.base_guard handle readOnly).trans on, refines⟩, held⟩

theorem step (h : s.Retains below) (handle : Handle) {op : StateOp}
    (spares : op.Spares below.copies.length) : (s.step handle op).2.Retains below := by
  obtain ⟨r, ⟨l, on, refines⟩, held⟩ := h
  rcases s.step_base handle op with carried | same
  · rw [on] at carried
    rcases Base.step_unreleased l op with lacking | done
    · exact ⟨r, ⟨l, carried.trans lacking, refines⟩, held⟩
    · exact ⟨(r.step op).2, ⟨_, carried.trans done, (refines.step op).2⟩, held.step spares⟩
  · exact ⟨r, ⟨l, same.trans on, refines⟩, held⟩

theorem releases (h : s.Retains below) : s.releases .base = false := by
  obtain ⟨_, ⟨_, on, _⟩, _⟩ := h
  rw [Store.releases, on]
  rfl

theorem revert (h : s.Retains below) :
    (s.step .base (.revert (.ofNat below.copies.length))).2.On below := by
  obtain ⟨r, ⟨l, on, refines⟩, held⟩ := h
  obtain ⟨back, reverted, refines'⟩ := Base.goesBack refines held
  refine ⟨back, ?_, refines'⟩
  rw [Store.step, onBase, on, reverted]

/-- If no later snapshot is open, the copies are those below and the one that is held. -/
theorem copies (h : s.Retains below) (only : s.openSnapshots = below.copies.length + 1) :
    ∃ r, s.On r ∧ r.txHash = below.txHash ∧ r.copies = below.copies ++ [below.contents] := by
  obtain ⟨r, ⟨l, on, refines⟩, hash, held⟩ := h
  refine ⟨r, ⟨l, on, refines⟩, hash, ?_⟩
  rw [openSnapshots, on] at only
  refine (held.eq_of_length ?_).symm
  rw [List.length_append, List.length_singleton, ← only]
  exact refines.size

end Store.Retains

theorem Store.On.openSnapshots {s : Store} {r : CopyStore} (h : s.On r) :
    s.openSnapshots = r.copies.length := by
  obtain ⟨l, on, refines⟩ := h
  rw [Store.openSnapshots, on]
  exact refines.size

/-! ### One call -/

/-- A call of a contract, with all that may be chosen for it. -/
structure ContractCall where
  contract : Contract
  callee : Callee
  block : Option BlockEnv
  address : Datum
  caller : Datum
  input : Datum
  gas : Datum
  readOnly : Datum

namespace ContractCall

variable (d : ContractCall) (w : World)

def setting : Setting := ⟨.base, d.block⟩

def run : Outcome CallResult × World :=
  d.contract.run d.callee d.setting w d.address d.caller d.input d.gas d.readOnly

def context : Outcome CallContext :=
  CallContext.make d.caller d.address d.input d.gas d.readOnly

/-- How the function of the call ends, and where. -/
def body (context : CallContext) : Outcome Datum × Frame :=
  d.contract.execute d.callee d.setting context (Contract.entry d.setting context w)

/-- What the function returns, or what went wrong in it or before it. -/
def outcome : Outcome Datum := d.context.bind fun context => (d.body w context).1

/-- The function calls no other contract and releases no snapshot but its own, and if it returns it
leaves none of them open. -/
def Tidy : Prop :=
  ∀ context, d.context = .ok context →
    d.contract.Uses (fun _ op => op.Spares w.store.openSnapshots) d.setting context
      (Contract.entry d.setting context w) ∧
    ∀ output, (d.body w context).1 = .ok output →
      (d.body w context).2.world.store.openSnapshots = w.store.openSnapshots + 1

/-- The gas that the function charged. -/
def charged : Nat :=
  match d.context with
  | .ok context => (d.body w context).2.meter.used
  | .error _ => 0

/-- The call has a result without an error. -/
def Good : Prop := ∃ result, (d.run w).1 = .ok result ∧ result.error = none

/-- The function returned, but there is no result behind it: the gas that it charged has no double,
or what it returned has no length. -/
def Stranded : Prop :=
  ∃ output, d.outcome w = .ok output ∧
    (Binary64.overflowBound ≤ d.charged w ∨ ∀ size, output.length ≠ .ok size)

variable {d w} {s : CopyStore} {context : CallContext}

theorem charged_of_made (made : d.context = .ok context) :
    d.charged w = (d.body w context).2.meter.used := by
  rw [charged, made]

theorem run_unmade {fault : Fault} (made : d.context = .error fault) :
    d.run w = (.error fault, w) := by
  rw [context] at made
  simp only [run, Contract.run, made]

theorem outcome_of_made (made : d.context = .ok context) : d.outcome w = (d.body w context).1 := by
  rw [outcome, made]
  rfl

theorem opened (h : w.store.On s) :
    (w.step .base .snapshot).1 = .ok (.ofNat s.copies.length) ∧
      (w.step .base .snapshot).2.store.Retains s := by
  obtain ⟨l, on, refines⟩ := h
  have taken : w.step .base .snapshot = ((l.step .snapshot).1,
      { w with store := { w.store with base := .ledger l.mark false } }) := by
    rw [World.step, Store.step, Store.onBase, on, Base.step_known l rfl]
    rfl
  rw [taken]
  exact ⟨(refines.step .snapshot).1, s.take.2, ⟨_, rfl, refines.mark⟩, rfl, List.prefix_rfl⟩

theorem run_made (h : w.store.On s) (made : d.context = .ok context) :
    d.run w = Contract.finish .base (.ofNat s.copies.length) (d.body w context) :=
  Contract.run_eq d.contract d.callee d.setting w made (opened h).1

theorem retains_body (h : w.store.On s) (tidy : d.Tidy w) (made : d.context = .ok context) :
    (d.body w context).2.world.store.Retains s := by
  obtain ⟨uses, _⟩ := tidy context made
  rw [h.openSnapshots] at uses
  exact Contract.execute_keeps (fun _ handle readOnly held => held.guard handle readOnly)
    (fun _ handle op spares held => held.step handle spares)
    d.contract d.callee d.setting context _ uses (opened h).2

theorem run_failed (h : w.store.On s) (tidy : d.Tidy w) {fault : Fault}
    (failed : d.outcome w = .error fault) : (d.run w).2.store.On s := by
  cases made : d.context with
  | error refused =>
    rw [run_unmade made]
    exact h
  | ok context =>
    have held := retains_body h tidy made
    rw [run_made h made]
    rw [outcome_of_made made] at failed
    generalize d.body w context = ended at held failed ⊢
    obtain ⟨_, f⟩ := ended
    cases failed
    rw [Contract.store_finish_error]
    exact held.revert

theorem run_returned (h : w.store.On s) (tidy : d.Tidy w) {output : Datum}
    (returned : d.outcome w = .ok output) :
    ∃ s', (d.run w).2.store.On s' ∧ s'.txHash = s.txHash ∧
      s'.copies = s.copies ++ [s.contents] := by
  cases made : d.context with
  | error refused =>
    rw [outcome, made] at returned
    cases returned
  | ok context =>
    rw [outcome_of_made made] at returned
    have held := retains_body h tidy made
    have only := (tidy context made).2 output returned
    rw [h.openSnapshots] at only
    have unreleased := held.releases
    have copies := held.copies only
    rw [run_made h made]
    generalize d.body w context = ended at returned unreleased copies ⊢
    obtain ⟨_, f⟩ := ended
    cases returned
    rw [Contract.store_finish_ok, unreleased]
    exact copies

/-- A function that returned has its state kept, and only the metrics and the length of its output
stand between it and a result. -/
theorem run_of_returned (h : w.store.On s) (tidy : d.Tidy w) {output : Datum}
    (returned : d.outcome w = .ok output) :
    ∃ context, d.context = .ok context ∧ (d.run w).2.store = (d.body w context).2.world.store ∧
      (d.run w).1 = if d.charged w < Binary64.overflowBound then
        output.length.map fun _ => ⟨output, (d.body w context).2.meter.remaining, none⟩
      else .error (.bare .overflow) := by
  cases made : d.context with
  | error refused =>
    rw [outcome, made] at returned
    cases returned
  | ok context =>
    rw [outcome_of_made made] at returned
    have unreleased := (retains_body h tidy made).releases
    refine ⟨context, rfl, ?_⟩
    rw [run_made h made, charged_of_made made]
    generalize d.body w context = ended at returned unreleased ⊢
    obtain ⟨_, f⟩ := ended
    cases returned
    have good : Label.read (.text "ok") = .ok .ok := rfl
    simp only [] at unreleased
    simp only [Contract.finish, Contract.commit, unreleased, if_neg Bool.false_ne_true,
      Contract.countResult_read good]
    refine ⟨trivial, ?_⟩
    split <;> rfl

theorem raised_of_stranded (h : w.store.On s) (tidy : d.Tidy w) (stranded : d.Stranded w) :
    ∃ fault, (d.run w).1 = .error fault := by
  obtain ⟨output, returned, lost⟩ := stranded
  obtain ⟨_, _, _, ran⟩ := run_of_returned h tidy returned
  rw [ran]
  split
  · next fits =>
    have unsized := lost.resolve_left (Nat.not_le.mpr fits)
    cases sized : output.length with
    | error fault => exact ⟨fault, rfl⟩
    | ok size => exact absurd sized (unsized size)
  · exact ⟨_, rfl⟩

/-- A call is good exactly if its function returned and it is not stranded behind that. -/
theorem good_iff (h : w.store.On s) (tidy : d.Tidy w) :
    d.Good w ↔ (∃ output, d.outcome w = .ok output) ∧ ¬d.Stranded w := by
  constructor
  · rintro ⟨result, answered, good⟩
    constructor
    · rcases d.contract.run_cases d.callee d.setting w d.address d.caller d.input d.gas d.readOnly
        with ⟨context, id, made, _, ended⟩ | ⟨_, fault, raised⟩
      · rw [outcome_of_made made]
        rw [run, ended] at answered
        rcases Contract.result_of_finish answered with ⟨output, returned, _⟩ | ⟨cause, _, rfl⟩
        · exact ⟨output, returned⟩
        · cases good
      · cases answered.symm.trans raised
    · intro stranded
      obtain ⟨fault, raised⟩ := raised_of_stranded h tidy stranded
      cases answered.symm.trans raised
  · rintro ⟨⟨output, returned⟩, kept⟩
    obtain ⟨context, _, _, ran⟩ := run_of_returned h tidy returned
    have fits : d.charged w < Binary64.overflowBound := by
      by_contra large
      exact kept ⟨output, returned, .inl (Nat.le_of_not_lt large)⟩
    rw [if_pos fits] at ran
    cases sized : output.length with
    | error fault =>
      refine absurd ⟨output, returned, .inr ?_⟩ kept
      intro size other
      cases sized.symm.trans other
    | ok size =>
      rw [sized] at ran
      exact ⟨_, ran, rfl⟩

theorem returned_iff (h : w.store.On s) (tidy : d.Tidy w) :
    (∃ output, d.outcome w = .ok output) ↔ d.Good w ∨ d.Stranded w := by
  rw [good_iff h tidy]
  constructor
  · intro returned
    exact (Classical.em (d.Stranded w)).elim .inr fun kept => .inl ⟨returned, kept⟩
  · rintro (⟨returned, _⟩ | ⟨output, returned, _⟩)
    · exact returned
    · exact ⟨output, returned⟩

variable {was left : Ledger}

/-- Whatever has become of the call, the function that returned leaves one more snapshot. -/
theorem openSnapshots_of_returned (refines : Refines was s) (on : w.store.base = .ledger was false)
    (onLeft : (d.run w).2.store.base = .ledger left false) (tidy : d.Tidy w) {output : Datum}
    (returned : d.outcome w = .ok output) : left.openSnapshots = was.openSnapshots + 1 := by
  obtain ⟨r, ⟨_, onMore, more⟩, _, copies⟩ := run_returned ⟨was, on, refines⟩ tidy returned
  cases onLeft.symm.trans onMore
  rw [Ledger.openSnapshots, Ledger.openSnapshots, more.size, refines.size, copies,
    List.length_append, List.length_singleton]

/-- A failed call leaves no trace, unless it is stranded. -/
theorem alike_iff (refines : Refines was s) (on : w.store.base = .ledger was false)
    (onLeft : (d.run w).2.store.base = .ledger left false) (tidy : d.Tidy w)
    (failed : ¬d.Good w) : left.Alike was ↔ ¬d.Stranded w := by
  constructor
  · rintro alike ⟨output, returned, _⟩
    have more := openSnapshots_of_returned refines on onLeft tidy returned
    have same := alike.openSnapshots
    omega
  · intro kept
    cases ended : d.outcome w with
    | error fault =>
      obtain ⟨same, onSame, refinesSame⟩ := run_failed ⟨was, on, refines⟩ tidy ended
      cases onLeft.symm.trans onSame
      exact refinesSame.alike refines
    | ok output =>
      have returned := (returned_iff ⟨was, on, refines⟩ tidy).mp ⟨output, ended⟩
      exact (returned.elim failed kept).elim

end ContractCall

/-! ### Many calls -/

namespace World

def afterCalls (w : World) (calls : List ContractCall) : World :=
  calls.foldl (fun w d => (d.run w).2) w

def AllTidy (w : World) : List ContractCall → Prop
  | [] => True
  | d :: rest => d.Tidy w ∧ (d.run w).2.AllTidy rest

variable {w : World} {s : CopyStore}

theorem allTidy_append {first rest : List ContractCall} :
    w.AllTidy (first ++ rest) ↔ w.AllTidy first ∧ (w.afterCalls first).AllTidy rest := by
  induction first generalizing w with
  | nil => exact ⟨fun tidy => ⟨trivial, tidy⟩, And.right⟩
  | cons d first ih => exact (and_congr_right fun _ => ih).trans and_assoc.symm

theorem afterCalls_append (first rest : List ContractCall) :
    w.afterCalls (first ++ rest) = (w.afterCalls first).afterCalls rest := List.foldl_append

/-- Whatever becomes of a call, the copies before it are still there. -/
theorem run_copies {d : ContractCall} (h : w.store.On s) (tidy : d.Tidy w) :
    ∃ s', (d.run w).2.store.On s' ∧ s'.txHash = s.txHash ∧ s.copies <+: s'.copies := by
  cases ended : d.outcome w with
  | error fault => exact ⟨s, ContractCall.run_failed h tidy ended, rfl, List.prefix_rfl⟩
  | ok output =>
    obtain ⟨s', on, hash, copies⟩ := ContractCall.run_returned h tidy ended
    exact ⟨s', on, hash, copies ▸ List.prefix_append ..⟩

theorem afterCalls_copies {calls : List ContractCall} (h : w.store.On s) (tidy : w.AllTidy calls) :
    ∃ s', (w.afterCalls calls).store.On s' ∧ s'.txHash = s.txHash ∧ s.copies <+: s'.copies := by
  induction calls generalizing w s with
  | nil => exact ⟨s, h, rfl, List.prefix_rfl⟩
  | cons d rest ih =>
    obtain ⟨s₁, on₁, hash₁, kept₁⟩ := run_copies h tidy.1
    obtain ⟨s₂, on₂, hash₂, kept₂⟩ := ih on₁ tidy.2
    exact ⟨s₂, on₂, hash₂.trans hash₁, kept₁.trans kept₂⟩

/-- Behind a call whose function returned, and any calls after it, the snapshot that it left is
still there. -/
theorem extends_afterCalls {d : ContractCall} {calls : List ContractCall} {output : Datum}
    (h : w.store.On s) (tidy : w.AllTidy (d :: calls)) (returned : d.outcome w = .ok output) :
    ∃ s', (w.afterCalls (d :: calls)).store.On s' ∧ s'.Extends s := by
  obtain ⟨s₁, on₁, hash₁, copies₁⟩ := ContractCall.run_returned h tidy.1 returned
  obtain ⟨s₂, on₂, hash₂, kept₂⟩ := afterCalls_copies on₁ tidy.2
  exact ⟨s₂, on₂, hash₂.trans hash₁, copies₁ ▸ kept₂⟩

theorem goesBack {d : ContractCall} {calls : List ContractCall} {output : Datum} {l : Ledger}
    (refines : Refines l s) (on : w.store.base = .ledger l false) (tidy : w.AllTidy (d :: calls))
    (returned : d.outcome w = .ok output) :
    ∃ back, (w.afterCalls (d :: calls)).store.base.GoesBack l.openSnapshots back ∧
      Refines back s := by
  obtain ⟨last, ⟨_, onLast, refinesLast⟩, held⟩ := extends_afterCalls ⟨l, on, refines⟩ tidy returned
  rw [onLast, Ledger.openSnapshots, refines.size]
  exact Base.goesBack refinesLast held

theorem extends_middle {older newer : List ContractCall} {e : ContractCall} {output : Datum}
    (h : w.store.On s) (tidy : w.AllTidy (older ++ e :: newer))
    (returned : e.outcome (w.afterCalls older) = .ok output) :
    ∃ s₁ s₂, (w.afterCalls older).store.On s₁ ∧
      (w.afterCalls (older ++ e :: newer)).store.On s₂ ∧ s₂.Extends s₁ := by
  obtain ⟨tidyOlder, tidyRest⟩ := allTidy_append.mp tidy
  obtain ⟨s₁, on₁, _⟩ := afterCalls_copies h tidyOlder
  obtain ⟨s₂, on₂, extends_⟩ := extends_afterCalls on₁ tidyRest returned
  rw [← afterCalls_append] at on₂
  exact ⟨s₁, s₂, on₁, on₂, extends_⟩

end World

/-- Calls on a ledger that cannot release snapshots. A good call leaves one more snapshot open, at
the place that is the number of those that were open before; whatever calls follow, going back there
gives a ledger that nothing tells apart from the one before the call, and from there the snapshot of
every earlier good call can be gone back to in turn. A failed call leaves no trace, except for one
that is stranded behind its function: it raises, but its writes stay and so does its snapshot, just
as if it were good. -/
theorem calls_without_release (txHash : Bytes) (history : List StateOp) (views : List View)
    (metrics : Metrics) (notes : List Datum) (calls : List ContractCall) :
    let start : World :=
      ⟨⟨.ledger ((Ledger.start txHash).after history) false, views⟩, metrics, notes⟩
    start.AllTidy calls →
    ∀ earlier d later, calls = earlier ++ d :: later →
      let before := start.afterCalls earlier
      let behind := (d.run before).2
      ∃ was left, before.store.base = .ledger was false ∧ behind.store.base = .ledger left false ∧
        (¬d.Good before → (left.Alike was ↔ ¬d.Stranded before)) ∧
        (d.Stranded before → ∃ fault, (d.run before).1 = .error fault) ∧
        (d.Good before ∨ d.Stranded before →
          left.openSnapshots = was.openSnapshots + 1 ∧
          (∃ context, d.context = .ok context ∧
            behind.store = (d.body before context).2.world.store) ∧
          ∃ back, (behind.afterCalls later).store.base.GoesBack was.openSnapshots back ∧
            back.Alike was ∧
            ∀ older e newer, earlier = older ++ e :: newer →
              e.Good (start.afterCalls older) ∨ e.Stranded (start.afterCalls older) →
              ∃ first back', (start.afterCalls older).store.base = .ledger first false ∧
                (Base.ledger back false).GoesBack first.openSnapshots back' ∧
                back'.Alike first) := by
  intro start tidy earlier d later split before behind
  subst split
  have h : start.store.On ((CopyStore.start txHash).after history) :=
    ⟨_, rfl, refines_after txHash history⟩
  obtain ⟨tidyEarlier, tidyRest⟩ := World.allTidy_append.mp tidy
  obtain ⟨s, ⟨was, onWas, refines⟩, _⟩ := World.afterCalls_copies h tidyEarlier
  have on : before.store.On s := ⟨was, onWas, refines⟩
  obtain ⟨s', ⟨left, onLeft, _⟩, _⟩ := World.run_copies on tidyRest.1
  refine ⟨was, left, onWas, onLeft, ContractCall.alike_iff refines onWas onLeft tidyRest.1,
    ContractCall.raised_of_stranded on tidyRest.1, ?_⟩
  intro returned
  obtain ⟨output, returned⟩ := (ContractCall.returned_iff on tidyRest.1).mpr returned
  refine ⟨ContractCall.openSnapshots_of_returned refines onWas onLeft tidyRest.1 returned, ?_, ?_⟩
  · obtain ⟨context, made, store, _⟩ := ContractCall.run_of_returned on tidyRest.1 returned
    exact ⟨context, made, store⟩
  · obtain ⟨back, gone, refinesBack⟩ := World.goesBack refines onWas tidyRest returned
    refine ⟨back, gone, refinesBack.alike refines, ?_⟩
    rintro older e newer rfl before
    obtain ⟨tidyOlder, tidyE⟩ := World.allTidy_append.mp tidyEarlier
    obtain ⟨_, onOlder, _⟩ := World.afterCalls_copies h tidyOlder
    obtain ⟨kept, good⟩ := (ContractCall.returned_iff onOlder tidyE.1).mpr before
    obtain ⟨r, s', ⟨first, onFirst, refinesFirst⟩, ⟨_, onWas', refines'⟩, held⟩ :=
      World.extends_middle h tidyEarlier good
    cases onWas.symm.trans onWas'
    -- the ledger that is gone back to is the same, whatever copies it is compared with
    obtain ⟨_, gone', refinesBack'⟩ := World.goesBack refines' onWas tidyRest returned
    cases gone.unique gone'
    obtain ⟨back', goneFirst, refinesFirst'⟩ := Base.goesBack refinesBack' held
    rw [← refinesFirst.size] at goneFirst
    exact ⟨first, back', onFirst, goneFirst, refinesFirst'.alike refinesFirst⟩

namespace Unreleased

open Leaking (account alone)

/-- Sets the nonce of its caller, and tries another one behind a snapshot of its own. -/
def body (nonce : Int) (ending : Outcome Datum) : Body :=
  .state .guarded (.setNonce account (.int nonce)) fun _ =>
  .state .guarded .snapshot fun taken =>
  .state .guarded (.setNonce account (.int 9)) fun _ =>
  .state .guarded (.revert (taken.toOption.getD .null)) fun _ =>
    match ending with
    | .ok output => .done output
    | .error fault => .fail fault

def call (nonce : Int) (ending : Outcome Datum) : ContractCall :=
  ⟨⟨[], some fun _ => body nonce ending⟩, alone, none, account, account, .ofBytes [], .int 10,
    .bool false⟩

def start : World := ⟨⟨.ledger ((Ledger.start zeroWord).after []) false, []⟩, .fresh, []⟩

def first : ContractCall := call 1 (.ok (.ofBytes []))

def failing : ContractCall := call 2 (.error (.bare .index))

/-- What the function returns has no length. -/
def stranded : ContractCall := call 7 (.ok .null)

def second : ContractCall := call 3 (.ok (.ofBytes []))

def calls : List ContractCall := [first, failing, stranded, second]

/-- What the body's own snapshot is answered with. -/
def taken (nonce : Int) (w : World) : Outcome Datum :=
  (((w.step .base .snapshot).2.step .base (.setNonce account (.int nonce))).2.step .base
    .snapshot).1

theorem tidy_call {nonce : Int} {ending : Outcome Datum} {w : World} (id : Int)
    (own : taken nonce w = .ok (.int id)) (above : w.store.openSnapshots < id)
    (only : ((call nonce ending).body w Leaking.context).2.world.store.openSnapshots =
      w.store.openSnapshots + 1) : (call nonce ending).Tidy w := by
  intro context made
  have given : (call nonce ending).context = .ok Leaking.context := rfl
  cases given.symm.trans made
  refine ⟨?_, fun _ _ => only⟩
  intro body args routed
  cases routed
  have spared : (StateOp.revert ((taken nonce w).toOption.getD .null)).Spares
      w.store.openSnapshots := by
    rw [own]
    intro n named
    cases named
    exact .inr above
  refine ⟨trivial, trivial, trivial, spared, ?_⟩
  cases ending <;> trivial

/-- Sets a nonce and charges all the gas that there is. -/
def spending (gas : Nat) : ContractCall :=
  ⟨⟨[], some fun _ =>
    .state .guarded (.setNonce account (.int 7)) fun _ =>
    .charge (.ofNat gas) fun _ =>
    .done (.ofBytes [])⟩, alone, none, account, account, .ofBytes [], .ofNat gas, .bool false⟩

def spendingContext (gas : Nat) : CallContext := { Leaking.context with suppliedGas := gas }

theorem context_spending (gas : Nat) : (spending gas).context = .ok (spendingContext gas) := by
  have spells : Address.Spells account Leaking.context.caller := Address.spells_of_read rfl
  exact CallContext.make_eq_ok.mpr ⟨spells, spells, rfl, rfl, rfl⟩

theorem outcome_spending (gas : Nat) : (spending gas).outcome start = .ok (.ofBytes []) :=
  ContractCall.outcome_of_made (context_spending gas)

theorem tidy_spending (gas : Nat) : (spending gas).Tidy start := by
  intro context made
  cases (context_spending gas).symm.trans made
  refine ⟨?_, fun _ _ => rfl⟩
  intro body args routed
  cases routed
  exact ⟨trivial, trivial⟩

theorem charged_spending (gas : Nat) : (spending gas).charged start = gas := by
  have spent : ((spending gas).body start (spendingContext gas)).2.meter =
      ((GasMeter.start gas).consume (.ofNat gas)).2 := rfl
  have natural : ¬(gas : Int) < 0 := by omega
  rw [ContractCall.charged_of_made (context_spending gas), spent]
  simp [GasMeter.consume_eq, GasMeter.start, GasMeter.remaining, Datum.ofNat, Datum.properInt?,
    natural]

theorem stranded_third : stranded.Stranded (start.afterCalls [first, failing]) :=
  ⟨.null, rfl, .inr fun _ sized => nomatch sized⟩

end Unreleased

open Unreleased in
/-- Two good calls, and between them one that fails and one that is stranded. -/
theorem calls_without_release_nonces :
    ∃ back back' back'',
      (start.afterCalls calls).store.base.GoesBack 2 back ∧
      (back.contents.account (Bytes.numeral addressSize 1)).nonce = .int 7 ∧
      (Base.ledger back false).GoesBack 1 back' ∧
      (back'.contents.account (Bytes.numeral addressSize 1)).nonce = .int 1 ∧
      (Base.ledger back false).GoesBack 0 back'' ∧
      (back''.contents.account (Bytes.numeral addressSize 1)).nonce = .int 0 := by
  have tidy : start.AllTidy calls :=
    ⟨tidy_call 1 rfl (by decide +kernel) (by decide +kernel),
      tidy_call 2 rfl (by decide +kernel) (by decide +kernel),
      tidy_call 2 rfl (by decide +kernel) (by decide +kernel),
      tidy_call 3 rfl (by decide +kernel) (by decide +kernel), trivial⟩
  obtain ⟨was, left, onWas, _, _, _, returned⟩ :=
    calls_without_release zeroWord [] [] .fresh [] calls tidy [first, failing, stranded] second []
      rfl
  obtain ⟨_, _, back, gone, alike, earlier⟩ := returned (.inl ⟨_, rfl, rfl⟩)
  obtain ⟨third, back', onThird, gone', alike'⟩ :=
    earlier [first, failing] stranded [] rfl (.inr stranded_third)
  obtain ⟨fresh, back'', onFresh, gone'', alike''⟩ :=
    earlier [] first [failing, stranded] rfl (.inl ⟨_, rfl, rfl⟩)
  cases onWas
  cases onThird
  cases onFresh
  refine ⟨back, back', back'', gone, ?_, gone', ?_, gone'', ?_⟩
  · rw [alike.contents.account]
    rfl
  · rw [alike'.contents.account]
    rfl
  · rw [alike''.contents.account]
    rfl

open Unreleased in
/-- A call may raise and leave its snapshot and its writes behind all the same: if it charges gas
that no double holds, or if its function returns nothing. -/
theorem raised_calls_keep_state :
    let gas := Nat.pow 2 1024
    (start.AllTidy [spending gas] ∧ ((spending gas).run start).1 = .error (.bare .overflow) ∧
      ∃ left, ((spending gas).run start).2.store.base = .ledger left false ∧
        left.openSnapshots = start.store.openSnapshots + 1 ∧
        (left.contents.account (Bytes.numeral addressSize 1)).nonce = .int 7) ∧
    start.AllTidy [stranded] ∧ (stranded.run start).1 = .error (.bare .type) ∧
      ∃ left, (stranded.run start).2.store.base = .ledger left false ∧
        left.openSnapshots = start.store.openSnapshots + 1 ∧
        (left.contents.account (Bytes.numeral addressSize 1)).nonce = .int 7 := by
  intro gas
  have large : ¬gas < Binary64.overflowBound := by decide +kernel
  -- the number of gas is too large to be computed with, and nothing else depends on it
  generalize gas = gas at large
  have on : start.store.On (CopyStore.start zeroWord) := ⟨_, rfl, refines_after zeroWord []⟩
  have tidy := tidy_spending gas
  constructor
  · obtain ⟨_, made, store, answer⟩ :=
      ContractCall.run_of_returned on tidy (outcome_spending gas)
    cases (context_spending gas).symm.trans made
    rw [charged_spending, if_neg large] at answer
    rw [store]
    exact ⟨⟨tidy, trivial⟩, answer, _, rfl, rfl, rfl⟩
  · have tidy : stranded.Tidy start := tidy_call 1 rfl (by decide +kernel) (by decide +kernel)
    exact ⟨⟨tidy, trivial⟩, rfl, _, rfl, rfl, rfl⟩

end SeededDraws
