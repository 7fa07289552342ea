import SeededDraws.Proofs.Contract.Body
import SeededDraws.Proofs.Ledger.Refinement
/-!
# Calls are transactions

A call takes a snapshot first. As long as its body leaves that snapshot and the older ones alone,
the copies below stay what they were, however many snapshots of its own the body opens or leaves
open. A failed call then puts the old contents back, a good one forgets the copy that it took.
-/

namespace SeededDraws

/-- The operation releases no snapshot at `floor` or below. -/
def StateOp.Spares (floor : Nat) : StateOp → Prop
  | .revert id => ∀ n, id.integer? = some n → n < 0 ∨ floor < n
  | .discard id => ∀ n, id.integer? = some n → n < 0 ∨ floor < n
  | _ => True

theorem StateOp.Spares.lt {floor n : Nat} {op : StateOp} {id : Datum} (spares : op.Spares floor)
    (release : op = .revert id ∨ op = .discard id) (named : id.integer? = some n) : floor < n := by
  rcases release with rfl | rfl
  · have := spares n named
    omega
  · have := spares n named
    omega

theorem CopyStore.step_spares {s : CopyStore} {floor : Nat} {op : StateOp}
    (spares : op.Spares floor) (open_ : floor < s.copies.length) :
    (s.step op).2.txHash = s.txHash ∧
      (s.step op).2.copies.take (floor + 1) = s.copies.take (floor + 1) := by
  rcases s.step_cases op with ⟨c, same⟩ | ⟨_, more⟩ | ⟨n, id, c, release, named, _, fewer⟩
  · rw [same]
    exact ⟨rfl, rfl⟩
  · rw [more]
    exact ⟨rfl, List.take_append_of_le_length open_⟩
  · have := spares.lt release named
    rw [fewer]
    refine ⟨rfl, ?_⟩
    rw [List.take_take, Nat.min_eq_left (by omega)]

/-- The store stands on a ledger in which everything that `below` holds is still held: its copies,
and on top of them a copy of its contents. -/
def Store.Holds (below : CopyStore) (s : Store) : Prop :=
  ∃ l r, s.base = .ledger l true ∧ Refines l r ∧ r.txHash = below.txHash ∧
    r.copies.take (below.copies.length + 1) = below.copies ++ [below.contents]

namespace Store.Holds

variable {below : CopyStore} {s : Store}

theorem of_mark {l : Ledger} (h : Refines l below) (on : s.base = .ledger l.mark true) :
    s.Holds below := by
  refine ⟨_, _, on, h.mark, rfl, ?_⟩
  rw [CopyStore.take, List.take_of_length_le (by simp)]

theorem guard (h : s.Holds below) (handle : Handle) (readOnly : Bool) :
    (s.guard handle readOnly).2.Holds below := by
  obtain ⟨l, r, on, rest⟩ := h
  exact ⟨l, r, (s.base_guard handle readOnly).trans on, rest⟩

theorem step (h : s.Holds below) (handle : Handle) {op : StateOp}
    (spares : op.Spares below.copies.length) : (s.step handle op).2.Holds below := by
  obtain ⟨l, r, on, refines, hash, held⟩ := h
  rcases step_ledger on handle op with same | carried
  · exact ⟨l, r, same, refines, hash, held⟩
  · have hlen := congrArg List.length held
    simp only [List.length_take, List.length_append, List.length_singleton] at hlen
    obtain ⟨hash', held'⟩ := CopyStore.step_spares (s := r) spares (by omega)
    exact ⟨_, _, carried, (refines.step op).2, hash'.trans hash, held'.trans held⟩

theorem copies_below {r : CopyStore}
    (held : r.copies.take (below.copies.length + 1) = below.copies ++ [below.contents]) :
    r.copies.take below.copies.length = below.copies := by
  have := congrArg (List.take below.copies.length) held
  rwa [List.take_take, Nat.min_eq_left (Nat.le_succ _), List.take_left] at this

theorem copy_of_contents {r : CopyStore}
    (held : r.copies.take (below.copies.length + 1) = below.copies ++ [below.contents]) :
    r.copies[below.copies.length]? = some below.contents := by
  rw [← List.getElem?_take_of_lt (Nat.lt_succ_self _), held, List.getElem?_concat_length]

/-- Reverting to the held copy leaves nothing of what came later. -/
theorem revert (h : s.Holds below) :
    ∃ l, s.step .base (.revert (.ofNat below.copies.length)) =
      (.ok .null, { s with base := .ledger l true }) ∧ Refines l below := by
  obtain ⟨l, r, on, refines, hash, held⟩ := h
  obtain ⟨l', reverted, _, _, refines'⟩ := refines.step_revert (copy_of_contents held)
  rw [copies_below held, hash] at refines'
  refine ⟨l', ?_, refines'⟩
  rw [Store.step, onBase_ledger on, reverted]

/-- Discarding the held copy keeps the contents and the older copies. -/
theorem discard (h : s.Holds below) :
    ∃ l l' c, s.base = .ledger l true ∧ s.step .base (.discard (.ofNat below.copies.length)) =
        (.ok .null, { s with base := .ledger l' true }) ∧
      l'.contents = l.contents ∧ Refines l' { below with contents := c } := by
  obtain ⟨l, r, on, refines, hash, held⟩ := h
  have open_ := (List.getElem?_eq_some_iff.mp (copy_of_contents held)).1
  obtain ⟨discarded, refines'⟩ := refines.step_discard open_
  refine ⟨l, l.dropMarks below.copies.length, r.contents, on, ?_, rfl, ?_⟩
  · rw [Store.step, onBase_ledger on, discarded]
  · rw [CopyStore.forget, copies_below held, hash] at refines'
    exact refines'

end Store.Holds

/-! ### How a call ends -/

namespace Contract

/-- The frame in which a call starts, behind its snapshot. -/
def entry (setting : Setting) (context : CallContext) (w : World) : Frame :=
  ⟨(w.step setting.handle .snapshot).2, GasMeter.start context.suppliedGas, []⟩

/-- The body that a call is routed to uses the state only as `allowed` says. -/
def Uses (allowed : Handle → StateOp → Prop) (c : Contract) (setting : Setting)
    (context : CallContext) (f : Frame) : Prop :=
  ∀ body args, c.route context.input = .ok (body, args) →
    (body ⟨context, args, setting.block⟩).Uses allowed setting.handle context f

theorem execute_keeps {allowed : Handle → StateOp → Prop} {keeps : Store → Prop}
    (guarded : ∀ s h readOnly, keeps s → keeps (s.guard h readOnly).2)
    (stepped : ∀ s h op, allowed h op → keeps s → keeps (s.step h op).2)
    (c : Contract) (callee : Callee) (setting : Setting) (context : CallContext) (f : Frame)
    (uses : c.Uses allowed setting context f) (start : keeps f.world.store) :
    keeps (c.execute callee setting context f).2.world.store := by
  rw [execute]
  cases hr : c.route context.input with
  | error fault => exact start
  | ok routed =>
    obtain ⟨body, args⟩ := routed
    exact Body.run_keeps guarded stepped _ f (uses body args hr) start

theorem store_countResult (w : World) (code : Datum) (charged : Nat) (result : CallResult) :
    (countResult w code charged result).2.store = w.store := by
  rw [countResult]
  split
  · rfl
  · split <;> rfl

/-- Whatever the state answers, a fault of the body is followed by one revert. -/
theorem store_finish_error (handle : Handle) (snapshot : Datum) (fault : Fault) (f : Frame) :
    (finish handle snapshot (.error fault, f)).2.store =
      (f.world.store.step handle (.revert snapshot)).2 := by
  have stepped : (f.world.step handle (.revert snapshot)).2.store =
      (f.world.store.step handle (.revert snapshot)).2 := rfl
  cases fault with
  | failure cause =>
    rw [finish, reject, ← stepped]
    cases f.world.step handle (.revert snapshot) with
    | mk answer w =>
      cases answer with
      | error later => rfl
      | ok _ => exact store_countResult ..
  | _ =>
    simp only [finish, abandon]
    rw [← stepped]
    cases f.world.step handle (.revert snapshot) with
    | mk answer w => cases answer <;> rfl

theorem store_finish_ok (handle : Handle) (snapshot output : Datum) (f : Frame) :
    (finish handle snapshot (.ok output, f)).2.store =
      if f.world.store.releases handle then (f.world.store.step handle (.discard snapshot)).2
      else f.world.store := by
  rw [finish, commit]
  by_cases releases : f.world.store.releases handle = true
  · have stepped : (f.world.step handle (.discard snapshot)).2.store =
        (f.world.store.step handle (.discard snapshot)).2 := rfl
    simp only [if_pos releases]
    rw [← stepped]
    cases f.world.step handle (.discard snapshot) with
    | mk answer w =>
      cases answer with
      | error fault => rfl
      | ok _ => exact store_countResult ..
  · simp only [if_neg releases]
    exact store_countResult ..

theorem error_of_countResult {w : World} {code : Datum} {charged : Nat} {result r : CallResult}
    (counted : (countResult w code charged result).1 = .ok r) : r = result := by
  rw [countResult] at counted
  split at counted
  · cases counted
  · split at counted
    · cases counted
    · cases counted
      rfl

variable {f : Frame} {snapshot : Datum} {after : Store}

/-- Every fault of the body is answered by one revert. -/
theorem finish_error (fault : Fault)
    (reverted : f.world.store.step .base (.revert snapshot) = (.ok .null, after)) :
    (finish .base snapshot (.error fault, f)).2.store = after ∧
      (∀ r, (finish .base snapshot (.error fault, f)).1 = .ok r → r.error ≠ none) ∧
      ((∃ cause, fault = .failure cause) ∨
        (finish .base snapshot (.error fault, f)).1 = .error fault) := by
  have stepped : f.world.step .base (.revert snapshot) =
      (.ok .null, { f.world with store := after }) := by
    rw [World.step, reverted]
  cases fault with
  | failure cause =>
    simp only [finish, reject, stepped]
    refine ⟨store_countResult .., ?_, .inl ⟨cause, rfl⟩⟩
    intro r counted
    rw [error_of_countResult counted]
    exact Option.some_ne_none cause
  | _ =>
    simp only [finish, abandon, stepped]
    exact ⟨trivial, by simp⟩

/-- A good body is answered by one release. -/
theorem finish_ok (output : Datum) (releases : f.world.store.releases .base = true)
    (discarded : f.world.store.step .base (.discard snapshot) = (.ok .null, after)) :
    (finish .base snapshot (.ok output, f)).2.store = after := by
  have stepped : f.world.step .base (.discard snapshot) =
      (.ok .null, { f.world with store := after }) := by
    rw [World.step, discarded]
  simp only [finish, commit, if_pos releases, stepped]
  exact store_countResult ..

variable {below : CopyStore}

/-- Behind a failed body there is what there was before the call. -/
theorem finish_failed (held : f.world.store.Holds below) (fault : Fault) :
    let call := finish .base (.ofNat below.copies.length) (.error fault, f)
    (∀ result, call.1 = .ok result → result.error ≠ none) ∧
      ((∃ cause, fault = .failure cause) ∨ call.1 = .error fault) ∧
      ∃ undone, call.2.store.base = .ledger undone true ∧ Refines undone below := by
  intro call
  obtain ⟨undone, reverted, refines⟩ := held.revert
  obtain ⟨store, refused, raised⟩ := finish_error fault reverted
  exact ⟨refused, raised, undone, congrArg Store.base store, refines⟩

/-- Behind a good call there are the contents that its body left, over the older copies. -/
theorem finish_good {ended : Outcome Datum × Frame} (held : ended.2.world.store.Holds below)
    {result : CallResult}
    (answered : (finish .base (.ofNat below.copies.length) ended).1 = .ok result)
    (good : result.error = none) :
    ∃ left kept c, ended.2.world.store.base = .ledger left true ∧
      (finish .base (.ofNat below.copies.length) ended).2.store.base = .ledger kept true ∧
      kept.contents = left.contents ∧ Refines kept { below with contents := c } := by
  obtain ⟨outcome, f⟩ := ended
  cases outcome with
  | error fault => exact absurd good ((finish_failed held fault).1 result answered)
  | ok output =>
    obtain ⟨left, kept, c, on, discarded, same, refines⟩ := held.discard
    have releases : f.world.store.releases .base = true := by
      rw [Store.releases, on]
      rfl
    have store := finish_ok output releases discarded
    exact ⟨left, kept, c, on, congrArg Store.base store, same, refines⟩

theorem run_eq (c : Contract) (callee : Callee) (setting : Setting) (w : World)
    {address caller input gas readOnly id : Datum} {context : CallContext}
    (made : CallContext.make caller address input gas readOnly = .ok context)
    (taken : (w.step setting.handle .snapshot).1 = .ok id) :
    c.run callee setting w address caller input gas readOnly =
      finish setting.handle id (c.execute callee setting context (entry setting context w)) := by
  simp only [run, made, runIn, taken]
  rfl

end Contract

/-- The snapshot of a call is the newest one. -/
theorem World.step_snapshot {w : World} {l : Ledger} {s : CopyStore} (h : Refines l s)
    (on : w.store.base = .ledger l true) :
    (w.step .base .snapshot).1 = .ok (.ofNat s.copies.length) ∧
      (w.step .base .snapshot).2.store.base = .ledger l.mark true := by
  simp only [World.step, Store.step, Store.onBase_ledger on]
  exact ⟨(h.step .snapshot).1, rfl⟩

/-- A call is a transaction: a failed one leaves a ledger that answers all later operations as if
there had been no call, a good one keeps what its body wrote and every older snapshot. -/
theorem call_transactional (txHash : Bytes) (history : List StateOp) (c : Contract)
    (callee : Callee) (block : Option BlockEnv) (views : List View) (metrics : Metrics)
    (notes : List Datum) (address caller input gas readOnly : Datum) (context : CallContext)
    (made : CallContext.make caller address input gas readOnly = .ok context) :
    let before := (Ledger.start txHash).after history
    let w : World := ⟨⟨.ledger before true, views⟩, metrics, notes⟩
    let start := Contract.entry ⟨.base, block⟩ context w
    let body := c.execute callee ⟨.base, block⟩ context start
    let call := c.run callee ⟨.base, block⟩ w address caller input gas readOnly
    c.Uses (fun _ op => op.Spares before.openSnapshots) ⟨.base, block⟩ context start →
    (∀ fault, body.1 = .error fault →
      (∀ result, call.1 = .ok result → result.error ≠ none) ∧
      ((∃ cause, fault = .failure cause) ∨ call.1 = .error fault) ∧
      ∃ undone, call.2.store.base = .ledger undone true ∧
        undone.contents.Same before.contents ∧ undone.openSnapshots = before.openSnapshots ∧
        ∀ later, undone.trace later = before.trace later) ∧
    ∀ result, call.1 = .ok result → result.error = none →
      ∃ left kept, body.2.world.store.base = .ledger left true ∧
        call.2.store.base = .ledger kept true ∧ kept.contents = left.contents ∧
        kept.openSnapshots = before.openSnapshots ∧
        ∀ earlier later, history = earlier ++ .snapshot :: later →
          let taken := (Ledger.start txHash).after earlier
          (taken.step .snapshot).2.HoldsOpen taken.openSnapshots later →
          ∃ reverted, kept.step (.revert (.ofNat taken.openSnapshots)) = (.ok .null, reverted) ∧
            reverted.contents.Same taken.contents := by
  intro before w start body call uses
  have h := refines_after txHash history
  have snapshot := World.step_snapshot (w := w) h rfl
  have held : body.2.world.store.Holds ((CopyStore.start txHash).after history) :=
    Contract.execute_keeps (fun _ handle readOnly held => held.guard handle readOnly)
      (fun _ handle op spares held => held.step handle (h.size ▸ spares))
      c callee _ context start uses (.of_mark h snapshot.2)
  have ended : call = Contract.finish .base _ body := Contract.run_eq c callee _ w made snapshot.1
  rw [ended]
  refine ⟨?_, ?_⟩
  · intro fault failed
    obtain ⟨refused, raised, undone, on, refines⟩ := Contract.finish_failed held fault
    rw [← failed] at refused raised on
    refine ⟨refused, raised, undone, on, refines.contents.trans h.contents.symm,
      refines.size.trans h.size.symm, ?_⟩
    intro later
    exact (refines.trace later).trans (h.trace later).symm
  · intro result answered good
    obtain ⟨left, kept, c, on, onKept, same, refines⟩ := Contract.finish_good held answered good
    refine ⟨left, kept, on, onKept, same, refines.size.trans h.size.symm, ?_⟩
    intro earlier later split taken open_
    have hearlier := refines_after txHash earlier
    have copy := hearlier.copy_of_snapshot open_
    have whole : (CopyStore.start txHash).after history =
        (((CopyStore.start txHash).after earlier).step .snapshot).2.after later := by
      rw [split, CopyStore.after_append]
      rfl
    rw [← whole] at copy
    obtain ⟨reverted, back, restored, _⟩ := refines.step_revert copy
    exact ⟨reverted, back, restored.trans hearlier.contents.symm⟩

namespace Leaking

def account : Datum := .ofBytes (Bytes.numeral addressSize 1)

def history : List StateOp :=
  [.setState account (.ofBytes zeroWord) (.ofBytes (Bytes.numeral wordSize 7)), .snapshot,
    .setNonce account (.int 1)]

def world : World := ⟨⟨.ledger ((Ledger.start zeroWord).after history) true, []⟩, .fresh, []⟩

def context : CallContext :=
  ⟨Bytes.numeral addressSize 1, Bytes.numeral addressSize 1, [], 10, false⟩

/-- Writes, reverts to a snapshot of its own, leaks another one and then ends in one way or the
other. -/
def body (ending : Outcome Datum) : Body :=
  .state .guarded (.setState account (.ofBytes zeroWord) (.ofBytes zeroWord)) fun _ =>
  .state .guarded .snapshot fun _ =>
  .state .direct (.addBalance account (.int 1)) fun _ =>
  .state .guarded .snapshot fun _ =>
  .state .guarded (.revert (.int 2)) fun _ =>
  .state .guarded .snapshot fun _ =>
  .charge (.int 5) fun _ =>
    match ending with
    | .ok output => .done output
    | .error fault => .fail fault

def contract (ending : Outcome Datum) : Contract := ⟨[], some fun _ => body ending⟩

/-- No other contract can be called. -/
def alone : Callee := fun w _ _ _ _ _ => (.error (.bare .depth), w)

def call (ending : Outcome Datum) : Outcome CallResult × World :=
  (contract ending).run alone ⟨.base, none⟩ world account account (.ofBytes []) (.int 10)
    (.bool false)

theorem openSnapshots_history : ((Ledger.start zeroWord).after history).openSnapshots = 1 := by
  decide +kernel

theorem run_body (ending : Outcome Datum) (handle : Handle) (f : Frame) :
    ((body ending).run alone handle context f).1 = ending := by
  cases ending <;> rfl

theorem uses (ending : Outcome Datum) : (contract ending).Uses
    (fun _ op => op.Spares ((Ledger.start zeroWord).after history).openSnapshots) ⟨.base, none⟩
    context (Contract.entry ⟨.base, none⟩ context world) := by
  rw [openSnapshots_history]
  intro body args routed
  cases routed
  refine ⟨trivial, trivial, trivial, trivial, ?_, trivial, ?_⟩
  · intro n named
    cases named
    exact .inr (by decide)
  · cases ending <;> trivial

theorem result_of_done :
    ∃ result, (call (.ok (.ofBytes []))).1 = .ok result ∧ result.error = none := by
  have good : ((call (.ok (.ofBytes []))).1.toOption.map fun r => r.error.isNone) = some true := by
    decide +kernel
  cases answered : (call (.ok (.ofBytes []))).1 with
  | error fault =>
    rw [answered] at good
    cases good
  | ok result =>
    rw [answered] at good
    exact ⟨result, rfl, by simpa [Except.toOption] using good⟩

end Leaking

open Leaking in
/-- Both ends on top of one open snapshot. -/
theorem call_transactional_leaking :
    (∃ undone, (call (.error (.bare .index))).2.store.base = .ledger undone true ∧
      undone.openSnapshots = 1) ∧
    ∃ kept reverted, (call (.ok (.ofBytes []))).2.store.base = .ledger kept true ∧
      kept.openSnapshots = 1 ∧ kept.step (.revert (.int 0)) = (.ok .null, reverted) ∧
      reverted.contents.word (Bytes.numeral addressSize 1) zeroWord = Bytes.numeral wordSize 7 := by
  have transactional := fun ending => call_transactional zeroWord history (contract ending) alone
    none [] .fresh [] account account (.ofBytes []) (.int 10) (.bool false) context rfl
    (uses ending)
  refine ⟨?_, ?_⟩
  · obtain ⟨_, _, undone, on, _, size, _⟩ :=
      (transactional (.error (.bare .index))).1 (.bare .index) (run_body ..)
    exact ⟨undone, on, size.trans openSnapshots_history⟩
  · obtain ⟨result, answered, good⟩ := result_of_done
    obtain ⟨_, kept, _, on, _, size, older⟩ :=
      (transactional (.ok (.ofBytes []))).2 result answered good
    obtain ⟨reverted, back, same⟩ := older [.setState account (.ofBytes zeroWord)
      (.ofBytes (Bytes.numeral wordSize 7))] [.setNonce account (.int 1)] rfl (by decide +kernel)
    exact ⟨kept, reverted, on, size.trans openSnapshots_history, back,
      (same.word ..).trans (by decide +kernel)⟩

end SeededDraws
