import SeededDraws.Proofs.Contract.Outcome
import SeededDraws.Proofs.Contract.Reading
import SeededDraws.Proofs.Ownership
/-!
# Random calls among other uses of a ledger

A history mixes operations on a ledger with calls of random contracts. Each call takes a snapshot
and lets go of it again, whatever becomes of the call, and its answer depends on nothing but the
ledger. Two histories that differ in random calls alone therefore run side by side on the same
ledger.
-/

namespace SeededDraws

/-! ### Random contracts only read -/

namespace RandomContract

variable (r : RandomContract) (call : Invocation)

theorem reads_draw (request : Request) (ceiling : Datum) {next : List Nat → Body}
    (reads : ∀ values, (next values).Reads) : (r.draw call request ceiling next).Reads := by
  refine .orFail fun count => ?_
  have drawn : ∀ found : Outcome Datum, (Body.orFail found fun nonce =>
      .orFail (r.valuesFor call (request.caller.getD call.context.caller) nonce count)
        next).Reads := by
    intro found
    exact .orFail fun _ => .orFail reads
  rw [findNonce]
  cases r.config.nonceSource with
  | state => exact ⟨StateOp.isRead_getNonce _, drawn⟩
  | payload => exact drawn _

theorem reads_metered {next : Body} (reads : next.Reads) : (r.metered call next).Reads :=
  fun _ => .orFail fun _ => reads

theorem reads_sequence : (r.sequence call).Reads := by
  refine r.reads_metered call (.orFail fun request => ?_)
  exact r.reads_draw call request _ fun _ => .orFail fun _ => .done _

theorem reads_single : (r.single call).Reads := by
  refine r.reads_metered call ?_
  split
  · exact r.reads_draw call _ _ fun _ => .orFail fun _ => .done _
  · trivial

end RandomContract

/-- A random contract has a function for sequences, and under the typed layout another one. -/
theorem randomContract_route {config : Config} {entropy : Entropy} {c : Contract}
    (built : randomContract config entropy = .ok c) {input args : Bytes} {body : Invocation → Body}
    (routed : c.route input = .ok (body, args)) :
    ∃ r : RandomContract, r.config = config ∧ r.entropy = entropy ∧
      (body = r.sequence ∨ (r.config.layout = .typed ∧ body = r.single)) := by
  obtain ⟨r, made, built⟩ := Outcome.bind_eq_ok.mp built
  obtain ⟨schedule, _, made⟩ := Outcome.bind_eq_ok.mp made
  cases made
  refine ⟨⟨config, schedule, entropy⟩, rfl, rfl, ?_⟩
  cases layout : config.layout with
  | typed =>
    rw [RandomContract.contract_typed layout] at built
    cases built
    rw [RandomContract.route_typed] at routed
    split at routed
    · cases routed
    · split at routed
      · cases routed
        exact .inl rfl
      · split at routed
        · cases routed
          exact .inr ⟨rfl, rfl⟩
        · cases routed
  | raw =>
    rw [RandomContract.contract_raw layout] at built
    cases built
    cases routed
    exact .inl rfl

theorem reads_of_randomContract {config : Config} {entropy : Entropy} {c : Contract}
    (built : randomContract config entropy = .ok c) : c.Reads := by
  intro input body args routed call
  obtain ⟨r, _, _, rfl | ⟨_, rfl⟩⟩ := randomContract_route built routed
  · exact r.reads_sequence call
  · exact r.reads_single call

/-! ### Histories -/

/-- A call of a random contract, with all that may be chosen for it. -/
structure RandomCall where
  config : Config
  entropy : Entropy
  block : Option BlockEnv
  address : Datum
  caller : Datum
  input : Datum
  gas : Datum
  readOnly : Datum

/-- Without a contract nothing is called. -/
def RandomCall.run (callee : Callee) (w : World) (d : RandomCall) : Outcome CallResult × World :=
  match randomContract d.config d.entropy with
  | .error fault => (.error fault, w)
  | .ok c => c.run callee ⟨.base, d.block⟩ w d.address d.caller d.input d.gas d.readOnly

/-- The answer of a random call is a function of the ledger, which stays as it is. -/
theorem RandomCall.run_ledger {l : Ledger} (idle : l.marks = [] → l.journal = [])
    (callee : Callee) (d : RandomCall) :
    ∃ answer, ∀ w : World, w.store.base = .ledger l true →
      (d.run callee w).1 = answer ∧ (d.run callee w).2.store.base = .ledger l true := by
  simp only [run]
  cases built : randomContract d.config d.entropy with
  | error fault => exact ⟨.error fault, fun w on => ⟨rfl, on⟩⟩
  | ok c =>
    exact (reads_of_randomContract built).run idle callee d.block d.address d.caller d.input d.gas
      d.readOnly

inductive Event where
  | operate (op : StateOp)
  | draw (call : RandomCall)

inductive Reply where
  | state (answer : Outcome Datum)
  | result (answer : Outcome CallResult)

namespace World

def react (callee : Callee) (w : World) : Event → Reply × World
  | .operate op => let (answer, w) := w.step .base op; (.state answer, w)
  | .draw call => let (answer, w) := call.run callee w; (.result answer, w)

def afterAll (callee : Callee) (w : World) : List Event → World
  | [] => w
  | e :: rest => (w.react callee e).2.afterAll callee rest

/-- What each event was answered, and how many snapshots were open behind it. -/
def replies (callee : Callee) (w : World) : List Event → List (Reply × Nat)
  | [] => []
  | e :: rest =>
    ((w.react callee e).1, (w.react callee e).2.store.openSnapshots) ::
      (w.react callee e).2.replies callee rest

variable (callee : Callee) (w : World)

theorem afterAll_append (first rest : List Event) :
    w.afterAll callee (first ++ rest) = (w.afterAll callee first).afterAll callee rest := by
  induction first generalizing w with
  | nil => rfl
  | cons e first ih => exact ih _

theorem replies_append (first rest : List Event) :
    w.replies callee (first ++ rest) =
      w.replies callee first ++ (w.afterAll callee first).replies callee rest := by
  induction first generalizing w with
  | nil => rfl
  | cons e first ih => exact congrArg _ (ih _)

end World

/-- What an event does to the ledger. -/
def Event.onLedger (l : Ledger) : Event → Ledger
  | .operate op => (l.step op).2
  | .draw _ => l

variable {l : Ledger} {s : CopyStore}

theorem Refines.event (h : Refines l s) (e : Event) : ∃ s', Refines (e.onLedger l) s' := by
  cases e with
  | operate op => exact ⟨_, (h.step op).2⟩
  | draw call => exact ⟨s, h⟩

/-- All that an event is answered comes from the ledger. -/
theorem Refines.react (h : Refines l s) (callee : Callee) (e : Event) :
    ∃ reply, ∀ w : World, w.store.base = .ledger l true →
      (w.react callee e).1 = reply ∧
        (w.react callee e).2.store.base = .ledger (e.onLedger l) true := by
  cases e with
  | operate op =>
    refine ⟨.state (l.step op).1, ?_⟩
    intro w on
    simp only [World.react, World.step, Store.step, Store.onBase_ledger on]
    exact ⟨trivial, rfl⟩
  | draw call =>
    obtain ⟨answer, runs⟩ := call.run_ledger h.idle callee
    refine ⟨.result answer, ?_⟩
    intro w on
    obtain ⟨answered, kept⟩ := runs w on
    exact ⟨congrArg Reply.result answered, kept⟩

theorem openSnapshots_of_base {w w' : World} (same : w'.store.base = w.store.base) :
    w'.store.openSnapshots = w.store.openSnapshots := by
  rw [Store.openSnapshots, same]
  rfl

/-- On equal ledgers the same events are answered in the same way. -/
theorem Refines.replies (h : Refines l s) (callee : Callee) {w w' : World}
    (on : w.store.base = .ledger l true) (on' : w'.store.base = .ledger l true)
    (history : List Event) :
    w'.replies callee history = w.replies callee history ∧
      (w'.afterAll callee history).store.base = (w.afterAll callee history).store.base ∧
      ∃ l' s', Refines l' s' ∧ (w.afterAll callee history).store.base = .ledger l' true := by
  induction history generalizing l s w w' with
  | nil => exact ⟨rfl, on'.trans on.symm, l, s, h, on⟩
  | cons e rest ih =>
    obtain ⟨reply, reacts⟩ := h.react callee e
    obtain ⟨s', h'⟩ := h.event e
    obtain ⟨answered, next⟩ := reacts w on
    obtain ⟨answered', next'⟩ := reacts w' on'
    obtain ⟨same, ends, reached⟩ := ih h' next next'
    refine ⟨?_, ends, reached⟩
    rw [World.replies, World.replies, same, answered, answered',
      openSnapshots_of_base (next'.trans next.symm)]

/-! ### Leaving calls out -/

/-- The items under a true flag. -/
def chosen {α : Type} : List Bool → List α → List α
  | true :: flags, x :: rest => x :: chosen flags rest
  | false :: flags, _ :: rest => chosen flags rest
  | _, _ => []

/-- Only calls may be left out. -/
def Event.MayMiss (flag : Bool) (e : Event) : Prop := flag = true ∨ ∃ call, e = .draw call

theorem Refines.replies_chosen (h : Refines l s) (callee : Callee) {w w' : World}
    (on : w.store.base = .ledger l true) (on' : w'.store.base = .ledger l true)
    {flags : List Bool} {history : List Event}
    (calls : List.Forall₂ Event.MayMiss flags history) :
    w'.replies callee (chosen flags history) = chosen flags (w.replies callee history) ∧
      (w'.afterAll callee (chosen flags history)).store.base =
        (w.afterAll callee history).store.base := by
  -- the two worlds share the ledger before every event, also where only one of them has the event
  induction calls generalizing l s w w' with
  | nil => exact ⟨rfl, on'.trans on.symm⟩
  | @cons flag e flags rest may _ ih =>
    obtain ⟨reply, reacts⟩ := h.react callee e
    obtain ⟨s', h'⟩ := h.event e
    obtain ⟨answered, next⟩ := reacts w on
    cases flag with
    | true =>
      obtain ⟨answered', next'⟩ := reacts w' on'
      obtain ⟨same, ends⟩ := ih h' next next'
      refine ⟨?_, ends⟩
      simp only [chosen, World.replies, same, answered, answered',
        openSnapshots_of_base (next'.trans next.symm)]
    | false =>
      obtain ⟨call, rfl⟩ := may.resolve_left Bool.false_ne_true
      exact ih h next on'

/-! ### Changing their order -/

/-- Calls in a row are all answered from the ledger before the first. -/
theorem Refines.replies_calls (h : Refines l s) (callee : Callee) {w w' : World}
    (on : w.store.base = .ledger l true) (on' : w'.store.base = .ledger l true)
    (calls : List RandomCall) :
    w'.replies callee (calls.map .draw) =
        calls.map (fun call => (.result (call.run callee w).1, w.store.openSnapshots)) ∧
      (w'.afterAll callee (calls.map .draw)).store.base = .ledger l true := by
  induction calls generalizing w' with
  | nil => exact ⟨rfl, on'⟩
  | cons call rest ih =>
    obtain ⟨answer, runs⟩ := call.run_ledger h.idle callee
    obtain ⟨answered, _⟩ := runs w on
    obtain ⟨answered', next'⟩ := runs w' on'
    obtain ⟨same, ends⟩ := ih next'
    refine ⟨?_, ends⟩
    rw [List.map_cons, List.map_cons, World.replies, World.react]
    simp only [same, answered, answered', openSnapshots_of_base (next'.trans on.symm)]

/-- Random calls leave no trace. Some of them, or all, may be left out of a history: every other
event is answered as it was, over as many open snapshots, and the same ledger is left. Calls that
follow each other may change places or make way for any others: the answer of each is its own, from
the ledger before them all, and all that comes later is answered as it was. -/
theorem random_calls_leave_no_trace (callee : Callee) (txHash : Bytes) (w w' : World)
    (on : w.store.base = .ledger (.start txHash) true)
    (on' : w'.store.base = .ledger (.start txHash) true) :
    (∀ flags history, List.Forall₂ Event.MayMiss flags history →
      w'.replies callee (chosen flags history) = chosen flags (w.replies callee history) ∧
        (w'.afterAll callee (chosen flags history)).store.base =
          (w.afterAll callee history).store.base) ∧
    ∀ (earlier : List Event) (calls others : List RandomCall) (later : List Event),
      let before := w.afterAll callee earlier
      let answered := fun call : RandomCall =>
        (Reply.result (call.run callee before).1, before.store.openSnapshots)
      let rest := (before.afterAll callee (calls.map .draw)).replies callee later
      w.replies callee (earlier ++ calls.map .draw ++ later) =
          w.replies callee earlier ++ calls.map answered ++ rest ∧
        w'.replies callee (earlier ++ others.map .draw ++ later) =
          w.replies callee earlier ++ others.map answered ++ rest ∧
        (w'.afterAll callee (earlier ++ others.map .draw ++ later)).store.base =
          (w.afterAll callee (earlier ++ calls.map .draw ++ later)).store.base := by
  have start := Refines.start txHash
  constructor
  · intro flags history calls
    exact start.replies_chosen callee on on' calls
  · intro earlier calls others later before answered rest
    obtain ⟨same, shared, l, s, h, standing⟩ := start.replies callee on on' earlier
    rw [standing] at shared
    obtain ⟨row, kept⟩ := h.replies_calls callee standing standing calls
    obtain ⟨row', kept'⟩ := h.replies_calls callee standing shared others
    obtain ⟨tail, ends, _⟩ := h.replies callee kept kept' later
    simp only [World.replies_append, World.afterAll_append, same, row, row', tail, ends]
    exact ⟨rfl, rfl, trivial⟩

namespace Drawing

def world : World := ⟨.fresh, .fresh, []⟩

/-- Asks for two values. -/
def call (gas : Nat) : Event :=
  .draw ⟨.standard, .none, none, .ofBytes Config.standard.address, Leaking.account,
    .ofBytes (sequenceSelector ++ Bytes.numeral wordSize 2), .ofNat gas, .bool true⟩

def history : List Event :=
  [.operate .snapshot, call 1030, .operate .snapshot, call 3, .operate (.discard (.int 0)),
    call 1030, .operate .snapshot]

end Drawing

open Drawing in
/-- Ids are handed out as if there were no calls, and a call that can pay changes places with one
that cannot. -/
theorem random_calls_leave_no_trace_nested :
    chosen [true, false, true, false, true, false, true]
        (world.replies Leaking.alone history) =
      [(.state (.ok (.int 0)), 1), (.state (.ok (.int 1)), 2), (.state (.ok .null), 0),
        (.state (.ok (.int 0)), 1)] ∧
    ∃ good refused rest,
      world.replies Leaking.alone [.operate .snapshot, call 1030, call 3, .operate .snapshot] =
          (.state (.ok (.int 0)), 1) :: (.result good, 1) :: (.result refused, 1) :: rest ∧
        world.replies Leaking.alone [.operate .snapshot, call 3, call 1030, .operate .snapshot] =
          (.state (.ok (.int 0)), 1) :: (.result refused, 1) :: (.result good, 1) :: rest := by
  obtain ⟨thinned, swapped⟩ :=
    random_calls_leave_no_trace Leaking.alone zeroWord world world rfl rfl
  constructor
  · have missing : List.Forall₂ Event.MayMiss [true, false, true, false, true, false, true]
        history :=
      .cons (.inl rfl) <| .cons (.inr ⟨_, rfl⟩) <| .cons (.inl rfl) <| .cons (.inr ⟨_, rfl⟩) <|
        .cons (.inl rfl) <| .cons (.inr ⟨_, rfl⟩) <| .cons (.inl rfl) .nil
    rw [← (thinned _ history missing).1]
    rfl
  · obtain ⟨first, second, _⟩ :=
      swapped [.operate .snapshot] [_, _] [_, _] [.operate .snapshot]
    exact ⟨_, _, _, first, second⟩

end SeededDraws
