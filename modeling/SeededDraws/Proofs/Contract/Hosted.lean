import SeededDraws.Proofs.Contract.Closing
import SeededDraws.Proofs.Contract.History
import SeededDraws.Proofs.Host.Calls
/-!
# Random calls on a host

A call of a random contract asks its host for a snapshot, for the nonce of the account that speaks
if it gets so far, and to close the snapshot. Nothing else of the call reaches the host.
-/

namespace SeededDraws

/-! ### Bodies that leave the state alone -/

/-- The body neither uses the state nor calls another contract, whatever comes back to it. -/
def Body.Silent : Body → Prop
  | .done _ => True
  | .fail _ => True
  | .charge _ next => ∀ left, (next left).Silent
  | .keep next => next.Silent
  | .state .. => False
  | .call .. => False
  | .observe _ next => next.Silent
  | .note _ next => next.Silent

namespace Body

theorem Silent.orFail {α : Type} {result : Outcome α} {next : α → Body}
    (silent : ∀ x, (next x).Silent) : (Body.orFail result next).Silent := by
  cases result with
  | ok x => exact silent x
  | error fault => trivial

variable {callee : Callee} {handle : Handle} {context : CallContext}

theorem Silent.base_run {body : Body} (silent : body.Silent) (f : Frame) :
    (body.run callee handle context f).2.world.store.base = f.world.store.base := by
  induction body generalizing f with
  | done output => rfl
  | fail fault => rfl
  | charge amount next ih => exact ih _ (silent _) _
  | keep next ih =>
    exact (ih silent _).trans (f.world.store.base_guard handle context.readOnly)
  | state => exact silent.elim
  | call => exact silent.elim
  | observe count next ih =>
    have same := congrArg Store.base (f.store_observe count)
    rw [run]
    cases counted : f.observe count with
    | mk seen after =>
      rw [counted] at same
      cases seen with
      | error fault => exact same
      | ok _ => exact (ih silent after).trans same
  | note remark next ih => exact ih silent _

end Body

/-! ### Who is asked for -/

/-- What an input comes to: who speaks, for how many values, and what they must not exceed. -/
structure Demand where
  speaker : Bytes
  count : Nat
  ceiling : Datum

/-- The count fits eight bytes and does not exceed the ceiling. -/
def Demand.Admitted (d : Demand) : Prop :=
  d.count < Nat.pow 2 64 ∧ (d.ceiling.isBelow d.count).toOption = some false

instance (d : Demand) : Decidable d.Admitted :=
  inferInstanceAs (Decidable (_ ∧ _))

namespace RandomContract

/-- What the input of a call demands, if it has a route and is well formed. -/
def demand? (r : RandomContract) (context : CallContext) : Option Demand :=
  let input := context.input
  match r.config.layout with
  | .typed =>
    if input.take 4 = sequenceSelector then
      if input.length = 36 then
        some ⟨context.caller, Bytes.value (input.drop 4), r.config.maxCount⟩
      else none
    else if input.take 4 = singleSelector then
      if input.length = 4 then some ⟨context.caller, 1, .int 1⟩ else none
    else none
  | .raw =>
    if 60 ≤ input.length then
      some ⟨input.take 20, Bytes.value ((input.drop 20).take 32), r.config.maxCount⟩
    else none

/-- The account whose nonce is asked for, to meet a demand. -/
def seeks? (r : RandomContract) (d : Demand) : Option Bytes :=
  if r.config.nonceSource = .state ∧ d.Admitted then some d.speaker else none

/-- The account whose nonce a call asks for. The price comes before everything else. -/
def asksFor? (r : RandomContract) (context : CallContext) : Option Bytes :=
  if r.requiredGas context.input ≤ context.suppliedGas then (r.demand? context).bind r.seeks?
  else none

end RandomContract

/-- The host after it was asked for a nonce, or not asked. -/
def HostState.inquire (h : HostState) : Option Bytes → HostState
  | some who => (h.step (.getNonce (.ofBytes who))).2
  | none => h

theorem Demand.checkCount (d : Demand) :
    if d.Admitted then SeededDraws.checkCount (.ofNat d.count) d.ceiling = .ok (.ofNat d.count)
    else ∃ fault, SeededDraws.checkCount (.ofNat d.count) d.ceiling = .error fault := by
  obtain ⟨speaker, n, ceiling⟩ := d
  have read : (Datum.ofNat n).natural "n" = .ok n := Datum.natural_of_integer? rfl
  simp only [SeededDraws.checkCount, Admitted, read, bind, Except.bind, maxUint256_lt,
    maxUint64_lt]
  by_cases wide : Nat.pow 2 64 ≤ n
  · rw [if_neg fun passed => Nat.not_lt.mpr wide passed.1, if_pos wide]
    split
    · exact ⟨_, rfl⟩
    · exact ⟨_, rfl⟩
  · have word : ¬Nat.pow 2 256 ≤ n := fun large =>
      wide (Nat.le_trans (Nat.pow_le_pow_right (by decide) (by decide)) large)
    rw [if_neg word, if_neg wide]
    cases ceiling.isBelow n with
    | error fault =>
      rw [if_neg]
      · exact ⟨fault, rfl⟩
      · rintro ⟨_, passed⟩
        cases passed
    | ok below =>
      cases below with
      | true =>
        rw [if_neg]
        · exact ⟨_, rfl⟩
        · rintro ⟨_, passed⟩
          cases passed
      | false =>
        rw [if_pos ⟨Nat.lt_of_not_le wide, rfl⟩]
        rfl

/-- A nonce is read through a new view, which passes the question on. -/
theorem Body.base_getNonce {f : Frame} {host : HostState} (on : f.world.store.base = .host host)
    (callee : Callee) (context : CallContext) (who : Bytes) {next : Outcome Datum → Body}
    (silent : ∀ found, (next found).Silent) :
    ((Body.state .observing (.getNonce (.ofBytes who)) next).run callee .base context
      f).2.world.store.base = .host (host.inquire (some who)) := by
  let viewed := (f.reach .base context.readOnly .observing).2
  have onView : viewed.world.store.base = .host host :=
    (f.world.store.base_guard .base true).trans on
  rw [run_state]
  refine ((silent _).base_run _).trans ?_
  exact congrArg (fun stepped => stepped.2.base)
    (Store.onBase_host onView (.getNonce (.ofBytes who)))

namespace RandomContract

variable {r : RandomContract} {callee : Callee} {context : CallContext} {f : Frame}
  {host : HostState}

theorem base_draw (on : f.world.store.base = .host host) (call : Invocation) (request : Request)
    (ceiling : Datum) {next : List Nat → Body} (silent : ∀ values, (next values).Silent) :
    ((r.draw call request ceiling next).run callee .base context f).2.world.store.base =
      .host (host.inquire
        (r.seeks? ⟨request.caller.getD call.context.caller, request.count, ceiling⟩)) := by
  have drawn : ∀ (count : Datum) (found : Outcome Datum), (Body.orFail found fun nonce =>
      .orFail (r.valuesFor call (request.caller.getD call.context.caller) nonce count)
        next).Silent := fun count found => .orFail fun _ => .orFail silent
  generalize demanded : Demand.mk (request.caller.getD call.context.caller) request.count ceiling =
    d
  have checked := d.checkCount
  rw [draw, seeks?]
  by_cases admitted : d.Admitted
  · rw [if_pos admitted] at checked
    subst demanded
    rw [checked, Body.orFail, findNonce]
    cases source : r.config.nonceSource with
    | state =>
      rw [if_pos ⟨rfl, admitted⟩]
      exact Body.base_getNonce on callee context _ (drawn _)
    | payload =>
      rw [if_neg fun (asked : NonceSource.payload = .state ∧ _) => by cases asked.1]
      exact ((drawn _ _).base_run f).trans on
  · rw [if_neg admitted] at checked
    obtain ⟨fault, refused⟩ := checked
    subst demanded
    rw [refused, Body.orFail, if_neg fun asked => admitted asked.2]
    exact on

/-- Behind the price comes what is paid for. -/
theorem base_metered {seeks : Option Bytes} (call : Invocation) (next : Body)
    (fresh : f.meter = .start context.suppliedGas) (paid : call.context.input = context.input)
    (on : f.world.store.base = .host host)
    (done : ∀ f', f'.world.store.base = .host host →
      (next.run callee .base context f').2.world.store.base = .host (host.inquire seeks)) :
    ((r.metered call next).run callee .base context f).2.world.store.base =
      .host (host.inquire
        (if r.requiredGas context.input ≤ context.suppliedGas then seeks else none)) := by
  rw [metered, paid, Body.run_charge, fresh, GasMeter.consume_start]
  by_cases short : context.suppliedGas < r.requiredGas context.input
  · rw [if_pos short, if_neg (Nat.not_le.mpr short)]
    exact on
  · rw [if_neg short, if_pos (Nat.le_of_not_lt short)]
    exact done _ on

theorem base_sequence (on : f.world.store.base = .host host)
    (fresh : f.meter = .start context.suppliedGas) (args : Bytes) (block : Option BlockEnv) :
    ((r.sequence ⟨context, args, block⟩).run callee .base context f).2.world.store.base =
      .host (host.inquire
        (if r.requiredGas context.input ≤ context.suppliedGas then
          (r.config.layout.decodeArgs args).toOption.bind fun request =>
            r.seeks? ⟨request.caller.getD context.caller, request.count, r.config.maxCount⟩
        else none)) := by
  refine base_metered _ _ fresh rfl on fun f' on' => ?_
  cases r.config.layout.decodeArgs args with
  | error fault => exact on'
  | ok request =>
    exact base_draw on' ⟨context, args, block⟩ request _ fun _ => .orFail fun _ => trivial

theorem base_single (on : f.world.store.base = .host host)
    (fresh : f.meter = .start context.suppliedGas) (args : Bytes) (block : Option BlockEnv) :
    ((r.single ⟨context, args, block⟩).run callee .base context f).2.world.store.base =
      .host (host.inquire
        (if r.requiredGas context.input ≤ context.suppliedGas then
          if args.isEmpty then r.seeks? ⟨context.caller, 1, .int 1⟩ else none
        else none)) := by
  refine base_metered _ _ fresh rfl on fun f' on' => ?_
  cases args.isEmpty with
  | true => exact base_draw on' ⟨context, args, block⟩ _ _ fun _ => .orFail fun _ => trivial
  | false => exact on'

theorem base_execute_typed (typed : r.config.layout = .typed)
    (on : f.world.store.base = .host host) (fresh : f.meter = .start context.suppliedGas)
    (block : Option BlockEnv) :
    (r.typedContract.execute callee ⟨.base, block⟩ context f).2.world.store.base =
      .host (host.inquire (r.asksFor? context)) := by
  have args : (context.input.drop 4).length = context.input.length - 4 := List.length_drop
  rw [asksFor?, demand?, typed, Contract.execute, route_typed]
  by_cases short : context.input.length < 4
  · -- four bytes are missing for either selector
    have other : ∀ selector : Bytes, selector.length = 4 → context.input.take 4 ≠ selector := by
      intro selector sized same
      have := congrArg List.length same
      rw [List.length_take, sized] at this
      omega
    simp only [if_pos short, if_neg (other sequenceSelector rfl), if_neg (other singleSelector rfl),
      Option.bind_none, ite_self]
    exact on
  · simp only [if_neg short]
    by_cases first : context.input.take 4 = sequenceSelector
    · simp only [if_pos first]
      rw [base_sequence on fresh, typed, Layout.decodeArgs_typed, args]
      by_cases whole : context.input.length = 36
      · rw [if_pos whole, if_pos (show context.input.length - 4 = wordSize by rw [whole]; rfl)]
        rfl
      · have other : context.input.length - 4 ≠ wordSize := by
          show context.input.length - 4 ≠ 32
          omega
        rw [if_neg whole, if_neg other]
        rfl
    · simp only [if_neg first]
      by_cases second : context.input.take 4 = singleSelector
      · simp only [if_pos second]
        have empty : (context.input.drop 4).isEmpty = true ↔ context.input.length = 4 := by
          rw [List.isEmpty_iff_length_eq_zero, args]
          omega
        rw [base_single on fresh]
        by_cases whole : context.input.length = 4
        · rw [if_pos whole, if_pos (empty.mpr whole)]
          rfl
        · rw [if_neg whole, if_neg (whole ∘ empty.mp)]
          rfl
      · simp only [if_neg second, Option.bind_none, ite_self]
        exact on

theorem base_execute_raw (raw : r.config.layout = .raw) (on : f.world.store.base = .host host)
    (fresh : f.meter = .start context.suppliedGas) (block : Option BlockEnv) :
    ((⟨[], some r.sequence⟩ : Contract).execute callee ⟨.base, block⟩ context
      f).2.world.store.base = .host (host.inquire (r.asksFor? context)) := by
  rw [asksFor?, demand?, raw]
  refine (base_sequence on fresh context.input block).trans ?_
  rw [raw, Layout.decodeArgs_raw]
  by_cases short : context.input.length < Layout.rawRequestSize
  · simp only [if_pos short, if_neg (show ¬60 ≤ context.input.length from Nat.not_le.mpr short)]
    rfl
  · simp only [if_neg short, if_pos (show 60 ≤ context.input.length from Nat.le_of_not_lt short)]
    rfl

/-- All that a body of the random contract does to a host is to ask for one nonce. -/
theorem base_execute {c : Contract} (built : r.contract = .ok c)
    (on : f.world.store.base = .host host) (fresh : f.meter = .start context.suppliedGas)
    (block : Option BlockEnv) :
    (c.execute callee ⟨.base, block⟩ context f).2.world.store.base =
      .host (host.inquire (r.asksFor? context)) := by
  cases layout : r.config.layout with
  | typed =>
    rw [contract_typed layout] at built
    cases built
    exact base_execute_typed layout on fresh block
  | raw =>
    rw [contract_raw layout] at built
    cases built
    exact base_execute_raw layout on fresh block

end RandomContract

/-! ### Whole calls -/

/-- The question for a nonce, if there is one. -/
def Host.inquiry (h : Host) (seeks : Option Bytes) : List HostCall :=
  seeks.toList.flatMap fun who => h.asked (.getNonce (.ofBytes who)) [.ofBytes who]

theorem HostState.inquire_eq (h : HostState) (seeks : Option Bytes) :
    h.inquire seeks = { h with calls := h.calls ++ h.host.inquiry seeks } := by
  cases seeks with
  | none => simp [inquire, Host.inquiry]
  | some who =>
    have given : (StateOp.getNonce (.ofBytes who)).hostArgs = .ok [.ofBytes who] := rfl
    simp [inquire, Host.inquiry, step_asked given]

/-- A host opens a snapshot with whatever its answer is as an integer. -/
theorem HostState.step_snapshot_eq_ok {h : HostState} {opening : HostCall} {n : Int}
    (asked : h.host.asked .snapshot [] = [opening]) :
    (h.step .snapshot).1 = .ok (.int n) ↔
      h.host.reply h.calls opening >>= Datum.toInteger = .ok n := by
  rw [Host.asked] at asked
  cases found : h.host.first? StateOp.snapshot.candidates with
  | none =>
    rw [found] at asked
    cases asked
  | some method =>
    rw [found] at asked
    cases asked
    rw [step_present rfl found, Outcome.bind_eq_ok, Outcome.bind_eq_ok]
    refine exists_congr fun out => and_congr_right fun _ => ?_
    rw [HostReply.read]
    cases out.toInteger with
    | error fault => simp [bind, Except.bind]
    | ok m => simp [bind, Except.bind, pure, Except.pure]

theorem HostState.asked_of_snapshot {h : HostState} {id : Datum}
    (taken : (h.step .snapshot).1 = .ok id) : h.host.asked .snapshot [] ≠ [] := by
  rw [Host.asked]
  cases found : h.host.first? StateOp.snapshot.candidates with
  | none =>
    rw [step_absent rfl found] at taken
    cases taken
  | some method => exact List.cons_ne_nil _ _

theorem World.step_snapshot_host {w : World} {host : HostState} (on : w.store.base = .host host) :
    w.step .base .snapshot = ((host.step .snapshot).1,
      { w with store := ⟨.host (host.step .snapshot).2, w.store.views⟩ }) := by
  rw [step, Store.step, Store.onBase_host on]

namespace Contract

/-- The last step of a call on a host. -/
theorem finish_host_base {ended : Outcome Datum × Frame} {host : HostState} {n : Int}
    (on : ended.2.world.store.base = .host host) :
    (finish .base (.int n) ended).2.store.base = .host { host with
      calls := host.calls ++ host.host.asked (closing (.int n) ended.1) [.int n] } := by
  have last : ∀ op, op.hostArgs = .ok [.int n] →
      (ended.2.world.store.step .base op).2.base =
        .host { host with calls := host.calls ++ host.host.asked op [.int n] } := by
    intro op given
    rw [Store.step, Store.onBase_host on, HostState.step_asked given]
  obtain ⟨outcome, f⟩ := ended
  cases outcome with
  | error fault =>
    rw [store_finish_error]
    exact last (.revert (.int n)) rfl
  | ok output =>
    have releases : f.world.store.releases .base = true := by
      rw [Store.releases, show f.world.store.base = .host host from on]
      rfl
    rw [store_finish_ok, if_pos releases]
    exact last (.discard (.int n)) rfl

/-- A host that has no snapshot to offer is not asked for anything else. -/
theorem run_unopened {c : Contract} (callee : Callee) (block : Option BlockEnv) {w : World}
    {host : HostState} (on : w.store.base = .host host) {address caller input gas readOnly : Datum}
    {context : CallContext}
    (made : CallContext.make caller address input gas readOnly = .ok context)
    (refused : ∀ n, (host.step .snapshot).1 ≠ .ok (.int n)) :
    (c.run callee ⟨.base, block⟩ w address caller input gas readOnly).2.store.base =
      .host (host.step .snapshot).2 := by
  simp only [run, made, runIn, World.step_snapshot_host on]
  cases taken : (host.step .snapshot).1 with
  | error fault => rfl
  | ok id =>
    obtain ⟨n, rfl⟩ := HostState.int_of_snapshot taken
    exact absurd taken (refused n)

end Contract

theorem RandomContract.contract_ok (r : RandomContract) : ∃ c, r.contract = .ok c := by
  cases layout : r.config.layout with
  | typed => exact ⟨_, contract_typed layout⟩
  | raw => exact ⟨_, contract_raw layout⟩

/-- What a call does behind the snapshot that its host answered with `n`. -/
theorem RandomContract.run_opened {r : RandomContract} {c : Contract} (built : r.contract = .ok c)
    (callee : Callee) (block : Option BlockEnv) {w : World} {host : HostState}
    (on : w.store.base = .host host) {address caller input gas readOnly : Datum}
    {context : CallContext}
    (made : CallContext.make caller address input gas readOnly = .ok context) {n : Int}
    (taken : (host.step .snapshot).1 = .ok (.int n)) :
    let body := c.execute callee ⟨.base, block⟩ context (Contract.entry ⟨.base, block⟩ context w)
    (c.run callee ⟨.base, block⟩ w address caller input gas readOnly).2.store.base =
      .host { host with calls := host.calls ++ (host.host.asked .snapshot [] ++
        host.host.inquiry (r.asksFor? context) ++
        host.host.asked (Contract.closing (.int n) body.1) [.int n]) } := by
  intro body
  have stepped := World.step_snapshot_host on
  have opened : (Contract.entry ⟨.base, block⟩ context w).world.store.base = .host
      { host with calls := host.calls ++ host.host.asked .snapshot [] } := by
    rw [Contract.entry, stepped, HostState.step_asked rfl]
  have ran : body.2.world.store.base = _ := base_execute built opened rfl block
  rw [HostState.inquire_eq] at ran
  rw [Contract.run_eq c callee _ w made (by rw [stepped]; exact taken),
    Contract.finish_host_base ran]
  simp only [List.append_assoc]

/-- What a host sees of a random call: the question for a snapshot; the question for the nonce of
the account that speaks, if the nonce comes from the state and nothing was wrong until then; and the
release of the snapshot, or the revert to it if the body failed. Without a snapshot there is nothing
behind the first question, and nothing at all is ever written. -/
theorem random_host_calls (r : RandomContract) (host : HostState) (callee : Callee)
    (block : Option BlockEnv) (views : List View) (metrics : Metrics) (notes : List Datum)
    (address caller input gas readOnly : Datum) :
    ∃ c, r.contract = .ok c ∧
      let w : World := ⟨⟨.host host, views⟩, metrics, notes⟩
      let call := c.run callee ⟨.base, block⟩ w address caller input gas readOnly
      ∃ seen, call.2.store.base = .host { host with calls := host.calls ++ seen } ∧
        (∀ call ∈ seen, ¬call.Writes) ∧
        (∀ fault, CallContext.make caller address input gas readOnly = .error fault → seen = []) ∧
        ∀ context, CallContext.make caller address input gas readOnly = .ok context →
          let body := c.execute callee ⟨.base, block⟩ context
            (Contract.entry ⟨.base, block⟩ context w)
          (host.host.asked .snapshot [] = [] → seen = []) ∧
          ∀ opening, host.host.asked .snapshot [] = [opening] →
            (∀ n, host.host.reply host.calls opening >>= Datum.toInteger = .ok n →
              seen = [opening] ++ host.host.inquiry (r.asksFor? context) ++
                host.host.asked (Contract.closing (.int n) body.1) [.int n]) ∧
            ((∀ n, host.host.reply host.calls opening >>= Datum.toInteger ≠ .ok n) →
              seen = [opening]) := by
  obtain ⟨c, built⟩ := r.contract_ok
  refine ⟨c, built, ?_⟩
  intro w call
  have harmless : ∀ op args, op.mutates = false → ∀ call ∈ host.host.asked op args, ¬call.Writes :=
    fun op args calm call mem => StateOp.not_writes (Host.mem_asked mem).1 calm
  cases made : CallContext.make caller address input gas readOnly with
  | error fault =>
    refine ⟨[], ?_, by simp, fun _ _ => rfl, fun context other => by cases other⟩
    simp only [call, Contract.run, made, List.append_nil]
    rfl
  | ok context =>
    by_cases opened : ∃ n, (host.step .snapshot).1 = .ok (.int n)
    · obtain ⟨n, taken⟩ := opened
      refine ⟨_, RandomContract.run_opened built callee block rfl made taken, ?_,
        (fun fault other => by cases other), ?_⟩
      · intro call mem
        rcases List.mem_append.mp mem with before | closing
        · rcases List.mem_append.mp before with opening | inquiry
          · exact harmless .snapshot [] rfl call opening
          · obtain ⟨who, _, asked⟩ := List.mem_flatMap.mp inquiry
            exact harmless (.getNonce _) _ rfl call asked
        · refine harmless _ _ ?_ call closing
          rcases Contract.closing_release (.int n) _ with release | release <;> rw [release] <;> rfl
      · rintro _ ⟨⟩
        refine ⟨fun unasked => absurd unasked (HostState.asked_of_snapshot taken), ?_⟩
        intro opening asked
        have answered := (HostState.step_snapshot_eq_ok asked).mp taken
        rw [asked]
        refine ⟨fun m other => ?_, fun refused => absurd answered (refused n)⟩
        obtain rfl : m = n := Except.ok.inj (other.symm.trans answered)
        rfl
    · have refused : ∀ n, (host.step .snapshot).1 ≠ .ok (.int n) :=
        fun n taken => opened ⟨n, taken⟩
      refine ⟨host.host.asked .snapshot [], ?_, harmless .snapshot [] rfl,
        (fun fault other => by cases other), ?_⟩
      · have given : StateOp.snapshot.hostArgs = .ok [] := rfl
        rw [← HostState.step_asked given]
        exact Contract.run_unopened callee block rfl made refused
      · rintro _ ⟨⟩
        refine ⟨id, fun opening asked => ⟨fun n answered => ?_, fun _ => asked⟩⟩
        exact absurd ((HostState.step_snapshot_eq_ok asked).mpr answered) (refused n)

/-- A host that counts its snapshots in words, knows nobody's nonce and could be written to. -/
def wordyHost : HostState :=
  .start ⟨fun name => if name ∈ ["checkpoint", "nonce_of", "set_nonce", "rollback_to"]
    then some .method else none,
    fun _ call => if call.method = "checkpoint" then .ok (.text "7")
      else .error (.foreign "KeyError" "nobody")⟩

theorem random_host_calls_wordy :
    let caller := Bytes.numeral addressSize 7
    let r : RandomContract := ⟨.standard, .standard, .none⟩
    ∃ c, r.contract = .ok c ∧ ∃ last,
      (c.run Leaking.alone ⟨.base, none⟩ ⟨⟨.host wordyHost, []⟩, .fresh, []⟩
        (.ofBytes (Bytes.numeral addressSize 0x069420)) (.ofBytes caller) (.ofBytes singleSelector)
        (.ofNat 1030) (.bool true)).2.store.base = .host last ∧
      last.calls = [⟨"checkpoint", []⟩, ⟨"nonce_of", [.ofBytes caller]⟩,
        ⟨"rollback_to", [.int 7]⟩] := by
  intro caller r
  obtain ⟨c, built, seen, on, _, _, whole⟩ := random_host_calls r wordyHost Leaking.alone none []
    .fresh [] (.ofBytes (Bytes.numeral addressSize 0x069420)) (.ofBytes caller)
    (.ofBytes singleSelector) (.ofNat 1030) (.bool true)
  refine ⟨c, built, _, on, ?_⟩
  let context : CallContext :=
    ⟨caller, Bytes.numeral addressSize 0x069420, singleSelector, 1030, true⟩
  obtain rfl : c = r.typedContract :=
    Except.ok.inj (built.symm.trans (RandomContract.contract_typed rfl))
  have asks : r.asksFor? context = some caller := by decide +kernel
  let body := r.typedContract.execute Leaking.alone ⟨.base, none⟩ context
    (Contract.entry ⟨.base, none⟩ context ⟨⟨.host wordyHost, []⟩, .fresh, []⟩)
  have failed : body.1.toOption.isNone = true := by decide +kernel
  have seven := ((whole context rfl).2 ⟨"checkpoint", []⟩ rfl).1 7 rfl
  rw [seven, asks]
  show _ ++ _ ++ wordyHost.host.asked (Contract.closing (.int 7) body.1) [.int 7] = _
  cases ended : body.1 with
  | error fault => rfl
  | ok output =>
    rw [ended] at failed
    cases failed

end SeededDraws
