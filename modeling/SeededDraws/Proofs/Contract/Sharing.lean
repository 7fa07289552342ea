import SeededDraws.Proofs.Contract.Tally
/-!
# Calls that share metrics

Calls of random contracts on any ledgers share one set of metrics. A call whose function came to a
result is counted with it; all other calls leave the metrics alone. Gas that has no double is the
exception: it is not added, and the call that was counted raises instead of handing back its result.
So the metrics agree with the calls that returned, and with those that were about to.
-/

namespace SeededDraws

/-! ### One call -/

/-- What becomes of the metrics, and of the answer of a call that is counted with this result or is
not counted at all. -/
inductive Metrics.Recorded (m : Metrics) :
    Option Completed → Outcome CallResult × World → Prop where
  | counted {d : Completed} {call : Outcome CallResult × World}
    (metrics : call.2.metrics = m.tally d)
    (answer : call.1 =
      if d.charge < Binary64.overflowBound then .ok d.result else .error (.bare .overflow)) :
    Recorded m (some d) call
  | passed {fault : Fault} {call : Outcome CallResult × World} (metrics : call.2.metrics = m)
    (answer : call.1 = .error fault) : Recorded m none call

namespace Contract

/-- The result that a call comes to when its function ends in this way. -/
def resultOf (meter : GasMeter) : Outcome Datum → Option CallResult
  | .ok output => some ⟨output, meter.remaining, none⟩
  | .error (.failure cause) => some ⟨.ofBytes [], gasAfter cause meter, some cause⟩
  | .error _ => none

/-- The same under a layout, if there is a label to count it under. -/
def countedOf (layout : Layout) (meter : GasMeter) (outcome : Outcome Datum) : Option Completed :=
  ((resultOf meter outcome).map (⟨layout, meter.limit, ·⟩)).filter (·.label?.isSome)

variable {l : Ledger} {meter : GasMeter} {f : Frame} {layout : Layout}

theorem countedOf_some {outcome : Outcome Datum} {result : CallResult} {label : Label}
    (ended : resultOf meter outcome = some result)
    (found : (⟨layout, meter.limit, result⟩ : Completed).label? = some label) :
    countedOf layout meter outcome = some ⟨layout, meter.limit, result⟩ := by
  rw [countedOf, ended, Option.map_some, Option.filter_some, found]
  rfl

theorem countedOf_none {outcome : Outcome Datum} {result : CallResult}
    (ended : resultOf meter outcome = some result)
    (missing : (⟨layout, meter.limit, result⟩ : Completed).label? = none) :
    countedOf layout meter outcome = none := by
  rw [countedOf, ended, Option.map_some, Option.filter_some, missing]
  rfl

/-- A failure is counted under its label, and not at all without one. -/
theorem recorded_failure (cause : Failure) (idle : l.marks = [] → l.journal = [])
    (stands : f.Stands (l.marked 1) meter) :
    f.world.metrics.Recorded (countedOf layout meter (.error (.failure cause)))
      (finish .base (.ofNat l.openSnapshots) (.error (.failure cause), f)) := by
  have closed := close_stands stands idle (.inl rfl)
  obtain ⟨_, rfl⟩ := stands
  have labelled : (⟨layout, f.meter.limit,
      ⟨.ofBytes [], gasAfter cause f.meter, some cause⟩⟩ : Completed).label? =
        (Label.read cause.code).toOption := rfl
  have charge : (⟨layout, f.meter.limit, ⟨.ofBytes [], gasAfter cause f.meter, some cause⟩⟩ :
      Completed).charge = f.meter.limit - gasAfter cause f.meter := rfl
  cases read : Label.read cause.code with
  | error fault =>
    rw [read] at labelled
    rw [countedOf_none rfl labelled]
    simp only [finish, reject, closed, countResult, Metrics.recordCall, read]
    exact .passed rfl rfl
  | ok label =>
    rw [read] at labelled
    rw [countedOf_some rfl labelled]
    simp only [finish, reject, closed, countResult_read read]
    refine .counted ?_ ?_
    · rw [Metrics.tally_failed _ rfl labelled, charge]
    · rw [charge]

/-- A fault that is no failure leaves the call, and is not counted. -/
theorem recorded_plain {fault : Fault} (plain : ¬∃ cause, fault = .failure cause)
    (idle : l.marks = [] → l.journal = []) (stands : f.Stands (l.marked 1) meter) :
    f.world.metrics.Recorded (countedOf layout meter (.error fault))
      (finish .base (.ofNat l.openSnapshots) (.error fault, f)) := by
  have closed := close_stands stands idle (.inl rfl)
  cases fault with
  | failure cause => exact absurd ⟨cause, rfl⟩ plain
  | _ =>
    simp only [finish, abandon, closed]
    exact .passed rfl rfl

/-- An output is counted as good, in metrics that its values are in already. -/
theorem recorded_drawn {m : Metrics} {output : Bytes}
    (observed : f.world.metrics =
      { m with values := m.values.observe (.ofNat (layout.valuesIn output)) })
    (idle : l.marks = [] → l.journal = []) (stands : f.Stands (l.marked 1) meter)
    (within : meter.used ≤ meter.limit) :
    m.Recorded (countedOf layout meter (.ok (.ofBytes output)))
      (finish .base (.ofNat l.openSnapshots) (.ok (.ofBytes output), f)) := by
  have closed := close_stands stands idle (.inr rfl)
  have releases : f.world.store.releases .base = true := by
    rw [Store.releases, stands.base]
    rfl
  obtain ⟨_, rfl⟩ := stands
  have charge : (⟨layout, f.meter.limit,
      ⟨.ofBytes output, f.meter.remaining, none⟩⟩ : Completed).charge = f.meter.used :=
    Nat.sub_sub_self within
  have good : Label.read (.text "ok") = .ok .ok := rfl
  rw [countedOf_some rfl rfl]
  simp only [finish, commit, if_pos releases, closed, countResult_read good, observed]
  refine .counted ?_ ?_
  · rw [Metrics.tally_good _ rfl, charge, Metrics.charge_count_observed]
    rfl
  · rw [charge]
    split <;> rfl

/-- The end of a call counts what its function came to. -/
theorem finish_recorded {raised : Failure → Prop} {m : Metrics} {ended : Outcome Datum × Frame}
    (counted : Body.Counted raised (fun output count => layout.valuesIn output = count) m ended)
    (idle : l.marks = [] → l.journal = []) (stands : ended.2.Stands (l.marked 1) meter)
    (within : meter.used ≤ meter.limit) :
    m.Recorded (countedOf layout meter ended.1) (finish .base (.ofNat l.openSnapshots) ended) := by
  cases counted with
  | @failed fault f _ same =>
    subst same
    by_cases failed : ∃ cause, fault = .failure cause
    · obtain ⟨cause, rfl⟩ := failed
      exact recorded_failure cause idle stands
    · exact recorded_plain failed idle stands
  | @drawn count output f holds observed =>
    subst holds
    exact recorded_drawn observed idle stands within

end Contract

/-! ### Many calls -/

/-- The gas that is supplied for a call. -/
def RandomCall.supplied (d : RandomCall) : Nat := (d.gas.properInt?.getD 0).toNat

theorem RandomCall.supplied_of_make {d : RandomCall} {context : CallContext}
    (made : CallContext.make d.caller d.address d.input d.gas d.readOnly = .ok context) :
    d.supplied = context.suppliedGas := by
  obtain ⟨_, _, _, gas, _⟩ := CallContext.make_eq_ok.mp made
  rw [supplied, gas]
  rfl

/-- A random call on a ledger of its own. -/
structure Visit where
  txHash : Bytes
  history : List StateOp
  views : List View
  notes : List Datum
  call : RandomCall

namespace Visit

def ledger (v : Visit) : Ledger := (Ledger.start v.txHash).after v.history

def world (v : Visit) (m : Metrics) : World := ⟨⟨.ledger v.ledger true, v.views⟩, m, v.notes⟩

def run (callee : Callee) (m : Metrics) (v : Visit) : Outcome CallResult × World :=
  v.call.run callee (v.world m)

def completed (v : Visit) (result : CallResult) : Completed :=
  ⟨v.call.config.layout, v.call.supplied, result⟩

/-- How the function of a call ends, and where, if the call gets that far. -/
def ending? (callee : Callee) (v : Visit) : Option (Outcome Datum × Frame) :=
  let made := CallContext.make v.call.caller v.call.address v.call.input v.call.gas v.call.readOnly
  match randomContract v.call.config v.call.entropy, made with
  | .ok c, .ok context =>
    some (c.execute callee ⟨.base, v.call.block⟩ context
      (Contract.entry ⟨.base, v.call.block⟩ context (v.world .fresh)))
  | _, _ => none

/-- The result that a call is counted with: what its function came to, if that has a label. -/
def counted? (callee : Callee) (v : Visit) : Option Completed :=
  (v.ending? callee).bind fun ended =>
    Contract.countedOf v.call.config.layout ended.2.meter ended.1

/-- A call is counted with its result, or else it leaves the metrics alone. -/
theorem run_recorded (v : Visit) (callee : Callee) (m : Metrics) :
    m.Recorded (v.counted? callee) (v.run callee m) := by
  cases built : randomContract v.call.config v.call.entropy with
  | error fault =>
    simp only [counted?, ending?, run, RandomCall.run, built]
    exact .passed rfl rfl
  | ok c =>
    cases made : CallContext.make v.call.caller v.call.address v.call.input v.call.gas
        v.call.readOnly with
    | error fault =>
      simp only [counted?, ending?, run, RandomCall.run, built, Contract.run, made]
      exact .passed rfl rfl
    | ok context =>
      have idle := (refines_after v.txHash v.history).idle
      obtain ⟨taken, begins⟩ :=
        Contract.entry_stands (w := v.world m) rfl v.call.block context
      -- the ending was defined over fresh metrics, but a reading body does not see them
      obtain ⟨outcome, left, ends⟩ := (reads_of_randomContract built).execute
        (v.ledger.marked 1) callee ⟨.base, v.call.block⟩ context (.start context.suppliedGas)
      obtain ⟨first, stands⟩ := ends _ begins
      have counted : v.counted? callee =
          Contract.countedOf v.call.config.layout left outcome := by
        obtain ⟨first', stands'⟩ := ends _
          (Contract.entry_stands (w := v.world .fresh) rfl v.call.block context).2
        simp only [counted?, ending?, built, made, Option.bind_some, first', stands'.meter]
      obtain ⟨used, within⟩ := c.meter_execute callee ⟨.base, v.call.block⟩ context
        (Contract.entry ⟨.base, v.call.block⟩ context (v.world m)) (Nat.zero_le _)
      have bound : left.used ≤ left.limit := by
        rw [← stands.meter, used]
        exact within
      have called : v.run callee m = Contract.finish .base (.ofNat v.ledger.openSnapshots)
          (c.execute callee ⟨.base, v.call.block⟩ context
            (Contract.entry ⟨.base, v.call.block⟩ context (v.world m))) := by
        rw [run, RandomCall.run, built]
        exact Contract.run_eq c callee _ _ made taken
      rw [called, counted, ← first]
      exact Contract.finish_recorded
        (counted_of_randomContract built begins callee ⟨.base, v.call.block⟩ context) idle stands
        bound

variable {v : Visit} {callee : Callee} {d : Completed}

/-- A call that is counted got to its function, and the function came to this result. -/
theorem counted?_eq_some (found : v.counted? callee = some d) :
    ∃ c context, randomContract v.call.config v.call.entropy = .ok c ∧
      CallContext.make v.call.caller v.call.address v.call.input v.call.gas v.call.readOnly =
        .ok context ∧
      let ended := c.execute callee ⟨.base, v.call.block⟩ context
        (Contract.entry ⟨.base, v.call.block⟩ context (v.world .fresh))
      Contract.resultOf ended.2.meter ended.1 = some d.result ∧
        d = ⟨v.call.config.layout, ended.2.meter.limit, d.result⟩ ∧ d.label?.isSome = true := by
  obtain ⟨ended, got, counted⟩ := Option.bind_eq_some_iff.mp found
  obtain ⟨come, labelled⟩ := Option.filter_eq_some_iff.mp counted
  obtain ⟨result, ends, rfl⟩ := Option.map_eq_some_iff.mp come
  rw [ending?] at got
  split at got
  · next c context built made =>
    cases got
    exact ⟨c, context, built, made, ends, rfl, labelled⟩
  · cases got

theorem completed_of_counted (found : v.counted? callee = some d) : v.completed d.result = d := by
  obtain ⟨c, context, _, made, _, same, _⟩ := counted?_eq_some found
  have limit := (c.meter_execute callee ⟨.base, v.call.block⟩ context
    (Contract.entry ⟨.base, v.call.block⟩ context (v.world .fresh)) (Nat.zero_le _)).1
  rw [same, completed, RandomCall.supplied_of_make made, limit]
  rfl

/-- A failure that is counted has a label of its own, unless the entropy source raised it. -/
theorem cause_of_counted (found : v.counted? callee = some d) {cause : Failure}
    (failed : d.result.error = some cause) :
    (∃ label, label ≠ Label.ok ∧ d.code = some label.name) ∨ v.call.entropy.Raises cause := by
  obtain ⟨c, context, built, made, ends, _, _⟩ := counted?_eq_some found
  have begins := (Contract.entry_stands (w := v.world .fresh) rfl v.call.block context).2
  have counted := counted_of_randomContract built begins callee ⟨.base, v.call.block⟩ context
  generalize c.execute callee _ context _ = ended at ends counted
  cases counted with
  | @failed fault f labelled same =>
    cases fault with
    | failure raised =>
      rw [Contract.resultOf] at ends
      rw [← Option.some.inj ends] at failed
      obtain rfl := Option.some.inj failed
      rcases labelled raised rfl with ⟨code, label, named, other, lower⟩ | own
      · refine .inl ⟨label, other, ?_⟩
        rw [Completed.code, ← Option.some.inj ends, Option.bind_some, named]
        exact lower
      · exact .inr own
    | _ => cases ends
  | drawn =>
    rw [← Option.some.inj ends] at failed
    cases failed

end Visit

namespace Metrics

def afterVisits (callee : Callee) (m : Metrics) : List Visit → Metrics
  | [] => m
  | v :: rest => (v.run callee m).2.metrics.afterVisits callee rest

/-- The calls that returned. -/
def completed (callee : Callee) (m : Metrics) : List Visit → List Completed
  | [] => []
  | v :: rest =>
    match v.run callee m with
    | (.ok result, w) => v.completed result :: w.metrics.completed callee rest
    | (.error _, w) => w.metrics.completed callee rest

variable (callee : Callee) (m : Metrics) (visits : List Visit)

theorem afterVisits_eq :
    m.afterVisits callee visits = (visits.filterMap (Visit.counted? callee)).foldl tally m := by
  induction visits generalizing m with
  | nil => rfl
  | cons v rest ih =>
    have recorded := v.run_recorded callee m
    rw [afterVisits, ih]
    cases found : v.counted? callee with
    | none =>
      rw [found] at recorded
      cases recorded with
      | passed metrics _ => rw [metrics, List.filterMap_cons_none found]
    | some d =>
      rw [found] at recorded
      cases recorded with
      | counted metrics _ => rw [metrics, List.filterMap_cons_some found, List.foldl_cons]

/-- A call returned if it was counted and its gas has a double. -/
theorem completed_cons (v : Visit) (rest : List Visit) :
    m.completed callee (v :: rest) =
      ((v.counted? callee).filter fun d => d.charge < Binary64.overflowBound).toList ++
        (v.run callee m).2.metrics.completed callee rest := by
  have recorded := v.run_recorded callee m
  rw [completed]
  generalize v.run callee m = call at recorded
  obtain ⟨answer, w⟩ := call
  cases found : v.counted? callee with
  | none =>
    rw [found] at recorded
    cases recorded with
    | passed _ raised =>
      obtain rfl : answer = _ := raised
      rfl
  | some d =>
    rw [found] at recorded
    cases recorded with
    | counted _ answered =>
      dsimp only at answered
      rw [Option.filter_some]
      by_cases fits : d.charge < Binary64.overflowBound
      · rw [if_pos fits] at answered
        simp only [answered, decide_eq_true fits, if_true, Visit.completed_of_counted found]
        rfl
      · rw [if_neg fits] at answered
        simp only [answered, decide_eq_false fits, Bool.false_eq_true, if_false]
        rfl

/-- The calls that returned are those that were counted, less those whose gas has no double. -/
theorem completed_eq :
    m.completed callee visits = (visits.filterMap (Visit.counted? callee)).filter
      fun d => d.charge < Binary64.overflowBound := by
  induction visits generalizing m with
  | nil => rfl
  | cons v rest ih =>
    rw [completed_cons, ih]
    cases found : v.counted? callee with
    | none =>
      rw [List.filterMap_cons_none found]
      rfl
    | some d =>
      rw [List.filterMap_cons_some found, List.filter_cons, Option.filter_some]
      split <;> rfl

end Metrics

/-- A count under a label stops at the bound, however often a call that is counted there comes
again. -/
theorem Metrics.calls_replicate {callee : Callee} {v : Visit} {d : Completed} {label : Label}
    (found : v.counted? callee = some d) (failed : d.isOk = false)
    (labelled : d.label? = some label) (n : Nat) :
    (fresh.afterVisits callee (List.replicate n v)).calls label =
      .ofNat (min n Binary64.exactBound) := by
  rw [afterVisits_eq, List.filterMap_replicate_of_some found]
  induction n with
  | zero => rfl
  | succ n ih =>
    rw [List.replicate_succ', List.foldl_append, List.foldl_cons, List.foldl_nil,
      tally_failed _ failed labelled, calls_charge, count]
    simp only [if_true, ih, Binary64.next_min]

theorem Metrics.completed_replicate {callee : Callee} {v : Visit} {d : Completed}
    (found : v.counted? callee = some d) (fits : d.charge < Binary64.overflowBound) (n : Nat) :
    fresh.completed callee (List.replicate n v) = List.replicate n d := by
  rw [completed_eq, List.filterMap_replicate_of_some found, List.filter_replicate,
    decide_eq_true fits, if_pos rfl]

/-- Calls that share one set of metrics are counted as they came out, each that returned once, and
the counts and sums are exact while doubles can hold them. A call is also counted if only the gas
that it took has no double; its gas is not added, and it raises. Failures have labels of their own,
those of an entropy source apart, which are counted under any label that their code names and as
errors otherwise. -/
theorem metrics_agree (callee : Callee) (visits : List Visit) :
    let counted := visits.filterMap (Visit.counted? callee)
    let good := counted.filter Completed.isOk
    let done := Metrics.fresh.completed callee visits
    let m := Metrics.fresh.afterVisits callee visits
    done = (counted.filter fun d => d.charge < Binary64.overflowBound) ∧
    (∀ v ∈ visits, ∀ d, v.counted? callee = some d → Binary64.overflowBound ≤ d.charge →
      ∀ shared, (v.run callee shared).1 = .error (.bare .overflow)) ∧
    (∀ d ∈ counted, ∀ cause, d.result.error = some cause →
      (∃ label, label ≠ Label.ok ∧ d.code = some label.name) ∨
        ∃ v ∈ visits, v.call.entropy.Raises cause) ∧
    (counted.length ≤ Binary64.exactBound →
      total Completed.values good ≤ Binary64.exactBound →
      total Completed.charge done ≤ Binary64.exactBound →
      Binary64.sum m.calls Label.all = .ofNat counted.length ∧
      m.calls .ok = .ofNat (good.length + counted.countP fun d => d.code = some Label.ok.name) ∧
      (∀ label, label ≠ .ok → label ≠ .error →
        m.calls label = .ofNat (counted.countP fun d => d.code = some label.name)) ∧
      m.calls .error = .ofNat (counted.countP fun d => d.isOk = false ∧
        ∀ label ∈ Label.all, label ≠ .error → d.code ≠ some label.name) ∧
      m.values.count = .ofNat good.length ∧
      m.values.sum = .ofNat (total Completed.values good) ∧
      Histogram.cumulative .zero m.values.buckets = Histogram.rows Histogram.standardBounds
        (fun bound => good.countP fun d => d.values ≤ bound) good.length ∧
      m.gas = .ofNat (total Completed.charge done)) := by
  intro counted good done m
  have labelled : ∀ d ∈ counted, d.label?.isSome = true := by
    intro d held
    obtain ⟨v, _, found⟩ := List.mem_filterMap.mp held
    obtain ⟨_, _, _, _, _, _, labelled⟩ := Visit.counted?_eq_some found
    exact labelled
  have returned : done = _ := Metrics.completed_eq callee .fresh visits
  refine ⟨returned, ?_, ?_, ?_⟩
  · intro v _ d found large shared
    have recorded := v.run_recorded callee shared
    rw [found] at recorded
    cases recorded with
    | counted _ answered => rw [answered, if_neg (Nat.not_lt.mpr large)]
  · intro d held cause failed
    obtain ⟨v, visited, found⟩ := List.mem_filterMap.mp held
    exact (Visit.cause_of_counted found failed).imp_right fun own => ⟨v, visited, own⟩
  · intro calls values gas
    rw [returned] at gas
    have agrees : m.Agrees counted := by
      rw [show m = _ from Metrics.afterVisits_eq callee .fresh visits]
      exact Metrics.agrees_tally labelled ⟨calls, values, gas⟩
    exact ⟨agrees.sum_calls labelled calls, agrees.calls_ok, fun _ => agrees.calls_named,
      agrees.calls_error labelled, agrees.count_values calls, agrees.values,
      agrees.cumulative_values calls, returned ▸ agrees.gas⟩

namespace Sharing

/-- A call at this price that speaks for another account, on a ledger with an open snapshot. -/
def visit (price gas : Nat) (entropy : Entropy) (input : Bytes) : Visit :=
  ⟨zeroWord, [.snapshot], [], [],
    ⟨⟨.raw, .payload, Config.standard.address, .ofNat price, .int 0, .int 1024⟩, entropy, none,
      .ofBytes Config.standard.address, Leaking.account, .ofBytes input, .ofNat gas, .bool false⟩⟩

def request (count : Nat) : Bytes :=
  Bytes.numeral addressSize 7 ++ Bytes.numeral wordSize count ++ Bytes.numeral 8 5

/-- The whole gas is the price. -/
def spending (price : Nat) : Visit := visit price price .none (request 0)

/-- The entropy source has only a failure to offer. -/
def raising (code : String) : Visit :=
  visit 1024 1030 (fun _ _ => .error (.failure (.general (.text "dry") (.text code) .null)))
    (request 0)

/-- Nothing is charged for a payload that is too short. -/
def free : Visit := visit 0 0 .none []

theorem free_replicate (n : Nat) :
    let done := Metrics.fresh.completed Leaking.alone (List.replicate n free)
    let m := Metrics.fresh.afterVisits Leaking.alone (List.replicate n free)
    total Completed.charge done = 0 ∧ done.countP Completed.isOk = 0 ∧
      (done.countP fun d => d.code = some Label.invalidInputLength.name) = n ∧
      m.calls .invalidInputLength = .ofNat (min n Binary64.exactBound) := by
  obtain ⟨d, found⟩ := Option.isSome_iff_exists.mp
    (show (free.counted? Leaking.alone).isSome = true by decide +kernel)
  have refused : (free.counted? Leaking.alone).all (fun d => d.charge = 0 ∧ d.isOk = false ∧
      d.label? = some .invalidInputLength ∧ d.code = some Label.invalidInputLength.name) =
        true := by decide +kernel
  rw [found, Option.all_some, decide_eq_true_eq] at refused
  obtain ⟨gas, notOk, labelled, code⟩ := refused
  have fits : d.charge < Binary64.overflowBound := by
    rw [gas]
    decide +kernel
  simp only [Metrics.completed_replicate found fits, Metrics.calls_replicate found notOk labelled,
    total_replicate, List.countP_replicate, gas, notOk, code, decide_true, if_true,
    Bool.false_eq_true, if_false, Nat.mul_zero, and_self]

def visits : List Visit :=
  [visit 1024 1030 .none (request 0), visit 1024 3 .none (request 0), spending (Nat.pow 2 1024),
    visit 1024 1030 .none (request 2000)]

end Sharing

open Sharing in
/-- Two calls are good, but one of them raises; another cannot pay and loses the little it has, and
one asks for too much. -/
theorem metrics_agree_four :
    let done := Metrics.fresh.completed Leaking.alone visits
    let m := Metrics.fresh.afterVisits Leaking.alone visits
    done.length = 3 ∧ Binary64.sum m.calls Label.all = .ofNat 4 ∧ m.calls .ok = .ofNat 2 ∧
      m.calls .outOfGas = .ofNat 1 ∧ m.calls .requestTooLarge = .ofNat 1 ∧
      m.calls .error = .ofNat 0 ∧ m.values.count = .ofNat 2 ∧ m.gas = .ofNat 2051 := by
  intro done m
  have counted : (visits.filterMap (Visit.counted? Leaking.alone)).length = 4 := by decide +kernel
  have drawn : total Completed.values ((visits.filterMap (Visit.counted? Leaking.alone)).filter
      Completed.isOk) = 0 := by decide +kernel
  have charged : total Completed.charge done = 2051 := by decide +kernel
  obtain ⟨_, _, _, agree⟩ := metrics_agree Leaking.alone visits
  obtain ⟨calls, ok, failed, error, count, _, _, gas⟩ := agree
    (by rw [counted]; decide +kernel) (by rw [drawn]; decide +kernel)
    (by rw [charged]; decide +kernel)
  rw [counted] at calls
  rw [charged] at gas
  have unpaid := failed .outOfGas (by decide) (by decide)
  have refused := failed .requestTooLarge (by decide) (by decide)
  refine ⟨by decide +kernel, calls, ok.trans ?_, unpaid.trans ?_, refused.trans ?_, error.trans ?_,
    count.trans ?_, gas⟩
  all_goals exact congrArg Binary64.ofNat (by decide +kernel)

open Sharing in
/-- Three ways for metrics to part with the calls that returned: a price beyond the doubles, an
entropy source whose failures have codes of their own, and more calls than a double can count. -/
theorem metrics_part_with_results :
    (let done := Metrics.fresh.completed Leaking.alone [spending (Nat.pow 2 1024)]
      let m := Metrics.fresh.afterVisits Leaking.alone [spending (Nat.pow 2 1024)]
      done = [] ∧ m.calls .ok = .ofNat 1 ∧ m.values.count = .ofNat 1) ∧
    (let done := Metrics.fresh.completed Leaking.alone [raising "OK", raising "DRY"]
      let m := Metrics.fresh.afterVisits Leaking.alone [raising "OK", raising "DRY"]
      total Completed.charge done = 2048 ∧ done.countP Completed.isOk = 0 ∧
        m.calls .ok = .ofNat 1 ∧ (done.countP fun d => d.code = some Label.error.name) = 0 ∧
        m.calls .error = .ofNat 1) ∧
    let done := Metrics.fresh.completed Leaking.alone
      (List.replicate (Binary64.exactBound + 1) free)
    let m := Metrics.fresh.afterVisits Leaking.alone
      (List.replicate (Binary64.exactBound + 1) free)
    total Completed.charge done = 0 ∧ done.countP Completed.isOk = 0 ∧
      (done.countP fun d => d.code = some Label.invalidInputLength.name) =
        Binary64.exactBound + 1 ∧
      m.calls .invalidInputLength = .ofNat Binary64.exactBound := by
  refine ⟨⟨List.eq_nil_of_length_eq_zero (by decide +kernel), by decide +kernel, by decide +kernel⟩,
    ⟨by decide +kernel, by decide +kernel, by decide +kernel, by decide +kernel,
      by decide +kernel⟩, ?_⟩
  have stopped := free_replicate (Binary64.exactBound + 1)
  rwa [Nat.min_eq_right (Nat.le_succ _)] at stopped

end SeededDraws
