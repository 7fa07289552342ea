import SeededDraws.Proofs.Config
import SeededDraws.Proofs.Contract.Agreement
/-!
# Shorter draws are prefixes of longer ones

A value depends on its index and on nothing that is asked about the others. So a shorter sequence is
the beginning of a longer one, and the function for a single value, which has a price and a check of
its own, answers with the first of them. All of this is about calls that can be counted: the gas
that is charged goes into a double, and a price beyond the doubles raises instead of returning.
-/

namespace SeededDraws

/-! ### Values -/

theorem Seed.take_values (seed : Seed) (nonce : Nat) {n m : Nat} (le : n ≤ m) :
    (seed.values nonce m).take n = seed.values nonce n := by
  rw [values, values, ← List.map_take, List.take_range, Nat.min_eq_left le]

theorem Seed.head?_values (seed : Seed) (nonce : Nat) {n : Nat} (some : 0 < n) :
    (seed.values nonce n).head? = .some (seed.value nonce 0) := by
  obtain ⟨n, rfl⟩ := Nat.exists_eq_add_of_lt some
  rw [values, Nat.zero_add, List.range_succ_eq_map]
  rfl

theorem Hash.input_of_bytes? (name : String) {d : Datum} {b : Bytes} (bytes : d.bytes? = some b) :
    Hash.input name d = .ok b := by
  rw [Hash.input, Datum.bytesOr, bytes]

/-- Any byte strings will do for the seeds, and any integer for the nonce. -/
theorem generateValues_of_bytes? {server user nonce : Datum} {seed : Seed} {k : Nat}
    (serverBytes : server.bytes? = some seed.server) (userBytes : user.bytes? = some seed.user)
    (named : nonce.integer? = some (k : Int)) (fits : k ≤ maxUint64) (n : Nat) :
    generateValues server user nonce (.ofNat n) = seed.draw k n := by
  rw [← generateValues_ofBytes seed n named fits]
  have key := Hash.input_of_bytes? "key" serverBytes
  have chunk := Hash.input_of_bytes? "chunk[0]" userBytes
  have key' := Hash.input_of_bytes? "key" (d := .ofBytes seed.server) rfl
  have chunk' := Hash.input_of_bytes? "chunk[0]" (d := .ofBytes seed.user) rfl
  simp only [generateValues, key, chunk, key', chunk']

/-! ### Ceilings -/

theorem Binary64.compareInt_mono {x : Binary64} {n m : Int} (le : n ≤ m)
    (reached : x.compareInt m ≠ some .lt) : x.compareInt n ≠ some .lt := by
  cases x with
  | nan => exact reached
  | infinite negative => exact reached
  | finite negative mantissa exponent =>
    have scale :
        n * ((scaled mantissa exponent).2 : Int) ≤ m * ((scaled mantissa exponent).2 : Int) :=
      Int.mul_le_mul_of_nonneg_right le (Int.natCast_nonneg _)
    simp only [compareInt, ne_eq, Option.some.injEq, Int.compare_eq_lt] at reached ⊢
    omega

/-- What is not below a number is not below any smaller one. -/
theorem Datum.isBelow_mono {d : Datum} {n m : Int} (le : n ≤ m)
    (reached : d.isBelow m = .ok false) : d.isBelow n = .ok false := by
  cases named : d.integer? with
  | some k =>
    rw [isBelow_of_integer? named, Except.ok.injEq, decide_eq_false_iff_not] at reached ⊢
    omega
  | none =>
    cases d with
    | float x =>
      have order : x.compareInt m ≠ some .lt := by
        intro below
        simp [isBelow, compareInt?, below] at reached
      simp [isBelow, compareInt?, Binary64.compareInt_mono le order]
    | _ => simp_all [isBelow, compareInt?, integer?]

/-- A count that fits eight bytes is a matter of the ceiling alone. -/
theorem checkCount_of_isBelow {n : Nat} {ceiling : Datum} {above : Bool} (small : n < Nat.pow 2 64)
    (compared : ceiling.isBelow n = .ok above) :
    checkCount (.ofNat n) ceiling =
      if above then .error (.failure (.requestTooLarge (.ofNat n) ceiling))
      else .ok (.ofNat n) := by
  have read : (Datum.ofNat n).natural "n" = .ok n := Datum.natural_of_integer? rfl
  have word : ¬maxUint256 < n := by
    rw [maxUint256_lt]
    exact Nat.not_le.mpr (Nat.lt_trans small (by decide +kernel))
  simp only [checkCount, read, compared, bind, Except.bind, if_neg word, maxUint64_lt,
    if_neg (Nat.not_le.mpr small)]

/-! ### The single value -/

section
variable {d : Draw} {r : RandomContract} {call : Invocation} {k cost : Nat} {l : Ledger}
  {meter : GasMeter} {f : Frame}

/-- The contract with a ceiling of one, which is what the function for a single value checks. -/
def RandomContract.capped (r : RandomContract) : RandomContract :=
  { r with config := { r.config with maxCount := .int 1 } }

theorem RandomContract.draw_capped (r : RandomContract) (call : Invocation) (request : Request)
    (next : List Nat → Body) :
    r.draw call request (.int 1) next = r.capped.draw call request r.capped.config.maxCount next :=
  rfl

/-- A value is counted as one and encoded without fail. -/
theorem respond_single {v : Nat} (fits : v < Nat.pow 2 256) (stands : f.Stands l meter)
    (callee : Callee) (context : CallContext) :
    ∃ f', f'.Stands l meter ∧
      (Body.observe 1 (.orFail (encodeUint256 (.ofNat v)) fun output =>
        .done (.ofBytes output))).run callee .base context f =
          (.ok (.ofBytes (Bytes.numeral wordSize v)), f') := by
  have after := stands.observe 1
  have answer : (f.observe 1).1 = .ok () := f.observe_answer 1
  refine ⟨(f.observe 1).2, after, ?_⟩
  rw [encodeUint256_ofNat fits, Body.run]
  cases seen : f.observe 1 with
  | mk first g =>
    rw [seen] at answer
    cases answer
    rfl

theorem Draw.Asked.single (asked : d.Asked r.capped call ⟨1, none, none⟩ l k)
    (bare : call.args = []) (price : r.requiredGas call.context.input = cost)
    (enough : cost ≤ d.gas) (stands : f.Stands l (.start d.gas)) (callee : Callee)
    (context : CallContext) :
    ∃ f', f'.Stands l ⟨d.gas, cost⟩ ∧
      (r.single call).run callee .base context f =
        ((d.values k).map fun vs => .ofBytes (Bytes.numeral wordSize (vs.headD 0)), f') := by
  have charged : ({ f with meter := ⟨d.gas, cost⟩ } : Frame).Stands l ⟨d.gas, cost⟩ :=
    ⟨stands.base, rfl⟩
  obtain ⟨f', stands', same⟩ := asked.draw charged callee context
  rw [RandomContract.single, RandomContract.metered, Body.run_charge, price, stands.meter,
    GasMeter.consume_start, if_neg (Nat.not_lt.mpr enough)]
  simp only [Body.orFail, bare, List.isEmpty_nil, if_true, r.draw_capped, same]
  cases drawn : d.values k with
  | error fault => exact ⟨f', stands', rfl⟩
  | ok vs =>
    obtain ⟨fit, _⟩ := Draw.fit_of_values drawn
    have first : vs.headD 0 < Nat.pow 2 256 := by
      cases vs with
      | nil => exact Nat.pow_pos (by decide)
      | cons v rest => exact fit.2 v List.mem_cons_self
    exact respond_single first stands' callee context

end

/-! ### Calls with enough gas -/

section
variable {l : Ledger} {copies : CopyStore} {f : Frame} {gas cost : Nat}

/-- An output is handed back if its price can be counted. -/
theorem Contract.finish_paid (h : Refines l copies) (stands : f.Stands (l.marked 1) ⟨gas, cost⟩)
    (enough : cost ≤ gas) (output : Bytes) :
    (finish .base (.ofNat l.openSnapshots) (.ok (.ofBytes output), f)).1 =
      (Datum.ofNat cost).toDouble.map fun _ => ⟨.ofBytes output, gas - cost, none⟩ := by
  obtain ⟨base, meter⟩ := stands
  have within : f.meter.used ≤ gas := meter ▸ enough
  have answer := finish_answer h (.good output f base (congrArg GasMeter.limit meter) within)
  have left : f.meter.remaining = gas - cost := congrArg GasMeter.remaining meter
  rw [left, Nat.sub_sub_self enough] at answer
  rw [show l.openSnapshots = copies.copies.length from h.size]
  exact answer

/-- So is a failure that leaves what was not charged. -/
theorem Contract.finish_rejected (h : Refines l copies) (stands : f.Stands (l.marked 1) ⟨gas, cost⟩)
    (enough : cost ≤ gas) {cause : Failure} {code : Text} (named : cause.code = .text code)
    (kept : gasAfter cause f.meter = f.meter.remaining) :
    (finish .base (.ofNat l.openSnapshots) (.error (.failure cause), f)).1 =
      (Datum.ofNat cost).toDouble.map fun _ => ⟨.ofBytes [], gas - cost, some cause⟩ := by
  obtain ⟨base, meter⟩ := stands
  have answer := finish_answer h (.failed cause code f named base (congrArg GasMeter.limit meter))
  have left : f.meter.remaining = gas - cost := congrArg GasMeter.remaining meter
  rw [kept, left, Nat.sub_sub_self enough] at answer
  rw [show l.openSnapshots = copies.copies.length from h.size]
  exact answer

end

section
variable {d : Draw} {k : Nat} {l : Ledger} {schedule : GasSchedule} {w : World}

theorem Draw.paid_meter_of_enough (enough : schedule.required 36 ≤ d.gas) :
    (d.paid schedule k).2 = ⟨d.gas, schedule.required 36⟩ := by
  rw [paid, GasMeter.consume_start, if_neg (Nat.not_lt.mpr enough)]

/-- A call for one value draws under a ceiling of its own. -/
theorem Draw.run_single (posed : d.Posed l k) (one : d.count = 1) (capped : d.ceiling = .int 1)
    (priced : GasSchedule.make d.base d.perWord = .ok schedule)
    (on : w.store.base = .ledger l true) (enough : schedule.required 4 ≤ d.gas)
    (ceiling : Datum) (reserved : Bytes) (readOnly : Datum) (callee : Callee) :
    ∃ f, f.Stands (l.marked 1) ⟨d.gas, schedule.required 4⟩ ∧
      (d.call ⟨.typed, .state, reserved, d.base, d.perWord, ceiling⟩ d.caller singleSelector
        readOnly).run callee w = Contract.finish .base (.ofNat l.openSnapshots)
          ((d.values k).map fun vs => .ofBytes (Bytes.numeral wordSize (vs.headD 0)), f) := by
  let r : RandomContract :=
    ⟨⟨.typed, .state, reserved, d.base, d.perWord, ceiling⟩, schedule, d.entropy⟩
  let context : CallContext := ⟨d.caller, d.address, singleSelector, d.gas, readOnly.truthy⟩
  have asked : d.Asked r.capped ⟨context, [], d.block⟩ ⟨1, none, none⟩ (l.marked 1) k :=
    { ceiling := capped.symm
      entropy := rfl
      block := rfl
      address := rfl
      count := one.symm
      caller := rfl
      sized := posed.caller
      held := posed.held
      carried := nofun }
  have built : randomContract r.config d.entropy = .ok r.typedContract := by
    have made : RandomContract.make r.config d.entropy = .ok r := by
      rw [RandomContract.make, priced]
      rfl
    simp only [randomContract, made, bind, Except.bind]
    exact RandomContract.contract_typed (r := r) rfl
  have routed : r.typedContract.route singleSelector = .ok (r.single, []) := by
    rw [RandomContract.route_typed, if_neg (by decide), if_neg (by decide), if_pos (by rfl)]
    rfl
  have price : r.requiredGas singleSelector = schedule.required 4 := rfl
  have made := CallContext.make_ofBytes singleSelector d.gas readOnly posed.caller posed.address
  obtain ⟨taken, begins⟩ := Contract.entry_stands on d.block context
  obtain ⟨f, stands, ends⟩ := asked.single rfl price enough begins callee context
  refine ⟨f, stands, ?_⟩
  have called := r.typedContract.run_eq callee ⟨.base, d.block⟩ w made taken
  rw [Contract.execute, routed] at called
  rw [RandomCall.run]
  simp only [call]
  rw [built]
  exact called.trans (congrArg _ ends)

end

/-- An account that asks a typed contract, again and again in the same world and with the same
gas. -/
structure Consumer where
  config : Config
  entropy : Entropy
  block : Option BlockEnv
  address : Bytes
  caller : Bytes
  gas : Nat
  readOnly : Datum
  callee : Callee
  world : World

namespace Consumer

def ask (a : Consumer) (input : Bytes) : Outcome CallResult :=
  ((⟨a.config, a.entropy, a.block, .ofBytes a.address, .ofBytes a.caller, .ofBytes input,
    .ofNat a.gas, a.readOnly⟩ : RandomCall).run a.callee a.world).1

def sequence (a : Consumer) (count : Nat) : Outcome CallResult :=
  a.ask (sequenceSelector ++ Bytes.numeral wordSize count)

def single (a : Consumer) : Outcome CallResult := a.ask singleSelector

/-- The seed of every call, if the entropy source is good for one. -/
def seed (a : Consumer) : Outcome Seed := do
  let extra ← a.entropy a.caller a.block
  deriveSeed (.ofBytes a.address) (.ofBytes a.caller) extra

/-- The configuration was accepted and has the typed layout, it comes with prices, and the world has
this ledger. -/
structure Ready (a : Consumer) (schedule : GasSchedule) (l : Ledger) : Prop where
  accepted : ∃ fields, Config.ofFields fields = .ok a.config
  typed : a.config.layout = .typed
  priced : GasSchedule.make a.config.baseGas a.config.gasPerWord = .ok schedule
  address : a.address.length = addressSize
  caller : a.caller.length = addressSize
  on : a.world.store.base = .ledger l true

/-- What a call for some values draws. -/
def draw (a : Consumer) (count : Nat) (ceiling : Datum) : Draw :=
  ⟨a.config.baseGas, a.config.gasPerWord, ceiling, a.entropy, a.block, a.address, a.caller, count,
    a.gas⟩

variable {a : Consumer} {schedule : GasSchedule} {txHash : Bytes} {history : List StateOp}

theorem Ready.config_eq {l : Ledger} (ready : a.Ready schedule l) :
    a.config = ⟨.typed, .state, a.config.address, a.config.baseGas, a.config.gasPerWord,
      a.config.maxCount⟩ := by
  obtain ⟨fields, made⟩ := ready.accepted
  have source := (Config.sound_of_ofFields made).paired ready.typed
  have layout := ready.typed
  revert source layout
  cases a.config with
  | mk layout source address baseGas gasPerWord maxCount =>
    rintro rfl rfl
    rfl

theorem Ready.posed (ready : a.Ready schedule ((Ledger.start txHash).after history)) {count : Nat}
    (word : count < Nat.pow 2 256) (ceiling : Datum) :
    (a.draw count ceiling).Posed ((Ledger.start txHash).after history)
      (((Ledger.start txHash).after history).nonceOf a.caller) :=
  have nonce := Ledger.nonceOf_eq txHash history a.caller
  ⟨ready.address, ready.caller, word, nonce.1, nonce.2⟩

/-- A call for a sequence, with enough gas, ends with what it draws. -/
theorem Ready.sequence_ends (ready : a.Ready schedule ((Ledger.start txHash).after history))
    (enough : schedule.required 36 ≤ a.gas) {count : Nat} (word : count < Nat.pow 2 256) :
    let l := (Ledger.start txHash).after history
    ∃ f, f.Stands (l.marked 1) ⟨a.gas, schedule.required 36⟩ ∧
      a.sequence count = (Contract.finish .base (.ofNat l.openSnapshots)
        (((a.draw count a.config.maxCount).values (l.nonceOf a.caller)).map fun vs =>
          .ofBytes (Layout.typed.response vs), f)).1 := by
  intro l
  let d := a.draw count a.config.maxCount
  obtain ⟨f, stands, ends⟩ := Draw.run_typed (ready.posed word a.config.maxCount) ready.priced
    ready.on a.config.address a.readOnly a.callee
  rw [d.paid_of_enough enough] at ends
  rw [d.paid_meter_of_enough enough] at stands
  refine ⟨f, stands, ?_⟩
  rw [sequence, ask, ready.config_eq]
  exact congrArg Prod.fst ends

theorem Ready.single_ends (ready : a.Ready schedule ((Ledger.start txHash).after history))
    (enough : schedule.required 4 ≤ a.gas) :
    let l := (Ledger.start txHash).after history
    ∃ f, f.Stands (l.marked 1) ⟨a.gas, schedule.required 4⟩ ∧
      a.single = (Contract.finish .base (.ofNat l.openSnapshots)
        (((a.draw 1 (.int 1)).values (l.nonceOf a.caller)).map fun vs =>
          .ofBytes (Bytes.numeral wordSize (vs.headD 0)), f)).1 := by
  intro l
  obtain ⟨f, stands, ends⟩ := Draw.run_single (ready.posed (by decide) (.int 1)) rfl rfl
    ready.priced ready.on enough a.config.maxCount a.config.address a.readOnly a.callee
  refine ⟨f, stands, ?_⟩
  rw [single, ask, ready.config_eq]
  exact congrArg Prod.fst ends

theorem seed_of_bytes? {given : Datum} {extra : Bytes}
    (entropy : a.entropy a.caller a.block = .ok given) (bytes : given.bytes? = some extra) :
    a.seed = .ok (.ofBytes a.address a.caller extra) :=
  Draw.seed_of_bytes? (d := a.draw 1 (.int 1)) entropy bytes

/-- Once its count was compared with the ceiling, it takes a seed. -/
theorem Ready.sequence_compared
    (ready : a.Ready schedule ((Ledger.start txHash).after history))
    (enough : schedule.required 36 ≤ a.gas) {count : Nat} (small : count < Nat.pow 2 64)
    {above : Bool} (compared : a.config.maxCount.isBelow count = .ok above) :
    let l := (Ledger.start txHash).after history
    ∃ f, f.Stands (l.marked 1) ⟨a.gas, schedule.required 36⟩ ∧
      a.sequence count = (Contract.finish .base (.ofNat l.openSnapshots)
        (if above then .error (.failure (.requestTooLarge (.ofNat count) a.config.maxCount))
          else a.seed.map fun seed =>
            .ofBytes (Layout.typed.response (seed.values (l.nonceOf a.caller) count)), f)).1 := by
  intro l
  have word : count < Nat.pow 2 256 := Nat.lt_trans small (by decide +kernel)
  obtain ⟨f, stands, ends⟩ := ready.sequence_ends enough word
  have same : (a.draw count a.config.maxCount).seed = a.seed := rfl
  have checked : checkCount (.ofNat (a.draw count a.config.maxCount).count)
      (a.draw count a.config.maxCount).ceiling = _ := checkCount_of_isBelow small compared
  rw [Draw.values_eq_seed _ (ready.posed word a.config.maxCount).fits, checked, same] at ends
  refine ⟨f, stands, ends.trans ?_⟩
  cases above with
  | true => rfl
  | false => cases a.seed <;> rfl

/-- The words of a sequence, at a price that can be counted. -/
theorem Ready.sequence_eq (ready : a.Ready schedule ((Ledger.start txHash).after history))
    (enough : schedule.required 36 ≤ a.gas) {count : Nat} (small : count < Nat.pow 2 64)
    (within : a.config.maxCount.isBelow count = .ok false) {seed : Seed}
    (derived : a.seed = .ok seed) :
    a.sequence count = (Datum.ofNat (schedule.required 36)).toDouble.map fun _ =>
      ⟨.ofBytes (Layout.typed.response
        (seed.values (((Ledger.start txHash).after history).nonceOf a.caller) count)),
        a.gas - schedule.required 36, none⟩ := by
  obtain ⟨f, stands, ends⟩ := ready.sequence_compared enough small within
  rw [derived] at ends
  exact ends.trans (Contract.finish_paid (refines_after txHash history) stands enough _)

/-- One word for a single value, at its own price. -/
theorem Ready.single_eq (ready : a.Ready schedule ((Ledger.start txHash).after history))
    (enough : schedule.required 4 ≤ a.gas) {seed : Seed} (derived : a.seed = .ok seed) :
    a.single = (Datum.ofNat (schedule.required 4)).toDouble.map fun _ =>
      ⟨.ofBytes (Bytes.numeral wordSize
        (seed.value (((Ledger.start txHash).after history).nonceOf a.caller) 0)),
        a.gas - schedule.required 4, none⟩ := by
  have one : 1 < Nat.pow 2 256 := by decide +kernel
  obtain ⟨f, stands, ends⟩ := ready.single_ends enough
  have same : (a.draw 1 (.int 1)).seed = .ok seed := derived
  have checked : checkCount (.ofNat (a.draw 1 (.int 1)).count) (a.draw 1 (.int 1)).ceiling =
      .ok (.ofNat 1) := rfl
  have drawn : ∀ k ≤ maxUint64, (a.draw 1 (.int 1)).values k = .ok [seed.value k 0] := by
    intro k fits
    rw [Draw.values_eq_seed _ fits, checked, same]
    rfl
  rw [drawn _ (ready.posed one (.int 1)).fits] at ends
  simp only [Except.map, List.headD_cons] at ends
  exact ends.trans (Contract.finish_paid (refines_after txHash history) stands enough _)

theorem Ready.sequence_above (ready : a.Ready schedule ((Ledger.start txHash).after history))
    (enough : schedule.required 36 ≤ a.gas) {count : Nat} (small : count < Nat.pow 2 64)
    (above : a.config.maxCount.isBelow count = .ok true) :
    a.sequence count = (Datum.ofNat (schedule.required 36)).toDouble.map fun _ =>
      ⟨.ofBytes [], a.gas - schedule.required 36,
        some (.requestTooLarge (.ofNat count) a.config.maxCount)⟩ := by
  obtain ⟨f, stands, ends⟩ := ready.sequence_compared enough small above
  have named : (Failure.requestTooLarge (.ofNat count) a.config.maxCount).code =
      .text "REQUEST_TOO_LARGE" := rfl
  exact ends.trans
    (Contract.finish_rejected (refines_after txHash history) stands enough named rfl)

/-- Without a seed there are no words. -/
theorem Ready.error_of_seedless (ready : a.Ready schedule ((Ledger.start txHash).after history))
    {fault : Fault} (seedless : a.seed = .error fault) {result : CallResult} :
    (schedule.required 36 ≤ a.gas → ∀ count < Nat.pow 2 256, a.sequence count = .ok result →
      result.error ≠ none) ∧
    (schedule.required 4 ≤ a.gas → a.single = .ok result → result.error ≠ none) := by
  have unseeded : ∀ count ceiling, (a.draw count ceiling).seed = .error fault :=
    fun _ _ => seedless
  have undrawn : ∀ count ceiling k vs, k ≤ maxUint64 →
      (a.draw count ceiling).values k ≠ .ok vs := by
    intro count ceiling k vs fits drawn
    rw [Draw.values_eq_seed _ fits, unseeded] at drawn
    obtain ⟨_, _, drawn⟩ := Outcome.bind_eq_ok.mp drawn
    cases drawn
  have failed : ∀ {count ceiling k} {g : List Nat → Datum} {f : Frame} {snapshot : Datum},
      k ≤ maxUint64 →
      (Contract.finish .base snapshot (((a.draw count ceiling).values k).map g, f)).1 =
        .ok result → result.error ≠ none := by
    intro count ceiling k g f snapshot fits answered
    rcases Contract.result_of_finish answered with ⟨output, ended, _⟩ | ⟨cause, _, rfl⟩
    · cases drawn : (a.draw count ceiling).values k with
      | ok vs => exact absurd drawn (undrawn count ceiling k vs fits)
      | error other =>
        rw [drawn] at ended
        cases ended
    · exact nofun
  constructor
  · intro enough count word answered
    obtain ⟨f, _, ends⟩ := ready.sequence_ends enough word
    exact failed (ready.posed word a.config.maxCount).fits (ends.symm.trans answered)
  · intro enough answered
    obtain ⟨f, _, ends⟩ := ready.single_ends enough
    have one : 1 < Nat.pow 2 256 := by decide +kernel
    exact failed (ready.posed one (.int 1)).fits (ends.symm.trans answered)

end Consumer

/-! ### Prefixes -/

/-- The price can be added to the gas that was charged so far. -/
def Countable (price : Nat) : Prop := ∃ x, (Datum.ofNat price).toDouble = .ok x

theorem countable_iff {price : Nat} : Countable price ↔ price < Binary64.overflowBound := by
  constructor
  · rintro ⟨x, double⟩
    refine Nat.lt_of_not_le fun large => ?_
    rw [Datum.toDouble_overflow large] at double
    cases double
  · intro small
    cases found : Binary64.ofInt? price with
    | none => exact absurd (Binary64.ofInt?_eq_none.mp found) (Nat.not_le.mpr small)
    | some x =>
      refine ⟨x, ?_⟩
      simp only [Datum.ofNat, Datum.toDouble, Datum.integer?, found]

theorem Countable.answer {price : Nat} (countable : Countable price) {call : Outcome CallResult}
    {result : CallResult} (ends : call = (Datum.ofNat price).toDouble.map fun _ => result) :
    call = .ok result := by
  obtain ⟨x, double⟩ := countable
  rw [ends, double]
  rfl

/-- A shorter draw is the beginning of a longer one. So are the words of a call, if it can pay a
price that can be counted and the ceiling admits the longer one; and the function for a single value
answers with the first of them, even if the ceiling admits none. If the entropy source is good for
no seed, there are no words. -/
theorem shorter_draws_are_prefixes {n m : Nat} (le : n ≤ m) (small : m < Nat.pow 2 64) :
    (∀ (server user nonce : Datum) (seed : Seed) (k : Nat), server.bytes? = some seed.server →
      user.bytes? = some seed.user → nonce.integer? = some (k : Int) → k ≤ maxUint64 →
      ∃ vs, generateValues server user nonce (.ofNat m) = .ok vs ∧
        generateValues server user nonce (.ofNat n) = .ok (vs.take n)) ∧
    ∀ (a : Consumer) (schedule : GasSchedule) (txHash : Bytes) (history : List StateOp),
      a.Ready schedule ((Ledger.start txHash).after history) →
      let k := ((Ledger.start txHash).after history).nonceOf a.caller
      (∀ seed, a.seed = .ok seed →
        (0 < m → (seed.values k m).head? = some (seed.value k 0)) ∧
        (schedule.required 36 ≤ a.gas → Countable (schedule.required 36) →
          (a.config.maxCount.isBelow m = .ok false →
            ∃ long short : Bytes,
              a.sequence m = .ok ⟨.ofBytes long, a.gas - schedule.required 36, none⟩ ∧
              a.sequence n = .ok ⟨.ofBytes short, a.gas - schedule.required 36, none⟩ ∧
              Layout.decodeResponse .typed long = .ok (seed.values k m) ∧
              Layout.decodeResponse .typed short = .ok ((seed.values k m).take n)) ∧
          (a.config.maxCount.isBelow 1 = .ok true →
            a.sequence 1 = .ok ⟨.ofBytes [], a.gas - schedule.required 36,
              some (.requestTooLarge (.ofNat 1) a.config.maxCount)⟩)) ∧
        (schedule.required 4 ≤ a.gas → Countable (schedule.required 4) →
          a.single = .ok ⟨.ofBytes (Bytes.numeral wordSize (seed.value k 0)),
            a.gas - schedule.required 4, none⟩)) ∧
      ∀ fault, a.seed = .error fault → ∀ result : CallResult,
        (schedule.required 36 ≤ a.gas → ∀ count < Nat.pow 2 256, a.sequence count = .ok result →
          result.error ≠ none) ∧
        (schedule.required 4 ≤ a.gas → a.single = .ok result → result.error ≠ none) := by
  constructor
  · intro server user nonce seed k serverBytes userBytes named fits
    have drawn := generateValues_of_bytes? serverBytes userBytes named fits
    refine ⟨seed.values k m, (drawn m).trans (seed.draw_of_lt k small), ?_⟩
    rw [seed.take_values k le]
    exact (drawn n).trans (seed.draw_of_lt k (Nat.lt_of_le_of_lt le small))
  · intro a schedule txHash history ready k
    refine ⟨fun seed derived => ⟨seed.head?_values k, fun enough countable => ⟨?_, ?_⟩, ?_⟩, ?_⟩
    · intro within
      have short := a.config.maxCount.isBelow_mono (Int.ofNat_le.mpr le) within
      have fit : ∀ count < Nat.pow 2 64, Words.Fit (seed.values k count) := by
        intro count fits
        exact ⟨(seed.length_values k count).symm ▸ Nat.lt_trans fits (by decide +kernel),
          seed.values_lt k count⟩
      refine ⟨_, _, countable.answer (ready.sequence_eq enough small within derived),
        countable.answer (ready.sequence_eq enough (Nat.lt_of_le_of_lt le small) short derived),
        ?_, ?_⟩
      · exact Layout.typed.decodeResponse_response (fit m small)
      · rw [seed.take_values k le]
        exact Layout.typed.decodeResponse_response (fit n (Nat.lt_of_le_of_lt le small))
    · intro above
      exact countable.answer (ready.sequence_above enough (by decide) above)
    · intro enough countable
      exact countable.answer (ready.single_eq enough derived)
    · exact fun fault seedless result => ready.error_of_seedless seedless

namespace Consumer

/-- One price for every call, and the nonce of the caller was set. -/
def priced (price ceiling gas : Nat) : Consumer :=
  ⟨⟨.typed, .state, Config.standard.address, .ofNat price, .int 0, .ofNat ceiling⟩, .none, none,
    Config.standard.address, Bytes.numeral addressSize 7, gas, .bool true, Leaking.alone,
    Asking.world⟩

theorem ready_priced (price ceiling gas : Nat) :
    (priced price ceiling gas).Ready ⟨price, 0⟩ ((Ledger.start zeroWord).after Asking.history) := by
  have amount : ∀ n : Nat, (Datum.ofNat n).isBelow 0 = .ok false := fun n => Uint.isBelow_ofNat n 0
  have sound : (priced price ceiling gas).config.Sound :=
    ⟨fun _ => rfl, rfl, amount price, amount 0, amount ceiling⟩
  exact ⟨⟨_, sound.ofFields_toFields⟩, rfl,
    GasSchedule.make_int (Int.natCast_nonneg price) (Int.le_refl 0), rfl, rfl, rfl⟩

end Consumer

open Consumer in
/-- One value and two values at a ceiling of two, and a single value where the ceiling is zero. -/
theorem shorter_draws_are_prefixes_two :
    let caller := Bytes.numeral addressSize 7
    let values := (Seed.ofBytes Config.standard.address caller []).values 5 2
    (∃ long short : Bytes,
      (priced 1024 2 1030).sequence 2 = .ok ⟨.ofBytes long, 6, none⟩ ∧
      (priced 1024 2 1030).sequence 1 = .ok ⟨.ofBytes short, 6, none⟩ ∧
      Layout.decodeResponse .typed long = .ok values ∧
      Layout.decodeResponse .typed short = .ok (values.take 1)) ∧
    ∃ value, values.head? = some value ∧
      (priced 1024 0 1030).single = .ok ⟨.ofBytes (Bytes.numeral wordSize value), 6, none⟩ ∧
      (priced 1024 0 1030).sequence 1 =
        .ok ⟨.ofBytes [], 6, some (.requestTooLarge (.int 1) (.int 0))⟩ := by
  intro caller values
  obtain ⟨_, calls⟩ := shorter_draws_are_prefixes (n := 1) (m := 2) (by decide) (by decide)
  have nonce : ∀ ceiling, ((Ledger.start zeroWord).after Asking.history).nonceOf
      (priced 1024 ceiling 1030).caller = 5 := by
    intro ceiling
    show ((Ledger.start zeroWord).after Asking.history).nonceOf (Bytes.numeral addressSize 7) = 5
    decide +kernel
  have countable : Countable 1024 := countable_iff.mpr (by decide +kernel)
  have derived : ∀ ceiling, (priced 1024 ceiling 1030).seed =
      .ok (.ofBytes Config.standard.address caller []) := fun _ => seed_of_bytes? rfl rfl
  obtain ⟨first, many, _⟩ := (calls (priced 1024 2 1030) ⟨1024, 0⟩ zeroWord Asking.history
    (ready_priced 1024 2 1030)).1 _ (derived 2)
  obtain ⟨_, none, one⟩ := (calls (priced 1024 0 1030) ⟨1024, 0⟩ zeroWord Asking.history
    (ready_priced 1024 0 1030)).1 _ (derived 0)
  rw [nonce] at first many one
  exact ⟨(many (by decide) countable).1 rfl, _, first (by decide), one (by decide) countable,
    (none (by decide) countable).2 rfl⟩

namespace Consumer

/-- The whole gas for every call. -/
def spending (price : Nat) : Consumer := priced price 1 price

/-- Everything is in order with the calls, but they raise if their price cannot be counted. -/
theorem spending_raises {price : Nat} {fault : Fault}
    (double : (Datum.ofNat price).toDouble = .error fault) :
    (∃ schedule,
      (spending price).Ready schedule ((Ledger.start zeroWord).after Asking.history) ∧
      schedule.required 36 ≤ (spending price).gas ∧ schedule.required 4 ≤ (spending price).gas) ∧
    (spending price).config.maxCount.isBelow (1 : Nat) = .ok false ∧
    (∃ seed, (spending price).seed = .ok seed) ∧
    (spending price).sequence 1 = .error fault ∧ (spending price).single = .error fault := by
  have ready := ready_priced price 1 price
  have cost : ∀ size, (⟨price, 0⟩ : GasSchedule).required size = price := by
    intro size
    rw [GasSchedule.required, Nat.zero_mul, Nat.add_zero]
  have enough : ∀ size, (⟨price, 0⟩ : GasSchedule).required size ≤ price := fun size =>
    Nat.le_of_eq (cost size)
  have derived : (spending price).seed = .ok _ := seed_of_bytes? rfl rfl
  have within : (spending price).config.maxCount.isBelow (1 : Nat) = .ok false :=
    Uint.isBelow_ofNat 1 1
  refine ⟨⟨_, ready, enough 36, enough 4⟩, within, ⟨_, derived⟩, ?_, ?_⟩
  · rw [spending, ready.sequence_eq (enough 36) (by decide) within derived, cost, double]
    rfl
  · rw [spending, ready.single_eq (enough 4) derived, cost, double]
    rfl

end Consumer

open Consumer in
/-- Two to the power of 1024 is a price beyond the doubles. -/
theorem spending_raises_overflow :
    let a := spending (Nat.pow 2 1024)
    (∃ schedule, a.Ready schedule ((Ledger.start zeroWord).after Asking.history) ∧
      schedule.required 36 ≤ a.gas ∧ schedule.required 4 ≤ a.gas) ∧
    a.config.maxCount.isBelow (1 : Nat) = .ok false ∧ (∃ seed, a.seed = .ok seed) ∧
    a.sequence 1 = .error (.bare .overflow) ∧ a.single = .error (.bare .overflow) :=
  spending_raises (Datum.toDouble_overflow (by decide +kernel))

end SeededDraws
