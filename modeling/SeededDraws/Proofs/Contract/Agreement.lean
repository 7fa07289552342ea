import SeededDraws.Proofs.Abi.Request
import SeededDraws.Proofs.Contract.Counting
/-!
# One draw in two layouts

A draw may be asked for under the typed layout, by the caller itself and with the nonce of its
account, or under the raw layout, by anyone who writes that caller and that nonce down. Both bodies
charge the same price, check the same count and work out the same values, so the calls end in the
same way and their answers differ by one word in front.
-/

namespace SeededDraws

/-- What a draw depends on in either layout, except for the nonce. -/
structure Draw where
  base : Datum
  perWord : Datum
  ceiling : Datum
  entropy : Entropy
  block : Option BlockEnv
  address : Bytes
  caller : Bytes
  count : Nat
  gas : Nat

namespace Draw

def config (d : Draw) (layout : Layout) (source : NonceSource) (reserved : Bytes) : Config :=
  ⟨layout, source, reserved, d.base, d.perWord, d.ceiling⟩

def call (d : Draw) (config : Config) (sender input : Bytes) (readOnly : Datum) : RandomCall :=
  ⟨config, d.entropy, d.block, .ofBytes d.address, .ofBytes sender, .ofBytes input, .ofNat d.gas,
    readOnly⟩

/-- The seed, whatever is asked of it. -/
def seed (d : Draw) : Outcome Seed := do
  let extra ← d.entropy d.caller d.block
  deriveSeed (.ofBytes d.address) (.ofBytes d.caller) extra

/-- The values under a nonce. -/
def values (d : Draw) (nonce : Nat) : Outcome (List Nat) := do
  let count ← checkCount (.ofNat d.count) d.ceiling
  let extra ← d.entropy d.caller d.block
  let seed ← deriveSeed (.ofBytes d.address) (.ofBytes d.caller) extra
  generateValues (.ofBytes seed.server) (.ofBytes seed.user) (.ofNat nonce) count

/-- The values that are paid for, and the meter behind the charge. A raw request is longer than a
typed one, but both have one whole word to pay for. -/
def paid (d : Draw) (schedule : GasSchedule) (nonce : Nat) : Outcome (List Nat) × GasMeter :=
  let charge := (GasMeter.start d.gas).consume (.ofNat (schedule.required 36))
  (charge.1.bind fun _ => d.values nonce, charge.2)

variable {d : Draw} {k : Nat}

theorem fit_of_values {vs : List Nat} (drawn : d.values k = .ok vs) :
    Words.Fit vs ∧ vs.length < Nat.pow 2 64 := by
  obtain ⟨count, checked, drawn⟩ := Outcome.bind_eq_ok.mp drawn
  obtain ⟨rfl, small⟩ := checkCount_eq_ok checked
  obtain ⟨extra, _, drawn⟩ := Outcome.bind_eq_ok.mp drawn
  obtain ⟨seed, _, drawn⟩ := Outcome.bind_eq_ok.mp drawn
  obtain ⟨length, words⟩ := fit_of_generateValues drawn
  have few : vs.length < Nat.pow 2 64 := length ▸ small
  exact ⟨⟨lt_pow_of_le few (by decide), words⟩, few⟩

end Draw

/-! ### The body -/

section
variable {d : Draw} {r : RandomContract} {call : Invocation} {request : Request} {k : Nat}
  {l : Ledger} {meter : GasMeter} {f : Frame}

/-- The request stands for the draw in this contract, and `k` is the nonce that it gets. -/
structure Draw.Asked (d : Draw) (r : RandomContract) (call : Invocation) (request : Request)
    (l : Ledger) (k : Nat) : Prop where
  ceiling : r.config.maxCount = d.ceiling
  entropy : r.entropy = d.entropy
  block : call.block = d.block
  address : call.context.address = d.address
  count : request.count = d.count
  caller : request.caller.getD call.context.caller = d.caller
  sized : d.caller.length = addressSize
  held : (l.contents.account d.caller).nonce.integer? = some (k : Int)
  carried : r.config.nonceSource = .payload → request.nonce = some k

namespace Draw.Asked

theorem findNonce (asked : d.Asked r call request l k) (stands : f.Stands l meter)
    (callee : Callee) (context : CallContext) :
    ∃ found f', found.integer? = some (k : Int) ∧ f'.Stands l meter ∧
      ∀ next, (r.findNonce request d.caller next).run callee .base context f =
        (next (.ok found)).run callee .base context f' := by
  simp only [RandomContract.findNonce]
  cases source : r.config.nonceSource with
  | state =>
    have viewed := stands.reach .base context.readOnly .observing
    refine ⟨_, _, asked.held, viewed, ?_⟩
    intro next
    rw [Body.run_state]
    simp only [viewed.step (StateOp.isRead_getNonce _), l.step_getNonce asked.sized]
  | payload =>
    refine ⟨.ofNat k, f, rfl, stands, ?_⟩
    intro next
    rw [asked.carried source]
    rfl

/-- A nonce counts as a number, be it read from an account or from the request. -/
theorem valuesFor (asked : d.Asked r call request l k) {found : Datum}
    (named : found.integer? = some (k : Int)) {count : Datum}
    (checked : checkCount (.ofNat d.count) d.ceiling = .ok count) :
    r.valuesFor call d.caller found count = d.values k := by
  have read : readUint64 "nonce" found = readUint64 "nonce" (.ofNat k) := by
    rw [readUint64, readUint64, Datum.natural_of_integer? named,
      Datum.natural_of_integer? (d := .ofNat k) rfl]
  simp only [RandomContract.valuesFor, Draw.values, generateValues, asked.entropy, asked.block,
    asked.address, checked, read, bind, Except.bind]

theorem draw (asked : d.Asked r call request l k) (stands : f.Stands l meter) (callee : Callee)
    (context : CallContext) :
    ∃ f', f'.Stands l meter ∧
      ∀ next, (r.draw call request r.config.maxCount next).run callee .base context f =
        (Body.orFail (d.values k) next).run callee .base context f' := by
  simp only [RandomContract.draw, asked.count, asked.ceiling, asked.caller]
  cases checked : checkCount (.ofNat d.count) d.ceiling with
  | error fault =>
    have refused : d.values k = .error fault := by
      rw [Draw.values, checked]
      rfl
    refine ⟨f, stands, ?_⟩
    intro next
    rw [refused]
    rfl
  | ok count =>
    obtain ⟨found, f', named, stands', same⟩ := asked.findNonce stands callee context
    refine ⟨f', stands', ?_⟩
    intro next
    rw [← asked.valuesFor named checked]
    exact same _

end Draw.Asked

/-- Values that fit are counted and encoded without fail. -/
theorem respond_stands (layout : Layout) {vs : List Nat} (fit : Words.Fit vs)
    (few : vs.length < Nat.pow 2 64) (stands : f.Stands l meter) (callee : Callee)
    (context : CallContext) :
    ∃ f', f'.Stands l meter ∧
      (Body.observe vs.length (.orFail (layout.encodeResponse (.list (vs.map .ofNat))) fun output =>
        .done (.ofBytes output))).run callee .base context f =
          (.ok (.ofBytes (layout.response vs)), f') := by
  obtain ⟨x, double⟩ := Datum.toDouble_ofNat few (by decide)
  have after := stands.observe vs.length
  have answer := f.observe_answer vs.length
  rw [double] at answer
  refine ⟨(f.observe vs.length).2, after, ?_⟩
  rw [layout.encodeResponse_ofNat fit.1 fit.2, Body.run]
  cases seen : f.observe vs.length with
  | mk first g =>
    rw [seen] at answer
    cases answer
    rfl

theorem Draw.Asked.sequence (asked : d.Asked r call request l k)
    (decoded : r.config.layout.decodeArgs call.args = .ok request)
    (price : r.requiredGas call.context.input = r.schedule.required 36)
    (stands : f.Stands l (.start d.gas)) (callee : Callee) (context : CallContext) :
    ∃ f', f'.Stands l (d.paid r.schedule k).2 ∧
      (r.sequence call).run callee .base context f =
        ((d.paid r.schedule k).1.map fun vs => .ofBytes (r.config.layout.response vs), f') := by
  rw [RandomContract.sequence, RandomContract.metered, Body.run_charge, price, stands.meter, paid]
  generalize (GasMeter.start d.gas).consume (.ofNat (r.schedule.required 36)) = charge
  obtain ⟨left, behind⟩ := charge
  have charged : ({ f with meter := behind } : Frame).Stands l behind := ⟨stands.base, rfl⟩
  cases left with
  | error fault => exact ⟨_, charged, rfl⟩
  | ok rest =>
    obtain ⟨f', stands', same⟩ := asked.draw charged callee context
    simp only [Body.orFail, decoded, same]
    cases drawn : d.values k with
    | error fault => exact ⟨f', stands', rfl⟩
    | ok vs =>
      obtain ⟨fit, few⟩ := Draw.fit_of_values drawn
      exact respond_stands r.config.layout fit few stands' callee context

end

/-! ### The call -/

section
variable {d : Draw} {k : Nat} {l : Ledger} {schedule : GasSchedule} {layout : Layout}
  {source : NonceSource} {reserved sender input : Bytes} {readOnly : Datum} {w : World}

/-- The draw can be written down, and `k` is the nonce of its account. -/
structure Draw.Posed (d : Draw) (l : Ledger) (k : Nat) : Prop where
  address : d.address.length = addressSize
  caller : d.caller.length = addressSize
  word : d.count < Nat.pow 2 256
  held : (l.contents.account d.caller).nonce.integer? = some (k : Int)
  fits : k ≤ maxUint64

theorem Draw.Posed.small (posed : d.Posed l k) : k < Nat.pow 2 64 :=
  Nat.lt_of_not_le fun large => Nat.not_lt.mpr posed.fits (maxUint64_lt.mpr large)

/-- The contract that a call for the draw goes to. -/
def Draw.deployed (d : Draw) (schedule : GasSchedule) (layout : Layout) (source : NonceSource)
    (reserved : Bytes) : RandomContract :=
  ⟨d.config layout source reserved, schedule, d.entropy⟩

theorem Draw.randomContract_deployed
    (priced : GasSchedule.make d.base d.perWord = .ok schedule) :
    randomContract (d.config layout source reserved) d.entropy =
      (d.deployed schedule layout source reserved).contract := by
  rw [randomContract, RandomContract.make]
  simp only [config, priced, bind, Except.bind, pure, Except.pure]
  rfl

/-- Without prices there is no contract. -/
theorem Draw.run_unpriced {fault : Fault}
    (unpriced : GasSchedule.make d.base d.perWord = .error fault) (callee : Callee) :
    (d.call (d.config layout source reserved) sender input readOnly).run callee w =
      (.error fault, w) := by
  have built : randomContract (d.config layout source reserved) d.entropy = .error fault := by
    rw [randomContract, RandomContract.make]
    simp only [config, unpriced, bind, Except.bind]
  rw [RandomCall.run]
  simp only [call, built]

/-- A call that reaches the sequence function ends with the values that are paid for. -/
theorem Draw.run_routed (posed : d.Posed l k)
    (priced : GasSchedule.make d.base d.perWord = .ok schedule)
    (senderSized : sender.length = addressSize) (on : w.store.base = .ledger l true)
    (callee : Callee) {c : Contract} {args : Bytes} {request : Request} :
    let r := d.deployed schedule layout source reserved
    r.contract = .ok c → c.route input = .ok (r.sequence, args) →
    layout.decodeArgs args = .ok request → r.requiredGas input = schedule.required 36 →
    request.count = d.count → request.caller.getD sender = d.caller →
    (source = .payload → request.nonce = some k) →
    ∃ f, f.Stands (l.marked 1) (d.paid schedule k).2 ∧
      (d.call (d.config layout source reserved) sender input readOnly).run callee w =
        Contract.finish .base (.ofNat l.openSnapshots)
          ((d.paid schedule k).1.map fun vs => .ofBytes (layout.response vs), f) := by
  intro r contract routed decoded price count caller carried
  let context : CallContext := ⟨sender, d.address, input, d.gas, readOnly.truthy⟩
  have asked : d.Asked r ⟨context, args, d.block⟩ request (l.marked 1) k :=
    { ceiling := rfl
      entropy := rfl
      block := rfl
      address := rfl
      count := count
      caller := caller
      sized := posed.caller
      held := posed.held
      carried := carried }
  have built := (randomContract_deployed priced).trans contract
  have made := CallContext.make_ofBytes input d.gas readOnly senderSized posed.address
  obtain ⟨taken, begins⟩ := Contract.entry_stands on d.block context
  obtain ⟨f, stands, ends⟩ := asked.sequence decoded price begins callee context
  refine ⟨f, stands, ?_⟩
  have called := c.run_eq callee ⟨.base, d.block⟩ w made taken
  rw [Contract.execute, routed] at called
  rw [RandomCall.run]
  simp only [call, built]
  exact called.trans (congrArg _ ends)

/-- What the caller sends under the typed layout. -/
def Draw.typedInput (d : Draw) : Bytes := sequenceSelector ++ Bytes.numeral wordSize d.count

theorem Draw.length_typedInput (d : Draw) : d.typedInput.length = 36 := by
  rw [typedInput, List.length_append, Bytes.length_numeral]
  rfl

/-- What anyone sends under the raw layout. -/
def Draw.rawInput (d : Draw) (nonce : Nat) : Bytes :=
  d.caller ++ Bytes.numeral wordSize d.count ++ Bytes.numeral nonceSize nonce

theorem Draw.run_typed (posed : d.Posed l k)
    (priced : GasSchedule.make d.base d.perWord = .ok schedule)
    (on : w.store.base = .ledger l true) (reserved : Bytes) (readOnly : Datum) (callee : Callee) :
    ∃ f, f.Stands (l.marked 1) (d.paid schedule k).2 ∧
      (d.call (d.config .typed .state reserved) d.caller d.typedInput readOnly).run callee w =
        Contract.finish .base (.ofNat l.openSnapshots)
          ((d.paid schedule k).1.map fun vs => .ofBytes (Layout.typed.response vs), f) := by
  have size := d.length_typedInput
  have routed : (d.deployed schedule .typed .state reserved).typedContract.route d.typedInput =
      .ok ((d.deployed schedule .typed .state reserved).sequence,
        Bytes.numeral wordSize d.count) := by
    have head : d.typedInput.take 4 = sequenceSelector := List.take_left' rfl
    have rest : d.typedInput.drop 4 = Bytes.numeral wordSize d.count := List.drop_left' rfl
    rw [RandomContract.route_typed, if_neg (by omega), if_pos head, rest]
  have decoded : Layout.typed.decodeArgs (Bytes.numeral wordSize d.count) =
      .ok ⟨d.count, none, none⟩ := by
    rw [Layout.decodeArgs_typed, if_pos (Bytes.length_numeral ..),
      Bytes.value_numeral_word posed.word]
  have price : (d.deployed schedule .typed .state reserved).requiredGas d.typedInput =
      schedule.required 36 := by
    rw [RandomContract.requiredGas, size]
    rfl
  apply run_routed posed priced posed.caller on callee (RandomContract.contract_typed rfl) routed
    decoded price rfl rfl
  rintro ⟨⟩

theorem Draw.run_raw (posed : d.Posed l k)
    (priced : GasSchedule.make d.base d.perWord = .ok schedule)
    (senderSized : sender.length = addressSize)
    (on : w.store.base = .ledger l true) (reserved : Bytes) (readOnly : Datum) (callee : Callee) :
    ∃ f, f.Stands (l.marked 1) (d.paid schedule k).2 ∧
      (d.call (d.config .raw .payload reserved) sender (d.rawInput k) readOnly).run callee w =
        Contract.finish .base (.ofNat l.openSnapshots)
          ((d.paid schedule k).1.map fun vs => .ofBytes (Layout.raw.response vs), f) := by
  have size : (d.rawInput k).length = 60 := by
    rw [rawInput, List.length_append, List.length_append, posed.caller,
      Bytes.length_numeral, Bytes.length_numeral]
    rfl
  have price : (d.deployed schedule .raw .payload reserved).requiredGas (d.rawInput k) =
      schedule.required 36 := by
    rw [RandomContract.requiredGas, size]
    rfl
  apply run_routed posed priced senderSized on callee (RandomContract.contract_raw rfl) rfl
    (Layout.raw_decode_encode posed.caller posed.word posed.small) price rfl rfl
  intro _
  rfl

end

/-! ### The answers -/

/-- Both results carry the same failure, or the same values in either layout. -/
structure Matched (typed raw : CallResult) : Prop where
  error : typed.error = raw.error
  gas : typed.remainingGas = raw.remainingGas
  output : typed.error = none → ∃ (output : Bytes) (values : List Nat),
    raw.output = .ofBytes output ∧
      typed.output = .ofBytes (Bytes.numeral wordSize 32 ++ output) ∧
      Layout.decodeResponse .typed ↑(Bytes.numeral wordSize 32 ++ output) = .ok values ∧
      Layout.decodeResponse .raw output = .ok values

section
variable {l : Ledger} {s : CopyStore} {meter : GasMeter} {f f' : Frame}

theorem Contract.finish_output (h : Refines l s) (stands : f.Stands (l.marked 1) meter)
    (within : meter.used ≤ meter.limit) (countable : meter.limit < Nat.pow 2 1023)
    (output : Bytes) :
    (finish .base (.ofNat l.openSnapshots) (.ok (.ofBytes output), f)).1 =
      .ok ⟨.ofBytes output, meter.remaining, none⟩ := by
  obtain ⟨base, rfl⟩ := stands
  rw [show l.openSnapshots = s.copies.length from h.size]
  exact finish_ended h countable (Nat.le_refl _) (.good output f base rfl within)

theorem Contract.finish_failure (h : Refines l s) (stands : f.Stands (l.marked 1) meter)
    (countable : meter.limit < Nat.pow 2 1023) {cause : Failure} {code : Text}
    (named : cause.code = .text code) :
    (finish .base (.ofNat l.openSnapshots) (.error (.failure cause), f)).1 =
      .ok ⟨.ofBytes [], gasAfter cause meter, some cause⟩ := by
  obtain ⟨base, rfl⟩ := stands
  rw [show l.openSnapshots = s.copies.length from h.size]
  exact finish_ended h countable (Nat.le_refl _) (.failed cause code f named base rfl)

/-- Calls whose bodies ended with the same values or the same fault match. -/
theorem Contract.finish_matched (h : Refines l s) (stands : f.Stands (l.marked 1) meter)
    (stands' : f'.Stands (l.marked 1) meter) (within : meter.used ≤ meter.limit)
    (countable : meter.limit < Nat.pow 2 1023) {ended : Outcome (List Nat)}
    (fit : ∀ vs, ended = .ok vs → Words.Fit vs) :
    let answer := fun (layout : Layout) f => (finish .base (.ofNat l.openSnapshots)
      (ended.map fun vs => .ofBytes (layout.response vs), f)).1
    (∃ fault, answer .typed f = .error fault ∧ answer .raw f' = .error fault) ∨
      ∃ x y, answer .typed f = .ok x ∧ answer .raw f' = .ok y ∧ Matched x y := by
  intro answer
  cases ended with
  | ok vs =>
    refine .inr ⟨_, _, finish_output h stands within countable _,
      finish_output h stands' within countable _, rfl, rfl, fun _ => ?_⟩
    have read := fun layout : Layout => layout.decodeResponse_response (fit vs rfl)
    exact ⟨Layout.raw.response vs, vs, rfl, rfl, read .typed, read .raw⟩
  | error fault =>
    obtain ⟨common, same⟩ := finish_stands h.idle (.error fault) meter
    have typed : answer .typed f = common := (same f stands).1
    have raw : answer .raw f' = common := (same f' stands').1
    cases common with
    | error later => exact .inl ⟨later, typed, raw⟩
    | ok x =>
      refine .inr ⟨x, x, typed, raw, rfl, rfl, ?_⟩
      intro good
      rcases result_of_finish typed with ⟨_, ended, _⟩ | ⟨cause, _, rfl⟩
      · cases ended
      · cases good

/-- A call whose body ended with values or with a failure returns what the body ended with. -/
theorem Contract.finish_settled (h : Refines l s) (stands : f.Stands (l.marked 1) meter)
    (within : meter.used ≤ meter.limit) (countable : meter.limit < Nat.pow 2 1023)
    (layout : Layout) {ended : Outcome (List Nat)}
    (named : ∀ fault, ended = .error fault →
      ∃ cause code, fault = .failure cause ∧ cause.code = .text code) :
    ∃ x, (finish .base (.ofNat l.openSnapshots)
        (ended.map fun vs => .ofBytes (layout.response vs), f)).1 = .ok x ∧
      (x.error = none → ∃ vs, ended = .ok vs ∧ x.output = .ofBytes (layout.response vs)) ∧
      ∀ cause, x.error = some cause → ended = .error (.failure cause) := by
  cases ended with
  | ok vs =>
    refine ⟨_, finish_output h stands within countable _, fun _ => ⟨vs, rfl, rfl⟩, ?_⟩
    rintro cause ⟨⟩
  | error fault =>
    obtain ⟨cause, code, rfl, text⟩ := named fault rfl
    refine ⟨_, finish_failure h stands countable text, ?_, ?_⟩
    · rintro ⟨⟩
    · rintro _ ⟨⟩
      rfl

end

/-! ### Without a chain -/

/-- Numbers and bytes where they are wanted: integers that are not negative as prices, a ceiling
that a configuration accepts, and `extra` from the entropy source. -/
structure Draw.Proper (d : Draw) (schedule : GasSchedule) (extra : Bytes) : Prop where
  prices : GasSchedule.make d.base d.perWord = .ok schedule
  ceiling : d.ceiling.isBelow 0 = .ok false
  entropy : ∃ given, d.entropy d.caller d.block = .ok given ∧ given.bytes? = some extra

theorem deriveSeed_of_bytes? (contract caller : Bytes) {given : Datum} {extra : Bytes}
    (bytes : given.bytes? = some extra) :
    deriveSeed (.ofBytes contract) (.ofBytes caller) given =
      .ok (.ofBytes contract caller extra) := by
  rw [← deriveSeed_ofBytes]
  have read : ∀ name, Hash.input name given = Hash.input name (.ofBytes extra) := by
    intro name
    rw [Hash.input, Hash.input, Datum.bytesOr, Datum.bytesOr, bytes]
    rfl
  simp only [deriveSeed, Hash.keccak256Joined, Hash.joined, Hash.joined.go, read]

/-- A count is refused by a failure of its own wherever the ceiling is a number. -/
theorem checkCount_refused {n : Nat} {ceiling : Datum} {below : Bool}
    (number : ceiling.isBelow 0 = .ok below) {fault : Fault}
    (refused : checkCount (.ofNat n) ceiling = .error fault) :
    ∃ cause code, fault = .failure cause ∧ cause.code = .text code := by
  have comparable : ∃ more, ceiling.isBelow n = .ok more := by
    rw [Datum.isBelow] at number ⊢
    cases ceiling <;> first | exact ⟨_, rfl⟩ | cases number
  obtain ⟨more, compared⟩ := comparable
  have read : (Datum.ofNat n).natural "n" = .ok n := Datum.natural_of_integer? rfl
  simp only [checkCount, read, compared, bind, Except.bind] at refused
  split at refused
  · cases refused
    exact ⟨_, _, rfl, rfl⟩
  · split at refused
    · cases refused
      exact ⟨_, _, rfl, rfl⟩
    · split at refused
      · cases refused
        exact ⟨_, _, rfl, rfl⟩
      · cases refused

namespace Draw

variable {d : Draw} {k : Nat} {schedule : GasSchedule} {extra : Bytes}

/-- Behind the check of the count only the seed can go wrong. -/
theorem values_eq_seed (d : Draw) (fits : k ≤ maxUint64) :
    d.values k = (checkCount (.ofNat d.count) d.ceiling).bind fun _ =>
      d.seed.map fun s => s.values k d.count := by
  rw [values, seed]
  cases checked : checkCount (.ofNat d.count) d.ceiling with
  | error fault => rfl
  | ok count =>
    obtain ⟨rfl, small⟩ := checkCount_eq_ok checked
    cases d.entropy d.caller d.block with
    | error fault => rfl
    | ok extra =>
      simp only [bind, Except.bind]
      cases deriveSeed (.ofBytes d.address) (.ofBytes d.caller) extra with
      | error fault => rfl
      | ok seed =>
        have named : (Datum.ofNat k).integer? = some (k : Int) := rfl
        exact (generateValues_ofBytes seed d.count named fits).trans (seed.draw_of_lt k small)

theorem seed_of_bytes? {given : Datum} (entropy : d.entropy d.caller d.block = .ok given)
    (bytes : given.bytes? = some extra) :
    d.seed = .ok (.ofBytes d.address d.caller extra) := by
  rw [seed, entropy]
  exact deriveSeed_of_bytes? _ _ bytes

/-- Behind the check of the count nothing goes wrong. -/
theorem values_eq {given : Datum} (entropy : d.entropy d.caller d.block = .ok given)
    (bytes : given.bytes? = some extra) (fits : k ≤ maxUint64) :
    d.values k = (checkCount (.ofNat d.count) d.ceiling).map fun _ =>
      (Seed.ofBytes d.address d.caller extra).values k d.count := by
  rw [d.values_eq_seed fits, seed_of_bytes? entropy bytes]
  rfl

/-- The one-shot function draws what a call without entropy draws. -/
theorem generate_eq (d : Draw) (fits : k ≤ maxUint64) :
    generate (.ofBytes d.address) (.ofBytes d.caller) (.ofNat k) (.ofNat d.count) d.ceiling =
      (checkCount (.ofNat d.count) d.ceiling).map fun _ =>
        (Seed.ofBytes d.address d.caller []).values k d.count :=
  values_eq (d := { d with entropy := .none }) rfl rfl fits

theorem paid_meter (d : Draw) (schedule : GasSchedule) (k : Nat) :
    (d.paid schedule k).2.limit = d.gas ∧ (d.paid schedule k).2.used ≤ d.gas := by
  rw [paid, GasMeter.consume_start]
  split
  · exact ⟨rfl, Nat.zero_le _⟩
  · exact ⟨rfl, Nat.le_of_not_lt ‹_›⟩

theorem fit_of_paid {vs : List Nat} (drawn : (d.paid schedule k).1 = .ok vs) : Words.Fit vs := by
  obtain ⟨_, _, drawn⟩ := Outcome.bind_eq_ok.mp drawn
  exact (fit_of_values drawn).1

theorem paid_of_enough (enough : schedule.required 36 ≤ d.gas) :
    (d.paid schedule k).1 = d.values k := by
  rw [paid, GasMeter.consume_start, if_neg (Nat.not_lt.mpr enough)]
  rfl

theorem Proper.paid_refused (proper : d.Proper schedule extra) {fault : Fault}
    (refused : (d.paid schedule k).1 = .error fault) (fits : k ≤ maxUint64) :
    ∃ cause code, fault = .failure cause ∧ cause.code = .text code := by
  rw [paid, GasMeter.consume_start] at refused
  split at refused
  · cases refused
    exact ⟨_, _, rfl, rfl⟩
  · obtain ⟨given, entropy, bytes⟩ := proper.entropy
    have ended : d.values k = .error fault := refused
    rw [values_eq entropy bytes fits] at ended
    exact checkCount_refused proper.ceiling (Outcome.map_eq_error.mp ended)

theorem Proper.generate_of_paid (proper : d.Proper schedule []) (fits : k ≤ maxUint64)
    {vs : List Nat} (drawn : (d.paid schedule k).1 = .ok vs) :
    generate (.ofBytes d.address) (.ofBytes d.caller) (.ofNat k) (.ofNat d.count) d.ceiling =
      .ok vs := by
  obtain ⟨given, entropy, bytes⟩ := proper.entropy
  obtain ⟨_, _, drawn⟩ := Outcome.bind_eq_ok.mp drawn
  rw [values_eq entropy bytes fits] at drawn
  exact (d.generate_eq fits).trans drawn

/-- Whatever the entropy is, it is not looked at before the count is refused. -/
theorem Proper.generate_of_refused (proper : d.Proper schedule extra) (fits : k ≤ maxUint64)
    (enough : schedule.required 36 ≤ d.gas) {fault : Fault}
    (refused : (d.paid schedule k).1 = .error fault) :
    generate (.ofBytes d.address) (.ofBytes d.caller) (.ofNat k) (.ofNat d.count) d.ceiling =
      .error fault := by
  obtain ⟨given, entropy, bytes⟩ := proper.entropy
  rw [paid_of_enough enough, values_eq entropy bytes fits] at refused
  rw [d.generate_eq fits, Outcome.map_eq_error.mp refused]
  rfl

end Draw

/-- Once there are prices the two calls match, and the typed one ends with the values that are paid
for. -/
theorem Draw.calls_end {d : Draw} {k : Nat} {l : Ledger} {s : CopyStore} {schedule : GasSchedule}
    {sender : Bytes} {w w' : World} (h : Refines l s) (posed : d.Posed l k)
    (priced : GasSchedule.make d.base d.perWord = .ok schedule)
    (senderSized : sender.length = addressSize) (countable : d.gas < Nat.pow 2 1023)
    (on : w.store.base = .ledger l true) (on' : w'.store.base = .ledger l true)
    (reserved reserved' : Bytes) (readOnly readOnly' : Datum) (callee callee' : Callee) :
    let typed := ((d.call (d.config .typed .state reserved) d.caller d.typedInput
      readOnly).run callee w).1
    let raw := ((d.call (d.config .raw .payload reserved') sender (d.rawInput k)
      readOnly').run callee' w').1
    ((∃ fault, typed = .error fault ∧ raw = .error fault) ∨
      ∃ x y, typed = .ok x ∧ raw = .ok y ∧ Matched x y) ∧
    ∃ f, f.Stands (l.marked 1) (d.paid schedule k).2 ∧
      typed = (Contract.finish .base (.ofNat l.openSnapshots)
        ((d.paid schedule k).1.map fun vs => .ofBytes (Layout.typed.response vs), f)).1 := by
  intro typed raw
  obtain ⟨f, stands, first⟩ := run_typed posed priced on reserved readOnly callee
  obtain ⟨f', stands', second⟩ :=
    run_raw posed priced senderSized on' reserved' readOnly' callee'
  obtain ⟨limit, within⟩ := d.paid_meter schedule k
  have typedEnds : typed = _ := congrArg Prod.fst first
  have rawEnds : raw = _ := congrArg Prod.fst second
  refine ⟨?_, f, stands, typedEnds⟩
  rw [typedEnds, rawEnds]
  exact Contract.finish_matched h stands stands' (limit ▸ within) (limit ▸ countable)
    fun _ drawn => fit_of_paid drawn

/-- A draw comes to the same under both layouts: the same fault, or results that match. With proper
numbers and bytes there are results. Without entropy their values are those of the one-shot
function, and a call that can pay is refused as that function is. -/
theorem layouts_agree (d : Draw) (addressSized : d.address.length = addressSize)
    (callerSized : d.caller.length = addressSize) (word : d.count < Nat.pow 2 256)
    (countable : d.gas < Nat.pow 2 1023) (txHash : Bytes) (history : List StateOp)
    (callee callee' : Callee) (w w' : World)
    (on : w.store.base = .ledger ((Ledger.start txHash).after history) true)
    (on' : w'.store.base = .ledger ((Ledger.start txHash).after history) true)
    (reserved reserved' sender : Bytes) (senderSized : sender.length = addressSize)
    (readOnly readOnly' : Datum) :
    let k := ((Ledger.start txHash).after history).nonceOf d.caller
    let generated :=
      generate (.ofBytes d.address) (.ofBytes d.caller) (.ofNat k) (.ofNat d.count) d.ceiling
    ∃ request payload : Bytes,
      Layout.encodeRequest .typed (.ofNat d.count) .null .null = .ok request ∧
      Layout.encodeRequest .raw (.ofNat d.count) (.ofBytes d.caller) (.ofNat k) = .ok payload ∧
      let typed :=
        ((d.call (d.config .typed .state reserved) d.caller request readOnly).run callee w).1
      let raw :=
        ((d.call (d.config .raw .payload reserved') sender payload readOnly').run callee' w').1
      ((∃ fault, typed = .error fault ∧ raw = .error fault) ∨
        ∃ x y, typed = .ok x ∧ raw = .ok y ∧ Matched x y) ∧
      ∀ schedule extra, d.Proper schedule extra →
        ∃ x y, typed = .ok x ∧ raw = .ok y ∧ Matched x y ∧
          (x.error = none → extra = [] → ∃ output : Bytes,
            x.output = .ofBytes output ∧ Layout.decodeResponse .typed output = generated) ∧
          (schedule.required request.length ≤ d.gas →
            ∀ cause, x.error = some cause → generated = .error (.failure cause)) := by
  intro k generated
  have h := refines_after txHash history
  obtain ⟨held, fits⟩ := Ledger.nonceOf_eq txHash history d.caller
  have posed : d.Posed ((Ledger.start txHash).after history) k :=
    ⟨addressSized, callerSized, word, held, fits⟩
  refine ⟨d.typedInput, d.rawInput k,
    Layout.encodeTypedRequest_ofNat rfl selector_randomSequence word,
    Layout.encodeRequest_raw callerSized word posed.small, ?_⟩
  intro typed raw
  have ends := fun schedule (priced : GasSchedule.make d.base d.perWord = .ok schedule) =>
    Draw.calls_end h posed priced senderSized countable on on' reserved reserved' readOnly
      readOnly' callee callee'
  constructor
  · cases priced : GasSchedule.make d.base d.perWord with
    | error fault =>
      exact .inl ⟨fault, congrArg Prod.fst (Draw.run_unpriced priced callee),
        congrArg Prod.fst (Draw.run_unpriced priced callee')⟩
    | ok schedule => exact (ends schedule priced).1
  · intro schedule extra proper
    obtain ⟨agreed, f, stands, ended⟩ := ends schedule proper.prices
    obtain ⟨limit, within⟩ := d.paid_meter schedule k
    obtain ⟨x, settled, good, failed⟩ := Contract.finish_settled h stands (limit ▸ within)
      (limit ▸ countable) .typed fun _ refused => proper.paid_refused refused fits
    have returned : typed = .ok x := ended.trans settled
    rcases agreed with ⟨fault, raised, _⟩ | ⟨x', y, first, second, matched⟩
    · cases raised.symm.trans returned
    · cases first.symm.trans returned
      refine ⟨x, y, returned, second, matched, ?_, ?_⟩
      · rintro none rfl
        obtain ⟨vs, paid, output⟩ := good none
        refine ⟨_, output, ?_⟩
        rw [Layout.decodeResponse_response _ (Draw.fit_of_paid paid)]
        exact (proper.generate_of_paid fits paid).symm
      · intro enough cause some
        rw [d.length_typedInput] at enough
        exact proper.generate_of_refused fits enough (failed cause some)

namespace Asking

/-- Two values for an account, with six units of gas more than they cost. -/
def draw : Draw :=
  ⟨.int 1024, .int 0, .int 1024, .none, none, Config.standard.address,
    Bytes.numeral addressSize 7, 2, 1030⟩

/-- The nonce of the account was set. -/
def history : List StateOp := [.setNonce (.ofBytes draw.caller) (.int 5), .snapshot]

def world : World := ⟨⟨.ledger ((Ledger.start zeroWord).after history) true, []⟩, .fresh, []⟩

end Asking

open Asking in
/-- The account asks for itself, and another account asks for it. -/
theorem layouts_agree_two :
    ∃ request payload x y,
      ((draw.call (draw.config .typed .state []) draw.caller request (.bool true)).run Leaking.alone
        world).1 = .ok x ∧
      ((draw.call (draw.config .raw .payload []) (Bytes.numeral addressSize 8) payload
        (.bool false)).run Leaking.alone world).1 = .ok y ∧
      Matched x y ∧ x.error = none ∧ ∃ output : Bytes, x.output = .ofBytes output ∧
        Layout.decodeResponse .typed output =
          .ok ((Seed.ofBytes draw.address draw.caller []).values 5 2) := by
  obtain ⟨request, payload, _, _, _, returns⟩ := layouts_agree draw rfl rfl (by decide)
    (by decide +kernel) zeroWord history Leaking.alone Leaking.alone world world rfl rfl [] []
    (Bytes.numeral addressSize 8) rfl (.bool true) (.bool false)
  have proper : draw.Proper ⟨1024, 0⟩ [] := ⟨rfl, rfl, _, rfl, rfl⟩
  obtain ⟨x, y, typed, raw, matched, drawn, refused⟩ := returns _ _ proper
  have nonce : ((Ledger.start zeroWord).after history).nonceOf draw.caller = 5 := by
    decide +kernel
  have passed : checkCount (.ofNat draw.count) draw.ceiling = .ok (.ofNat 2) := rfl
  have generated := draw.generate_eq (k := 5) (by decide)
  rw [passed] at generated
  rw [nonce, generated] at drawn refused
  have good : x.error = none := by
    cases failed : x.error with
    | none => rfl
    | some cause =>
      have enough : (⟨1024, 0⟩ : GasSchedule).required request.length ≤ draw.gas := by
        rw [GasSchedule.required, Nat.zero_mul]
        decide
      cases refused enough cause failed
  exact ⟨request, payload, x, y, typed, raw, matched, good, drawn good rfl⟩

end SeededDraws
