import SeededDraws.Proofs.Abi.Response
import SeededDraws.Proofs.Contract.Charges
import SeededDraws.Proofs.Contract.History
import SeededDraws.Proofs.Seed
/-!
# What a random contract counts

The body of a random contract counts its values at the very end, when nothing can go wrong any more:
they are drawn, they fit their words, and the answer is about to be encoded. So what was counted is
what the answer holds, and a body that fails has counted nothing.
-/

namespace SeededDraws

/-! ### Labels -/

/-- The code in lower case is a label, and not that of good calls. -/
def Failure.Labelled (cause : Failure) : Prop :=
  ∃ code label, cause.code = .text code ∧ label ≠ Label.ok ∧
    code.lower.string? = some label.name

/-- The codes of this library's own failures all have labels. -/
theorem Failure.labelled {cause : Failure}
    (own : ∀ message code data, cause ≠ .general message code data) : cause.Labelled := by
  cases cause with
  | missingSelector _ => exact ⟨_, .missingSelector, rfl, by decide, by decide +kernel⟩
  | unknownSelector _ => exact ⟨_, .unknownSelector, rfl, by decide, by decide +kernel⟩
  | invalidInputLength _ _ _ => exact ⟨_, .invalidInputLength, rfl, by decide, by decide +kernel⟩
  | valueOverflow _ _ => exact ⟨_, .valueOverflow, rfl, by decide, by decide +kernel⟩
  | requestTooLarge _ _ => exact ⟨_, .requestTooLarge, rfl, by decide, by decide +kernel⟩
  | outOfGas _ _ => exact ⟨_, .outOfGas, rfl, by decide, by decide +kernel⟩
  | writeProtection _ => exact ⟨_, .writeProtection, rfl, by decide, by decide +kernel⟩
  | encodingFailure _ => exact ⟨_, .encodingFailure, rfl, by decide, by decide +kernel⟩
  | general message code data => exact absurd rfl (own message code data)

namespace Outcome

variable {α β : Type} {raised : Failure → Prop} {x : Outcome α}

/-- If this is a failure, it has a label or is one that others may raise. -/
def Labelled (raised : Failure → Prop) (x : Outcome α) : Prop :=
  ∀ cause, x = .error (.failure cause) → cause.Labelled ∨ raised cause

theorem labelled_ok (a : α) : Labelled raised (.ok a) := fun _ failed => by cases failed

theorem Plain.labelled (plain : x.Plain) : x.Labelled raised := fun cause failed =>
  absurd failed (plain cause)

theorem labelled_failure {cause : Failure} (labelled : cause.Labelled) :
    Labelled raised (.error (.failure cause) : Outcome α) := by
  rintro _ ⟨⟩
  exact .inl labelled

theorem Labelled.bind {f : α → Outcome β} (first : x.Labelled raised)
    (rest : ∀ a, x = .ok a → (f a).Labelled raised) : (x >>= f).Labelled raised := by
  cases x with
  | ok a => exact rest a rfl
  | error fault =>
    rintro cause ⟨⟩
    exact first cause rfl

theorem Labelled.of_error {fault : Fault} (labelled : Labelled raised (.error fault : Outcome α)) :
    Labelled raised (.error fault : Outcome β) := by
  rintro cause ⟨⟩
  exact labelled cause rfl

end Outcome

/-! ### Runs that end with a count -/

section

variable {raised : Failure → Prop} {holds : Bytes → Nat → Prop}

/-- Whatever comes back, the body fails before it counts, under a label or as others may, or it
counts and answers with as many values as `holds` asks for. -/
inductive Body.Draws (raised : Failure → Prop) (holds : Bytes → Nat → Prop) : Body → Prop where
  | fail {fault : Fault} (labelled : Outcome.Labelled raised (.error fault : Outcome Datum)) :
    Draws raised holds (.fail fault)
  | charge {amount : Datum} {next : Outcome Nat → Body}
    (rest : ∀ left : Outcome Nat, left.Labelled raised → Draws raised holds (next left)) :
    Draws raised holds (.charge amount next)
  | nonce {address : Datum} {next : Outcome Datum → Body}
    (rest : ∀ found : Outcome Datum, found.Labelled raised → Draws raised holds (next found)) :
    Draws raised holds (.state .observing (.getNonce address) next)
  | drawn {count : Nat} {output : Bytes} (small : count < Nat.pow 2 64)
    (held : holds output count) : Draws raised holds (.observe count (.done (.ofBytes output)))

theorem Body.Draws.orFail {α : Type} {result : Outcome α} {next : α → Body}
    (labelled : result.Labelled raised)
    (rest : ∀ x, result = .ok x → (next x).Draws raised holds) :
    (Body.orFail result next).Draws raised holds := by
  cases result with
  | ok x => exact rest x rfl
  | error fault => exact .fail labelled.of_error

theorem GasMeter.labelled_consume (m : GasMeter) (amount : Datum) :
    (m.consume amount).1.Labelled raised := by
  have whole : ∀ (name : String) (bound : Int) (d : Datum), (d.intAtLeast name bound).Plain := by
    intro name bound d
    rw [Datum.intAtLeast]
    split
    · split
      · exact Outcome.plain_error.mpr (by simp)
      · exact Outcome.plain_ok _
    · exact Outcome.plain_error.mpr (by simp)
  have deducted : (deductGas (.ofNat m.remaining) amount).Labelled raised := by
    refine (whole _ _ _).labelled.bind fun s _ => (whole _ _ _).labelled.bind fun c _ => ?_
    split
    · exact Outcome.labelled_failure (Failure.labelled (by simp))
    · exact Outcome.labelled_ok _
  rw [consume]
  cases left : deductGas (.ofNat m.remaining) amount with
  | ok n => exact Outcome.labelled_ok n
  | error fault =>
    rw [left] at deducted
    exact deducted.of_error

theorem Datum.plain_exactBytes (d : Datum) (name : String) (size : Nat) :
    (d.exactBytes name size).Plain := by
  have read : (d.someBytes name).Plain := by
    rw [someBytes, bytesOr]
    split
    · exact Outcome.plain_ok _
    · exact Outcome.plain_error.mpr (by simp)
  refine read.bind fun b => ?_
  split
  · exact Outcome.plain_ok _
  · exact Outcome.plain_error.mpr (by simp)

/-- How a run ended and what it counted, over the metrics that it began with. -/
inductive Body.Counted (raised : Failure → Prop) (holds : Bytes → Nat → Prop) (before : Metrics) :
    Outcome Datum × Frame → Prop where
  | failed {fault : Fault} {f : Frame}
    (labelled : Outcome.Labelled raised (.error fault : Outcome Datum))
    (same : f.world.metrics = before) : Counted raised holds before (.error fault, f)
  | drawn {count : Nat} {output : Bytes} {f : Frame} (held : holds output count)
    (counted : f.world.metrics = { before with values := before.values.observe (.ofNat count) }) :
    Counted raised holds before (.ok (.ofBytes output), f)

theorem Body.Draws.run {body : Body} (draws : body.Draws raised holds) {l : Ledger}
    {meter : GasMeter} {f : Frame} (stands : f.Stands l meter) (callee : Callee) (handle : Handle)
    (context : CallContext) :
    Counted raised holds f.world.metrics (body.run callee handle context f) := by
  induction draws generalizing f meter with
  | fail labelled => exact .failed labelled rfl
  | @charge amount next _ ih =>
    have charged : ({ f with meter := (f.meter.consume amount).2 } : Frame).Stands l
        (f.meter.consume amount).2 := ⟨stands.base, rfl⟩
    exact ih _ (f.meter.labelled_consume amount) charged
  | @nonce address next _ ih =>
    have viewed := stands.reach handle context.readOnly .observing
    have labelled : (l.step (.getNonce address)).1.Labelled raised := by
      refine Outcome.Plain.labelled ?_
      exact (Datum.plain_exactBytes address "address" addressSize).bind fun _ => Outcome.plain_ok _
    rw [run_state]
    simp only [viewed.step (StateOp.isRead_getNonce address)]
    exact ih _ labelled viewed
  | @drawn count output small held =>
    have double := Datum.toDouble_natCast
      (Nat.lt_of_lt_of_le small (Binary64.pow_le_overflowBound (by decide)))
    rw [Body.run, Frame.observe, Metrics.observeValues, double]
    exact .drawn held rfl

end

/-! ### The random bodies -/

/-- How many values an output holds. Under the typed layout a single word is a value by itself. -/
def Layout.valuesIn (layout : Layout) (output : Bytes) : Nat :=
  if layout = .typed ∧ output.length = wordSize then 1
  else match layout.decodeResponse output with
    | .ok values => values.length
    | .error _ => 0

theorem Layout.valuesIn_response (layout : Layout) {values : List Nat} (fit : Words.Fit values) :
    layout.valuesIn (layout.response values) = values.length := by
  have long : ¬(layout = .typed ∧ (layout.response values).length = wordSize) := by
    rintro ⟨rfl, sized⟩
    simp only [response, List.length_append, Bytes.length_numeral, wordSize] at sized
    omega
  rw [valuesIn, if_neg long, layout.decodeResponse_response fit]

theorem Layout.valuesIn_word (v : Nat) : typed.valuesIn (Bytes.numeral wordSize v) = 1 :=
  if_pos ⟨rfl, Bytes.length_numeral ..⟩

theorem Datum.plain_natural (d : Datum) (name : String) : (d.natural name).Plain := by
  rw [natural]
  split
  · split
    · exact Outcome.plain_error.mpr (by simp)
    · exact Outcome.plain_ok _
  · exact Outcome.plain_error.mpr (by simp)

theorem Datum.plain_isBelow (d : Datum) (n : Int) : (d.isBelow n).Plain := by
  rw [isBelow]
  split
  · exact Outcome.plain_ok _
  · exact Outcome.plain_error.mpr (by simp)

theorem labelled_checkCount {raised : Failure → Prop} (n : Nat) (ceiling : Datum) :
    (checkCount (.ofNat n) ceiling).Labelled raised := by
  have read : (Datum.ofNat n).natural "n" = .ok n := Datum.natural_of_integer? rfl
  have overflow : ∀ bits : Nat,
      Outcome.Labelled raised (.error (.failure (.valueOverflow n (.int bits))) : Outcome Datum) :=
    fun bits => Outcome.labelled_failure (Failure.labelled (by simp))
  simp only [checkCount, read, bind, Except.bind]
  split
  · exact overflow 256
  · split
    · exact overflow 64
    · have compared : Outcome.Labelled raised (ceiling.isBelow n) :=
        (ceiling.plain_isBelow n).labelled
      refine compared.bind fun more _ => ?_
      split
      · exact Outcome.labelled_failure (Failure.labelled (by simp))
      · exact Outcome.labelled_ok _

/-- A count that passes is handed on, and it fits eight bytes. -/
theorem checkCount_eq_ok {n : Nat} {ceiling count : Datum}
    (checked : checkCount (.ofNat n) ceiling = .ok count) :
    count = .ofNat n ∧ n < Nat.pow 2 64 := by
  have read : (Datum.ofNat n).natural "n" = .ok n := Datum.natural_of_integer? rfl
  simp only [checkCount, read, bind, Except.bind, maxUint64_lt] at checked
  split at checked
  · cases checked
  · split at checked
    · cases checked
    · next small =>
      obtain ⟨more, _, checked⟩ := Outcome.bind_eq_ok.mp checked
      cases more with
      | true => cases checked
      | false =>
        cases checked
        exact ⟨rfl, Nat.lt_of_not_le small⟩

/-- As many values as were asked for, each of them one word. -/
theorem fit_of_generateValues {server user : Bytes} {nonce : Datum} {n : Nat} {values : List Nat}
    (drawn : generateValues (.ofBytes server) (.ofBytes user) nonce (.ofNat n) = .ok values) :
    values.length = n ∧ ∀ v ∈ values, v < Nat.pow 2 256 := by
  rw [generateValues_eq] at drawn
  obtain ⟨k, _, drawn⟩ := Outcome.bind_eq_ok.mp drawn
  rw [Seed.draw] at drawn
  split at drawn
  · cases drawn
  · cases drawn
    exact ⟨Seed.length_values _ k n, Seed.values_lt _ k n⟩

theorem readUint64_labelled {raised : Failure → Prop} (name : String) (d : Datum) :
    (readUint64 name d).Labelled raised := by
  refine (d.plain_natural name).labelled.bind fun n _ => ?_
  split
  · exact Outcome.labelled_failure (Failure.labelled (by simp))
  · exact Outcome.labelled_ok n

theorem Hash.plain_input (name : String) (d : Datum) : (Hash.input name d).Plain := by
  rw [Hash.input, Datum.bytesOr]
  split
  · exact Outcome.plain_ok _
  · exact Outcome.plain_error.mpr (by simp)

theorem Hash.plain_joined (chunks : List Datum) : (Hash.joined chunks).Plain := by
  have all : ∀ i, (Hash.joined.go i chunks).Plain := by
    induction chunks with
    | nil => exact fun _ => Outcome.plain_ok _
    | cons chunk rest ih =>
      intro i
      exact (Hash.plain_input _ chunk).bind fun b => (ih (i + 1)).bind fun _ => Outcome.plain_ok _
  exact all 0

theorem plain_deriveSeed (contract caller extra : Datum) :
    (deriveSeed contract caller extra).Plain :=
  ((Hash.plain_input _ contract).bind fun _ => Outcome.plain_ok _).bind fun _ =>
    ((Hash.plain_joined _).bind fun _ => Outcome.plain_ok _).bind fun _ => Outcome.plain_ok _

/-- An entropy source may raise failures of its own, under any code. -/
def Entropy.Raises (entropy : Entropy) (cause : Failure) : Prop :=
  ∃ caller block, entropy caller block = .error (.failure cause)

namespace RandomContract

variable {r : RandomContract} {holds : Bytes → Nat → Prop}

theorem labelled_valuesFor (r : RandomContract) (call : Invocation) (caller : Bytes)
    (nonce : Datum) (n : Nat) :
    (r.valuesFor call caller nonce (.ofNat n)).Labelled r.entropy.Raises := by
  have contributed : (r.entropy caller call.block).Labelled r.entropy.Raises :=
    fun _ failed => .inr ⟨caller, call.block, failed⟩
  refine contributed.bind fun extra _ => ?_
  refine (plain_deriveSeed _ _ extra).labelled.bind fun seed _ => ?_
  rw [generateValues_eq]
  refine (readUint64_labelled "nonce" nonce).bind fun k _ => ?_
  rw [Seed.draw]
  split
  · exact Outcome.labelled_failure (Failure.labelled (by simp))
  · exact Outcome.labelled_ok _

theorem fit_of_valuesFor {call : Invocation} {caller : Bytes} {nonce : Datum} {n : Nat}
    {values : List Nat} (drawn : r.valuesFor call caller nonce (.ofNat n) = .ok values) :
    values.length = n ∧ ∀ v ∈ values, v < Nat.pow 2 256 := by
  obtain ⟨extra, _, drawn⟩ := Outcome.bind_eq_ok.mp drawn
  obtain ⟨seed, _, drawn⟩ := Outcome.bind_eq_ok.mp drawn
  exact fit_of_generateValues drawn

theorem draws_draw (call : Invocation) (request : Request) (ceiling : Datum)
    {next : List Nat → Body}
    (rest : ∀ values : List Nat, values.length = request.count → request.count < Nat.pow 2 64 →
      (∀ v ∈ values, v < Nat.pow 2 256) → (next values).Draws r.entropy.Raises holds) :
    (r.draw call request ceiling next).Draws r.entropy.Raises holds := by
  refine .orFail (labelled_checkCount request.count ceiling) fun count checked => ?_
  obtain ⟨rfl, small⟩ := checkCount_eq_ok checked
  have drawn : ∀ found : Outcome Datum, found.Labelled r.entropy.Raises →
      (Body.orFail found fun nonce =>
        .orFail (r.valuesFor call (request.caller.getD call.context.caller) nonce
          (.ofNat request.count)) next).Draws r.entropy.Raises holds := by
    intro found foundLabelled
    refine .orFail foundLabelled fun nonce _ => ?_
    refine .orFail (r.labelled_valuesFor _ _ _ _) fun values made => ?_
    obtain ⟨length, fit⟩ := fit_of_valuesFor made
    exact rest values length small fit
  rw [findNonce]
  cases r.config.nonceSource with
  | state => exact .nonce drawn
  | payload =>
    refine drawn _ ?_
    rw [carriedNonce.eq_def]
    split
    · exact Outcome.Plain.labelled (Outcome.plain_error.mpr (by simp))
    · exact Outcome.labelled_ok _

theorem draws_metered {raised : Failure → Prop} {next : Body} (call : Invocation)
    (rest : next.Draws raised holds) : (r.metered call next).Draws raised holds :=
  .charge fun _ labelled => .orFail labelled fun _ _ => rest

theorem labelled_decodeArgs {raised : Failure → Prop} (layout : Layout) (args : Bytes) :
    (layout.decodeArgs args).Labelled raised := by
  have refused : ∀ got expected minimum, Outcome.Labelled raised
      (.error (Layout.wrongLength got expected minimum) : Outcome Request) :=
    fun _ _ _ => Outcome.labelled_failure (Failure.labelled (by simp))
  cases layout with
  | typed =>
    rw [Layout.decodeArgs_typed]
    split
    · exact Outcome.labelled_ok _
    · exact refused _ _ _
  | raw =>
    rw [Layout.decodeArgs_raw]
    split
    · exact refused _ _ _
    · exact Outcome.labelled_ok _

theorem draws_sequence (call : Invocation) :
    (r.sequence call).Draws r.entropy.Raises fun output count =>
      r.config.layout.valuesIn output = count := by
  refine draws_metered call (.orFail (labelled_decodeArgs _ _) fun request _ => ?_)
  refine draws_draw call request _ ?_
  intro values length small fit
  have short : values.length < Nat.pow 2 256 := lt_pow_of_le (length ▸ small) (by decide)
  rw [Layout.encodeResponse_ofNat _ short fit]
  exact .drawn (length ▸ small) (Layout.valuesIn_response _ ⟨short, fit⟩)

theorem draws_single (typed : r.config.layout = .typed) (call : Invocation) :
    (r.single call).Draws r.entropy.Raises fun output count =>
      r.config.layout.valuesIn output = count := by
  refine draws_metered call ?_
  split
  · refine draws_draw call ⟨1, none, none⟩ _ ?_
    intro values length _ fit
    obtain ⟨v, rfl⟩ := List.length_eq_one_iff.mp length
    rw [List.headD_cons, encodeUint256_ofNat (fit v (List.mem_singleton_self v)), typed]
    exact .drawn (by decide) (Layout.valuesIn_word v)
  · exact .fail (Outcome.labelled_failure (Failure.labelled (by simp)))

end RandomContract

/-- The body of a call counts what the call is about to answer. -/
theorem counted_of_randomContract {config : Config} {entropy : Entropy} {c : Contract}
    (built : randomContract config entropy = .ok c) {l : Ledger} {meter : GasMeter} {f : Frame}
    (stands : f.Stands l meter) (callee : Callee) (setting : Setting) (context : CallContext) :
    Body.Counted entropy.Raises (fun output count => config.layout.valuesIn output = count)
      f.world.metrics (c.execute callee setting context f) := by
  rw [Contract.execute]
  cases routed : c.route context.input with
  | error fault =>
    refine .failed ?_ rfl
    rcases Contract.fault_of_route routed with rfl | rfl
    · exact Outcome.labelled_failure (Failure.labelled (by simp))
    · exact Outcome.labelled_failure (Failure.labelled (by simp [Failure.ofSelector]))
  | ok target =>
    obtain ⟨body, args⟩ := target
    obtain ⟨r, rfl, rfl, rfl | ⟨typed, rfl⟩⟩ := randomContract_route built routed
    · exact (RandomContract.draws_sequence _).run stands callee setting.handle context
    · exact (RandomContract.draws_single typed _).run stands callee setting.handle context

end SeededDraws
