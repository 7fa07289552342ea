import SeededDraws.Proofs.Contract.Outcome
import SeededDraws.Proofs.Literal
import SeededDraws.Proofs.Registry
/-!
# Configurations from the environment

Which environments make a configuration, and what each variable has to do with it. Amounts never
fail: a text that is no literal counts as absent, and every other one is forced into bounds. What is
wrong with the other variables is a fault of the configuration, and the registry of a configuration
that was made has nothing left to refuse but a place outside its range.
-/

namespace SeededDraws

/-! ### Amounts -/

namespace Environment

/-- What a variable says of an amount: the integer that it spells, between zero and `high`. -/
inductive Amount (e : Environment) (name : String) (absent high : Nat) : Int → Prop
  | given {t : Text} {v : Int} (held : e name = some t) (spelled : Numeral.Literal t.faces v) :
    Amount e name absent high (min (max v 0) high)
  | absent (unspelled : ∀ t, e name = some t → ∀ v, ¬Numeral.Literal t.faces v) :
    Amount e name absent high absent

variable {e : Environment} {name : String} {absent high : Nat}

theorem forced (v : Int) (high : Nat) : min (max v 0) (high : Int) = (min v.toNat high : Nat) := by
  omega

theorem amount_iff {n : Int} : e.Amount name absent high n ↔ n = e.bounded name absent high := by
  rw [bounded]
  constructor
  · rintro (⟨held, spelled⟩ | unspelled)
    · rw [held, Option.bind_some, Numeral.read?_iff.mpr spelled]
      exact forced _ high
    · cases read : (e name).bind fun t => Numeral.read? .free t.faces with
      | none => rfl
      | some v =>
        obtain ⟨t, held, read⟩ := Option.bind_eq_some_iff.mp read
        exact absurd (Numeral.read?_iff.mp read) (unspelled t held v)
  · rintro rfl
    cases read : (e name).bind fun t => Numeral.read? .free t.faces with
    | none =>
      refine .absent fun t held v spelled => ?_
      rw [held, Option.bind_some, Numeral.read?_iff.mpr spelled] at read
      cases read
    | some v =>
      obtain ⟨t, held, read⟩ := Option.bind_eq_some_iff.mp read
      rw [← forced]
      exact .given held (Numeral.read?_iff.mp read)

theorem Amount.range {n : Int} (amount : e.Amount name absent high n) (usual : absent ≤ high) :
    0 ≤ n ∧ n ≤ high := by
  cases amount with
  | given held spelled => omega
  | absent unspelled => omega

end Environment

/-! ### Faults of the configuration -/

namespace Config

/-- What can go wrong here is a fault of the configuration. -/
def Strict {α : Type} (x : Outcome α) : Prop :=
  ∀ fault, x = .error fault → ∃ cause, fault = .config cause

section Strict

variable {α β : Type} {x : Outcome α}

theorem strict_ok (a : α) : Strict (.ok a) := nofun

theorem strict_config (cause : ConfigFault) : Strict (.error (.config cause) : Outcome α) := by
  rintro _ ⟨⟩
  exact ⟨cause, rfl⟩

theorem Strict.bind (first : Strict x) {f : α → Outcome β} (rest : ∀ a, Strict (f a)) :
    Strict (x >>= f) := by
  cases x with
  | ok a => exact rest a
  | error fault =>
    rintro _ ⟨⟩
    exact first fault rfl

end Strict

theorem strict_refuseIf (cause : ConfigFault) (bad : Bool) : Strict (refuseIf cause bad) := by
  cases bad with
  | false => exact strict_ok ()
  | true => exact strict_config cause

theorem strict_readLayout (d : Datum) : Strict (readLayout d) := by
  rw [readLayout]
  split
  · exact strict_ok _
  · exact strict_config _

theorem strict_readNonceSource (d : Datum) : Strict (readNonceSource d) := by
  rw [readNonceSource]
  split
  · exact strict_ok _
  · exact strict_config _

theorem strict_readAddress (d : Datum) : Strict (readAddress d) := by
  have sized : ∀ b : Bytes, Strict
      (if b.length = addressSize then .ok b else .error (.config (.addressLength b.length))) := by
    intro b
    split
    · exact strict_ok b
    · exact strict_config _
  cases d with
  | bytes kind b => exact sized b
  | text t =>
    refine Strict.bind ?_ sized
    rw [addressOfText]
    split
    · exact strict_ok _
    · exact strict_config _
  | _ => exact strict_config _

/-- Where the amounts are numbers there is nothing else that could go wrong. -/
theorem strict_ofFields {f : ConfigFields} {bad badCount : Bool}
    (prices : anyBelowZero f.baseGas f.gasPerWord = .ok bad)
    (count : f.maxCount.isBelow 0 = .ok badCount) : Strict (ofFields f) := by
  rw [ofFields, prices, count]
  refine (strict_readLayout _).bind fun layout => ?_
  refine (strict_readNonceSource _).bind fun source => ?_
  refine (strict_refuseIf _ _).bind fun _ => ?_
  refine (strict_readAddress _).bind fun address => ?_
  refine (strict_refuseIf _ _).bind fun _ => ?_
  exact (strict_refuseIf _ _).bind fun _ => strict_ok _

theorem isBelow_zero (n : Nat) : (Datum.ofNat n).isBelow 0 = .ok false := by
  rw [isBelow_of_integer? (d := .ofNat n) rfl, decide_eq_false (by omega)]

theorem strict_ofEnvironment (e : Environment) : Strict (ofEnvironment e) := by
  have prices : ∀ base perWord : Nat,
      anyBelowZero (.ofNat base) (.ofNat perWord) = .ok false := by
    intro base perWord
    rw [anyBelowZero, isBelow_zero]
    exact isBelow_zero perWord
  exact (strict_readAddress _).bind fun address => strict_ofFields (prices _ _) (isBelow_zero _)

/-! ### Configurations -/

theorem readLayout_text {t : Text} {layout : Layout} :
    readLayout (.text t) = .ok layout ↔ t = layout.name := by
  constructor
  · intro read
    have known : Layout.ofDatum? (.text t) = some layout := by
      rw [readLayout] at read
      split at read
      · cases read
        assumption
      · cases read
    rw [Layout.ofDatum?] at known
    split at known
    · next named =>
      cases known
      exact Text.eq_ofString_of_string? named
    · next named =>
      cases known
      exact Text.eq_ofString_of_string? named
    · cases known
  · rintro rfl
    exact readLayout_name layout

theorem readNonceSource_text {t : Text} {source : NonceSource} :
    readNonceSource (.text t) = .ok source ↔ t = source.name := by
  constructor
  · intro read
    have known : NonceSource.ofDatum? (.text t) = some source := by
      rw [readNonceSource] at read
      split at read
      · cases read
        assumption
      · cases read
    rw [NonceSource.ofDatum?] at known
    split at known
    · next named =>
      cases known
      exact Text.eq_ofString_of_string? named
    · next named =>
      cases known
      exact Text.eq_ofString_of_string? named
    · cases known
  · rintro rfl
    exact readNonceSource_name source

/-- The source that goes with a layout where none is given. -/
def usualSource : Layout → NonceSource
  | .typed => .state
  | .raw => .payload

/-- What the variables say of a configuration. -/
structure Configured (e : Environment) (c : Config) : Prop where
  layout : (e.word "PRNG_PRECOMPILE_LAYOUT").getD "typed" = c.layout.name
  nonceSource : (e.word "PRNG_PRECOMPILE_NONCE_SOURCE").getD (usualSource c.layout).name =
    c.nonceSource.name
  paired : ¬(c.layout = .typed ∧ c.nonceSource = .payload)
  address : Spells (.text ((e "PRNG_PRECOMPILE_ADDRESS").getD ConfigFields.standardAddress))
    c.address
  baseGas : ∃ n, c.baseGas = .int n ∧ e.Amount "PRNG_PRECOMPILE_BASE_GAS" 1024 10000000 n
  gasPerWord : ∃ n, c.gasPerWord = .int n ∧ e.Amount "PRNG_PRECOMPILE_GAS_PER_WORD" 0 1000000 n
  maxCount : ∃ n, c.maxCount = .int n ∧ e.Amount "PRNG_PRECOMPILE_MAX_COUNT" 1024 1048576 n

/-- The name of the usual source is found from the word for the layout, which may be anything. -/
theorem usualName_eq (layout : Layout) :
    (if Text.ofString layout.name = Text.ofString "raw" then "payload" else "state") =
      (usualSource layout).name := by
  cases layout <;> decide

theorem ofEnvironment_eq_ok {e : Environment} {c : Config} :
    ofEnvironment e = .ok c ↔ Configured e c := by
  rw [ofEnvironment, Outcome.bind_eq_ok]
  simp only [readAddress_eq_ok, ofFields_eq_ok]
  constructor
  · rintro ⟨a, spells, made, sound⟩
    have layout := readLayout_text.mp made.layout
    have source := readNonceSource_text.mp made.nonceSource
    rw [layout, usualName_eq] at source
    have same : c.address = a := by
      cases made.address
      rfl
    refine ⟨layout, source, ?_, same ▸ spells, ⟨_, made.baseGas, Environment.amount_iff.mpr rfl⟩,
      ⟨_, made.gasPerWord, Environment.amount_iff.mpr rfl⟩,
      ⟨_, made.maxCount, Environment.amount_iff.mpr rfl⟩⟩
    rintro ⟨typed, payload⟩
    cases (sound.paired typed).symm.trans payload
  · intro configured
    obtain ⟨layout, source, apart, spells, ⟨base, baseGas, based⟩, ⟨perWord, gasPerWord, priced⟩,
      ⟨count, maxCount, counted⟩⟩ := configured
    rw [Environment.amount_iff] at based priced counted
    subst based priced counted
    refine ⟨c.address, spells, ⟨?_, ?_, .bytes .fixed spells.length, baseGas, gasPerWord, maxCount⟩,
      ⟨?_, spells.length, ?_, ?_, ?_⟩⟩
    · exact readLayout_text.mpr layout
    · rw [layout, usualName_eq]
      exact readNonceSource_text.mpr source
    · intro typed
      cases named : c.nonceSource with
      | state => rfl
      | payload => exact absurd ⟨typed, named⟩ apart
    · rw [baseGas]
      exact isBelow_zero _
    · rw [gasPerWord]
      exact isBelow_zero _
    · rw [maxCount]
      exact isBelow_zero _

theorem sound_of_ofEnvironment {e : Environment} {c : Config} (made : ofEnvironment e = .ok c) :
    c.Sound := by
  obtain ⟨_, _, made⟩ := Outcome.bind_eq_ok.mp made
  exact sound_of_ofFields made

theorem Configured.checked {e : Environment} {c : Config} (configured : Configured e c) :
    ∃ base perWord ceiling : Int, c.Checked base perWord ceiling ∧
      base ≤ 10000000 ∧ perWord ≤ 1000000 ∧ ceiling ≤ 1048576 := by
  obtain ⟨base, baseGas, based⟩ := configured.baseGas
  obtain ⟨perWord, gasPerWord, priced⟩ := configured.gasPerWord
  obtain ⟨ceiling, maxCount, counted⟩ := configured.maxCount
  have based := based.range (by decide)
  have priced := priced.range (by decide)
  have counted := counted.range (by decide)
  refine ⟨base, perWord, ceiling, ⟨baseGas, gasPerWord, maxCount, based.1, priced.1, counted.1, ?_⟩,
    based.2, priced.2, counted.2⟩
  exact (sound_of_ofEnvironment (ofEnvironment_eq_ok.mpr configured)).paired

end Config

/-! ### Registries -/

/-- Behind an accepted configuration the place is all that a registry can refuse. -/
theorem Registry.standard_of_checked {c : Config} {base perWord ceiling : Int}
    (checked : c.Checked base perWord ceiling) (sized : c.address.length = addressSize)
    (entropy : Entropy) (serial : Nat) :
    (Address.Reserved c.address ∧ ∃ r, standard c entropy serial [] = .ok r) ∨
      (¬Address.Reserved c.address ∧
        standard c entropy serial [] = .error (.registry (.outsideRange c.address))) := by
  obtain ⟨contract, built⟩ : ∃ contract, randomContract c entropy = .ok contract := by
    rw [randomContract, RandomContract.make_eq checked]
    cases layout : c.layout with
    | typed => exact ⟨_, RandomContract.contract_typed layout⟩
    | raw => exact ⟨_, RandomContract.contract_raw layout⟩
  have registered := register_spelled (r := .empty) (Address.spells_ofBytes sized)
    (some ⟨serial, contract⟩)
  rw [standard, built]
  simp only [bind, Except.bind, registered]
  by_cases reserved : Address.Reserved c.address
  · rw [if_pos reserved]
    exact .inl ⟨reserved, _, rfl⟩
  · rw [if_neg reserved]
    exact .inr ⟨reserved, rfl⟩

end SeededDraws
