import SeededDraws.Proofs.Config
import SeededDraws.Proofs.Context
import SeededDraws.Proofs.Contract.Random
/-!
# The complete outcome of the random contract

Configurations with integers for their prices and their ceiling make a contract whose every call
returns, and what it returns stands in the table.
-/

namespace SeededDraws

/-! ### Configurations -/

/-- What the checks of a configuration are good for. -/
structure Config.Checked (config : Config) (base perWord ceiling : Int) : Prop where
  baseGas : config.baseGas = .int base
  gasPerWord : config.gasPerWord = .int perWord
  maxCount : config.maxCount = .int ceiling
  base_nonneg : 0 ≤ base
  perWord_nonneg : 0 ≤ perWord
  ceiling_nonneg : 0 ≤ ceiling
  onlyState : config.layout = .typed → config.nonceSource = .state

namespace Contract

variable {c : Contract} {input : Bytes}

theorem route_of_short {fault : Fault} (strict : c.fallback = none)
    (short : Words.splitSelector input = .error fault) : c.route input = .error fault := by
  obtain ⟨functions, fallback⟩ := c
  cases strict
  cases functions <;> simp only [route, short, bind, Except.bind]

/-- Without a fallback the selector decides. -/
theorem route_of_split {selector args : Bytes} (strict : c.fallback = none)
    (split : Words.splitSelector input = .ok (selector, args)) :
    c.route input = (c.find? selector).elim (.error (.failure (.ofSelector selector)))
      fun body => .ok (body, args) := by
  obtain ⟨functions, fallback⟩ := c
  cases strict
  cases looked : find? ⟨functions, none⟩ selector <;> cases functions <;>
    simp only [route, split, looked, bind, Except.bind, pure, Except.pure, Option.elim]

end Contract

/-- Prices that are not below zero make a schedule. -/
theorem GasSchedule.make_int {base perWord : Int} (base_nonneg : 0 ≤ base)
    (perWord_nonneg : 0 ≤ perWord) :
    make (.int base) (.int perWord) = .ok ⟨base.toNat, perWord.toNat⟩ := by
  have price : ∀ {n : Int} (name : String), 0 ≤ n → (Datum.int n).intAtLeast name 0 = .ok n := by
    intro n name nonneg
    simp only [Datum.intAtLeast, Datum.properInt?]
    rw [if_neg (Int.not_lt.mpr nonneg)]
  simp only [make, price _ base_nonneg, price _ perWord_nonneg, bind, Except.bind, pure,
    Except.pure]

namespace RandomContract

theorem make_eq {config : Config} {base perWord ceiling : Int}
    (checked : config.Checked base perWord ceiling) (entropy : Entropy) :
    make config entropy = .ok ⟨config, ⟨base.toNat, perWord.toNat⟩, entropy⟩ := by
  rw [make, checked.baseGas, checked.gasPerWord,
    GasSchedule.make_int checked.base_nonneg checked.perWord_nonneg]
  rfl

/-- The typed contract of a deployment. -/
def typedContract (r : RandomContract) : Contract :=
  ⟨[⟨.ofBytes sequenceSelector, r.sequence⟩, ⟨.ofBytes singleSelector, r.single⟩], none⟩

theorem contract_typed {r : RandomContract} (typed : r.config.layout = .typed) :
    r.contract = .ok r.typedContract := by
  -- with the two selectors as variables nothing is hashed here
  have made : ∀ first second : Outcome Bytes, first = .ok sequenceSelector →
      second = .ok singleSelector →
      (do
        let first ← first
        let second ← second
        Contract.make [(.ofBytes first, r.sequence), (.ofBytes second, r.single)] none) =
        .ok r.typedContract := by
    rintro _ _ rfl rfl
    rfl
  rw [contract, typed]
  exact made _ _ selector_randomSequence selector_randomSingle

theorem contract_raw {r : RandomContract} (raw : r.config.layout = .raw) :
    r.contract = .ok ⟨[], some r.sequence⟩ := by
  rw [contract, raw]
  rfl

theorem find?_typed (r : RandomContract) (selector : Bytes) :
    r.typedContract.find? selector =
      if selector = sequenceSelector then some r.sequence
      else if selector = singleSelector then some r.single else none := by
  have told : ∀ known : Bytes,
      ((Datum.ofBytes known).bytes? == some selector) = decide (selector = known) := by
    intro known
    rw [Datum.ofBytes, Datum.bytes?, Option.some_beq_some, Bool.eq_iff_iff, beq_iff_eq,
      decide_eq_true_iff]
    exact eq_comm
  simp only [Contract.find?, typedContract, List.find?_cons, told, List.find?_nil]
  by_cases first : selector = sequenceSelector
  · rw [decide_eq_true first, if_pos first]
    rfl
  · rw [decide_eq_false first, if_neg first]
    by_cases second : selector = singleSelector
    · rw [decide_eq_true second, if_pos second]
      rfl
    · rw [decide_eq_false second, if_neg second]
      rfl

theorem route_typed (r : RandomContract) (input : Bytes) :
    r.typedContract.route input =
      if input.length < 4 then .error (.failure (.missingSelector (.ofNat input.length)))
      else if input.take 4 = sequenceSelector then .ok (r.sequence, input.drop 4)
      else if input.take 4 = singleSelector then .ok (r.single, input.drop 4)
      else .error (.failure (.ofSelector (input.take 4))) := by
  have split : Words.splitSelector input =
      if input.length < 4 then .error (.failure (.missingSelector (.ofNat input.length)))
      else .ok (input.take 4, input.drop 4) := Words.splitSelector_ofBytes input
  by_cases short : input.length < 4
  · rw [if_pos short] at split ⊢
    exact Contract.route_of_short rfl split
  · rw [if_neg short] at split ⊢
    rw [Contract.route_of_split rfl split, find?_typed]
    by_cases first : input.take 4 = sequenceSelector
    · rw [if_pos first, if_pos first]
      rfl
    · rw [if_neg first, if_neg first]
      by_cases second : input.take 4 = singleSelector
      · rw [if_pos second, if_pos second]
        rfl
      · rw [if_neg second, if_neg second]
        rfl

end RandomContract

/-! ### Calls -/

namespace Terms.Describe

variable {t : Terms} {r : RandomContract} {block : Option BlockEnv} {l : Ledger} {callee : Callee}
  {context : CallContext} {f : Frame}

end Terms.Describe

theorem CallContext.make_ofBytes {caller address : Bytes} (input : Bytes) (gas : Nat)
    (readOnly : Datum) (callerSized : caller.length = addressSize)
    (addressSized : address.length = addressSize) :
    make (.ofBytes caller) (.ofBytes address) (.ofBytes input) (.ofNat gas) readOnly =
      .ok ⟨caller, address, input, gas, readOnly.truthy⟩ :=
  make_eq_ok.mpr ⟨Address.spells_ofBytes callerSized, Address.spells_ofBytes addressSized, rfl, rfl,
    rfl⟩

theorem Ledger.nonceOf_eq (txHash : Bytes) (history : List StateOp) (address : Bytes) :
    let l := (Ledger.start txHash).after history
    (l.contents.account address).nonce.integer? = some (l.nonceOf address : Int) ∧
      l.nonceOf address ≤ maxUint64 := by
  intro l
  obtain ⟨k, named, fits⟩ := ((Ledger.wellFormed txHash history).contents.account address).1
  have value : l.nonceOf address = k := by
    rw [nonceOf, named]
    rfl
  rw [value]
  exact ⟨named, fits⟩

end SeededDraws
