import SeededDraws.Context
import SeededDraws.Proofs.Address.Grammar
/-!
# Contexts in printed form

Byte strings are printed as digits behind a mark, and read back with any letter in upper case and
with white space around. So a context that was made from any spellings is made again from its
printed form.
-/

namespace SeededDraws

/-- Any of the letters may stand in upper case. -/
def Text.Recased (cs ds : List Char) : Prop :=
  List.Forall₂ (fun c d => d = c ∨ d = c.toUpper) cs ds

theorem Text.recased_self (cs : List Char) : Recased cs cs :=
  List.forall₂_same.mpr fun _ _ => .inl rfl

namespace Hex

variable {c d : Char} {v : Nat}

theorem value?_recased (digit : value? c = some v) (recased : d = c ∨ d = c.toUpper) :
    value? d = some v := by
  rcases recased with rfl | rfl
  · exact digit
  · have table : ∀ c, c.toNat < 128 → (value? c).all fun v => value? c.toUpper == some v :=
      Numeral.forall_ascii (by decide +kernel)
    have range := value?_eq_some digit
    have entry := table c (by omega)
    rw [digit] at entry
    exact beq_iff_eq.mp entry

theorem isSpacing_recased (spacing : isSpacing c = true) (recased : d = c ∨ d = c.toUpper) :
    isSpacing d = true := by
  rcases recased with rfl | rfl
  · exact spacing
  · have table : ∀ c, c.toNat < 128 → isSpacing c = true → isSpacing c.toUpper = true :=
      Numeral.forall_ascii (by decide +kernel)
    refine table c ?_ spacing
    simp only [isSpacing, Bool.or_eq_true, Bool.and_eq_true, beq_iff_eq,
      decide_eq_true_eq] at spacing
    omega

/-- The bytes of a text do not depend on the case of its digits. -/
theorem Pairs.recased {cs ds : List Char} {b : Bytes} (pairs : Pairs cs b)
    (recased : Text.Recased cs ds) : Pairs ds b := by
  induction pairs generalizing ds with
  | done =>
    cases recased
    exact .done
  | space spacing rest ih =>
    cases recased with
    | cons first later => exact .space (isSpacing_recased spacing first) (ih later)
  | pair high low rest ih =>
    cases recased with
    | cons first later =>
      cases later with
      | cons second later =>
        exact .pair (value?_recased high first) (value?_recased low second) (ih later)

end Hex

/-! ### Byte strings -/

namespace ByteText

theorem isMark_recased {zero letter : Char} (first : zero = '0' ∨ zero = '0'.toUpper)
    (second : letter = 'x' ∨ letter = 'x'.toUpper) : IsMark [zero, letter] := by
  have same : zero = '0' := first.elim id id
  rw [same]
  rcases second with rfl | rfl
  · exact .inr (.inl rfl)
  · exact .inr (.inr rfl)

/-- A printed byte string is read back, whatever the case of its letters, and with white space
around. -/
theorem read_recased {b : Bytes} {before after : Text} {cs : List Char}
    (around : ∀ g ∈ before ++ after, isBlank g.face = true)
    (recased : Text.Recased b.marked.toList cs) :
    read (.text (before ++ Text.ofChars cs ++ after)) = .ok b := by
  rw [Bytes.marked, Bytes.hex, Hex.toList_marked] at recased
  obtain ⟨zero, rest, first, later, rfl⟩ := List.forall₂_cons_left_iff.mp recased
  obtain ⟨letter, digits, second, written, rfl⟩ := List.forall₂_cons_left_iff.mp later
  have pairs := (Hex.read_eq_some_iff.mp (Hex.read_write b)).recased written
  have sized : 2 * b.length = digits.length := by
    rw [← written.length_eq, Hex.length_write]
  have all := (Hex.length_of_read (Hex.read_eq_some_iff.mpr pairs)).2 sized
  have inner := digits_framed around (isMark_recased first second) all
  refine ofText_eq_ok.mpr ?_
  rw [List.cons_append, List.cons_append, List.nil_append] at inner
  rw [inner, Text.faces_ofChars, Text.ofChars, List.length_map]
  exact ⟨by omega, pairs⟩

theorem read_marked (b : Bytes) : read (.text b.marked) = .ok b := by
  have bare : ∀ g ∈ ([] ++ [] : Text), isBlank g.face = true := List.forall_mem_nil _
  have known := read_recased bare (Text.recased_self b.marked.toList)
  rwa [List.append_nil] at known

end ByteText

/-! ### Contexts -/

theorem contextNatural_eq_ok {name : String} {d : Datum} {n : Nat} :
    contextNatural name d = .ok n ↔ d = .ofNat n := by
  constructor
  · intro known
    cases d with
    | int i =>
      rw [contextNatural] at known
      simp only [Datum.properInt?] at known
      split at known
      · cases known
      · cases known
        exact congrArg Datum.int (Int.toNat_of_nonneg (by omega)).symm
    | _ => cases known
  · rintro rfl
    have natural : ¬(n : Int) < 0 := by omega
    simp only [contextNatural, Datum.ofNat, Datum.properInt?, if_neg natural, Int.toNat_natCast]

/-- A block is made of three naturals and a spelling of its producer. -/
theorem BlockEnv.make_eq_ok {number timestamp coinbase chainId : Datum} {e : BlockEnv} :
    make number timestamp coinbase chainId = .ok e ↔
      number = .ofNat e.number ∧ timestamp = .ofNat e.timestamp ∧ chainId = .ofNat e.chainId ∧
        Address.Spells coinbase e.coinbase := by
  simp only [make, Outcome.bind_eq_ok, contextNatural_eq_ok, Address.read_eq_ok_iff]
  constructor
  · rintro ⟨n, first, t, second, i, third, a, spells, made⟩
    cases made
    exact ⟨first, second, third, spells⟩
  · rintro ⟨first, second, third, spells⟩
    exact ⟨_, first, _, second, _, third, _, spells, rfl⟩

/-- The printed form of a block holds spellings of all its parts. -/
theorem BlockEnv.ofDatum_toDatum {e : BlockEnv} (sized : e.coinbase.length = addressSize) :
    ofDatum e.toDatum = .ok e := by
  have fields : ofDatum e.toDatum = make (.ofNat e.number) (.ofNat e.timestamp)
      (.text e.coinbase.marked) (.ofNat e.chainId) := rfl
  rw [fields, make_eq_ok]
  exact ⟨rfl, rfl, rfl, Address.spells_of_read (Address.read_marked sized)⟩

theorem CallContext.make_eq_ok {caller address input gas readOnly : Datum} {c : CallContext} :
    make caller address input gas readOnly = .ok c ↔
      Address.Spells caller c.caller ∧ Address.Spells address c.address ∧
        ByteText.read input = .ok c.input ∧ gas = .ofNat c.suppliedGas ∧
        readOnly.truthy = c.readOnly := by
  simp only [make, Outcome.bind_eq_ok, contextNatural_eq_ok, Address.read_eq_ok_iff]
  constructor
  · rintro ⟨a, first, a', second, i, third, g, fourth, made⟩
    cases made
    exact ⟨first, second, third, fourth, rfl⟩
  · rintro ⟨first, second, third, fourth, truth⟩
    refine ⟨_, first, _, second, _, third, _, fourth, ?_⟩
    rw [truth]
    rfl

theorem CallContext.make_printed {c : CallContext} (caller : c.caller.length = addressSize)
    (address : c.address.length = addressSize) :
    make (.text c.caller.marked) (.text c.address.marked) (.text c.input.marked)
      (.ofNat c.suppliedGas) (.bool c.readOnly) = .ok c :=
  make_eq_ok.mpr ⟨Address.spells_of_read (Address.read_marked caller),
    Address.spells_of_read (Address.read_marked address), ByteText.read_marked c.input, rfl, rfl⟩

/-- What byte strings are printed as is read back, also with letters in upper case and with white
space around. A block is read from its printed form, and a call is made again from the entries of
its own, whatever spellings they were made from. -/
theorem printed_contexts_rebuild :
    (∀ kind b, ∃ printed : String, ByteText.write (.bytes kind b) = .ok printed ∧
      ByteText.read (.text printed) = .ok b ∧
      ∀ before cs after, (∀ g ∈ before ++ after, isBlank g.face = true) →
        Text.Recased printed.toList cs →
        ByteText.read (.text (before ++ Text.ofChars cs ++ after)) = .ok b) ∧
    (∀ number timestamp coinbase chainId e,
      BlockEnv.make number timestamp coinbase chainId = .ok e →
      BlockEnv.ofDatum e.toDatum = .ok e) ∧
    ∀ caller address input gas readOnly c,
      CallContext.make caller address input gas readOnly = .ok c →
      ∃ caller' address' input' gas' readOnly',
        c.toDatum = .dict [("caller", caller'), ("address", address'), ("input", input'),
          ("supplied_gas", gas'), ("read_only", readOnly')] ∧
        CallContext.make caller' address' input' gas' readOnly' = .ok c := by
  refine ⟨fun kind b => ?_, fun number timestamp coinbase chainId e made => ?_,
    fun caller address input gas readOnly c made => ?_⟩
  · exact ⟨b.marked, rfl, ByteText.read_marked b, fun _ _ _ => ByteText.read_recased⟩
  · obtain ⟨_, _, _, spells⟩ := BlockEnv.make_eq_ok.mp made
    exact BlockEnv.ofDatum_toDatum spells.length
  · obtain ⟨first, second, _⟩ := CallContext.make_eq_ok.mp made
    exact ⟨_, _, _, _, _, rfl, CallContext.make_printed first.length second.length⟩

/-- Two bytes in mixed case, a block with a short producer, and a call by a short text with an empty
payload. -/
theorem printed_contexts_rebuild_short :
    let b : Bytes := [0xab, 0x0c]
    let a := Bytes.numeral addressSize 0xabc
    let e : BlockEnv := ⟨7, 0, a, 1⟩
    let c : CallContext := ⟨a, a, [], 5, true⟩
    ByteText.read (.text "\u3000 0XAb0C\n") = .ok b ∧
      BlockEnv.make (.int 7) (.int 0) (.text " 0xABC") (.int 1) = .ok e ∧
      BlockEnv.ofDatum e.toDatum = .ok e ∧
      CallContext.make (.text "abc") (.ofBytes a) (.text "0x") (.int 5) (.text "no") = .ok c ∧
      ∃ caller address input gas readOnly,
        c.toDatum = .dict [("caller", caller), ("address", address), ("input", input),
          ("supplied_gas", gas), ("read_only", readOnly)] ∧
        CallContext.make caller address input gas readOnly = .ok c := by
  intro b a e c
  obtain ⟨texts, blocks, calls⟩ := printed_contexts_rebuild
  obtain ⟨printed, written, _, respelled⟩ := texts .fixed b
  have known : printed = "0xab0c" := by
    cases (show ByteText.write (.bytes .fixed b) = .ok "0xab0c" by rfl).symm.trans written
    rfl
  have recased : Text.Recased printed.toList ['0', 'X', 'A', 'b', '0', 'C'] := by
    rw [known]
    exact .cons (.inl rfl) (.cons (.inr rfl) (.cons (.inr rfl) (.cons (.inl rfl)
      (.cons (.inl rfl) (.cons (.inr rfl) .nil)))))
  have around : ∀ g ∈ Text.ofString "\u3000 " ++ Text.ofString "\n", isBlank g.face = true := by
    decide
  have spelled : Text.ofString "\u3000 0XAb0C\n" = Text.ofString "\u3000 " ++
      Text.ofChars ['0', 'X', 'A', 'b', '0', 'C'] ++ Text.ofString "\n" := by rfl
  have text := respelled _ _ _ around recased
  rw [← spelled] at text
  have block : BlockEnv.make (.int 7) (.int 0) (.text " 0xABC") (.int 1) = .ok e := by rfl
  have call : CallContext.make (.text "abc") (.ofBytes a) (.text "0x") (.int 5) (.text "no") =
      .ok c := by rfl
  have read := blocks _ _ _ _ _ block
  have again := calls _ _ _ _ _ _ call
  exact ⟨text, block, read, call, again⟩

end SeededDraws
