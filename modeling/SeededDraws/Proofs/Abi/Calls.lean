import Mathlib.Data.List.Forall2
import SeededDraws.Proofs.Abi.Request
import SeededDraws.Proofs.Abi.Response
/-!
# Call data

The call of a function is its selector and one word for each argument. A word is read back as the
argument that it stands for, so no two lists of arguments have the same call data.
-/

namespace SeededDraws

inductive Argument where
  | number (n : Int)
  | bytes (b : Bytes)

namespace Argument

def toDatum : Argument → Datum
  | .number n => .int n
  | .bytes b => .ofBytes b

/-- The number in the word of an argument. -/
def word : Argument → Nat
  | .number n => n.toNat
  | .bytes b => b.value

/-- Arrays have no word, so nothing fits them. -/
def Fits : AbiType → Argument → Prop
  | .uint256, .number n => 0 ≤ n ∧ n < Nat.pow 2 256
  | .address, .bytes b => b.length = addressSize
  | _, _ => False

theorem fits_uint256 {a : Argument} :
    a.Fits .uint256 ↔ ∃ n, a = .number n ∧ 0 ≤ n ∧ n < Nat.pow 2 256 := by
  cases a with
  | number n =>
    constructor
    · exact fun bounds => ⟨n, rfl, bounds⟩
    · rintro ⟨_, ⟨⟩, bounds⟩
      exact bounds
  | bytes b =>
    constructor
    · exact False.elim
    · rintro ⟨_, ⟨⟩, _⟩

theorem fits_address {a : Argument} :
    a.Fits .address ↔ ∃ b, a = .bytes b ∧ b.length = addressSize := by
  cases a with
  | number n =>
    constructor
    · exact False.elim
    · rintro ⟨_, ⟨⟩, _⟩
  | bytes b =>
    constructor
    · exact fun sized => ⟨b, rfl, sized⟩
    · rintro ⟨_, ⟨⟩, sized⟩
      exact sized

theorem address_lt {b : Bytes} (sized : b.length = addressSize) : b.value < Nat.pow 2 160 :=
  Nat.lt_of_lt_of_eq (Bytes.value_lt_of_length sized) (by decide)

variable {type : AbiType} {a b : Argument}

theorem word_lt (fits : a.Fits type) : a.word < Nat.pow 2 256 := by
  cases type with
  | uint256 =>
    obtain ⟨n, rfl, _, small⟩ := fits_uint256.mp fits
    show n.toNat < Nat.pow 2 256
    omega
  | uint256Array => cases a <;> exact fits.elim
  | address =>
    obtain ⟨b, rfl, sized⟩ := fits_address.mp fits
    exact lt_pow_of_le (address_lt sized) (by decide)

/-- The word tells which argument it was. -/
theorem eq_of_word (fits : a.Fits type) (fits' : b.Fits type) (same : a.word = b.word) : a = b := by
  cases type with
  | uint256 =>
    obtain ⟨n, rfl, nonneg, _⟩ := fits_uint256.mp fits
    obtain ⟨m, rfl, nonneg', _⟩ := fits_uint256.mp fits'
    have same : n.toNat = m.toNat := same
    rw [← Int.toNat_of_nonneg nonneg, same, Int.toNat_of_nonneg nonneg']
  | uint256Array => cases a <;> exact fits.elim
  | address =>
    obtain ⟨b, rfl, sized⟩ := fits_address.mp fits
    obtain ⟨c, rfl, sized'⟩ := fits_address.mp fits'
    rw [Bytes.eq_of_value (sized.trans sized'.symm) same]

/-- An argument is its word, or it does not conform to the type. -/
theorem encode_cases (type : AbiType) (a : Argument) :
    a.Fits type ∧ Function.encodeArgument type a.toDatum = .ok (Bytes.numeral wordSize a.word) ∨
      ¬a.Fits type ∧ ∃ cause, Function.encodeArgument type a.toDatum = .error (.misfit cause) := by
  cases type with
  | uint256 =>
    cases a with
    | number n =>
      rw [Function.encodeArgument, toDatum, encodeUint256_int]
      by_cases bounds : 0 ≤ n ∧ n.toNat < Nat.pow 2 256
      · rw [if_pos bounds]
        exact .inl ⟨⟨bounds.1, by omega⟩, rfl⟩
      · rw [if_neg bounds]
        refine .inr ⟨?_, _, rfl⟩
        rintro ⟨nonneg, small⟩
        apply bounds
        exact ⟨nonneg, by omega⟩
    | bytes b => exact .inr ⟨id, _, rfl⟩
  | uint256Array => exact .inr ⟨by cases a <;> exact id, _, rfl⟩
  | address =>
    cases a with
    | number n => exact .inr ⟨id, _, rfl⟩
    | bytes b =>
      rw [Function.encodeArgument, toDatum, encodeAddress]
      by_cases sized : b.length = addressSize
      · rw [Layout.readAddress_ofBytes sized]
        have short : b.length ≤ wordSize := sized ▸ by decide
        have padded := Bytes.padLeft_eq_numeral short
        refine .inl ⟨sized, ?_⟩
        exact congrArg Except.ok padded
      · refine .inr ⟨sized, .addressLength b.length, ?_⟩
        simp only [readAddress, Datum.bytesOr, Datum.ofBytes, Datum.bytes?, bind, Except.bind,
          if_neg sized]

end Argument

/-! ### Lists of arguments -/

namespace Function

open Argument

/-- What is asked of the arguments, one by one. -/
theorem forall₂_fits {types : List AbiType} {args : List Argument} :
    List.Forall₂ (fun type a => Fits type a) types args ↔
      args.length = types.length ∧ AbiType.uint256Array ∉ types ∧
        ∀ p ∈ types.zip args,
          (p.1 = .uint256 → ∃ n, p.2 = .number n ∧ 0 ≤ n ∧ n < Nat.pow 2 256) ∧
          (p.1 = .address → ∃ b, p.2 = .bytes b ∧ b.length = addressSize) := by
  induction types generalizing args with
  | nil =>
    cases args with
    | nil => simp
    | cons a args => simp
  | cons type types ih =>
    cases args with
    | nil => simp
    | cons a args =>
      rw [List.forall₂_cons, ih, List.zip_cons_cons, List.forall_mem_cons, List.mem_cons, not_or,
        List.length_cons, List.length_cons, Nat.add_right_cancel_iff]
      have here : Fits type a ↔ AbiType.uint256Array ≠ type ∧
          (type = .uint256 → ∃ n, a = .number n ∧ 0 ≤ n ∧ n < Nat.pow 2 256) ∧
          (type = .address → ∃ b, a = .bytes b ∧ b.length = addressSize) := by
        cases type with
        | uint256 => simp [fits_uint256]
        | uint256Array => cases a <;> simp [Fits]
        | address => simp [fits_address]
      rw [here]
      tauto

variable {types : List AbiType} {args others : List Argument}

theorem mapM_encodeArgument (fit : List.Forall₂ (fun type a => Fits type a) types args) :
    (types.zip (args.map toDatum)).mapM (fun p => encodeArgument p.1 p.2) =
      .ok (args.map fun a => Bytes.numeral wordSize a.word) := by
  induction fit with
  | nil => rfl
  | @cons type a types args fits _ ih =>
    rcases encode_cases type a with ⟨_, first⟩ | ⟨unfit, _⟩
    · rw [List.map_cons, List.zip_cons_cons, List.mapM_cons, first, ih]
      rfl
    · exact absurd fits unfit

/-- One argument that does not conform is enough. -/
theorem mapM_encodeArgument_error (sized : args.length = types.length)
    (unfit : ¬List.Forall₂ (fun type a => Fits type a) types args) :
    ∃ cause, (types.zip (args.map toDatum)).mapM (fun p => encodeArgument p.1 p.2) =
      .error (.misfit cause) := by
  induction types generalizing args with
  | nil =>
    rw [List.eq_nil_of_length_eq_zero sized] at unfit
    exact absurd .nil unfit
  | cons type types ih =>
    cases args with
    | nil => cases sized
    | cons a args =>
      rw [List.map_cons, List.zip_cons_cons, List.mapM_cons]
      rcases encode_cases type a with ⟨fits, first⟩ | ⟨_, cause, first⟩
      · have later : ¬List.Forall₂ (fun type a => Fits type a) types args := fun rest =>
          unfit (.cons fits rest)
        obtain ⟨cause, failed⟩ := ih (Nat.succ.inj sized) later
        exact ⟨cause, by rw [first, failed]; rfl⟩
      · exact ⟨cause, by rw [first]; rfl⟩

variable {f : Function} {selector : Bytes}

/-- The selector and the words of the arguments, or a misfit. -/
theorem encodeCall_cases (known : f.selector = .ok selector) (args : List Argument) :
    List.Forall₂ (fun type a => Fits type a) f.inputs args ∧
        f.encodeCall (args.map toDatum) = .ok (selector ++ Words.ofValues (args.map word)) ∨
      ¬List.Forall₂ (fun type a => Fits type a) f.inputs args ∧
        ∃ cause, f.encodeCall (args.map toDatum) = .error (.misfit cause) := by
  rw [encodeCall, List.length_map]
  by_cases sized : args.length = f.inputs.length
  · rw [if_neg (not_not_intro sized), known]
    by_cases fit : List.Forall₂ (fun type a => Fits type a) f.inputs args
    · refine .inl ⟨fit, ?_⟩
      simp only [mapM_encodeArgument fit, bind, Except.bind, pure, Except.pure, Words.ofValues,
        List.map_map]
      rfl
    · obtain ⟨cause, failed⟩ := mapM_encodeArgument_error sized fit
      exact .inr ⟨fit, cause, by simp only [failed, bind, Except.bind]⟩
  · rw [if_pos sized]
    exact .inr ⟨fun fit => sized fit.length_eq.symm, _, rfl⟩

theorem words_lt (fit : List.Forall₂ (fun type a => Fits type a) types args) :
    ∀ v ∈ args.map word, v < Nat.pow 2 256 := by
  induction fit with
  | nil => exact nofun
  | cons fits _ ih =>
    intro v held
    rcases List.mem_cons.mp held with rfl | later
    · exact word_lt fits
    · exact ih v later

theorem eq_of_words (fit : List.Forall₂ (fun type a => Fits type a) types args)
    (fit' : List.Forall₂ (fun type a => Fits type a) types others)
    (same : args.map word = others.map word) : args = others := by
  induction fit generalizing others with
  | nil =>
    cases fit'
    rfl
  | cons fits _ ih =>
    cases fit' with
    | cons fits' rest =>
      obtain ⟨first, later⟩ := List.cons.inj same
      rw [eq_of_word fits fits' first, ih rest later]

theorem fits_of_mem (fit : List.Forall₂ (fun type a => Fits type a) types args) {a : Argument}
    (held : a ∈ args) : ∃ type, Fits type a := by
  induction fit with
  | nil => cases held
  | cons fits _ ih =>
    rcases List.mem_cons.mp held with rfl | later
    · exact ⟨_, fits⟩
    · exact ih later

end Function

/-- The words of numbers stand one after the other. -/
theorem Words.drop_ofValues (values : List Nat) (i : Nat) :
    (ofValues values).drop (wordSize * i) = ofValues (values.drop i) := by
  induction values generalizing i with
  | nil =>
    rw [List.drop_nil]
    exact List.drop_nil
  | cons v rest ih =>
    cases i with
    | zero => rfl
    | succ i =>
      rw [ofValues_cons, List.drop_succ_cons, Nat.mul_succ, Nat.add_comm, ← List.drop_drop,
        List.drop_left' (Bytes.length_numeral ..), ih]

theorem Words.decodeWord_ofValues {values : List Nat} (fit : ∀ v ∈ values, v < Nat.pow 2 256)
    {i v : Nat} (at_ : values[i]? = some v) :
    decodeWord (ofValues values) (wordSize * i) = .ok (v, wordSize * i + wordSize) := by
  obtain ⟨inside, rfl⟩ := List.getElem?_eq_some_iff.mp at_
  have room : wordSize * i + wordSize ≤ (ofValues values).length := by
    rw [length_ofValues, ← Nat.mul_succ, Nat.mul_comm]
    exact Nat.mul_le_mul_right wordSize inside
  have sized : (Bytes.numeral wordSize values[i]).length = wordSize := Bytes.length_numeral ..
  rw [decodeWord, decodeNumber_ofBytes room, drop_ofValues, List.drop_eq_getElem_cons inside,
    ofValues_cons, List.take_left' sized, Bytes.value_numeral_word (fit _ (List.getElem_mem inside))]

theorem Words.eq_of_ofValues {values others : List Nat} (fit : ∀ v ∈ values, v < Nat.pow 2 256)
    (fit' : ∀ v ∈ others, v < Nat.pow 2 256) (count : values.length = others.length)
    (same : ofValues values = ofValues others) : values = others :=
  calc
    values = toValues values.length (ofValues values) := (toValues_ofValues fit).symm
    _ = toValues others.length (ofValues others) := by rw [count, same]
    _ = others := toValues_ofValues fit'

/-- The call data of a function are as long as its inputs say, give back the selector and each
argument at its place, and belong to one list of arguments only. Any other list is refused because
it does not conform to the inputs. -/
theorem call_data_faithful (f : Function) (ascii : ∀ g ∈ f.name, g.code < 128) :
    ∃ selector, f.selector = .ok selector ∧ selector.length = selectorSize ∧
      ∀ args : List Argument,
        ((∃ payload, f.encodeCall (args.map Argument.toDatum) = .ok payload) ↔
          args.length = f.inputs.length ∧ AbiType.uint256Array ∉ f.inputs ∧
            ∀ p ∈ f.inputs.zip args,
              (p.1 = .uint256 → ∃ n, p.2 = .number n ∧ 0 ≤ n ∧ n < Nat.pow 2 256) ∧
              (p.1 = .address → ∃ b, p.2 = .bytes b ∧ b.length = addressSize)) ∧
        (∀ fault, f.encodeCall (args.map Argument.toDatum) = .error fault → ∃ cause, fault = .misfit cause) ∧
        ∀ payload, f.encodeCall (args.map Argument.toDatum) = .ok payload →
          payload.length = selectorSize + wordSize * args.length ∧
          (∃ rest, Words.splitSelector payload = .ok (selector, rest) ∧
            ∀ i arg, args[i]? = some arg → ∃ v : Nat,
              Words.decodeWord rest (wordSize * i) = .ok (v, wordSize * i + wordSize) ∧
              (∀ n, arg = .number n → (v : Int) = n) ∧
              ∀ b, arg = .bytes b → v = b.value ∧ v < Nat.pow 2 160) ∧
          ∀ others : List Argument,
            f.encodeCall (others.map Argument.toDatum) = .ok payload → others = args := by
  obtain ⟨selector, known, four⟩ := Function.selector_of_ascii ascii
  refine ⟨selector, known, four, ?_⟩
  intro args
  rw [← Function.forall₂_fits]
  rcases Function.encodeCall_cases known args with ⟨fit, encoded⟩ | ⟨unfit, cause, refused⟩
  · refine ⟨⟨fun _ => fit, fun _ => ⟨_, encoded⟩⟩, ?_, ?_⟩
    · intro fault failed
      rw [encoded] at failed
      cases failed
    · intro payload same
      rw [encoded] at same
      cases same
      have small := Function.words_lt fit
      refine ⟨?_, ⟨Words.ofValues (args.map Argument.word), ?_, ?_⟩, ?_⟩
      · rw [List.length_append, four, Words.length_ofValues, List.length_map, Nat.mul_comm]
      · have long : ¬(selector ++ Words.ofValues (args.map Argument.word)).length < selectorSize := by
          rw [List.length_append, four]
          omega
        rw [Words.splitSelector_ofBytes, if_neg long, List.take_left' four, List.drop_left' four]
      · intro i arg held
        have word : (args.map Argument.word)[i]? = some arg.word := by
          rw [List.getElem?_map, held]
          rfl
        refine ⟨arg.word, Words.decodeWord_ofValues small word, ?_, ?_⟩
        · rintro n rfl
          obtain ⟨type, fits⟩ := Function.fits_of_mem fit (List.mem_of_getElem? held)
          cases type with
          | uint256 => exact Int.toNat_of_nonneg fits.1
          | uint256Array => exact fits.elim
          | address => exact fits.elim
        · rintro b rfl
          obtain ⟨type, fits⟩ := Function.fits_of_mem fit (List.mem_of_getElem? held)
          cases type with
          | uint256 => exact fits.elim
          | uint256Array => exact fits.elim
          | address => exact ⟨rfl, Argument.address_lt fits⟩
      · intro others same
        rcases Function.encodeCall_cases known others with ⟨fit', encoded'⟩ | ⟨_, _, refused⟩
        · rw [encoded'] at same
          have words := List.append_cancel_left (Except.ok.inj same)
          have small' := Function.words_lt fit'
          have count : others.length = args.length := fit'.length_eq.symm.trans fit.length_eq
          apply Function.eq_of_words fit' fit
          apply Words.eq_of_ofValues small' small _ words
          rw [List.length_map, List.length_map, count]
        · rw [refused] at same
          cases same
  · refine ⟨⟨?_, fun fit => absurd fit unfit⟩, ?_, ?_⟩
    · rintro ⟨payload, encoded⟩
      rw [refused] at encoded
      cases encoded
    · intro fault failed
      rw [refused] at failed
      cases failed
      exact ⟨cause, rfl⟩
    · intro payload encoded
      rw [refused] at encoded
      cases encoded

/-- Five for the address seven: the second word of the arguments is the number. -/
theorem call_data_faithful_payment :
    let f : Function := ⟨"pay", [.address, .uint256], [], .text "view"⟩
    let args : List Argument := [.bytes (Bytes.numeral addressSize 7), .number 5]
    ∃ selector payload rest, f.encodeCall (args.map Argument.toDatum) = .ok payload ∧
      payload.length = 68 ∧ Words.splitSelector payload = .ok (selector, rest) ∧
      Words.decodeWord rest 32 = .ok (5, 64) ∧
      ¬∃ payload, f.encodeCall (args.reverse.map Argument.toDatum) = .ok payload := by
  intro f args
  have ascii : ∀ g ∈ f.name, g.code < 128 := by decide
  obtain ⟨selector, _, _, faithful⟩ := call_data_faithful f ascii
  obtain ⟨accepted, _, told⟩ := faithful args
  have good : ∃ payload, f.encodeCall (args.map Argument.toDatum) = .ok payload := by
    apply accepted.mpr
    refine ⟨rfl, by decide, ?_⟩
    simp [f, args, Bytes.length_numeral]
  obtain ⟨payload, encoded⟩ := good
  obtain ⟨length, ⟨rest, split, each⟩, _⟩ := told payload encoded
  obtain ⟨v, read, number, _⟩ := each 1 (.number 5) rfl
  have five : v = 5 := by
    have := number 5 rfl
    omega
  subst five
  refine ⟨selector, payload, rest, encoded, length, split, read, ?_⟩
  intro swapped
  obtain ⟨_, _, each⟩ := (faithful args.reverse).1.mp swapped
  obtain ⟨_, ⟨⟩, _⟩ := (each (.address, .number 5) (by simp [f, args])).2 rfl

end SeededDraws
