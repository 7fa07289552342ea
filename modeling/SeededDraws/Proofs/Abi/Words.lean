import SeededDraws.Abi.Layout
import SeededDraws.Proofs.Bytes
import SeededDraws.Proofs.Fault
/-!
# Words that fit

A word holds every number below `2 ^ 256`, and a byte string of 32 bytes reads as one. So values of
that size are always encoded, and a request of the right length is always decoded.
-/

namespace SeededDraws

/-! ### Sizes of numbers -/

theorem lt_pow_of_le {n j k : Nat} (small : n < Nat.pow 2 j) (le : j ≤ k) : n < Nat.pow 2 k :=
  Nat.lt_of_lt_of_le small (Nat.pow_le_pow_right Nat.two_pos le)

/-! ### Encoding -/

theorem Uint.read_ofNat {k n : Nat} (fits : n < Nat.pow 2 k) :
    Uint.read (.ofNat k) (.ofNat n) = .ok n := by
  rw [show Uint.read (.ofNat k) (.ofNat n) = Uint.check (.ofNat k) n from rfl, Uint.check_ofNat,
    if_pos ⟨Int.natCast_nonneg n, fits⟩]
  rfl

theorem encodeUint256_ofNat {n : Nat} (fits : n < Nat.pow 2 256) :
    encodeUint256 (.ofNat n) = .ok (Bytes.numeral wordSize n) := by
  rw [encodeUint256, Uint.read_ofNat fits]
  rfl

theorem encodeUint64_ofNat {n : Nat} (fits : n < Nat.pow 2 64) :
    encodeUint64 (.ofNat n) = .ok (Bytes.numeral nonceSize n) := by
  rw [encodeUint64, Uint.read_ofNat fits]
  rfl

namespace Words

/-- The elements of a list, one word each. -/
def ofValues (values : List Nat) : Bytes := (values.map (Bytes.numeral wordSize)).flatten

theorem mapM_encodeUint256 {values : List Nat} (fit : ∀ v ∈ values, v < Nat.pow 2 256) :
    (values.map Datum.ofNat).mapM encodeUint256 = .ok (values.map (Bytes.numeral wordSize)) := by
  rw [Outcome.mapM_eq_ok, List.forall₂_map_left_iff, List.forall₂_map_right_iff, List.forall₂_same]
  exact fun v held => encodeUint256_ofNat (fit v held)

theorem encodeCounted_ofNat {values : List Nat} (short : values.length < Nat.pow 2 256)
    (fit : ∀ v ∈ values, v < Nat.pow 2 256) :
    encodeCounted (.list (values.map .ofNat)) =
      .ok (Bytes.numeral wordSize values.length ++ ofValues values) := by
  have length : (Datum.list (values.map .ofNat)).length = .ok values.length := by
    rw [Datum.length, List.length_map]
  have items : (Datum.list (values.map .ofNat)).items = .ok (values.map .ofNat) := rfl
  simp only [encodeCounted, encodeItems, length, items, bind, Except.bind,
    encodeUint256_ofNat short, mapM_encodeUint256 fit, pure, Except.pure]
  rfl

end Words

/-- What a layout answers with. -/
def Layout.response : Layout → List Nat → Bytes
  | .typed, values => Bytes.numeral wordSize wordSize ++
    (Bytes.numeral wordSize values.length ++ Words.ofValues values)
  | .raw, values => Bytes.numeral wordSize values.length ++ Words.ofValues values

theorem Layout.encodeResponse_ofNat (layout : Layout) {values : List Nat}
    (short : values.length < Nat.pow 2 256) (fit : ∀ v ∈ values, v < Nat.pow 2 256) :
    layout.encodeResponse (.list (values.map .ofNat)) = .ok (layout.response values) := by
  have counted := Words.encodeCounted_ofNat short fit
  cases layout with
  | raw => simp only [encodeResponse, encodeValues, counted, response]
  | typed =>
    have head : encodeUint256 (.ofNat wordSize) = .ok (Bytes.numeral wordSize wordSize) :=
      encodeUint256_ofNat (by decide)
    simp only [encodeResponse, encodeValues, Words.encodeArray, head, counted, bind, Except.bind,
      pure, Except.pure, response]

/-! ### Decoding -/

theorem Words.decodeNumber_ofBytes {b : Bytes} {size offset : Nat}
    (room : offset + size ≤ b.length) :
    decodeNumber size (Buffer.ofBytes b) offset =
      .ok (Bytes.value ((b.drop offset).take size), offset + size) := by
  rw [decodeNumber, Buffer.size_ofBytes, if_pos room, Buffer.part_ofBytes]
  rfl

theorem Words.splitSelector_ofBytes (input : Bytes) :
    splitSelector input =
      if input.length < selectorSize then
        .error (.failure (.missingSelector (.ofNat input.length)))
      else .ok (input.take selectorSize, input.drop selectorSize) := by
  rw [splitSelector, Buffer.size_ofBytes]
  by_cases short : input.length < selectorSize
  · rw [if_pos short, if_pos short]
  · have rest : (input.drop selectorSize).take (input.length - selectorSize) =
        input.drop selectorSize := List.take_of_length_le (Nat.le_of_eq List.length_drop)
    rw [if_neg short, if_neg short, Buffer.part_ofBytes, Buffer.part_ofBytes, rest]
    rfl

theorem Layout.decodeArgs_typed (args : Bytes) :
    Layout.decodeArgs .typed args =
      if args.length = wordSize then .ok ⟨args.value, none, none⟩
      else .error (wrongLength args.length wordSize false) := by
  rw [decodeArgs, decodeTypedArgs, Buffer.size_ofBytes]
  by_cases sized : args.length = wordSize
  · have whole : List.take wordSize args = args := List.take_of_length_le (Nat.le_of_eq sized)
    rw [if_pos sized, if_neg (not_not_intro sized), Words.decodeWord,
      Words.decodeNumber_ofBytes (by omega), List.drop_zero, whole]
    rfl
  · rw [if_neg sized, if_pos sized]

theorem Layout.decodeArgs_raw (args : Bytes) :
    Layout.decodeArgs .raw args =
      if args.length < rawRequestSize then
        .error (wrongLength args.length rawRequestSize true)
      else .ok ⟨Bytes.value ((args.drop addressSize).take wordSize),
        some (Bytes.value ((args.drop (addressSize + wordSize)).take nonceSize)),
        some (args.take addressSize)⟩ := by
  rw [decodeArgs, decodeRawRequest, Buffer.size_ofBytes]
  by_cases short : args.length < rawRequestSize
  · rw [if_pos short, if_pos short]
  · have room : addressSize + wordSize + nonceSize ≤ args.length := Nat.le_of_not_lt short
    rw [if_neg short, if_neg short, Buffer.part_ofBytes, List.drop_zero]
    simp only [Words.decodeWord, Words.decodeUint64, bind, Except.bind, pure, Except.pure,
      Words.decodeNumber_ofBytes (Nat.le_of_add_right_le room), Words.decodeNumber_ofBytes room]

end SeededDraws
