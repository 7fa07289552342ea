import SeededDraws.Proofs.Abi.Words
/-!
# Responses in both layouts

A list of numbers that fit their words has one response in each layout, and nothing else is read as
that list. The offset word, the count word and the length of the buffer leave no second form: the
count fixes the length, and each word fixes its number.
-/

namespace SeededDraws

namespace Words

/-- The numbers fit a word each, and so does their count. -/
def Fit (values : List Nat) : Prop :=
  values.length < Nat.pow 2 256 ∧ ∀ v ∈ values, v < Nat.pow 2 256

/-! ### Words one by one -/

/-- The numbers in the first `count` words. -/
def toValues : Nat → Bytes → List Nat
  | 0, _ => []
  | count + 1, b => Bytes.value (b.take wordSize) :: toValues count (b.drop wordSize)

theorem length_toValues (count : Nat) (b : Bytes) : (toValues count b).length = count := by
  induction count generalizing b with
  | zero => rfl
  | succ count ih => rw [toValues, List.length_cons, ih]

theorem value_take_lt (b : Bytes) : Bytes.value (b.take wordSize) < Nat.pow 2 256 := by
  have short : (b.take wordSize).length ≤ wordSize := List.length_take_le ..
  calc
    Bytes.value (b.take wordSize) < Nat.pow 256 (b.take wordSize).length := Bytes.value_lt _
    _ ≤ Nat.pow 256 wordSize := Nat.pow_le_pow_right (by decide) short
    _ = Nat.pow 2 256 := by decide

theorem toValues_lt (count : Nat) (b : Bytes) : ∀ v ∈ toValues count b, v < Nat.pow 2 256 := by
  induction count generalizing b with
  | zero =>
    intro v held
    cases held
  | succ count ih =>
    intro v held
    rcases List.mem_cons.mp held with rfl | later
    · exact value_take_lt b
    · exact ih _ v later

theorem length_ofValues (values : List Nat) :
    (ofValues values).length = values.length * wordSize := by
  induction values with
  | nil => rfl
  | cons v rest ih =>
    rw [ofValues, List.map_cons, List.flatten_cons, List.length_append, Bytes.length_numeral,
      List.length_cons]
    rw [ofValues] at ih
    rw [ih, Nat.succ_mul, Nat.add_comm]

theorem ofValues_cons (v : Nat) (rest : List Nat) :
    ofValues (v :: rest) = Bytes.numeral wordSize v ++ ofValues rest := rfl

/-- Every word is the numeral of its number. -/
theorem ofValues_toValues {count : Nat} {b : Bytes} (sized : b.length = count * wordSize) :
    ofValues (toValues count b) = b := by
  induction count generalizing b with
  | zero => exact (List.length_eq_zero_iff.mp (sized.trans (Nat.zero_mul _))).symm
  | succ count ih =>
    rw [Nat.succ_mul] at sized
    have head : (b.take wordSize).length = wordSize := by
      rw [List.length_take]
      omega
    have tail : (b.drop wordSize).length = count * wordSize := by
      rw [List.length_drop]
      omega
    rw [toValues, ofValues_cons, Bytes.numeral_value head, ih tail, List.take_append_drop]

theorem toValues_ofValues {values : List Nat} (fit : ∀ v ∈ values, v < Nat.pow 2 256) :
    toValues values.length (ofValues values) = values := by
  induction values with
  | nil => rfl
  | cons v rest ih =>
    have first := fit v (List.mem_cons_self ..)
    have others := ih fun u held => fit u (List.mem_cons_of_mem _ held)
    have sized : (Bytes.numeral wordSize v).length = wordSize := Bytes.length_numeral ..
    rw [List.length_cons, toValues, ofValues_cons, List.take_left' sized, List.drop_left' sized,
      Bytes.value_numeral_word first, others]

/-! ### Reading counted words -/

theorem decodeEach_ofBytes (b : Bytes) (offset count : Nat) :
    decodeEach b offset count = .ok (toValues count (b.drop offset)) := by
  induction count generalizing offset with
  | zero => rfl
  | succ count ih =>
    rw [decodeEach, Buffer.part_ofBytes, ih, toValues, List.drop_drop]
    rfl

/-- The count at a place and the words behind it. -/
def decodeCountedAt (buffer : Buffer) (offset : Nat) : Outcome (List Nat) := do
  let (count, offset) ← decodeWord buffer offset
  decodeItems buffer offset count

theorem decodeWord_short {b : Bytes} {offset : Nat} (short : b.length < offset + wordSize) :
    decodeWord b offset = .error (.value .truncated) := by
  rw [decodeWord, decodeNumber, Buffer.size_ofBytes, if_neg (Nat.not_le.mpr short)]

theorem decodeCountedAt_ofBytes {b : Bytes} {offset : Nat} (room : offset + wordSize ≤ b.length) :
    let count := Bytes.value ((b.drop offset).take wordSize)
    decodeCountedAt b offset =
      if b.length = offset + wordSize + count * wordSize then
        .ok (toValues count (b.drop (offset + wordSize)))
      else .error (.value (.wordCount count (offset + wordSize) b.length)) := by
  intro count
  simp only [decodeCountedAt, decodeWord, decodeNumber_ofBytes room, bind, Except.bind, decodeItems,
    Buffer.size_ofBytes, decodeEach_ofBytes]
  rfl

/-- The counted form is read from any place. -/
theorem decodeCountedAt_counted {b : Bytes} {offset : Nat} {values : List Nat} (fit : Fit values)
    (behind : b.drop offset = Layout.response .raw values) :
    decodeCountedAt b offset = .ok values := by
  have size := congrArg List.length behind
  rw [List.length_drop, Layout.response, List.length_append, Bytes.length_numeral,
    length_ofValues] at size
  have room : offset + wordSize ≤ b.length := by
    have positive : 0 < wordSize := by decide
    omega
  have sized : (Bytes.numeral wordSize values.length).length = wordSize := Bytes.length_numeral ..
  have count : Bytes.value ((b.drop offset).take wordSize) = values.length := by
    rw [behind, Layout.response, List.take_left' sized, Bytes.value_numeral_word fit.1]
  have rest : b.drop (offset + wordSize) = ofValues values := by
    rw [← List.drop_drop, behind, Layout.response, List.drop_left' sized]
  rw [decodeCountedAt_ofBytes room, count, if_pos (by omega), rest, toValues_ofValues fit.2]

/-- Nothing but the counted form is read. -/
theorem counted_of_decodeCountedAt {b : Bytes} {offset : Nat} {values : List Nat}
    (read : decodeCountedAt b offset = .ok values) :
    Fit values ∧ b.drop offset = Layout.response .raw values := by
  by_cases room : offset + wordSize ≤ b.length
  · rw [decodeCountedAt_ofBytes room] at read
    split at read
    · next exact_ =>
      cases read
      -- the count fixes the length, so the buffer ends with the last word
      have head : ((b.drop offset).take wordSize).length = wordSize := by
        rw [List.length_take, List.length_drop]
        omega
      have tail : (b.drop (offset + wordSize)).length =
          Bytes.value ((b.drop offset).take wordSize) * wordSize := by
        rw [List.length_drop]
        omega
      refine ⟨⟨?_, toValues_lt _ _⟩, ?_⟩
      · rw [length_toValues]
        exact value_take_lt _
      · rw [Layout.response, length_toValues, Bytes.numeral_value head, ofValues_toValues tail,
          ← List.drop_drop, List.take_append_drop]
    · cases read
  · rw [decodeCountedAt, decodeWord_short (Nat.not_le.mp room)] at read
    cases read

theorem decodeCountedAt_ok_or_value (b : Bytes) (offset : Nat) :
    (∃ values, decodeCountedAt b offset = .ok values) ∨
      ∃ cause, decodeCountedAt b offset = .error (.value cause) := by
  by_cases room : offset + wordSize ≤ b.length
  · rw [decodeCountedAt_ofBytes room]
    split
    · exact .inl ⟨_, rfl⟩
    · exact .inr ⟨_, rfl⟩
  · rw [decodeCountedAt, decodeWord_short (Nat.not_le.mp room)]
    exact .inr ⟨_, rfl⟩

end Words

/-! ### Reading a response -/

namespace Layout

theorem decodeResponse_raw (b : Bytes) :
    Layout.decodeResponse .raw b = Words.decodeCountedAt b 0 := rfl

/-- Behind the offset word an array is the counted form. -/
theorem decodeResponse_typed {b : Bytes} (room : wordSize ≤ b.length) :
    Layout.decodeResponse .typed b =
      if Bytes.value (b.take wordSize) = wordSize then Words.decodeCountedAt b wordSize
      else .error (.value (.arrayOffset (Bytes.value (b.take wordSize)))) := by
  have head : Words.decodeWord b 0 = .ok (Bytes.value (b.take wordSize), wordSize) := by
    rw [Words.decodeWord, Words.decodeNumber_ofBytes (by omega), Nat.zero_add, List.drop_zero]
  simp only [decodeResponse, Words.decodeArray, head, bind, Except.bind]
  by_cases offset : Bytes.value (b.take wordSize) = wordSize
  · rw [if_pos offset, if_neg (not_not_intro offset)]
    rfl
  · rw [if_neg offset, if_pos offset]

theorem decodeResponse_typed_short {b : Bytes} (short : b.length < wordSize) :
    Layout.decodeResponse .typed b = .error (.value .truncated) := by
  have head : Words.decodeWord b 0 = .error (.value .truncated) :=
    Words.decodeWord_short (by omega)
  simp only [decodeResponse, Words.decodeArray, head, bind, Except.bind]

theorem decodeResponse_response (layout : Layout) {values : List Nat} (fit : Words.Fit values) :
    layout.decodeResponse (layout.response values) = .ok values := by
  cases layout with
  | raw =>
    rw [decodeResponse_raw]
    exact Words.decodeCountedAt_counted fit List.drop_zero
  | typed =>
    have sized : (Bytes.numeral wordSize wordSize).length = wordSize := Bytes.length_numeral ..
    have room : wordSize ≤ (response .typed values).length := by
      rw [response, List.length_append, sized]
      omega
    have head : Bytes.value ((response .typed values).take wordSize) = wordSize := by
      rw [response, List.take_left' sized, Bytes.value_numeral (by decide)]
    rw [decodeResponse_typed room, if_pos head]
    exact Words.decodeCountedAt_counted fit (List.drop_left' sized)

theorem response_of_decodeResponse {layout : Layout} {b : Bytes} {values : List Nat}
    (read : layout.decodeResponse b = .ok values) :
    Words.Fit values ∧ b = layout.response values := by
  cases layout with
  | raw => exact Words.counted_of_decodeCountedAt read
  | typed =>
    by_cases room : wordSize ≤ b.length
    · rw [decodeResponse_typed room] at read
      split at read
      · next offset =>
        obtain ⟨fit, behind⟩ := Words.counted_of_decodeCountedAt read
        have head : b.take wordSize = Bytes.numeral wordSize wordSize := by
          have sized : (b.take wordSize).length = wordSize := List.length_take_of_le room
          rw [← Bytes.numeral_value sized, offset]
        refine ⟨fit, ?_⟩
        calc
          b = b.take wordSize ++ b.drop wordSize := (List.take_append_drop ..).symm
          _ = response .typed values := by rw [head, behind]; rfl
      · cases read
    · rw [decodeResponse_typed_short (Nat.not_le.mp room)] at read
      cases read

theorem decodeResponse_ok_or_value (layout : Layout) (b : Bytes) :
    (∃ values, layout.decodeResponse b = .ok values) ∨
      ∃ cause, layout.decodeResponse b = .error (.value cause) := by
  cases layout with
  | raw => exact Words.decodeCountedAt_ok_or_value b 0
  | typed =>
    by_cases room : wordSize ≤ b.length
    · rw [decodeResponse_typed room]
      split
      · exact Words.decodeCountedAt_ok_or_value b wordSize
      · exact .inr ⟨_, rfl⟩
    · exact .inr ⟨_, decodeResponse_typed_short (Nat.not_le.mp room)⟩

end Layout

/-! ### Writing a response -/

/-- Any integer is written as a word or found out of range. -/
theorem encodeUint256_int (v : Int) :
    encodeUint256 (.int v) =
      if 0 ≤ v ∧ v.toNat < Nat.pow 2 256 then .ok (Bytes.numeral wordSize v.toNat)
      else .error (.misfit (.outOfRange (.ofNat 256))) := by
  rw [encodeUint256, show Uint.read (.ofNat 256) (.int v) = Uint.check (.ofNat 256) v from rfl,
    Uint.check_ofNat]
  split <;> rfl

/-- Integers that fit a word each, and so does their count. -/
def Words.IntegersFit (values : List Int) : Prop :=
  values.length < Nat.pow 2 256 ∧ ∀ v ∈ values, 0 ≤ v ∧ v < Nat.pow 2 256

namespace Words

theorem IntegersFit.natural {values : List Int} (fit : IntegersFit values) :
    Fit (values.map Int.toNat) ∧ (values.map Int.toNat).map Int.ofNat = values := by
  refine ⟨⟨?_, ?_⟩, ?_⟩
  · rw [List.length_map]
    exact fit.1
  · intro v held
    obtain ⟨i, member, rfl⟩ := List.mem_map.mp held
    have bounds := fit.2 i member
    omega
  · rw [List.map_map]
    refine (List.map_congr_left fun i member => ?_).trans (List.map_id _)
    exact Int.toNat_of_nonneg (fit.2 i member).1

theorem mapM_encodeUint256_error {values : List Int} {v : Int} (held : v ∈ values)
    (bad : ¬(0 ≤ v ∧ v < Nat.pow 2 256)) :
    (values.map Datum.int).mapM encodeUint256 = .error (.misfit (.outOfRange (.ofNat 256))) := by
  induction values with
  | nil => cases held
  | cons u rest ih =>
    rw [List.map_cons, List.mapM_cons, encodeUint256_int]
    by_cases good : 0 ≤ u ∧ u.toNat < Nat.pow 2 256
    · have later : v ∈ rest := by
        rcases List.mem_cons.mp held with rfl | later
        · exact absurd ⟨good.1, by omega⟩ bad
        · exact later
      rw [if_pos good, ih later]
      rfl
    · rw [if_neg good]
      rfl

end Words

namespace Layout

/-- Whatever does not fit is one and the same failure. -/
def wordOverflow : Failure := .encodingFailure (.text (Misfit.outOfRange (.ofNat 256)).message)

theorem encodeResponse_of_fit (layout : Layout) {values : List Int}
    (fit : Words.IntegersFit values) :
    layout.encodeResponse (.list (values.map .int)) =
      .ok (layout.response (values.map Int.toNat)) := by
  obtain ⟨natural, same⟩ := fit.natural
  have list : values.map Datum.int = (values.map Int.toNat).map Datum.ofNat := by
    conv_lhs => rw [← same]
    rw [List.map_map]
    rfl
  rw [list, layout.encodeResponse_ofNat natural.1 natural.2]

/-- What the codec makes of the words of a list. -/
theorem encodeResponse_list (layout : Layout) {items : List Datum}
    (short : items.length < Nat.pow 2 256) :
    layout.encodeResponse (.list items) =
      match items.mapM encodeUint256 with
      | .ok words => .ok (match layout with
        | .typed => Bytes.numeral wordSize wordSize ++
          (Bytes.numeral wordSize items.length ++ words.flatten)
        | .raw => Bytes.numeral wordSize items.length ++ words.flatten)
      | .error (.misfit cause) => .error (.failure (.encodingFailure (.text cause.message)))
      | .error fault => .error fault := by
  have counted : Words.encodeCounted (.list items) =
      (items.mapM encodeUint256).map fun words =>
        Bytes.numeral wordSize items.length ++ words.flatten := by
    have length : (Datum.list items).length = .ok items.length := rfl
    have elements : (Datum.list items).items = .ok items := rfl
    simp only [Words.encodeCounted, Words.encodeItems, length, elements, bind, Except.bind,
      encodeUint256_ofNat short]
    cases items.mapM encodeUint256 <;> rfl
  have head : encodeUint256 (.ofNat wordSize) = .ok (Bytes.numeral wordSize wordSize) :=
    encodeUint256_ofNat (by decide)
  cases layout with
  | raw =>
    rw [encodeResponse, encodeValues, counted]
    cases items.mapM encodeUint256 with
    | ok words => rfl
    | error fault => cases fault <;> rfl
  | typed =>
    rw [encodeResponse, encodeValues, Words.encodeArray, head, counted]
    cases items.mapM encodeUint256 with
    | ok words => rfl
    | error fault => cases fault <;> rfl

theorem encodeResponse_long (layout : Layout) {items : List Datum}
    (long : ¬items.length < Nat.pow 2 256) :
    layout.encodeResponse (.list items) = .error (.failure Layout.wordOverflow) := by
  have count : encodeUint256 (.ofNat items.length) = .error (.misfit (.outOfRange (.ofNat 256))) := by
    rw [Datum.ofNat, encodeUint256_int, if_neg]
    exact fun bounds => long bounds.2
  have counted : Words.encodeCounted (.list items) = .error (.misfit (.outOfRange (.ofNat 256))) := by
    have length : (Datum.list items).length = .ok items.length := rfl
    simp only [Words.encodeCounted, length, bind, Except.bind, count]
  have head : encodeUint256 (.ofNat wordSize) = .ok (Bytes.numeral wordSize wordSize) :=
    encodeUint256_ofNat (by decide)
  cases layout with
  | raw =>
    rw [encodeResponse, encodeValues, counted]
    rfl
  | typed =>
    rw [encodeResponse, encodeValues, Words.encodeArray, head, counted]
    rfl

theorem encodeResponse_of_unfit (layout : Layout) {values : List Int}
    (unfit : ¬Words.IntegersFit values) :
    layout.encodeResponse (.list (values.map .int)) = .error (.failure Layout.wordOverflow) := by
  by_cases short : (values.map Datum.int).length < Nat.pow 2 256
  · have bad : ∃ v ∈ values, ¬(0 ≤ v ∧ v < Nat.pow 2 256) := by
      by_contra none
      push Not at none
      rw [List.length_map] at short
      exact unfit ⟨short, none⟩
    obtain ⟨v, held, bad⟩ := bad
    rw [layout.encodeResponse_list short, Words.mapM_encodeUint256_error held bad]
    rfl
  · exact layout.encodeResponse_long short

end Layout

/-- In both layouts a list of integers is written exactly if it fits, and is then read back. What is
read is written as the very same bytes, so no two buffers are read alike, and a buffer that is no
response of any list is refused as malformed. -/
theorem response_bijective (layout : Layout) :
    (∀ values : List Int,
      ((∃ b, layout.encodeResponse (.list (values.map .int)) = .ok b) ↔
        Words.IntegersFit values) ∧
      (¬Words.IntegersFit values →
        layout.encodeResponse (.list (values.map .int)) = .error (.failure Layout.wordOverflow)) ∧
      ∀ b, layout.encodeResponse (.list (values.map .int)) = .ok b →
        (layout.decodeResponse b).map (List.map Int.ofNat) = .ok values) ∧
    (∀ (b : Bytes) (values : List Nat), layout.decodeResponse b = .ok values →
      layout.encodeResponse (.list (values.map .ofNat)) = .ok b) ∧
    (∀ b : Bytes, (∀ values : List Int, layout.encodeResponse (.list (values.map .int)) ≠ .ok b) →
      ∃ cause, layout.decodeResponse b = .error (.value cause)) ∧
    ∀ (b c : Bytes) (values : List Nat), layout.decodeResponse b = .ok values →
      layout.decodeResponse c = .ok values → b = c := by
  have written : ∀ (b : Bytes) (values : List Nat), layout.decodeResponse b = .ok values →
      layout.encodeResponse (.list (values.map .ofNat)) = .ok b := by
    intro b values read
    obtain ⟨fit, same⟩ := Layout.response_of_decodeResponse read
    rw [layout.encodeResponse_ofNat fit.1 fit.2, same]
  refine ⟨?_, written, ?_, ?_⟩
  · intro values
    refine ⟨⟨?_, ?_⟩, layout.encodeResponse_of_unfit, ?_⟩
    · rintro ⟨b, encoded⟩
      by_contra unfit
      rw [layout.encodeResponse_of_unfit unfit] at encoded
      cases encoded
    · intro fit
      exact ⟨_, layout.encodeResponse_of_fit fit⟩
    · intro b encoded
      by_cases fit : Words.IntegersFit values
      · obtain ⟨natural, same⟩ := fit.natural
        rw [layout.encodeResponse_of_fit fit] at encoded
        cases encoded
        rw [layout.decodeResponse_response natural, Except.map, same]
      · rw [layout.encodeResponse_of_unfit fit] at encoded
        cases encoded
  · intro b none
    rcases layout.decodeResponse_ok_or_value b with ⟨values, read⟩ | refused
    · have encoded := written b values read
      have list : values.map Datum.ofNat = (values.map Int.ofNat).map Datum.int := by
        rw [List.map_map]
        rfl
      rw [list] at encoded
      exact absurd encoded (none _)
    · exact refused
  · intro b c values first second
    have one := written b values first
    rw [written c values second] at one
    cases one
    rfl

/-- The largest word, the first number that is too large, and a count with its one word cut off. -/
theorem response_bijective_largest :
    let values : List Int := [0, maxUint256]
    let cut : Bytes := Bytes.numeral wordSize 1
    Words.IntegersFit values ∧
    (∃ b, Layout.typed.encodeResponse (.list (values.map .int)) = .ok b ∧
      (Layout.typed.decodeResponse b).map (List.map Int.ofNat) = .ok values) ∧
    ¬Words.IntegersFit [maxUint256 + 1] ∧
    Layout.raw.encodeResponse (.list [.int (maxUint256 + 1)]) =
      .error (.failure Layout.wordOverflow) ∧
    ∃ cause, Layout.raw.decodeResponse cut = .error (.value cause) := by
  intro values cut
  have fit : Words.IntegersFit values := by
    refine ⟨by decide, ?_⟩
    intro v held
    simp only [values, List.mem_cons, List.not_mem_nil, or_false] at held
    rcases held with rfl | rfl <;> decide
  have unfit : ¬Words.IntegersFit [maxUint256 + 1] := by
    intro fit
    exact absurd (fit.2 _ (List.mem_singleton_self _)).2 (by decide)
  have typed := response_bijective .typed
  have raw := response_bijective .raw
  have unread : (Layout.raw.decodeResponse cut).toOption = none := by decide +kernel
  have unwritten : ∀ values : List Int,
      Layout.raw.encodeResponse (.list (values.map .int)) ≠ .ok cut := by
    intro values encoded
    have read := (raw.1 values).2.2 cut encoded
    cases answer : Layout.raw.decodeResponse cut with
    | ok numbers =>
      rw [answer] at unread
      cases unread
    | error fault =>
      rw [answer] at read
      cases read
  obtain ⟨b, encoded⟩ := (typed.1 values).1.mpr fit
  exact ⟨fit, ⟨b, encoded, (typed.1 values).2.2 b encoded⟩, unfit, (raw.1 _).2.1 unfit,
    raw.2.2.1 cut unwritten⟩

end SeededDraws
