import SeededDraws.Proofs.Abi.Words
/-!
# Requests in both layouts

A request is refused for the first thing that is wrong with it: too short for a selector, the wrong
selector, the wrong length. Every other payload is the written form of what is read from it, up to
bytes that the raw layout leaves unread.
-/

namespace SeededDraws

/-! ### Selectors -/

theorem Hash.ascii?_of_ascii {t : Text} (ascii : ∀ g ∈ t, g.code < 128) :
    ∃ b, Hash.ascii? t = some b := by
  induction t with
  | nil => exact ⟨[], rfl⟩
  | cons g rest ih =>
    obtain ⟨b, read⟩ := ih fun h held => ascii h (List.mem_cons_of_mem _ held)
    rw [Hash.ascii?] at read
    refine ⟨UInt8.ofNat g.code :: b, ?_⟩
    rw [Hash.ascii?, List.mapM_cons, if_pos (ascii g (List.mem_cons_self ..)), read]
    rfl

/-- Whatever has an opening parenthesis and only ASCII characters is a signature. -/
theorem Hash.selector_of_ascii {t : Text} (ascii : ∀ g ∈ t, g.code < 128)
    (opened : .char '(' ∈ t) :
    ∃ selector, Hash.selector (.text t) = .ok selector ∧ selector.length = selectorSize := by
  obtain ⟨b, read⟩ := ascii?_of_ascii ascii
  have contained : t.contains (.char '(') = true := List.contains_iff_mem.mpr opened
  refine ⟨(Keccak.hash b).take selectorSize, ?_, ?_⟩
  · simp only [Hash.selector, contained, if_true, read]
  · rw [List.length_take, Keccak.length_hash]
    rfl

namespace Function

/-- The types of a signature are ASCII, and so are the commas between them. -/
theorem ascii_types (types : List AbiType) :
    ∀ g ∈ Text.ofString (String.intercalate "," (types.map AbiType.name)), g.code < 128 := by
  have each : ∀ type : AbiType, ∀ c ∈ type.name.toList, c.toNat < 128 := by
    rintro (_ | _ | _) <;> simp [AbiType.name]
  have all : ∀ c ∈ (String.intercalate "," (types.map AbiType.name)).toList, c.toNat < 128 := by
    rw [String.toList_intercalate]
    induction types with
    | nil => exact nofun
    | cons type rest ih =>
      cases rest with
      | nil =>
        intro c held
        rw [List.map_singleton, List.map_singleton, List.intercalate_singleton] at held
        exact each type c held
      | cons next rest =>
        intro c held
        rw [List.map_cons, List.map_cons, List.map_cons, List.map_cons,
          List.intercalate_cons_cons] at held
        rcases List.mem_append.mp held with first | others
        · rcases List.mem_append.mp first with typed | comma
          · exact each type c typed
          · rw [List.mem_singleton.mp comma]
            decide
        · exact ih c others
  intro g held
  obtain ⟨c, member, rfl⟩ := List.mem_map.mp held
  exact all c member

/-- A function with an ASCII name has a selector, whatever its inputs are. -/
theorem selector_of_ascii {f : Function} (ascii : ∀ g ∈ f.name, g.code < 128) :
    ∃ selector, f.selector = .ok selector ∧ selector.length = selectorSize := by
  have opening : ∀ g ∈ Text.ofString "(", g.code < 128 := by decide
  have closing : ∀ g ∈ Text.ofString ")", g.code < 128 := by decide
  apply Hash.selector_of_ascii
  · intro g held
    rw [signature, List.mem_append, List.mem_append, List.mem_append] at held
    rcases held with ((named | opened) | typed) | closed
    · exact ascii g named
    · exact opening g opened
    · exact ascii_types f.inputs g typed
    · exact closing g closed
  · rw [signature, List.mem_append, List.mem_append, List.mem_append]
    exact .inl (.inl (.inr (by decide)))

end Function

namespace Layout

/-! ### The typed layout -/

theorem encodeTypedRequest_ofNat {f : Function} (single : f.inputs = [.uint256]) {selector : Bytes}
    (known : f.selector = .ok selector) {n : Nat} (fits : n < Nat.pow 2 256) :
    encodeTypedRequest f (.ofNat n) = .ok (selector ++ Bytes.numeral wordSize n) := by
  have words : (f.inputs.zip [Datum.ofNat n]).mapM (fun p => Function.encodeArgument p.1 p.2) =
      .ok [Bytes.numeral wordSize n] := by
    rw [single, List.zip_cons_cons, List.zip_nil_right, List.mapM_cons, List.mapM_nil]
    simp only [Function.encodeArgument, encodeUint256_ofNat fits, bind, Except.bind, pure,
      Except.pure]
  have count : ¬[Datum.ofNat n].length ≠ f.inputs.length := by
    rw [single]
    exact not_not_intro rfl
  simp only [encodeTypedRequest, Function.encodeCall, if_neg count, known, words, bind, Except.bind,
    pure, Except.pure, List.flatten_cons, List.flatten_nil, List.append_nil]

/-- The three refusals in their order; behind them the rest is one word. -/
theorem decodeTypedRequest_ofBytes {f : Function} {selector : Bytes}
    (known : f.selector = .ok selector) (b : Bytes) :
    decodeTypedRequest f b =
      if b.length < selectorSize then .error (.failure (.missingSelector (.ofNat b.length)))
      else if b.take selectorSize ≠ selector then
        .error (.failure (.ofSelector (b.take selectorSize)))
      else if b.length ≠ selectorSize + wordSize then
        .error (wrongLength (b.length - selectorSize) wordSize false)
      else .ok ⟨Bytes.value (b.drop selectorSize), none, none⟩ := by
  simp only [decodeTypedRequest, Words.splitSelector_ofBytes]
  by_cases short : b.length < selectorSize
  · rw [if_pos short, if_pos short]
    rfl
  · rw [if_neg short, if_neg short]
    simp only [known, bind, Except.bind]
    by_cases other : b.take selectorSize ≠ selector
    · rw [if_pos other, if_pos other]
    · have args := decodeArgs_typed (b.drop selectorSize)
      rw [List.length_drop] at args
      rw [if_neg other, if_neg other]
      refine args.trans ?_
      by_cases sized : b.length = selectorSize + wordSize
      · rw [if_pos (by omega), if_neg (not_not_intro sized)]
      · rw [if_neg (by omega), if_pos sized]

theorem typed_encode_decode {f : Function} (single : f.inputs = [.uint256]) {selector b : Bytes}
    (known : f.selector = .ok selector) (same : b.take selectorSize = selector)
    (sized : b.length = selectorSize + wordSize) :
    encodeTypedRequest f (.ofNat (Bytes.value (b.drop selectorSize))) = .ok b := by
  have word : (b.drop selectorSize).length = wordSize := by
    rw [List.length_drop]
    omega
  have fits : Bytes.value (b.drop selectorSize) < Nat.pow 2 256 :=
    Nat.lt_of_lt_of_eq (Bytes.value_lt_of_length word) (by decide)
  rw [encodeTypedRequest_ofNat single known fits, Bytes.numeral_value word, ← same,
    List.take_append_drop]

theorem typed_decode_encode {f : Function} {selector : Bytes} (known : f.selector = .ok selector)
    (four : selector.length = selectorSize) {n : Nat} (fits : n < Nat.pow 2 256) :
    decodeTypedRequest f ↑(selector ++ Bytes.numeral wordSize n) = .ok ⟨n, none, none⟩ := by
  have size : (selector ++ Bytes.numeral wordSize n).length = selectorSize + wordSize := by
    rw [List.length_append, Bytes.length_numeral, four]
  rw [decodeTypedRequest_ofBytes known, if_neg (by omega), List.take_left' four,
    if_neg (not_not_intro rfl), if_neg (not_not_intro size), List.drop_left' four,
    Bytes.value_numeral_word fits]

/-! ### The raw layout -/

theorem readAddress_ofBytes {b : Bytes} (sized : b.length = addressSize) :
    readAddress (.ofBytes b) = .ok b := by
  show (if b.length = addressSize then _ else _) = _
  rw [if_pos sized]

theorem encodeRequest_raw {caller : Bytes} {n nonce : Nat} (sized : caller.length = addressSize)
    (word : n < Nat.pow 2 256) (small : nonce < Nat.pow 2 64) :
    encodeRequest .raw (.ofNat n) (.ofBytes caller) (.ofNat nonce) =
      .ok (caller ++ Bytes.numeral wordSize n ++ Bytes.numeral nonceSize nonce) := by
  show encodeRawRequest (.ofBytes caller) (.ofNat n) (.ofNat nonce) = _
  simp only [encodeRawRequest, readAddress_ofBytes sized, encodeUint256_ofNat word,
    encodeUint64_ofNat small, bind, Except.bind]
  rfl

/-- The three fields of a raw request are its first sixty bytes. -/
theorem raw_encode_decode {b : Bytes} (long : rawRequestSize ≤ b.length) :
    encodeRequest .raw (.ofNat (Bytes.value ((b.drop addressSize).take wordSize)))
      (.ofBytes (b.take addressSize))
      (.ofNat (Bytes.value ((b.drop (addressSize + wordSize)).take nonceSize))) =
        .ok (b.take rawRequestSize) := by
  have total : rawRequestSize = addressSize + wordSize + nonceSize := rfl
  have caller : (b.take addressSize).length = addressSize := List.length_take_of_le (by omega)
  have word : ((b.drop addressSize).take wordSize).length = wordSize := by
    rw [List.length_take, List.length_drop]
    omega
  have tail : ((b.drop (addressSize + wordSize)).take nonceSize).length = nonceSize := by
    rw [List.length_take, List.length_drop]
    omega
  rw [encodeRequest_raw caller
      (Nat.lt_of_lt_of_eq (Bytes.value_lt_of_length word) (by decide))
      (Nat.lt_of_lt_of_eq (Bytes.value_lt_of_length tail) (by decide)),
    Bytes.numeral_value word, Bytes.numeral_value tail, total, List.take_add, List.take_add]

theorem raw_decode_encode {caller : Bytes} {n nonce : Nat} (sized : caller.length = addressSize)
    (word : n < Nat.pow 2 256) (small : nonce < Nat.pow 2 64) :
    decodeRequest .raw ↑(caller ++ Bytes.numeral wordSize n ++ Bytes.numeral nonceSize nonce) =
      .ok ⟨n, some nonce, some caller⟩ := by
  have args := decodeArgs_raw (caller ++ Bytes.numeral wordSize n ++ Bytes.numeral nonceSize nonce)
  have size : (caller ++ Bytes.numeral wordSize n ++ Bytes.numeral nonceSize nonce).length =
      rawRequestSize := by
    simp only [List.length_append, Bytes.length_numeral, sized]
    rfl
  have head : (caller ++ Bytes.numeral wordSize n).length = addressSize + wordSize := by
    rw [List.length_append, Bytes.length_numeral, sized]
  have second : Bytes.value (Bytes.numeral nonceSize nonce) = nonce :=
    Bytes.value_numeral (Nat.lt_of_lt_of_eq small (by decide))
  have whole : (Bytes.numeral nonceSize nonce).take nonceSize = Bytes.numeral nonceSize nonce :=
    List.take_of_length_le (Nat.le_of_eq (Bytes.length_numeral ..))
  refine args.trans ?_
  rw [if_neg (by omega), List.drop_left' head, whole, second, List.append_assoc,
    List.take_left' sized, List.drop_left' sized, List.take_left' (Bytes.length_numeral ..),
    Bytes.value_numeral_word word]

end Layout

/-- Every payload of a function of one number is refused for the first thing that is wrong with it,
or is the written form of the request that is read from it. A raw payload that is long enough is the
written form of its request and of nothing else, whatever follows. Every request that can be written
is read back. -/
theorem request_grammar (f : Function) (ascii : ∀ g ∈ f.name, g.code < 128)
    (single : f.inputs = [.uint256]) :
    (∃ selector, f.selector = .ok selector ∧ selector.length = selectorSize ∧
      (∀ b : Bytes,
        if b.length < selectorSize then
          Layout.decodeTypedRequest f b =
            .error (.failure (.missingSelector (.ofNat b.length)))
        else if b.take selectorSize ≠ selector then
          Layout.decodeTypedRequest f b = .error (.failure (.ofSelector (b.take selectorSize)))
        else if b.length ≠ selectorSize + wordSize then
          Layout.decodeTypedRequest f b =
            .error (Layout.wrongLength (b.length - selectorSize) wordSize false)
        else ∃ n, Layout.decodeTypedRequest f b = .ok ⟨n, none, none⟩ ∧
          Layout.encodeTypedRequest f (.ofNat n) = .ok b) ∧
      ∀ n, n < Nat.pow 2 256 →
        ∃ b : Bytes, Layout.encodeTypedRequest f (.ofNat n) = .ok b ∧
          Layout.decodeTypedRequest f b = .ok ⟨n, none, none⟩) ∧
    (∀ b : Bytes,
      if b.length < Layout.rawRequestSize then
        Layout.decodeRequest .raw b =
          .error (Layout.wrongLength b.length Layout.rawRequestSize true)
      else ∃ caller n nonce, Layout.decodeRequest .raw b = .ok ⟨n, some nonce, some caller⟩ ∧
        Layout.encodeRequest .raw (.ofNat n) (.ofBytes caller) (.ofNat nonce) =
          .ok (b.take Layout.rawRequestSize)) ∧
    ∀ (caller : Bytes) (n nonce : Nat), caller.length = addressSize → n < Nat.pow 2 256 →
      nonce < Nat.pow 2 64 →
        ∃ b : Bytes,
          Layout.encodeRequest .raw (.ofNat n) (.ofBytes caller) (.ofNat nonce) = .ok b ∧
          Layout.decodeRequest .raw b = .ok ⟨n, some nonce, some caller⟩ := by
  obtain ⟨selector, known, four⟩ := Function.selector_of_ascii ascii
  refine ⟨⟨selector, known, four, ?_, ?_⟩, ?_, ?_⟩
  · intro b
    rw [Layout.decodeTypedRequest_ofBytes known]
    by_cases short : b.length < selectorSize
    · rw [if_pos short, if_pos short]
    · rw [if_neg short, if_neg short]
      by_cases other : b.take selectorSize ≠ selector
      · rw [if_pos other, if_pos other]
      · rw [if_neg other, if_neg other]
        by_cases wrong : b.length ≠ selectorSize + wordSize
        · rw [if_pos wrong, if_pos wrong]
        · rw [if_neg wrong, if_neg wrong]
          have same := not_not.mp other
          have sized := not_not.mp wrong
          exact ⟨_, rfl, Layout.typed_encode_decode single known same sized⟩
  · intro n fits
    exact ⟨_, Layout.encodeTypedRequest_ofNat single known fits,
      Layout.typed_decode_encode known four fits⟩
  · intro b
    have args : Layout.decodeRequest .raw b = _ := Layout.decodeArgs_raw b
    rw [args]
    by_cases short : b.length < Layout.rawRequestSize
    · rw [if_pos short, if_pos short]
    · rw [if_neg short, if_neg short]
      exact ⟨_, _, _, rfl, Layout.raw_encode_decode (Nat.le_of_not_lt short)⟩
  · intro caller n nonce sized word small
    exact ⟨_, Layout.encodeRequest_raw sized word small, Layout.raw_decode_encode sized word small⟩

/-- A function by another name, the largest count and the largest nonce. -/
theorem request_grammar_largest :
    let f : Function := ⟨"draw", [.uint256], [], .null⟩
    (∀ g ∈ f.name, g.code < 128) ∧ f.inputs = [.uint256] ∧
    (∃ b : Bytes, Layout.encodeTypedRequest f (.ofNat maxUint256) = .ok b ∧
      Layout.decodeTypedRequest f b = .ok ⟨maxUint256, none, none⟩) ∧
    ∃ b : Bytes,
      Layout.encodeRequest .raw (.ofNat maxUint256) (.ofBytes (Bytes.zeros addressSize))
        (.ofNat maxUint64) = .ok b ∧
      Layout.decodeRequest .raw b =
        .ok ⟨maxUint256, some maxUint64, some (Bytes.zeros addressSize)⟩ := by
  intro f
  have ascii : ∀ g ∈ f.name, g.code < 128 := by decide
  obtain ⟨⟨selector, _, _, _, typed⟩, _, raw⟩ := request_grammar f ascii rfl
  exact ⟨ascii, rfl, typed maxUint256 (by decide),
    raw _ maxUint256 maxUint64 (Bytes.length_zeros _) (by decide) (by decide)⟩

end SeededDraws
