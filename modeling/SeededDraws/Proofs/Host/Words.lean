import SeededDraws.Proofs.Address
import SeededDraws.Proofs.Host.Calls
/-!
# Words of a host

A host may spell a word as an integer, as hexadecimal text or as a byte string, and each spelling is
read as the thirty-two bytes of its value. What spells no word is a fault of value or of type.

The transaction hash is such a word. A host may keep it behind a method or as an attribute.
-/

namespace SeededDraws

/-- An argument of the right type that cannot be read. -/
def Fault.isOfValue : Fault → Bool
  | .value _ => true
  | .bare .value => true
  | _ => false

/-- An argument of a wrong type. -/
def Fault.isOfType : Fault → Bool
  | .type _ => true
  | .bare .type => true
  | _ => false

namespace HostWord

/-- How a host may spell a number as a word. Nothing stands for zero; a text may have a mark in
front, its digits are of either case and as many as there are, up to sixty-four. -/
inductive Spells : Datum → Nat → Prop
  | nothing : Spells .null 0
  | int {n : Nat} (fits : n < Nat.pow 2 256) : Spells (.int n) n
  | text {mark digits : List Char} (marked : ByteText.IsMark mark)
    (all : ∀ c ∈ digits, Hex.IsDigit c) (short : digits.length ≤ 2 * wordSize) :
    Spells (.text (Text.ofChars (mark ++ digits))) (Hex.number digits)
  | bytes (kind : ByteKind) {b : Bytes} (short : b.length ≤ wordSize) :
    Spells (.bytes kind b) b.value

/-- What is left of a text without its mark, with a zero in front if it is odd. -/
def evened (t : Text) : List Char :=
  (t.unmarked.padZeros (t.unmarked.length + t.unmarked.length % 2)).faces

/-- Of a type that can spell a word, but none is spelled: an integer out of range, too many bytes, or
a text that is not made of pairs of digits. -/
inductive Malformed : Datum → Prop
  | negative {n : Int} (below : n < 0) : Malformed (.int n)
  | large {n : Nat} (above : Nat.pow 2 256 ≤ n) : Malformed (.int n)
  | long (kind : ByteKind) {b : Bytes} (beyond : wordSize < b.length) : Malformed (.bytes kind b)
  | longText {t : Text} {b : Bytes} (pairs : Hex.Pairs (evened t) b) (beyond : wordSize < b.length) :
    Malformed (.text t)
  | unpaired {t : Text} (none : ∀ b, ¬Hex.Pairs (evened t) b) : Malformed (.text t)

/-- Truth values, floats and containers of other values than bytes spell no words. -/
def Untyped : Datum → Prop
  | .null => False
  | .int _ => False
  | .text _ => False
  | .bytes _ _ => False
  | _ => True

variable {d : Datum} {b : Bytes} {n : Nat}

theorem ofBytes_short (short : b.length ≤ wordSize) :
    ofBytes b = .ok (Bytes.numeral wordSize b.value) := by
  rw [ofBytes, if_neg (Nat.not_lt.mpr short), Bytes.padLeft_eq_numeral short]

theorem ofBytes_long (beyond : wordSize < b.length) :
    ofBytes b = .error (.value (.hostWordSize b.length)) := by
  rw [ofBytes, if_pos beyond]

theorem ofText_pairs {t : Text} (pairs : Hex.Pairs (evened t) b) : ofText t = ofBytes b := by
  have found : Hex.read (evened t) = some b := Hex.read_eq_some_iff.mpr pairs
  rw [evened] at found
  simp only [ofText, found]

theorem ofText_unpaired {t : Text} (none : ∀ b, ¬Hex.Pairs (evened t) b) :
    ofText t = .error (.bare .value) := by
  have lost : Hex.read (evened t) = Option.none := by
    refine Option.eq_none_iff_forall_ne_some.mpr ?_
    intro b found
    exact none b (Hex.read_eq_some_iff.mp found)
  rw [evened] at lost
  simp only [ofText, lost]

theorem evened_marked {mark digits : List Char} (marked : ByteText.IsMark mark)
    (all : ∀ c ∈ digits, Hex.IsDigit c) :
    evened (Text.ofChars (mark ++ digits)) = List.replicate (digits.length % 2) '0' ++ digits := by
  have size : (Text.ofChars digits).length = digits.length := List.length_map ..
  rw [evened, ByteText.unmarked_ofChars marked all, size, Address.padZeros_ofChars,
    Text.faces_ofChars, Nat.add_sub_cancel_left]

theorem value_lt_word (short : b.length ≤ wordSize) : b.value < Nat.pow 2 256 := by
  have wide : Nat.pow 256 b.length ≤ Nat.pow 256 wordSize := Nat.pow_le_pow_right (by decide) short
  have limit : Nat.pow 256 wordSize = Nat.pow 2 256 := by decide
  have less := Bytes.value_lt b
  omega

/-- Up to sixty-four digits, odd in number or even, make at most thirty-two bytes of their value. -/
theorem read_text {mark digits : List Char} (marked : ByteText.IsMark mark)
    (all : ∀ c ∈ digits, Hex.IsDigit c) (short : digits.length ≤ 2 * wordSize) :
    ∃ b, ofText (Text.ofChars (mark ++ digits)) = ofBytes b ∧ b.length ≤ wordSize ∧
      b.value = Hex.number digits := by
  have zeros := Hex.isDigit_padded all (digits.length % 2)
  have size : (List.replicate (digits.length % 2) '0' ++ digits).length =
      digits.length % 2 + digits.length := by
    rw [List.length_append, List.length_replicate]
  obtain ⟨b, found, half, value⟩ := Hex.read_digits zeros (by omega)
  have word : wordSize = 32 := rfl
  refine ⟨b, ?_, by omega, ?_⟩
  · apply ofText_pairs
    rw [evened_marked marked all]
    exact Hex.read_eq_some_iff.mp found
  · rw [value, Hex.number_replicate]

/-- Every spelling is read by its value. -/
theorem read_of_spells (spells : Spells d n) :
    read d = .ok (Bytes.numeral wordSize n) ∧ n < Nat.pow 2 256 := by
  cases spells with
  | nothing => exact ⟨rfl, by decide⟩
  | int fits =>
    have range : (0 : Int) ≤ n ∧ (n : Int) ≤ maxUint256 := by
      have limit : maxUint256 = Nat.pow 2 256 - 1 := rfl
      omega
    refine ⟨?_, fits⟩
    rw [read, if_pos range, Int.toNat_natCast]
  | text marked all short =>
    obtain ⟨b, found, fits, value⟩ := read_text marked all short
    rw [← value]
    refine ⟨?_, value_lt_word fits⟩
    rw [read, found, ofBytes_short fits]
  | bytes kind short => exact ⟨ofBytes_short short, value_lt_word short⟩

theorem read_of_malformed (malformed : Malformed d) :
    ∃ fault, read d = .error fault ∧ fault.isOfValue = true := by
  have limit : maxUint256 = Nat.pow 2 256 - 1 := rfl
  cases malformed with
  | @negative n below =>
    have outside : ¬(0 ≤ n ∧ n ≤ (maxUint256 : Int)) := by omega
    exact ⟨_, by rw [read, if_neg outside], rfl⟩
  | @large n above =>
    have positive : 0 < Nat.pow 2 256 := by decide
    have outside : ¬((0 : Int) ≤ n ∧ (n : Int) ≤ maxUint256) := by omega
    exact ⟨_, by rw [read, if_neg outside], rfl⟩
  | long kind beyond => exact ⟨_, ofBytes_long beyond, rfl⟩
  | longText pairs beyond => exact ⟨_, (ofText_pairs pairs).trans (ofBytes_long beyond), rfl⟩
  | unpaired none => exact ⟨_, ofText_unpaired none, rfl⟩

theorem read_of_untyped (untyped : Untyped d) :
    ∃ fault, read d = .error fault ∧ fault.isOfType = true := by
  cases d with
  | null => exact untyped.elim
  | int n => exact untyped.elim
  | text t => exact untyped.elim
  | bytes kind b => exact untyped.elim
  | _ => exact ⟨_, rfl, rfl⟩

/-- Nothing else is refused. -/
theorem read_of_sound (formed : ¬Malformed d) (typed : ¬Untyped d) :
    ∃ w, read d = .ok w ∧ w.length = wordSize := by
  have short : ∀ {b : Bytes}, ¬wordSize < b.length →
      ∃ w, ofBytes b = .ok w ∧ w.length = wordSize := by
    intro b short
    exact ⟨_, ofBytes_short (Nat.le_of_not_lt short), Bytes.length_numeral _ _⟩
  cases d with
  | null => exact ⟨zeroWord, rfl, rfl⟩
  | int n =>
    obtain ⟨k, rfl⟩ := Int.eq_ofNat_of_zero_le (Int.not_lt.mp fun below => formed (.negative below))
    have fits : k < Nat.pow 2 256 := Nat.lt_of_not_le fun above => formed (.large above)
    exact ⟨_, (read_of_spells (.int fits)).1, Bytes.length_numeral _ _⟩
  | text t =>
    by_cases paired : ∃ b, Hex.Pairs (evened t) b
    · obtain ⟨b, pairs⟩ := paired
      obtain ⟨w, found, size⟩ := short fun beyond => formed (.longText pairs beyond)
      exact ⟨w, (ofText_pairs pairs).trans found, size⟩
    · exact absurd (.unpaired (not_exists.mp paired)) formed
  | bytes kind b => exact short fun beyond => formed (.long kind beyond)
  | _ => exact absurd trivial typed

end HostWord

theorem HostReply.word_of_read {d : Datum} {w : Bytes} (known : HostWord.read d = .ok w) :
    HostReply.word d = .ok (.ofBytes w) := by
  rw [HostReply.word, known]
  rfl

/-- Every spelling of a number is read as the thirty-two bytes of its value, and so is a word of the
state that a host answers with. Of all other values, those of the right types are faults of value
and the rest are faults of type. -/
theorem host_word_by_value :
    (∀ (d : Datum) (n : Nat), HostWord.Spells d n →
      n < Nat.pow 2 256 ∧ HostWord.read d = .ok (Bytes.numeral wordSize n) ∧
      ∀ (host : HostState) (address key : Datum) (method : String),
        host.host.first? (StateOp.getState address key).candidates = some method →
        host.host.reply host.calls ⟨method, [address, key]⟩ = .ok d →
        (host.step (.getState address key)).1 = .ok (.ofBytes (Bytes.numeral wordSize n))) ∧
    ∀ d : Datum,
      (HostWord.Malformed d → ∃ fault, HostWord.read d = .error fault ∧ fault.isOfValue = true) ∧
      (HostWord.Untyped d → ∃ fault, HostWord.read d = .error fault ∧ fault.isOfType = true) ∧
      (¬HostWord.Malformed d → ¬HostWord.Untyped d →
        ∃ w, HostWord.read d = .ok w ∧ w.length = wordSize) := by
  constructor
  · intro d n spells
    obtain ⟨known, fits⟩ := HostWord.read_of_spells spells
    refine ⟨fits, known, ?_⟩
    intro host address key method found answer
    have given : (StateOp.getState address key).hostArgs = .ok [address, key] := rfl
    rw [HostState.step_present given found, answer]
    exact HostReply.word_of_read known
  · intro d
    exact ⟨HostWord.read_of_malformed, HostWord.read_of_untyped, HostWord.read_of_sound⟩

/-- An odd number of digits behind a mark, from a host that goes by the second name. -/
theorem host_word_by_value_odd :
    let text := Datum.text (Text.ofChars (['0', 'X'] ++ ['a', 'B', 'c']))
    let host := HostState.start ⟨fun name => if name = "get_storage" then some .method else none,
      fun _ _ => .ok text⟩
    HostWord.read text = .ok (Bytes.numeral wordSize 0xabc) ∧
    (host.step (.getState .null .null)).1 = .ok (.ofBytes (Bytes.numeral wordSize 0xabc)) ∧
    (∃ fault, HostWord.read (.int (-1)) = .error fault ∧ fault.isOfValue = true) ∧
    (∃ fault, HostWord.read (.bool true) = .error fault ∧ fault.isOfType = true) ∧
    ∃ w, HostWord.read (.bytes .view [7]) = .ok w ∧ w.length = wordSize := by
  intro text host
  have digits : ∀ c ∈ ['a', 'B', 'c'], Hex.IsDigit c := by
    intro c mem
    simp only [List.mem_cons, List.not_mem_nil, or_false] at mem
    rcases mem with rfl | rfl | rfl
    · exact ⟨10, rfl⟩
    · exact ⟨11, rfl⟩
    · exact ⟨12, rfl⟩
  obtain ⟨_, known, answered⟩ := host_word_by_value.1 text 0xabc
    (.text (.inr (.inr rfl)) digits (by decide))
  refine ⟨known, answered host .null .null "get_storage" (by decide) rfl, ?_, ?_, ?_⟩
  · exact (host_word_by_value.2 (.int (-1))).1 (.negative (by decide))
  · exact (host_word_by_value.2 (.bool true)).2.1 trivial
  · refine (host_word_by_value.2 (.bytes .view [7])).2.2 ?_ id
    intro malformed
    cases malformed with
    | long kind beyond => exact absurd beyond (by decide)

/-! ### The transaction hash -/

/-- The places where a host may keep its transaction hash. -/
inductive HashPlace where
  | getter
  | method
  | value

/-- The host offers `d` in this place; a getter goes before the other two. -/
def HostState.Offers (s : HostState) (d : Datum) : HashPlace → Prop
  | .getter => s.host.hasMethod "get_tx_hash" = true ∧
    s.host.reply s.calls ⟨"get_tx_hash", []⟩ = .ok d
  | .method => s.host.hasMethod "get_tx_hash" = false ∧ s.host.hasMethod "tx_hash" = true ∧
    s.host.reply s.calls ⟨"tx_hash", []⟩ = .ok d
  | .value => s.host.hasMethod "get_tx_hash" = false ∧
    s.host.member? "tx_hash" = some (.attribute d)

namespace HostState

variable {s : HostState} {d : Datum}

theorem first?_txHash (s : HostState) :
    s.host.first? StateOp.getTxHash.candidates =
      if s.host.hasMethod "get_tx_hash" then some "get_tx_hash" else none := by
  cases present : s.host.hasMethod "get_tx_hash" <;>
    simp [Host.first?, StateOp.candidates, present]

theorem txHash_getter (present : s.host.hasMethod "get_tx_hash" = true) :
    (s.step .getTxHash).1 = s.host.reply s.calls ⟨"get_tx_hash", []⟩ >>= HostReply.word := by
  have found := s.first?_txHash
  rw [present] at found
  rw [step_present rfl found]
  rfl

/-- Without a getter the host is not asked, whatever it has under the other name. -/
theorem txHash_other (missing : s.host.hasMethod "get_tx_hash" = false) :
    (s.step .getTxHash).1 = HostReply.txHash s.host := by
  have found := s.first?_txHash
  rw [missing] at found
  rw [step_absent rfl found]
  rfl

theorem txHash_attribute (missing : s.host.hasMethod "get_tx_hash" = false)
    (held : s.host.member? "tx_hash" = some (.attribute d)) :
    (s.step .getTxHash).1 = HostReply.word d := by
  rw [txHash_other missing, HostReply.txHash, held]

/-- A method is not called, and is itself no word. -/
theorem txHash_method (missing : s.host.hasMethod "get_tx_hash" = false)
    (held : s.host.hasMethod "tx_hash" = true) :
    (s.step .getTxHash).1 = .error (.type (.hostWord "function")) := by
  rw [txHash_other missing, HostReply.txHash]
  rw [Host.hasMethod] at held
  split at held
  · next member => rw [member]
  · cases held

end HostState

/-- The transaction hash is read by its value from a getter or an attribute, and from nowhere else; a
host without any has the zero word. -/
theorem tx_hash_by_value_iff (s : HostState) :
    (∀ (place : HashPlace) (d : Datum) (n : Nat), s.Offers d place → HostWord.Spells d n →
      ((s.step .getTxHash).1 = .ok (.ofBytes (Bytes.numeral wordSize n)) ↔ place ≠ .method)) ∧
    (s.host.hasMethod "get_tx_hash" = false → s.host.member? "tx_hash" = none →
      (s.step .getTxHash).1 = .ok (.ofBytes zeroWord)) := by
  constructor
  · intro place d n offers spells
    have word := HostReply.word_of_read (HostWord.read_of_spells spells).1
    cases place with
    | getter =>
      obtain ⟨present, answer⟩ := offers
      rw [HostState.txHash_getter present, answer]
      exact iff_of_true word (by simp)
    | method =>
      obtain ⟨missing, held, _⟩ := offers
      rw [HostState.txHash_method missing held]
      exact iff_of_false (by simp) (by simp)
    | value =>
      obtain ⟨missing, held⟩ := offers
      rw [HostState.txHash_attribute missing held]
      exact iff_of_true word (by simp)
  · intro missing none
    rw [HostState.txHash_other missing, HostReply.txHash, none]
    rfl

/-- A host with both methods, and one with neither. -/
theorem tx_hash_by_value_iff_both :
    let both := HostState.start ⟨fun _ => some .method,
      fun _ call => .ok (.int (if call.method = "get_tx_hash" then 7 else 9))⟩
    let bare := HostState.start ⟨fun _ => none, fun _ _ => .ok .null⟩
    (both.step .getTxHash).1 = .ok (.ofBytes (Bytes.numeral wordSize 7)) ∧
      (bare.step .getTxHash).1 = .ok (.ofBytes zeroWord) := by
  intro both bare
  constructor
  · exact ((tx_hash_by_value_iff both).1 .getter (.int 7) 7 ⟨rfl, rfl⟩
      (.int (n := 7) (by decide))).mpr (by simp)
  · exact (tx_hash_by_value_iff bare).2 rfl rfl

/-- The hash behind a method of its own name is never asked for. -/
theorem tx_hash_method_unread :
    let host := HostState.start ⟨fun name => if name = "tx_hash" then some .method else none,
      fun _ _ => .ok (.int 7)⟩
    host.Offers (.int 7) .method ∧
      (host.step .getTxHash).1 ≠ .ok (.ofBytes (Bytes.numeral wordSize 7)) := by
  intro host
  have offers : host.Offers (.int 7) .method := ⟨by decide, by decide, rfl⟩
  refine ⟨offers, ?_⟩
  rw [HostState.txHash_method offers.1 offers.2.1]
  intro same
  cases same

end SeededDraws
