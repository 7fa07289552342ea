import SeededDraws.Proofs.Address
import SeededDraws.Proofs.Numeral
/-!
# The grammar of address texts

A text is an address if nothing but hexadecimal digits, forty at most, is left of it without the
white space around and one mark. The digits in lower case, filled up with zeros, are those that the
address itself is written with, so two texts are one address if their digits differ in case and in
the zeros in front only.
-/

namespace SeededDraws

namespace Hex

theorem toLower_of_value? {c : Char} {v : Nat} (digit : value? c = some v) :
    c.toLower = Hex.digit v := by
  have table : ∀ c, c.toNat < 128 → (value? c).all fun v => c.toLower == Hex.digit v :=
    Numeral.forall_ascii (by decide +kernel)
  have range := value?_eq_some digit
  have entry := table c (by omega)
  rw [digit] at entry
  exact beq_iff_eq.mp entry

/-- No other character has a digit for its lower case. -/
theorem isDigit_of_toLower {c : Char} (digit : IsDigit c.toLower) : IsDigit c := by
  by_cases ascii : c.toNat < 128
  · have table : ∀ c, c.toNat < 128 → (value? c.toLower).isSome → (value? c).isSome :=
      Numeral.forall_ascii (by decide +kernel)
    rw [IsDigit, ← Option.isSome_iff_exists] at digit ⊢
    exact table c ascii digit
  · have same : c.toLower = c := by
      refine dif_neg ?_
      rintro ⟨_, upper⟩
      exact ascii (Nat.lt_of_le_of_lt upper (by decide))
    rwa [same] at digit

/-- Digits in lower case are what the bytes they make are written with. -/
theorem Pairs.map_toLower {cs : List Char} {b : Bytes} (pairs : Pairs cs b)
    (all : ∀ c ∈ cs, IsDigit c) : cs.map Char.toLower = write b := by
  induction pairs with
  | done => rfl
  | @space c cs b spacing rest ih =>
    rw [(all c List.mem_cons_self).not_spacing] at spacing
    cases spacing
  | @pair c d high low cs b first second rest ih =>
    have less := value_lt first
    have less' := value_lt second
    have byte : (UInt8.ofNat (high * 16 + low)).toNat = high * 16 + low := by
      rw [UInt8.toNat_ofNat']
      omega
    have upper : (high * 16 + low) / 16 = high := by omega
    have lower : (high * 16 + low) % 16 = low := by omega
    have spelled : write (UInt8.ofNat (high * 16 + low) :: b) =
        Hex.digit high :: Hex.digit low :: write b := by
      rw [write, List.flatMap_cons, ofByte, byte, upper, lower]
      rfl
    rw [List.map_cons, List.map_cons, toLower_of_value? first, toLower_of_value? second, spelled,
      ih fun e mem => all e (.tail _ (.tail _ mem))]

end Hex

namespace Address

/-! ### What is read -/

/-- Digits that are few enough make an address. -/
theorem exists_of_digits {cs : List Char} (all : ∀ c ∈ cs, Hex.IsDigit c)
    (short : cs.length ≤ 2 * addressSize) :
    ∃ a : Bytes, a.length = addressSize ∧ a.value = Hex.number cs := by
  have width := Hex.length_padded short
  obtain ⟨a, _, sized, value⟩ := Hex.read_digits
    (Hex.isDigit_padded all (2 * addressSize - cs.length)) (by rw [width]; rfl)
  rw [Hex.number_replicate] at value
  exact ⟨a, by omega, value⟩

/-- A text is read as the number of its digits, if it has digits only and not too many. -/
theorem read_text_eq_ok {t : Text} {a : Bytes} :
    read (.text t) = .ok a ↔
      ∃ cs, ByteText.digits t = Text.ofChars cs ∧ (∀ c ∈ cs, Hex.IsDigit c) ∧
        cs.length ≤ 2 * addressSize ∧ a = Bytes.numeral addressSize (Hex.number cs) := by
  rw [read_eq_ok_iff]
  constructor
  · intro spells
    cases spells with
    | @text before after mark cs _ around marked all short sized value =>
      refine ⟨cs, ByteText.digits_framed around marked all, all, short, ?_⟩
      rw [← value, Bytes.numeral_value sized]
  · rintro ⟨cs, digits, all, short, same⟩
    obtain ⟨b, sized, value⟩ := exists_of_digits all short
    obtain ⟨before, mark, after, marked, framed, around⟩ := ByteText.digits_split t
    rw [digits, Text.ofChars, Text.ofChars, ← List.map_append] at framed
    rw [same, ← value, Bytes.numeral_value sized, framed]
    exact .text around marked all short sized value

/-- What can go wrong is a fault of the context. -/
theorem read_error {d : Datum} {fault : Fault} (failed : read d = .error fault) :
    ∃ cause, fault = .context cause := by
  have sized : ∀ b fault, checkLength b = .error fault → ∃ cause, fault = .context cause := by
    intro b fault failed
    rw [checkLength] at failed
    split at failed
    · cases failed
    · cases failed
      exact ⟨_, rfl⟩
  cases d with
  | bytes kind b => exact sized b fault failed
  | text t =>
    rw [read] at failed
    split at failed
    · cases failed
      exact ⟨_, rfl⟩
    · rw [ByteText.ofText] at failed
      split at failed
      · cases failed
        exact ⟨_, rfl⟩
      · split at failed
        · exact sized _ fault failed
        · cases failed
          exact ⟨_, rfl⟩
  | _ =>
    cases failed
    exact ⟨_, rfl⟩

/-! ### Texts for one address -/

section Zeros

variable {cs ds : List Char}

theorem replicate_takeWhile_zero (cs : List Char) :
    cs.takeWhile (· == '0') = List.replicate (cs.takeWhile (· == '0')).length '0' :=
  List.eq_replicate_of_mem fun _ mem => beq_iff_eq.mp (List.mem_takeWhile_imp (p := (· == '0')) mem)

/-- Of two numerals of one length the zeros in front are known from the rest. -/
theorem eq_of_dropWhile_zero (same : cs.dropWhile (· == '0') = ds.dropWhile (· == '0'))
    (sized : cs.length = ds.length) : cs = ds := by
  have first := List.takeWhile_append_dropWhile (p := (· == '0')) (l := cs)
  have second := List.takeWhile_append_dropWhile (p := (· == '0')) (l := ds)
  rw [replicate_takeWhile_zero] at first second
  have lengths := congrArg List.length first
  have lengths' := congrArg List.length second
  rw [List.length_append, List.length_replicate] at lengths lengths'
  rw [same] at first lengths
  have count : (cs.takeWhile (· == '0')).length = (ds.takeWhile (· == '0')).length := by omega
  rw [count] at first
  exact first.symm.trans second

end Zeros

/-- The digits of a text in lower case, without the zeros in front. -/
def significant (t : Text) : List Char :=
  ((ByteText.digits t).faces.map Char.toLower).dropWhile (· == '0')

theorem significant_of_read {t : Text} {a : Bytes} (known : read (.text t) = .ok a) :
    significant t = (Hex.write a).dropWhile (· == '0') := by
  obtain ⟨cs, digits, all, short, same⟩ := read_text_eq_ok.mp known
  obtain ⟨b, sized, value⟩ := exists_of_digits all short
  have whole : a = b := by rw [same, ← value, Bytes.numeral_value sized]
  have zeros := Hex.isDigit_padded all (2 * addressSize - cs.length)
  have found := read_padded all short sized value
  have lower := (Hex.read_eq_some_iff.mp found).map_toLower zeros
  rw [List.map_append, List.map_replicate] at lower
  rw [significant, digits, Text.faces_ofChars, whole, ← lower,
    List.dropWhile_append_of_pos fun c mem => beq_iff_eq.mpr (List.eq_of_mem_replicate mem)]

/-- The digits of the address itself tell which texts it is read from. -/
theorem read_iff_significant {t : Text} {a : Bytes} (sized : a.length = addressSize) :
    read (.text t) = .ok a ↔ (ByteText.digits t).length ≤ 2 * addressSize ∧
      significant t = (Hex.write a).dropWhile (· == '0') := by
  constructor
  · intro known
    obtain ⟨cs, digits, _, short, _⟩ := read_text_eq_ok.mp known
    refine ⟨?_, significant_of_read known⟩
    rwa [digits, Text.ofChars, List.length_map]
  · rintro ⟨short, same⟩
    have all : ∀ c ∈ (ByteText.digits t).faces, Hex.IsDigit c := by
      intro c mem
      apply Hex.isDigit_of_toLower
      have lower := List.mem_map_of_mem (f := Char.toLower) mem
      rw [← List.takeWhile_append_dropWhile (p := (· == '0')) (l := List.map ..),
        List.mem_append] at lower
      rcases lower with zero | digit
      · rw [beq_iff_eq.mp (List.mem_takeWhile_imp (p := (· == '0')) zero)]
        exact ⟨0, by decide⟩
      · rw [← significant, same] at digit
        exact Hex.isDigit_write a _ ((List.dropWhile_sublist _).subset digit)
    have chars := Text.eq_ofChars_of_digits all
    have length : (ByteText.digits t).faces.length = (ByteText.digits t).length := List.length_map ..
    have known := read_text_eq_ok.mpr ⟨_, chars, all, length ▸ short, rfl⟩
    -- the address that is read is written with the same digits
    have other := significant_of_read known
    rw [same] at other
    have written := eq_of_dropWhile_zero other <| by
      rw [Hex.length_write, Hex.length_write, sized, Bytes.length_numeral]
    have whole := congrArg Hex.read written
    rw [Hex.read_write, Hex.read_write, Option.some.injEq] at whole
    rwa [← whole] at known

/-- The printed form of an address is read as that address. -/
theorem read_marked {a : Bytes} (sized : a.length = addressSize) :
    read (.text a.marked) = .ok a := by
  have digits := ByteText.digits_marked a
  have pairs : Hex.Pairs (Hex.write a) a := Hex.read_eq_some_iff.mp (Hex.read_write a)
  refine (read_iff_significant sized).mpr ⟨?_, ?_⟩
  · rw [digits, Text.ofChars, List.length_map, Hex.length_write, sized]
  · rw [significant, digits, Text.faces_ofChars, pairs.map_toLower (Hex.isDigit_write a)]

end Address

/-- A text is read as an address exactly if, trimmed and without one mark in front, it has nothing
but hexadecimal digits, forty at most; it is then the address of their number. Every other text is
refused as a fault of the context. What an address is printed as is read back, and the texts for one
address are those whose digits, forty at most, differ in case and in the zeros in front only. -/
theorem address_text_grammar (t : Text) :
    (∀ a, Address.read (.text t) = .ok a ↔
      ∃ cs, t.strip.unmarked = Text.ofChars cs ∧ (∀ c ∈ cs, Hex.IsDigit c) ∧
        cs.length ≤ 2 * addressSize ∧ a = Bytes.numeral addressSize (Hex.number cs)) ∧
    (∀ fault, Address.read (.text t) = .error fault → ∃ cause, fault = .context cause) ∧
    (∀ kind a, a.length = addressSize → ∃ printed : String,
      ByteText.write (.bytes kind a) = .ok printed ∧ Address.read (.text printed) = .ok a) ∧
    ∀ a, Address.read (.text t) = .ok a → ∀ u : Text,
      Address.read (.text u) = .ok a ↔ u.strip.unmarked.length ≤ 2 * addressSize ∧
        Address.significant u = Address.significant t := by
  refine ⟨fun a => Address.read_text_eq_ok, fun fault => Address.read_error, ?_, ?_⟩
  · intro kind a sized
    exact ⟨a.marked, rfl, Address.read_marked sized⟩
  · intro a known u
    have sized := (Address.spells_of_read known).length
    rw [Address.significant_of_read known]
    exact Address.read_iff_significant sized

/-- A short text with white space around it, one with more zeros and the printed form are one
address; a text with two marks is none. -/
theorem address_text_grammar_short :
    let a := Bytes.numeral addressSize 0x69420
    Address.read (.text " 0X069420\t") = .ok a ∧ Address.read (.text "0x0000000069420") = .ok a ∧
      (∃ printed : String, ByteText.write (.bytes .fixed a) = .ok printed ∧
        Address.read (.text printed) = .ok a) ∧
      ∃ fault, Address.read (.text "0x0x69420") = .error fault ∧
        ∃ cause, fault = .context cause := by
  intro a
  obtain ⟨reads, _, printed, respelled⟩ := address_text_grammar " 0X069420\t"
  obtain ⟨_, refused, _⟩ := address_text_grammar "0x0x69420"
  have known := (reads a).mpr
    ⟨Hex.write [0x06, 0x94, 0x20], by rfl, Hex.isDigit_write _, by decide, by rfl⟩
  exact ⟨known, (respelled a known _).mpr ⟨by decide, by rfl⟩, printed .fixed a (by rfl),
    _, rfl, refused _ rfl⟩

end SeededDraws
