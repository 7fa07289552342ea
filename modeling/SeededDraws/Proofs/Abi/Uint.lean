import SeededDraws.Proofs.Abi.Elements
/-!
# Unsigned integers by value

Of an integer and the texts that spell it a reader sees the number alone. The width decides by a
power of two, and what fits is written in as many bytes as the width has and found again in any
buffer.
-/

namespace SeededDraws

/-! ### The printed form of a number -/

namespace Numeral

theorem hexDigit?_digitChar {v : Nat} (small : v < 16) : hexDigit? (Nat.digitChar v) = some v := by
  have table : ∀ v < 16, hexDigit? (Nat.digitChar v) = some v := by decide +kernel
  exact table v small

/-- The digits of a number spell it: all but the last spell the number without its last digit. -/
theorem run_toDigits (n : Nat) : Run 16 hexDigit? (Nat.toDigits 16 n) n := by
  induction n using Nat.strongRecOn with
  | ind n ih =>
    rw [Nat.toDigits_eq_if (by decide)]
    split
    · next small => exact .one (hexDigit?_digitChar small)
    · next large =>
      have front := ih (n / 16) (by omega)
      have last := hexDigit?_digitChar (Nat.mod_lt n (show 0 < 16 by decide))
      have whole : n / 16 * 16 + n % 16 = n := by omega
      have run := front.next last
      rwa [whole] at run

end Numeral

theorem Text.spellsHex_ofInt (n : Nat) : SpellsHex (Hex.ofInt n) n := by
  have chars : (Hex.ofInt n).toList = '0' :: 'x' :: Nat.toDigits 16 n :=
    Hex.toList_marked (Nat.toDigits 16 n)
  refine ⟨[], 'x', Nat.toDigits 16 n, [], ?_, .inl rfl, nofun, .inl (Numeral.run_toDigits n)⟩
  rw [Text.ofString, Text.faces_ofChars, chars, List.append_nil]
  rfl

/-! ### Reading -/

namespace Uint

variable {bits d : Datum} {k n : Nat} {m : Int}

/-- Nothing of a spelling but its number reaches the check. -/
theorem read_of_denotes (denotes : Denotes d m) : read bits d = check bits m := by
  cases denotes with
  | int => rfl
  | @text t n spelled =>
    rcases ofText_cases bits t with ⟨n', spelled', checked⟩ | ⟨unmarked, _⟩ | ⟨stray, _⟩
    · rw [spellsHex_unique spelled spelled']
      exact checked
    · exact absurd (isMarked_of_spellsHex spelled) unmarked
    · exact absurd spelled (stray.2 n)

/-- Nothing else gets as far as the check. -/
theorem denotes_of_read (known : read bits d = .ok n) :
    ∃ m, Denotes d m ∧ check bits m = .ok n := by
  cases d with
  | int m => exact ⟨m, .int m, known⟩
  | text t =>
    rcases ofText_cases bits t with ⟨n', spelled, checked⟩ | ⟨_, failed⟩ | ⟨_, failed⟩
    · exact ⟨n', .text spelled, checked.symm.trans known⟩
    · cases failed.symm.trans known
    · cases failed.symm.trans known
  | _ => cases known

theorem check_eq_ok : check (.ofNat k) m = .ok n ↔ m = n ∧ n < Nat.pow 2 k := by
  rw [check_ofNat]
  constructor
  · intro known
    split at known
    · next fits =>
      cases known
      exact ⟨(Int.toNat_of_nonneg fits.1).symm, fits.2⟩
    · cases known
  · rintro ⟨rfl, small⟩
    exact if_pos ⟨Int.natCast_nonneg n, small⟩

theorem read_eq_ok : read (.ofNat k) d = .ok n ↔ Denotes d n ∧ n < Nat.pow 2 k := by
  constructor
  · intro known
    obtain ⟨m, denotes, checked⟩ := denotes_of_read known
    obtain ⟨rfl, small⟩ := check_eq_ok.mp checked
    exact ⟨denotes, small⟩
  · rintro ⟨denotes, small⟩
    rw [read_of_denotes denotes]
    exact check_eq_ok.mpr ⟨rfl, small⟩

end Uint

/-! ### Writing -/

theorem Words.decodeNumber_numeral {size n : Nat} (fits : n < Nat.pow 256 size)
    (before after : Bytes) :
    decodeNumber size (Buffer.ofBytes (before ++ Bytes.numeral size n ++ after)) before.length =
      .ok (n, before.length + size) := by
  have sized := Bytes.length_numeral size n
  have room : before.length + size ≤ (before ++ Bytes.numeral size n ++ after).length := by
    simp only [List.length_append, sized]
    omega
  have part : ((before ++ Bytes.numeral size n ++ after).drop before.length).take size =
      Bytes.numeral size n := by
    rw [List.append_assoc, List.drop_left, List.take_left' sized]
  rw [decodeNumber_ofBytes room, part, Bytes.value_numeral fits]

/-- Whatever the width, a reader takes the integers below its power of two and the texts that spell
one, and gives the number; every other integer, spelled or not, is out of range. Every number has a
text. All the texts of a number are written as the number itself is, in the bytes of the width, and
a decoder finds the number in any buffer that has these bytes in it. -/
theorem unsigned_by_value (k : Nat) :
    (∀ d n, Uint.read (.ofNat k) d = .ok n ↔ Uint.Denotes d n ∧ n < Nat.pow 2 k) ∧
    (∀ m : Int, Uint.read (.ofNat k) (.int m) =
      if 0 ≤ m ∧ m < Nat.pow 2 k then .ok m.toNat
      else .error (.misfit (.outOfRange (.ofNat k)))) ∧
    (∀ v : Nat, Text.SpellsHex (Hex.ofInt v) v) ∧
    (∀ t v, Text.SpellsHex t v →
      Uint.read (.ofNat k) (.text t) =
        (if v < Nat.pow 2 k then .ok v else .error (.misfit (.outOfRange (.ofNat k)))) ∧
      encodeUint256 (.text t) = encodeUint256 (.ofNat v) ∧
      encodeUint64 (.text t) = encodeUint64 (.ofNat v)) ∧
    (∀ v, v < Nat.pow 2 256 → ∃ b, encodeUint256 (.ofNat v) = .ok b ∧ b.length = wordSize ∧
      ∀ before after : Bytes, Words.decodeWord (before ++ b ++ after) before.length =
        .ok (v, before.length + wordSize)) ∧
    ∀ v, v < Nat.pow 2 64 → ∃ b, encodeUint64 (.ofNat v) = .ok b ∧ b.length = nonceSize ∧
      ∀ before after : Bytes, Words.decodeUint64 (before ++ b ++ after) before.length =
        .ok (v, before.length + nonceSize) := by
  refine ⟨fun d n => Uint.read_eq_ok, fun m => ?_, Text.spellsHex_ofInt, fun t v spelled => ?_,
    fun v fits => ?_, fun v fits => ?_⟩
  · rw [Uint.read_of_denotes (.int m), Uint.check_ofNat]
    have below : 0 ≤ m ∧ m.toNat < Nat.pow 2 k ↔ 0 ≤ m ∧ m < Nat.pow 2 k := by omega
    simp only [below]
  · have same : ∀ bits, Uint.read bits (.text t) = Uint.read bits (.ofNat v) := fun bits =>
      Uint.read_of_denotes (.text spelled)
    refine ⟨?_, ?_, ?_⟩
    · rw [Uint.read_of_denotes (.text spelled), Uint.check_ofNat]
      have below : 0 ≤ (v : Int) ∧ (v : Int).toNat < Nat.pow 2 k ↔ v < Nat.pow 2 k := by omega
      simp only [below]
      rfl
    · rw [encodeUint256, same, encodeUint256]
    · rw [encodeUint64, same, encodeUint64]
  · refine ⟨_, encodeUint256_ofNat fits, Bytes.length_numeral .., ?_⟩
    exact Words.decodeNumber_numeral (Nat.lt_of_lt_of_eq fits (by decide))
  · refine ⟨_, encodeUint64_ofNat fits, Bytes.length_numeral .., ?_⟩
    exact Words.decodeNumber_numeral (Nat.lt_of_lt_of_eq fits (by decide))

/-- The first number that does not fit 64 bits, with zeros in front of it and underscores in it. -/
theorem unsigned_by_value_limit :
    let v := Nat.pow 2 64
    let t : Text := " 0X_0001_0000_0000_0000_0000\n"
    Text.SpellsHex t v ∧ v < Nat.pow 2 256 ∧
      Uint.read (.ofNat 65) (.text t) = .ok v ∧
      Uint.read (.ofNat 64) (.text t) = .error (.misfit (.outOfRange (.ofNat 64))) ∧
      ∃ b, encodeUint256 (.text t) = .ok b ∧ b.length = wordSize ∧
        ∀ before after : Bytes, Words.decodeWord (before ++ b ++ after) before.length =
          .ok (v, before.length + wordSize) := by
  intro v t
  have spelled : Text.SpellsHex t v := Text.spellsHex_iff.mpr
    ⟨'X', "_0001_0000_0000_0000_0000".toList, by rfl, .inr rfl,
      Numeral.hexBody_iff_marked?.mpr (by rfl)⟩
  obtain ⟨_, _, _, texts, words, _⟩ := unsigned_by_value 65
  obtain ⟨_, _, _, narrow, _⟩ := unsigned_by_value 64
  have fits : v < Nat.pow 2 256 := by decide
  obtain ⟨taken, same, _⟩ := texts t v spelled
  obtain ⟨refused, _⟩ := narrow t v spelled
  rw [if_pos (by decide)] at taken
  rw [if_neg (by decide)] at refused
  rw [same]
  exact ⟨spelled, fits, taken, refused, words v fits⟩

end SeededDraws
