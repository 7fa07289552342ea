import SeededDraws.Address
import SeededDraws.Proofs.Fault
import SeededDraws.Proofs.Text
/-!
# Spellings of addresses

An address may be spelled in many ways, and every spelling is read as the one address that it stands
for. What is no spelling is refused.
-/

namespace SeededDraws

namespace Text

theorem faces_eq_map (t : Text) : t.faces = t.map Glyph.face := rfl

/-- A glyph that shows a hexadecimal digit is that digit. -/
theorem eq_ofChars_of_digits {t : Text} (all : ∀ c ∈ t.faces, Hex.IsDigit c) :
    t = ofChars t.faces := by
  induction t with
  | nil => rfl
  | cons g t ih =>
    have first := all g.face List.mem_cons_self
    have rest := ih fun c mem => all c (.tail _ mem)
    cases g with
    | char c => exact congrArg (.char c :: ·) rest
    | half n =>
      obtain ⟨v, digit⟩ := first
      cases digit

end Text

namespace ByteText

/-- What may stand in front of the digits. -/
def IsMark (mark : List Char) : Prop := mark = [] ∨ mark = ['0', 'x'] ∨ mark = ['0', 'X']

variable {before after : Text} {mark digits : List Char}

theorem strip_framed (around : ∀ g ∈ before ++ after, isBlank g.face = true)
    {cs : List Char} (kept : ∀ c ∈ cs, isBlank c = false) :
    Text.strip (before ++ Text.ofChars cs ++ after) = Text.ofChars cs := by
  refine trimBy_framed (fun g mem => around g (List.mem_append_left _ mem)) ?_
    fun g mem => around g (List.mem_append_right _ mem)
  intro g mem
  obtain ⟨c, held, rfl⟩ := List.mem_map.mp mem
  exact kept c held

theorem IsMark.not_blank (marked : IsMark mark) : ∀ c ∈ mark, isBlank c = false := by
  rcases marked with rfl | rfl | rfl
  · exact List.forall_mem_nil _
  · exact List.forall_mem_cons.mpr ⟨rfl, List.forall_mem_singleton.mpr rfl⟩
  · exact List.forall_mem_cons.mpr ⟨rfl, List.forall_mem_singleton.mpr rfl⟩

/-- No digit is part of a mark. -/
theorem unmarked_ofChars (marked : IsMark mark)
    (all : ∀ c ∈ digits, Hex.IsDigit c) :
    Text.unmarked (Text.ofChars (mark ++ digits)) = Text.ofChars digits := by
  have plain : hasMarker digits = false := by
    rw [hasMarker.eq_def]
    split
    · next rest =>
      obtain ⟨v, digit⟩ := all 'x' (by simp)
      cases digit
    · next rest =>
      obtain ⟨v, digit⟩ := all 'X' (by simp)
      cases digit
    · rfl
  rw [Text.unmarked, Text.faces_ofChars]
  rcases marked with rfl | rfl | rfl
  · rw [List.nil_append, plain]
    rfl
  · rfl
  · rfl

theorem digits_framed (around : ∀ g ∈ before ++ after, isBlank g.face = true)
    (marked : IsMark mark) (all : ∀ c ∈ digits, Hex.IsDigit c) :
    ByteText.digits (before ++ Text.ofChars (mark ++ digits) ++ after) = Text.ofChars digits := by
  have kept : ∀ c ∈ mark ++ digits, isBlank c = false := by
    intro c mem
    rcases List.mem_append.mp mem with marker | digit
    · exact marked.not_blank c marker
    · exact (all c digit).not_blank
  rw [ByteText.digits, strip_framed around kept, unmarked_ofChars marked all]

theorem digits_ofChars (all : ∀ c ∈ digits, Hex.IsDigit c) :
    ByteText.digits (Text.ofChars digits) = Text.ofChars digits := by
  have framed : ByteText.digits ([] ++ Text.ofChars ([] ++ digits) ++ []) = Text.ofChars digits :=
    digits_framed (fun g mem => by cases mem) (.inl rfl) all
  rwa [List.append_nil] at framed

/-- Printed bytes are their digits behind a mark. -/
theorem digits_marked (b : Bytes) :
    ByteText.digits (Text.ofString b.marked) = Text.ofChars (Hex.write b) := by
  have chars : Text.ofString b.marked = Text.ofChars (['0', 'x'] ++ Hex.write b) :=
    congrArg Text.ofChars (Hex.toList_marked (Hex.write b))
  have mark : IsMark ['0', 'x'] := .inr (.inl rfl)
  have bare : ∀ g ∈ ([] ++ [] : Text), isBlank g.face = true := List.forall_mem_nil _
  have digits := digits_framed bare mark (Hex.isDigit_write b)
  rwa [List.append_nil, List.nil_append, ← chars] at digits

theorem unmarked_split (t : Text) : ∃ mark, IsMark mark ∧ t = Text.ofChars mark ++ t.unmarked := by
  have face : ∀ {g : Glyph} {c : Char}, g.face = c → c.toNat < 128 → g = .char c := by
    rintro (c | n) _ rfl small
    · rfl
    · exact absurd small (show ¬(Char.ofNat 0xfffd).toNat < 128 by decide)
  rw [Text.unmarked]
  split
  · next has =>
    match t with
    | [] => cases has
    | [g] =>
      rw [hasMarker.eq_def] at has
      split at has
      · next same => cases congrArg List.length same
      · next same => cases congrArg List.length same
      · cases has
    | g :: h :: rest =>
      rw [hasMarker.eq_def] at has
      split at has
      · next same =>
        obtain ⟨first, second⟩ := List.cons.inj same
        rw [face first (by decide), face (List.cons.inj second).1 (by decide)]
        exact ⟨['0', 'x'], .inr (.inl rfl), rfl⟩
      · next same =>
        obtain ⟨first, second⟩ := List.cons.inj same
        rw [face first (by decide), face (List.cons.inj second).1 (by decide)]
        exact ⟨['0', 'X'], .inr (.inr rfl), rfl⟩
      · cases has
  · exact ⟨[], .inl rfl, rfl⟩

/-- Nothing but white space and one mark is taken off a text. -/
theorem digits_split (t : Text) :
    ∃ before mark after, IsMark mark ∧
      t = before ++ (Text.ofChars mark ++ ByteText.digits t) ++ after ∧
      ∀ g ∈ before ++ after, isBlank g.face = true := by
  obtain ⟨before, after, framed, first, last⟩ := trimBy_split (fun g : Glyph => isBlank g.face) t
  obtain ⟨mark, marked, split⟩ := unmarked_split t.strip
  refine ⟨before, mark, after, marked, ?_, ?_⟩
  · rw [ByteText.digits, ← split]
    exact framed
  · intro g mem
    rcases List.mem_append.mp mem with front | back
    · exact first g front
    · exact last g back

theorem length_digits_le (t : Text) :
    (ByteText.digits t).length ≤ t.length ∧
      ((ByteText.digits t).length = t.length → ByteText.digits t = t) := by
  obtain ⟨before, mark, after, _, framed, _⟩ := digits_split t
  have marked := List.sublist_append_right (Text.ofChars mark) (ByteText.digits t)
  have inner := marked.trans (List.sublist_append_right before _)
  have part := inner.trans (List.sublist_append_left _ after)
  rw [← framed] at part
  exact ⟨part.length_le, part.eq_of_length⟩

/-- A text stands for the pairs of digits that are left of it, if their length is even. -/
theorem ofText_eq_ok {t : Text} {b : Bytes} :
    ofText t = .ok b ↔
      (ByteText.digits t).length % 2 = 0 ∧ Hex.Pairs (ByteText.digits t).faces b := by
  rw [ofText, ← Hex.read_eq_some_iff]
  by_cases even : (ByteText.digits t).length % 2 = 0
  · rw [if_neg (not_not_intro even)]
    cases found : Hex.read (ByteText.digits t).faces with
    | none => exact iff_of_false nofun nofun
    | some b' => simp [even]
  · rw [if_pos even]
    exact iff_of_false nofun fun sound => even sound.1

end ByteText

namespace Address

/-- How an address may be spelled: as twenty bytes, or as a text of at most forty hexadecimal digits
in either case, with a mark or without, and with white space around. The digits are the number of
the address; missing ones are zero. -/
inductive Spells : Datum → Bytes → Prop
  | bytes (kind : ByteKind) {a : Bytes} (sized : a.length = addressSize) : Spells (.bytes kind a) a
  | text {before after : Text} {mark digits : List Char} {a : Bytes}
    (around : ∀ g ∈ before ++ after, isBlank g.face = true) (marked : ByteText.IsMark mark)
    (all : ∀ c ∈ digits, Hex.IsDigit c) (short : digits.length ≤ 2 * addressSize)
    (sized : a.length = addressSize) (value : a.value = Hex.number digits) :
    Spells (.text (before ++ Text.ofChars (mark ++ digits) ++ after)) a

theorem checkLength_eq_ok {a b : Bytes} :
    checkLength b = .ok a ↔ b = a ∧ a.length = addressSize := by
  rw [checkLength]
  split
  · next sized =>
    constructor
    · intro same
      cases same
      exact ⟨rfl, sized⟩
    · rintro ⟨rfl, _⟩
      rfl
  · next other =>
    constructor
    · intro failed
      cases failed
    · rintro ⟨rfl, sized⟩
      exact absurd sized other

theorem padZeros_ofChars (width : Nat) (digits : List Char) :
    (Text.ofChars digits).padZeros width =
      Text.ofChars (List.replicate (width - digits.length) '0' ++ digits) := by
  rw [Text.padZeros, List.leftpad, Text.ofChars, Text.ofChars, List.length_map, List.map_append,
    List.map_replicate]

/-- Digits filled up with zeros make the address of their number. -/
theorem read_padded {digits : List Char} {a : Bytes} (all : ∀ c ∈ digits, Hex.IsDigit c)
    (short : digits.length ≤ 2 * addressSize) (sized : a.length = addressSize)
    (value : a.value = Hex.number digits) :
    Hex.read (List.replicate (2 * addressSize - digits.length) '0' ++ digits) = some a := by
  have width := Hex.length_padded short
  obtain ⟨b, found, sized', same⟩ := Hex.read_digits
    (Hex.isDigit_padded all (2 * addressSize - digits.length)) (by rw [width]; rfl)
  rw [Hex.number_replicate, ← value] at same
  rw [width] at sized'
  rw [found, ← Bytes.numeral_value sized, ← same, Bytes.numeral_value (by omega)]

theorem read_of_spells {d : Datum} {a : Bytes} (spells : Spells d a) : read d = .ok a := by
  cases spells with
  | bytes kind sized =>
    exact checkLength_eq_ok.mpr ⟨rfl, sized⟩
  | @text before after mark digits _ around marked all short sized value =>
    have zeros := Hex.isDigit_padded all (2 * addressSize - digits.length)
    have found := read_padded all short sized value
    have text : ByteText.ofText (Text.ofChars
        (List.replicate (2 * addressSize - digits.length) '0' ++ digits)) = .ok a := by
      rw [ByteText.ofText_eq_ok, ByteText.digits_ofChars zeros, Text.faces_ofChars, Text.ofChars,
        List.length_map, Hex.length_padded short]
      exact ⟨rfl, Hex.read_eq_some_iff.mp found⟩
    have room : ¬2 * addressSize < (Text.ofChars digits).length := by
      rw [Text.ofChars, List.length_map]
      omega
    rw [read]
    simp only [ByteText.digits_framed around marked all, if_neg room, padZeros_ofChars, text]
    exact checkLength_eq_ok.mpr ⟨rfl, sized⟩

/-- Forty glyphs that make twenty bytes lose nothing to white space or a mark. -/
theorem read_of_ofText {p : Text} {a : Bytes} (known : ByteText.ofText p = .ok a)
    (wide : p.length = 2 * addressSize) (sized : a.length = addressSize) :
    Hex.read p.faces = some a := by
  obtain ⟨_, pairs⟩ := ByteText.ofText_eq_ok.mp known
  have found := Hex.read_eq_some_iff.mpr pairs
  obtain ⟨fits, _⟩ := Hex.length_of_read found
  have faces : (ByteText.digits p).faces.length = (ByteText.digits p).length := List.length_map ..
  obtain ⟨less, whole⟩ := ByteText.length_digits_le p
  rw [whole (by omega)] at found
  exact found

/-- Twenty bytes made of forty characters leave no room for anything but digits. -/
theorem spells_of_padded {t : Text} {a : Bytes}
    (short : (ByteText.digits t).length ≤ 2 * addressSize)
    (found : Hex.read ((ByteText.digits t).padZeros (2 * addressSize)).faces = some a)
    (sized : a.length = addressSize) : Spells (.text t) a := by
  have wide : ((ByteText.digits t).padZeros (2 * addressSize)).faces.length = 2 * addressSize := by
    rw [Text.faces_eq_map, List.length_map, Text.padZeros, List.length_leftpad]
    omega
  have all := (Hex.length_of_read found).2 (by rw [wide, sized])
  have digits : ∀ c ∈ (ByteText.digits t).faces, Hex.IsDigit c := by
    intro c mem
    refine all c ?_
    rw [Text.padZeros, List.leftpad, Text.faces_eq_map, List.map_append]
    exact List.mem_append_right _ mem
  have chars := Text.eq_ofChars_of_digits digits
  generalize (ByteText.digits t).faces = cs at digits chars
  rw [chars, padZeros_ofChars, Text.faces_ofChars] at found all
  rw [chars, Text.ofChars, List.length_map] at short
  obtain ⟨_, found', _, value⟩ := Hex.read_digits all (by rw [Hex.length_padded short]; rfl)
  cases found.symm.trans found'
  rw [Hex.number_replicate] at value
  obtain ⟨before, mark, after, marked, framed, around⟩ := ByteText.digits_split t
  rw [chars, Text.ofChars, Text.ofChars, ← List.map_append] at framed
  rw [framed]
  exact .text around marked digits short sized value

/-- What is read is spelled. -/
theorem spells_of_read {d : Datum} {a : Bytes} (known : read d = .ok a) : Spells d a := by
  cases d with
  | bytes kind b =>
    obtain ⟨rfl, sized⟩ := checkLength_eq_ok.mp known
    exact .bytes kind sized
  | text t =>
    rw [read] at known
    split at known
    · cases known
    · next short =>
      obtain ⟨b, found, checked⟩ := Outcome.bind_eq_ok.mp known
      obtain ⟨rfl, sized⟩ := checkLength_eq_ok.mp checked
      have short := Nat.le_of_not_lt short
      refine spells_of_padded short (read_of_ofText found ?_ sized) sized
      rw [Text.padZeros, List.length_leftpad]
      omega
  | _ => cases known

theorem read_eq_ok_iff {d : Datum} {a : Bytes} : read d = .ok a ↔ Spells d a :=
  ⟨spells_of_read, read_of_spells⟩

theorem Spells.length {d : Datum} {a : Bytes} (spells : Spells d a) : a.length = addressSize := by
  cases spells with
  | bytes kind sized => exact sized
  | text around marked all short sized value => exact sized

/-- An address spells itself. -/
theorem spells_ofBytes {a : Bytes} (sized : a.length = addressSize) : Spells (.ofBytes a) a :=
  .bytes .fixed sized

theorem Spells.unique {d : Datum} {a b : Bytes} (first : Spells d a) (second : Spells d b) :
    a = b :=
  Except.ok.inj ((read_of_spells first).symm.trans (read_of_spells second))

/-! ### The reserved range -/

/-- The address has sixteen zero bytes in front, and is not zero. -/
def Reserved (a : Bytes) : Prop := a.take 16 = Bytes.zeros 16 ∧ a ≠ Bytes.zeros addressSize

theorem isReserved_iff {a : Bytes} (sized : a.length = addressSize) :
    isReserved a = true ↔ Reserved a := by
  have front : (a.take 16).length = 16 := List.length_take_of_le (by rw [sized]; decide)
  have back : (a.drop 16).length = 4 := by
    rw [List.length_drop, sized]
    rfl
  have low : Bytes.value (a.drop 16) < Nat.pow 256 4 := Bytes.value_lt_of_length back
  have parts : a.value = Bytes.value (a.take 16) * Nat.pow 256 4 + Bytes.value (a.drop 16) := by
    rw [← back, ← Bytes.value_append, List.take_append_drop]
  have limit : reservedLimit = Nat.pow 256 4 := by decide
  have positive : 0 < a.value ↔ a ≠ Bytes.zeros addressSize := by
    rw [Nat.pos_iff_ne_zero, Ne, Bytes.value_eq_zero, sized]
  have small : a.value < reservedLimit ↔ a.take 16 = Bytes.zeros 16 := by
    rw [limit, parts]
    have zero := Bytes.value_eq_zero (b := a.take 16)
    rw [front] at zero
    rw [← zero]
    constructor
    · intro less
      refine Nat.eq_zero_of_not_pos fun some => ?_
      have := Nat.mul_le_mul_right (Nat.pow 256 4) some
      omega
    · intro nothing
      rw [nothing]
      omega
  rw [isReserved, Bool.and_eq_true, decide_eq_true_iff, decide_eq_true_iff, positive, small,
    and_comm, Reserved]

end Address

end SeededDraws
