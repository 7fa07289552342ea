import SeededDraws.Proofs.Numeral
/-!
# Integer literals

The numerals that say their own base: white space around, one sign, and then either a mark with
digits of its base behind it or a decimal. A decimal with a zero in front is zero, and only a
decimal has a limit on its digits. Digits are those of every script throughout, the zero of a mark
included.
-/

namespace SeededDraws.Numeral

/-- The ASCII characters that the readers trim, and all white space above ASCII. -/
def IsSpace (c : Char) : Prop :=
  isSpacing c = true ∨ (128 ≤ c.toNat ∧ isBlank c = true)

/-- How many digits there are: underscores do not count. -/
def digitCount (cs : List Char) : Nat := cs.countP (· ≠ '_')

def markedBase? : Char → Option Nat
  | 'x' | 'X' => some 16
  | 'o' | 'O' => some 8
  | 'b' | 'B' => some 2
  | _ => none

/-- A numeral without a sign, and its number. -/
inductive Magnitude : List Char → Nat → Prop
  | marked {zero mark : Char} {base n : Nat} {cs : List Char} (first : digitIn? 10 zero = some 0)
    (letter : markedBase? mark = some base) (body : Body base cs n) :
      Magnitude (zero :: mark :: cs) n
  | decimal {c : Char} {n : Nat} {cs : List Char} (digits : Run 10 (digitIn? 10) (c :: cs) n)
    (few : digitCount (c :: cs) ≤ digitLimit)
    (leading : digitIn? 10 c = some 0 → n = 0) : Magnitude (c :: cs) n

inductive Signed : List Char → Int → Prop
  | bare {cs : List Char} {n : Nat} (magnitude : Magnitude cs n) : Signed cs n
  | plus {cs : List Char} {n : Nat} (magnitude : Magnitude cs n) : Signed ('+' :: cs) n
  | minus {cs : List Char} {n : Nat} (magnitude : Magnitude cs n) : Signed ('-' :: cs) (-n)

/-- The integer that a text spells. -/
def Literal (cs : List Char) (v : Int) : Prop :=
  ∃ before body after, cs = before ++ body ++ after ∧ (∀ c ∈ before ++ after, IsSpace c) ∧
    Signed body v

theorem isSpacing_plain {c : Char} : isSpacing (plain c) = true ↔ IsSpace c := by
  rw [IsSpace]
  by_cases small : c.toNat < 128
  · have same : plain c = c := if_pos small
    rw [same]
    exact (or_iff_left fun beyond => Nat.not_le_of_lt small beyond.1).symm
  · have beyond : 128 ≤ c.toNat := Nat.le_of_not_lt small
    constructor
    · exact fun spacing => .inr ⟨beyond, blank_of_plain_spacing spacing⟩
    · rintro (spacing | ⟨_, blank⟩)
      · simp only [isSpacing, Bool.or_eq_true, Bool.and_eq_true, beq_iff_eq,
          decide_eq_true_eq] at spacing
        omega
      · rw [plain, if_neg small, if_pos blank]
        rfl

/-! ### Decimals -/

section Count

variable {base v : Nat} {c : Char} {cs : List Char}

theorem ne_underscore_of_digit? (digit : digit? base c = some v) : c ≠ '_' := by
  rintro rfl
  rw [digit?_underscore] at digit
  cases digit

theorem digitCount_digit (digit : digit? base c = some v) :
    digitCount (c :: cs) = digitCount cs + 1 :=
  List.countP_cons_of_pos (decide_eq_true (ne_underscore_of_digit? digit))

theorem digitCount_underscore : digitCount ('_' :: cs) = digitCount cs := rfl

theorem moreDigits_count {read behind : Digits} (found : moreDigits base read cs = some behind) :
    behind.count = read.count + digitCount cs := by
  fun_induction moreDigits base read cs with
  | case1 =>
    cases found
    rfl
  | case2 read c rest ih =>
    obtain ⟨v, digit, found⟩ := Option.bind_eq_some_iff.mp found
    rw [ih v found, digitCount_underscore, digitCount_digit digit]
    exact Nat.add_right_comm _ _ _
  | case3 read c rest other ih =>
    obtain ⟨v, digit, found⟩ := Option.bind_eq_some_iff.mp found
    rw [ih v found, digitCount_digit digit]
    exact Nat.add_right_comm _ _ _

theorem digits?_count {read : Digits} (found : digits? base cs = some read) :
    read.count = digitCount cs := by
  cases cs with
  | nil => cases found
  | cons c rest =>
    obtain ⟨v, digit, found⟩ := Option.bind_eq_some_iff.mp found
    rw [moreDigits_count found, digitCount_digit digit, Nat.add_comm]

end Count

theorem digitCount_plain (cs : List Char) : digitCount (cs.map plain) = digitCount cs := by
  rw [digitCount, List.countP_map]
  refine List.countP_congr fun c _ => ?_
  simp [plain_eq_underscore]

theorem decimal?_plain {cs : List Char} {n : Nat} :
    decimal? (cs.map plain) = some n ↔
      Run 10 (digitIn? 10) cs n ∧ digitCount cs ≤ digitLimit := by
  rw [← digits?_plain (by decide), ← digitCount_plain cs, decimal?]
  cases found : digits? 10 (cs.map plain) with
  | none => simp
  | some read =>
    rw [← digits?_count found]
    simp [and_comm]

/-! ### Marks and signs -/

theorem eq_zero_of_digit? {base : Nat} {c : Char} (digit : digit? base c = some 0) : c = '0' := by
  simp only [digit?, Option.ite_none_right_eq_some, Option.some.injEq] at digit
  have code : c.toNat = 48 := by
    obtain ⟨below, value⟩ := digit
    split at value
    · omega
    · split at value
      · omega
      · split at value <;> omega
  rw [← Char.ofNat_toNat c, code]

theorem plain_eq_zero (c : Char) : plain c = '0' ↔ digitIn? 10 c = some 0 := by
  rw [← digit?_plain_in (by decide)]
  constructor
  · intro same
    rw [same]
    decide
  · exact eq_zero_of_digit?

/-- A mark is written as itself, and nothing else is written as one. -/
theorem markedBase?_plain (c : Char) : markedBase? (plain c) = markedBase? c := by
  by_cases small : c.toNat < 128
  · rw [plain, if_pos small]
  · have beyond : 128 ≤ c.toNat := Nat.le_of_not_lt small
    have substituted : substitutes.all (markedBase? · == none) = true := rfl
    rw [beq_iff_eq.mp (List.all_eq_true.mp substituted _ (plain_beyond beyond))]
    unfold markedBase?
    split
    all_goals first | rfl | exact absurd beyond (by decide)

theorem markedBase?_digit {c : Char} {v : Nat} (digit : digitIn? 10 c = some v) :
    markedBase? c = none := by
  unfold markedBase?
  split
  all_goals first | rfl | exact nomatch (show some v = none from digit.symm.trans (by decide))

/-! ### The readers of a free base -/

theorem unsigned?_marked {mark : Char} {base : Nat} (letter : markedBase? mark = some base)
    (rest : List Char) : unsigned? .free ('0' :: mark :: rest) = marked? base rest := by
  unfold markedBase? at letter
  split at letter
  all_goals first | (cases letter; rfl) | cases letter

theorem unsigned?_zero {rest : List Char}
    (unmarked : ∀ mark tail, rest = mark :: tail → markedBase? mark = none) :
    unsigned? .free ('0' :: rest) = (decimal? ('0' :: rest)).filter (· == 0) := by
  rw [unsigned?]
  all_goals
    intro tail same
    cases unmarked _ tail same

theorem unsigned?_plain {cs : List Char} (first : ∀ rest, cs ≠ '0' :: rest) :
    unsigned? .free cs = decimal? cs := by
  rw [unsigned?]
  all_goals
    intro tail same
    exact first _ same

theorem markedBase?_le {c : Char} {base : Nat} (letter : markedBase? c = some base) :
    base ≤ 16 := by
  unfold markedBase? at letter
  split at letter
  all_goals first | (cases letter; decide) | cases letter

theorem not_run_of_mark {base n : Nat} {c mark : Char} {cs : List Char}
    (letter : markedBase? mark = some base) : ¬Run 10 (digitIn? 10) (c :: mark :: cs) n := by
  intro run
  rcases run.mem mark (by simp) with rfl | ⟨v, digit⟩
  · cases letter
  · rw [markedBase?_digit digit] at letter
    cases letter

theorem unsigned?_iff {cs : List Char} {n : Nat} :
    unsigned? .free (cs.map plain) = some n ↔ Magnitude cs n := by
  cases cs with
  | nil => exact iff_of_false nofun nofun
  | cons c rest =>
    by_cases zero : digitIn? 10 c = some 0
    · have written := (plain_eq_zero c).mpr zero
      by_cases marked : ∃ mark tail base, rest = mark :: tail ∧ markedBase? mark = some base
      · obtain ⟨mark, tail, base, rfl, letter⟩ := marked
        rw [List.map_cons, List.map_cons, written,
          unsigned?_marked ((markedBase?_plain mark).trans letter),
          marked?_plain (markedBase?_le letter)]
        constructor
        · exact .marked zero letter
        · intro magnitude
          cases magnitude with
          | marked first letter' body =>
            cases letter.symm.trans letter'
            exact body
          | decimal digits few leading => exact absurd digits (not_run_of_mark letter)
      · rw [List.map_cons, written, unsigned?_zero, ← written, ← List.map_cons,
          Option.filter_eq_some_iff, decimal?_plain, beq_iff_eq]
        · constructor
          · rintro ⟨⟨digits, few⟩, none⟩
            exact .decimal digits few fun _ => none
          · intro magnitude
            cases magnitude with
            | marked first letter body => exact absurd ⟨_, _, _, rfl, letter⟩ marked
            | decimal digits few leading => exact ⟨⟨digits, few⟩, leading zero⟩
        · intro mark tail same
          obtain ⟨mark, tail, rfl, rfl, _⟩ := List.map_eq_cons_iff.mp same
          rw [markedBase?_plain, Option.eq_none_iff_forall_ne_some]
          exact fun base letter => marked ⟨mark, tail, base, rfl, letter⟩
    · rw [unsigned?_plain, decimal?_plain]
      · constructor
        · rintro ⟨digits, few⟩
          exact .decimal digits few fun first => absurd first zero
        · intro magnitude
          cases magnitude with
          | marked first letter body => exact absurd first zero
          | decimal digits few leading => exact ⟨digits, few⟩
      · intro tail same
        exact zero ((plain_eq_zero c).mp (List.cons.inj same).1)

theorem Magnitude.not_blank {cs : List Char} {n : Nat} (magnitude : Magnitude cs n) :
    ∀ c ∈ cs, isBlank c = false := by
  have digit : ∀ {c : Char} {v : Nat}, digitIn? 10 c = some v → isBlank c = false :=
    fun digit => not_blank_of_hexDigit? (Option.filter_eq_some_iff.mp digit).1
  have letters : ∀ {c : Char} {base : Nat}, markedBase? c = some base → isBlank c = false := by
    intro c base letter
    unfold markedBase? at letter
    split at letter
    all_goals first | decide | cases letter
  intro c held
  cases magnitude with
  | marked first letter body =>
    rcases List.mem_cons.mp held with rfl | held
    · exact digit first
    · rcases List.mem_cons.mp held with rfl | held
      · exact letters letter
      · exact body.not_blank c held
  | decimal digits few leading => exact Body.not_blank (.inl digits) c held

theorem Magnitude.head {c : Char} {rest : List Char} {n : Nat}
    (magnitude : Magnitude (c :: rest) n) : ∃ v, digitIn? 10 c = some v := by
  cases magnitude with
  | marked first letter body => exact ⟨0, first⟩
  | decimal digits few leading =>
    obtain ⟨d, v, others, same, first⟩ := digits.cons
    rw [(List.cons.inj same).1]
    exact ⟨v, first⟩

theorem Magnitude.unsigned {cs : List Char} {n : Nat} (magnitude : Magnitude cs n) :
    ∀ sign ∈ ['+', '-'], ∀ rest, cs ≠ sign :: rest := by
  have digitless : ['+', '-'].all (digitIn? 10 · == none) = true := by decide
  rintro sign held rest rfl
  obtain ⟨v, first⟩ := magnitude.head
  rw [beq_iff_eq.mp (List.all_eq_true.mp digitless sign held)] at first
  cases first

section Sign

variable {v : Int} {cs : List Char}

theorem signed?_minus :
    signed? .free ('-' :: cs) = some v ↔
      ∃ n : Nat, unsigned? .free cs = some n ∧ -(n : Int) = v := by
  rw [signed?]
  cases unsigned? .free cs <;> simp

theorem signed?_plus :
    signed? .free ('+' :: cs) = some v ↔
      ∃ n : Nat, unsigned? .free cs = some n ∧ (n : Int) = v := by
  rw [signed?]
  cases unsigned? .free cs <;> simp

theorem signed?_bare (bare : ∀ sign ∈ ['+', '-'], ∀ rest, cs ≠ sign :: rest) :
    signed? .free cs = some v ↔ ∃ n : Nat, unsigned? .free cs = some n ∧ (n : Int) = v := by
  rw [signed?]
  · cases unsigned? .free cs <;> simp
  · exact bare '-' (by decide)
  · exact bare '+' (by decide)

theorem signed_minus :
    Signed ('-' :: cs) v ↔ ∃ n : Nat, Magnitude cs n ∧ -(n : Int) = v := by
  constructor
  · intro signed
    cases signed with
    | bare magnitude => exact absurd rfl (magnitude.unsigned '-' (by decide) cs)
    | minus magnitude => exact ⟨_, magnitude, rfl⟩
  · rintro ⟨n, magnitude, rfl⟩
    exact .minus magnitude

theorem signed_plus : Signed ('+' :: cs) v ↔ ∃ n : Nat, Magnitude cs n ∧ (n : Int) = v := by
  constructor
  · intro signed
    cases signed with
    | bare magnitude => exact absurd rfl (magnitude.unsigned '+' (by decide) cs)
    | plus magnitude => exact ⟨_, magnitude, rfl⟩
  · rintro ⟨n, magnitude, rfl⟩
    exact .plus magnitude

theorem signed_bare (bare : ∀ sign ∈ ['+', '-'], ∀ rest, cs ≠ sign :: rest) :
    Signed cs v ↔ ∃ n : Nat, Magnitude cs n ∧ (n : Int) = v := by
  constructor
  · intro signed
    cases signed with
    | bare magnitude => exact ⟨_, magnitude, rfl⟩
    | plus magnitude => exact absurd rfl (bare '+' (by decide) _)
    | minus magnitude => exact absurd rfl (bare '-' (by decide) _)
  · rintro ⟨n, magnitude, rfl⟩
    exact .bare magnitude

theorem signed?_iff : signed? .free (cs.map plain) = some v ↔ Signed cs v := by
  have plain_sign : ∀ sign ∈ ['+', '-'], ∀ c, plain c = sign ↔ c = sign := by
    intro sign held
    rcases held with _ | ⟨_, _ | ⟨_, ⟨⟩⟩⟩
    · exact plain_eq_iff (by decide) (by decide)
    · exact plain_eq_iff (by decide) (by decide)
  by_cases minus : ∃ rest, cs = '-' :: rest
  · obtain ⟨rest, rfl⟩ := minus
    have written : ('-' :: rest).map plain = '-' :: rest.map plain := rfl
    simp only [written, signed?_minus, signed_minus, unsigned?_iff]
  · by_cases plus : ∃ rest, cs = '+' :: rest
    · obtain ⟨rest, rfl⟩ := plus
      have written : ('+' :: rest).map plain = '+' :: rest.map plain := rfl
      simp only [written, signed?_plus, signed_plus, unsigned?_iff]
    · have bare : ∀ sign ∈ ['+', '-'], ∀ rest, cs ≠ sign :: rest := by
        rintro sign held rest rfl
        rcases held with _ | ⟨_, _ | ⟨_, ⟨⟩⟩⟩
        · exact plus ⟨rest, rfl⟩
        · exact minus ⟨rest, rfl⟩
      have written : ∀ sign ∈ ['+', '-'], ∀ rest, cs.map plain ≠ sign :: rest := by
        intro sign held rest same
        obtain ⟨c, tail, split, first, _⟩ := List.map_eq_cons_iff.mp same
        exact bare sign held tail (by rw [split, (plain_sign sign held c).mp first])
      simp only [signed?_bare written, signed_bare bare, unsigned?_iff]

end Sign

theorem Signed.not_spacing {cs : List Char} {v : Int} (signed : Signed cs v) :
    ∀ c ∈ cs, isSpacing (plain c) = false := by
  intro c held
  rw [Bool.eq_false_iff]
  intro spacing
  have blank := blank_of_plain_spacing spacing
  suffices isBlank c = false by
    rw [this] at blank
    cases blank
  cases signed with
  | bare magnitude => exact magnitude.not_blank c held
  | plus magnitude =>
    rcases List.mem_cons.mp held with rfl | held
    · decide
    · exact magnitude.not_blank c held
  | minus magnitude =>
    rcases List.mem_cons.mp held with rfl | held
    · decide
    · exact magnitude.not_blank c held

/-- The reader of a free base takes the literals, and gives the integer of each. -/
theorem read?_iff {cs : List Char} {v : Int} : read? .free cs = some v ↔ Literal cs v := by
  have spaces : ∀ c, (isSpacing ∘ plain) c = true ↔ IsSpace c := fun c => isSpacing_plain
  rw [read?, ← trimBy_map, signed?_iff]
  constructor
  · intro signed
    obtain ⟨before, after, framed, first, last⟩ := trimBy_split (isSpacing ∘ plain) cs
    refine ⟨before, _, after, framed, fun c held => ?_, signed⟩
    rcases List.mem_append.mp held with front | back
    · exact (spaces c).mp (first c front)
    · exact (spaces c).mp (last c back)
  · rintro ⟨before, body, after, rfl, around, signed⟩
    rw [trimBy_framed]
    · exact signed
    · exact fun c held => (spaces c).mpr (around c (List.mem_append_left _ held))
    · exact signed.not_spacing
    · exact fun c held => (spaces c).mpr (around c (List.mem_append_right _ held))

end SeededDraws.Numeral
