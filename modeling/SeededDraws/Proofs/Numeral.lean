import SeededDraws.Proofs.Text
import SeededDraws.Text.Numeral
/-!
# The grammar of numerals

Digits with single underscores between them, in any base. A reader of hexadecimal numerals takes
the digits of every script, and one underscore between the mark and the first digit.
-/

namespace SeededDraws.Numeral

/-- Digits and what they spell; underscores stand one at a time and between digits only. -/
inductive Run (base : Nat) (value? : Char → Option Nat) : List Char → Nat → Prop
  | one {c : Char} {v : Nat} (digit : value? c = some v) : Run base value? [c] v
  | next {cs : List Char} {n v : Nat} {c : Char} (front : Run base value? cs n)
    (digit : value? c = some v) : Run base value? (cs ++ [c]) (n * base + v)
  | spaced {cs : List Char} {n v : Nat} {c : Char} (front : Run base value? cs n)
    (digit : value? c = some v) : Run base value? (cs ++ ['_', c]) (n * base + v)

section Run

variable {base n : Nat} {value? : Char → Option Nat} {cs ds : List Char}

theorem Run.cons (run : Run base value? cs n) :
    ∃ c v rest, cs = c :: rest ∧ value? c = some v := by
  induction run with
  | @one c v digit => exact ⟨c, v, [], rfl, digit⟩
  | @next cs n v c front digit ih =>
    obtain ⟨d, u, rest, rfl, first⟩ := ih
    exact ⟨d, u, rest ++ [c], rfl, first⟩
  | @spaced cs n v c front digit ih =>
    obtain ⟨d, u, rest, rfl, first⟩ := ih
    exact ⟨d, u, rest ++ ['_', c], rfl, first⟩

theorem Run.mem (run : Run base value? cs n) :
    ∀ c ∈ cs, c = '_' ∨ ∃ v, value? c = some v := by
  induction run with
  | @one c v digit =>
    intro d held
    rw [List.mem_singleton.mp held]
    exact .inr ⟨v, digit⟩
  | @next cs n v c front digit ih =>
    intro d held
    rcases List.mem_append.mp held with earlier | last
    · exact ih d earlier
    · rw [List.mem_singleton.mp last]
      exact .inr ⟨v, digit⟩
  | @spaced cs n v c front digit ih =>
    intro d held
    rcases List.mem_append.mp held with earlier | last
    · exact ih d earlier
    · rcases List.mem_cons.mp last with rfl | last
      · exact .inl rfl
      · rw [List.mem_singleton.mp last]
        exact .inr ⟨v, digit⟩

/-- Characters may be replaced by others that stand for the same digits. -/
theorem run_map {f : Char → Char} (under : ∀ c, f c = '_' ↔ c = '_') :
    Run base value? (cs.map f) n ↔ Run base (value? ∘ f) cs n := by
  constructor
  · generalize image : cs.map f = ds
    intro run
    induction run generalizing cs with
    | @one c v digit =>
      obtain ⟨d, rfl, rfl⟩ := List.map_eq_singleton_iff.mp image
      exact .one digit
    | @next ds n v c front digit ih =>
      obtain ⟨cs, last, rfl, before, behind⟩ := List.map_eq_append_iff.mp image
      obtain ⟨d, rfl, rfl⟩ := List.map_eq_singleton_iff.mp behind
      exact .next (ih before) digit
    | @spaced ds n v c front digit ih =>
      obtain ⟨cs, last, rfl, before, behind⟩ := List.map_eq_append_iff.mp image
      obtain ⟨u, rest, rfl, same, behind⟩ := List.map_eq_cons_iff.mp behind
      obtain ⟨d, rfl, rfl⟩ := List.map_eq_singleton_iff.mp behind
      rw [(under u).mp same]
      exact .spaced (ih before) digit
  · intro run
    induction run with
    | one digit => exact .one digit
    | next front digit ih =>
      rw [List.map_append]
      exact .next ih digit
    | spaced front digit ih =>
      rw [List.map_append, List.map_cons, (under '_').mpr rfl]
      exact .spaced ih digit

/-! ### Reading digits -/

theorem digit?_underscore (base : Nat) : digit? base '_' = none := by
  simp [digit?]

theorem moreDigits_append {read behind : Digits} (found : moreDigits base read cs = some behind) :
    moreDigits base read (cs ++ ds) = moreDigits base behind ds := by
  fun_induction moreDigits base read cs with
  | case1 =>
    cases found
    rfl
  | case2 read c rest ih =>
    obtain ⟨v, digit, found⟩ := Option.bind_eq_some_iff.mp found
    rw [List.cons_append, List.cons_append, moreDigits, digit]
    exact ih v found
  | case3 read c rest other ih =>
    obtain ⟨v, digit, found⟩ := Option.bind_eq_some_iff.mp found
    have plain : c ≠ '_' := by
      rintro rfl
      rw [digit?_underscore] at digit
      cases digit
    rw [List.cons_append, moreDigits]
    · rw [digit]
      exact ih v found
    · exact fun _ _ same => absurd same plain

theorem run_of_moreDigits {read behind : Digits} (front : Run base (digit? base) ds read.value)
    (found : moreDigits base read cs = some behind) :
    Run base (digit? base) (ds ++ cs) behind.value := by
  fun_induction moreDigits base read cs generalizing ds with
  | case1 =>
    cases found
    rw [List.append_nil]
    exact front
  | case2 read c rest ih =>
    obtain ⟨v, digit, found⟩ := Option.bind_eq_some_iff.mp found
    have grown := ih v (front.spaced digit) found
    rwa [List.append_assoc] at grown
  | case3 read c rest other ih =>
    obtain ⟨v, digit, found⟩ := Option.bind_eq_some_iff.mp found
    have grown := ih v (front.next digit) found
    rwa [List.append_assoc] at grown

/-- The reader takes the digits of the grammar, and gives their number. -/
theorem digits?_eq_some_iff :
    (digits? base cs).map (·.value) = some n ↔ Run base (digit? base) cs n := by
  constructor
  · intro found
    obtain ⟨behind, taken, value⟩ := Option.map_eq_some_iff.mp found
    cases cs with
    | nil => cases taken
    | cons c rest =>
      obtain ⟨v, digit, taken⟩ := Option.bind_eq_some_iff.mp taken
      have first : Run base (digit? base) [c] v := .one digit
      rw [← value]
      exact run_of_moreDigits first taken
  · intro run
    suffices ∃ behind, digits? base cs = some behind ∧ behind.value = n by
      obtain ⟨behind, found, value⟩ := this
      rw [found, ← value]
      rfl
    induction run with
    | @one c v digit =>
      refine ⟨⟨v, 1⟩, ?_, rfl⟩
      rw [digits?, digit]
      rfl
    | @next cs n v c front digit ih =>
      obtain ⟨behind, found, rfl⟩ := ih
      obtain ⟨d, _, rest, rfl, _⟩ := front.cons
      obtain ⟨u, first, found⟩ := Option.bind_eq_some_iff.mp found
      have plain : c ≠ '_' := by
        rintro rfl
        rw [digit?_underscore] at digit
        cases digit
      refine ⟨⟨behind.value * base + v, behind.count + 1⟩, ?_, rfl⟩
      rw [List.cons_append, digits?, first]
      refine (moreDigits_append found).trans ?_
      rw [moreDigits]
      · rw [digit]
        rfl
      · exact fun _ _ same => absurd same plain
    | @spaced cs n v c front digit ih =>
      obtain ⟨behind, found, rfl⟩ := ih
      obtain ⟨d, _, rest, rfl, _⟩ := front.cons
      obtain ⟨u, first, found⟩ := Option.bind_eq_some_iff.mp found
      refine ⟨⟨behind.value * base + v, behind.count + 1⟩, ?_, rfl⟩
      rw [List.cons_append, digits?, first]
      refine (moreDigits_append found).trans ?_
      rw [moreDigits, digit]
      rfl

end Run

/-! ### Digits of any script -/

/-- The digit that a character stands for: hexadecimal in either case, or decimal in any script. -/
def hexDigit? (c : Char) : Option Nat := (Hex.value? c).or (decimalValue? c)

theorem decimalValue?_of_blank {c : Char} (beyond : 128 ≤ c.toNat) (blank : isBlank c = true) :
    decimalValue? c = none := by
  have apart : ∀ first ∈ digitZeros,
      (∀ n ∈ [0x85, 0xa0, 0x1680, 0x2028, 0x2029, 0x202f, 0x205f, 0x3000],
        ¬(first ≤ n ∧ n ≤ first + 9)) ∧
      (0x200a < first ∨ first + 9 < 0x2000) := by decide +kernel
  have outside : ¬(48 ≤ c.toNat ∧ c.toNat ≤ 57) := by omega
  rw [decimalValue?, if_neg outside, Option.map_eq_none_iff, List.find?_eq_none]
  intro first member within
  obtain ⟨single, range⟩ := apart first member
  simp only [List.forall_mem_cons, List.not_mem_nil] at single
  simp only [Bool.and_eq_true, decide_eq_true_eq] at within
  simp only [isBlank, Bool.or_eq_true, Bool.and_eq_true, decide_eq_true_eq, beq_iff_eq] at blank
  omega

theorem decimalValue?_le {c : Char} {v : Nat} (beyond : 128 ≤ c.toNat)
    (digit : decimalValue? c = some v) : v ≤ 9 := by
  have outside : ¬(48 ≤ c.toNat ∧ c.toNat ≤ 57) := by omega
  rw [decimalValue?, if_neg outside] at digit
  obtain ⟨first, found, rfl⟩ := Option.map_eq_some_iff.mp digit
  have within := List.find?_some found
  simp only [Bool.and_eq_true, decide_eq_true_eq] at within
  omega

theorem value?_beyond {c : Char} (beyond : 128 ≤ c.toNat) : Hex.value? c = none := by
  cases value : Hex.value? c with
  | none => rfl
  | some v =>
    have range := Hex.value?_eq_some value
    omega

/-- What holds of all ASCII characters can be looked up, one by one. -/
theorem forall_ascii {P : Char → Prop} (table : ∀ n < 128, P (Char.ofNat n)) (c : Char)
    (ascii : c.toNat < 128) : P c := by
  have entry := table c.toNat ascii
  rwa [Char.ofNat_toNat] at entry

theorem digit?_plain (c : Char) : digit? 16 (plain c) = hexDigit? c := by
  rw [plain, hexDigit?]
  by_cases ascii : c.toNat < 128
  · have table : ∀ c, c.toNat < 128 → digit? 16 c = (Hex.value? c).or (decimalValue? c) :=
      forall_ascii (by decide +kernel)
    rw [if_pos ascii, table c ascii]
  · have beyond : 128 ≤ c.toNat := Nat.le_of_not_lt ascii
    rw [if_neg ascii, value?_beyond beyond, Option.none_or]
    by_cases blank : isBlank c = true
    · rw [if_pos blank, decimalValue?_of_blank beyond blank]
      rfl
    · rw [if_neg blank]
      cases digit : decimalValue? c with
      | none => rfl
      | some v =>
        have ten : ∀ v ≤ 9, digit? 16 (Char.ofNat (48 + v)) = some v := by decide
        exact ten v (decimalValue?_le beyond digit)

/-- What may be written for a character above ASCII. -/
def substitutes : List Char := [' ', '?', '0', '1', '2', '3', '4', '5', '6', '7', '8', '9']

theorem plain_beyond {c : Char} (beyond : 128 ≤ c.toNat) : plain c ∈ substitutes := by
  rw [plain, if_neg (Nat.not_lt_of_le beyond)]
  split
  · decide
  · cases digit : decimalValue? c with
    | none => decide
    | some v =>
      have ten : ∀ v ≤ 9, Char.ofNat (48 + v) ∈ substitutes := by decide
      exact ten v (decimalValue?_le beyond digit)

/-- Every other ASCII character is written for itself only. -/
theorem plain_eq_iff {p : Char} (ascii : p.toNat < 128) (other : p ∉ substitutes) (c : Char) :
    plain c = p ↔ c = p := by
  by_cases small : c.toNat < 128
  · rw [plain, if_pos small]
  · refine iff_of_false ?_ ?_
    · rintro rfl
      exact other (plain_beyond (Nat.le_of_not_lt small))
    · rintro rfl
      exact small ascii

theorem plain_eq_underscore (c : Char) : plain c = '_' ↔ c = '_' :=
  plain_eq_iff (by decide) (by decide) c

theorem blank_of_plain_spacing {c : Char} (spacing : isSpacing (plain c) = true) :
    isBlank c = true := by
  rw [plain] at spacing
  split at spacing
  · exact isBlank_of_isSpacing spacing
  · split at spacing
    · next blank => exact blank
    · split at spacing
      · next beyond _ _ v digit =>
        have ten : ∀ v ≤ 9, isSpacing (Char.ofNat (48 + v)) = false := by decide
        rw [ten v (decimalValue?_le (Nat.le_of_not_lt beyond) digit)] at spacing
        cases spacing
      · cases spacing

theorem not_blank_of_hexDigit? {c : Char} {v : Nat} (digit : hexDigit? c = some v) :
    isBlank c = false := by
  rw [Bool.eq_false_iff]
  intro blank
  by_cases ascii : c.toNat < 128
  · have table : ∀ c, c.toNat < 128 → isBlank c = true → hexDigit? c = none :=
      forall_ascii (by decide +kernel)
    rw [table c ascii blank] at digit
    cases digit
  · have beyond : 128 ≤ c.toNat := Nat.le_of_not_lt ascii
    rw [hexDigit?, value?_beyond beyond, decimalValue?_of_blank beyond blank] at digit
    cases digit

/-! ### Digits below a base -/

/-- The digit that a character stands for, if it is one of the base. -/
def digitIn? (base : Nat) (c : Char) : Option Nat := (hexDigit? c).filter (· < base)

theorem digit?_lt {base v : Nat} {c : Char} (digit : digit? base c = some v) : v < base := by
  simp only [digit?, Option.ite_none_right_eq_some, Option.some.injEq] at digit
  obtain ⟨small, rfl⟩ := digit
  exact small

theorem hexDigit?_lt {c : Char} {v : Nat} (digit : hexDigit? c = some v) : v < 16 := by
  rw [← digit?_plain] at digit
  exact digit?_lt digit

theorem digitIn?_sixteen : digitIn? 16 = hexDigit? := by
  funext c
  rw [digitIn?]
  cases digit : hexDigit? c with
  | none => rfl
  | some v => rw [Option.filter_some, if_pos (decide_eq_true (hexDigit?_lt digit))]

/-- The digits of a smaller base are the hexadecimal ones below it. -/
theorem digit?_filter {base : Nat} (small : base ≤ 16) (c : Char) :
    digit? base c = (digit? 16 c).filter (· < base) := by
  have filtered : ∀ w, (if w < base then some w else none) =
      (if w < 16 then some w else none).filter (· < base) := by
    intro w
    by_cases below : w < base
    · rw [if_pos below, if_pos (Nat.lt_of_lt_of_le below small), Option.filter_some,
        if_pos (decide_eq_true below)]
    · rw [if_neg below]
      split
      · rw [Option.filter_some, if_neg (by simpa using below)]
      · rfl
  simp only [digit?]
  split
  · exact filtered _
  · split
    · exact filtered _
    · split
      · exact filtered _
      · rw [if_neg (Nat.lt_irrefl base), if_neg (Nat.lt_irrefl 16)]
        rfl

theorem digit?_plain_in {base : Nat} (small : base ≤ 16) (c : Char) :
    digit? base (plain c) = digitIn? base c := by
  rw [digit?_filter small, digit?_plain, digitIn?]

theorem digitIn?_underscore (base : Nat) : digitIn? base '_' = none := by
  have none : hexDigit? '_' = Option.none := by decide
  rw [digitIn?, none]
  rfl

section

variable {base n : Nat} {cs : List Char}

theorem digits?_plain (small : base ≤ 16) :
    (digits? base (cs.map plain)).map (·.value) = some n ↔ Run base (digitIn? base) cs n := by
  rw [digits?_eq_some_iff, run_map plain_eq_underscore]
  have same : digit? base ∘ plain = digitIn? base := funext (digit?_plain_in small)
  rw [same]

/-- What follows the mark of a base: digits, or an underscore and digits. -/
def Body (base : Nat) (cs : List Char) (n : Nat) : Prop :=
  Run base (digitIn? base) cs n ∨ ∃ rest, cs = '_' :: rest ∧ Run base (digitIn? base) rest n

theorem marked?_plain (small : base ≤ 16) :
    marked? base (cs.map plain) = some n ↔ Body base cs n := by
  have head : ∀ {c : Char} {rest : List Char},
      Run base (digitIn? base) (c :: rest) n → c ≠ '_' := by
    rintro c rest run rfl
    obtain ⟨d, v, others, same, digit⟩ := run.cons
    rw [← (List.cons.inj same).1, digitIn?_underscore] at digit
    cases digit
  cases cs with
  | nil =>
    show (digits? base (List.map plain [])).map (·.value) = some n ↔ Body base [] n
    rw [digits?_plain small]
    constructor
    · exact .inl
    · rintro (run | ⟨rest, ⟨⟩, _⟩)
      exact run
  | cons c rest =>
    rw [List.map_cons]
    by_cases under : c = '_'
    · rw [(plain_eq_underscore c).mpr under, marked?, digits?_plain small]
      constructor
      · exact fun run => .inr ⟨rest, by rw [under], run⟩
      · rintro (run | ⟨others, same, run⟩)
        · exact absurd under (head run)
        · rw [(List.cons.inj same).2]
          exact run
    · have other : ∀ others, plain c :: rest.map plain ≠ '_' :: others := by
        intro others same
        exact under ((plain_eq_underscore c).mp (List.cons.inj same).1)
      rw [marked?]
      · rw [← List.map_cons, digits?_plain small]
        constructor
        · exact .inl
        · rintro (run | ⟨others, same, _⟩)
          · exact run
          · exact absurd (List.cons.inj same).1 under
      · exact fun others same => other others same

theorem Body.not_blank (body : Body base cs n) : ∀ c ∈ cs, isBlank c = false := by
  have inner : ∀ {cs : List Char}, Run base (digitIn? base) cs n →
      ∀ c ∈ cs, isBlank c = false := by
    intro cs run c held
    rcases run.mem c held with rfl | ⟨v, digit⟩
    · decide
    · exact not_blank_of_hexDigit? (Option.filter_eq_some_iff.mp digit).1
  rcases body with run | ⟨rest, rfl, run⟩
  · exact inner run
  · intro c held
    rcases List.mem_cons.mp held with rfl | later
    · decide
    · exact inner run c later

end

/-! ### Hexadecimal numerals -/

/-- What follows the mark: digits, or an underscore and digits. -/
def HexBody (cs : List Char) (n : Nat) : Prop :=
  Run 16 hexDigit? cs n ∨ ∃ rest, cs = '_' :: rest ∧ Run 16 hexDigit? rest n

theorem hexBody_iff {cs : List Char} {n : Nat} : HexBody cs n ↔ Body 16 cs n := by
  rw [HexBody, Body, digitIn?_sixteen]

theorem hexBody_iff_marked? {cs : List Char} {n : Nat} :
    HexBody cs n ↔ marked? 16 (cs.map plain) = some n :=
  hexBody_iff.trans (marked?_plain (Nat.le_refl 16)).symm

end SeededDraws.Numeral
