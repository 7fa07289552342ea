import SeededDraws.Datum.Reading
/-!
# Natural numbers as doubles

Every natural number up to `2 ^ 53` is a double, and as long as a sum stays within that bound adding
is exact. Within it doubles can therefore be taken for the numbers that they hold. Beyond it numbers
are rounded, up to a bound just below `2 ^ 1024` from which on there is no double.
-/

namespace SeededDraws

namespace Binary64

/-- The greatest number below which no natural number is skipped. -/
def exactBound : Nat := Nat.pow 2 53

/-- The double is this number. One of the two powers is always one. -/
def Holds (x : Binary64) (n : Nat) : Prop :=
  ∃ m e, x = .finite false m e ∧ m * Nat.pow 2 e.toNat = n * Nat.pow 2 (-e).toNat

variable {x y : Binary64} {a b n k : Nat}

theorem holds_zero : zero.Holds 0 := ⟨0, lowestExponent, rfl, by simp⟩

theorem scaled_eq (n : Nat) (e : Int) :
    scaled n e = (n * Nat.pow 2 e.toNat, Nat.pow 2 (-e).toNat) := by
  rw [scaled]
  split
  · next up => rw [show (-e).toNat = 0 by omega, show Nat.pow 2 0 = 1 from rfl]
  · next down => rw [show e.toNat = 0 by omega, show n * Nat.pow 2 0 = n from Nat.mul_one n]

theorem signedMantissa_div {negative : Bool} {n : Int} (positive : 0 < b)
    (value : signedMantissa negative a = n * b) : signedMantissa negative (a / b) = n := by
  have cancel : ∀ k : Int, k * (b : Int) / b = k := fun k =>
    Int.mul_ediv_cancel k (Int.natCast_ne_zero.mpr (Nat.ne_of_gt positive))
  cases negative with
  | false =>
    show ((a / b : Nat) : Int) = n
    rw [Int.natCast_ediv, show (a : Int) = n * b from value, cancel]
  | true =>
    have turned : (a : Int) = -n * b := by
      rw [Int.neg_mul, ← value]
      exact (Int.neg_neg _).symm
    show -((a / b : Nat) : Int) = n
    rw [Int.natCast_ediv, turned, cancel, Int.neg_neg]

/-- A double that equals an integer is that integer when its fraction is cut off. -/
theorem toInt?_of_compareInt {n : Int} (same : x.compareInt n = some .eq) : x.toInt? = some n := by
  cases x with
  | nan => cases same
  | infinite negative => cases negative <;> cases same
  | finite negative m e =>
    rw [compareInt, scaled_eq] at same
    rw [toInt?, truncate, scaled_eq]
    have value := Int.compare_eq_eq.mp (Option.some.inj same)
    exact congrArg some (signedMantissa_div (Nat.two_pow_pos _) value)

/-! ### Rounding -/

theorem roundDiv_exact (q : Nat) {den : Nat} (positive : 0 < den) : roundDiv (q * den) den = q := by
  simp only [roundDiv, Nat.mul_div_cancel q positive, Nat.mul_mod_left]
  rw [if_pos (by omega)]

/-- A quotient that is a significand at its exponent is not rounded. -/
theorem roundAt_exact {num den m : Nat} {e : Int} (positive : 0 < den) (small : m < 2 * leastNormal)
    (low : e ≤ highestExponent)
    (exact : num * Nat.pow 2 (-e).toNat = m * (Nat.pow 2 e.toNat * den)) :
    roundAt false num den e = .finite false m e := by
  have scale : 0 < Nat.pow 2 e.toNat * den := Nat.mul_pos (Nat.two_pow_pos _) positive
  simp only [roundAt, scaled_eq, Int.neg_neg, exact, roundDiv_exact m scale]
  rw [if_neg (Nat.ne_of_lt small)]
  simp only []
  rw [if_neg (Int.not_lt.mpr low)]

theorem log2_scaled (positive : n ≠ 0) (k : Nat) : Nat.log2 (n * Nat.pow 2 k) = Nat.log2 n + k := by
  have scaled : n * Nat.pow 2 k ≠ 0 := Nat.mul_ne_zero positive (Nat.ne_of_gt (Nat.two_pow_pos k))
  obtain ⟨low, high⟩ := (Nat.log2_eq_iff positive).mp rfl
  refine (Nat.log2_eq_iff scaled).mpr ⟨?_, ?_⟩
  · rw [Nat.pow_add]
    exact Nat.mul_le_mul_right _ low
  · rw [Nat.add_right_comm, Nat.pow_add]
    exact Nat.mul_lt_mul_of_pos_right high (Nat.two_pow_pos k)

/-- The exponent of a quotient that is a natural number depends on that number alone. -/
theorem exponentOf_scaled (positive : n ≠ 0) (k : Nat) :
    exponentOf (n * Nat.pow 2 k) (Nat.pow 2 k) = Nat.log2 n - 52 := by
  have den : Nat.log2 (Nat.pow 2 k) = k := Nat.log2_two_pow
  have guess : ((Nat.log2 n + k : Nat) : Int) - k - 52 = Nat.log2 n - 52 := by omega
  have low : Nat.pow 2 (Nat.log2 n) ≤ n := Nat.log2_self_le positive
  have powers : leastNormal * Nat.pow 2 ((Nat.log2 n : Int) - 52).toNat =
      Nat.pow 2 (Nat.log2 n) * Nat.pow 2 (-((Nat.log2 n : Int) - 52)).toNat := by
    simp only [leastNormal, Nat.pow_eq, ← Nat.pow_add]
    congr 1
    omega
  have enough : leastNormal * (Nat.pow 2 ((Nat.log2 n : Int) - 52).toNat * Nat.pow 2 k) ≤
      n * Nat.pow 2 k * Nat.pow 2 (-((Nat.log2 n : Int) - 52)).toNat := by
    rw [← Nat.mul_assoc, powers, Nat.mul_right_comm]
    exact Nat.mul_le_mul_right _ (Nat.mul_le_mul_right _ low)
  simp only [exponentOf, log2_scaled positive, den, guess, scaled_eq, Int.neg_neg]
  rw [if_neg (Nat.not_lt.mpr enough), lowestExponent]
  omega

/-- Up to the bound a number fits the significand at its exponent. -/
theorem exists_significand (positive : n ≠ 0) (small : n ≤ exactBound) :
    ∃ m, m < 2 * leastNormal ∧
      n * Nat.pow 2 (-((Nat.log2 n : Int) - 52)).toNat =
        m * Nat.pow 2 ((Nat.log2 n : Int) - 52).toNat := by
  by_cases greatest : n = exactBound
  · refine ⟨leastNormal, by decide, ?_⟩
    rw [greatest]
    decide
  · have digits : Nat.log2 n < 53 :=
      (Nat.log2_lt positive).mpr (Nat.lt_of_le_of_ne small greatest)
    have high : n < Nat.pow 2 (Nat.log2 n + 1) := Nat.lt_log2_self
    have down : ((Nat.log2 n : Int) - 52).toNat = 0 := by omega
    have up : (-((Nat.log2 n : Int) - 52)).toNat = 52 - Nat.log2 n := by omega
    refine ⟨n * Nat.pow 2 (52 - Nat.log2 n), ?_, ?_⟩
    · have whole : Nat.pow 2 (Nat.log2 n + 1) * Nat.pow 2 (52 - Nat.log2 n) = 2 * leastNormal := by
        simp only [leastNormal, Nat.pow_eq, ← Nat.pow_add]
        rw [show Nat.log2 n + 1 + (52 - Nat.log2 n) = 53 by omega]
      rw [← whole]
      exact Nat.mul_lt_mul_of_pos_right high (Nat.two_pow_pos _)
    · rw [down, up]
      exact (Nat.mul_one _).symm

/-- The double nearest to a small natural number, however the quotient is written. -/
theorem ofQuotient_exact (positive : n ≠ 0) (small : n ≤ exactBound) :
    ∃ m, m * Nat.pow 2 ((Nat.log2 n : Int) - 52).toNat =
        n * Nat.pow 2 (-((Nat.log2 n : Int) - 52)).toNat ∧
      ∀ k, ofQuotient false (n * Nat.pow 2 k) (Nat.pow 2 k) =
        .finite false m ((Nat.log2 n : Int) - 52) := by
  obtain ⟨m, fits, exact⟩ := exists_significand positive small
  refine ⟨m, exact.symm, ?_⟩
  intro k
  have scale : 0 < Nat.pow 2 k := Nat.two_pow_pos k
  have low : (Nat.log2 n : Int) - 52 ≤ highestExponent := by
    have digits : Nat.log2 n < 54 :=
      (Nat.log2_lt positive).mpr (Nat.lt_of_le_of_lt small (by decide))
    rw [highestExponent]
    omega
  have rounded := roundAt_exact scale fits low
    (show n * Nat.pow 2 k * _ = _ by rw [Nat.mul_right_comm, exact, Nat.mul_assoc])
  rw [ofQuotient, if_neg (Nat.mul_ne_zero positive (Nat.ne_of_gt scale)),
    exponentOf_scaled positive, rounded]

theorem ofNat_eq (n : Nat) : ofNat n = ofQuotient false (n * Nat.pow 2 0) (Nat.pow 2 0) := by
  rw [ofNat, show n * Nat.pow 2 0 = n from Nat.mul_one n]

theorem ofQuotient_scaled (small : n ≤ exactBound) (k : Nat) :
    ofQuotient false (n * Nat.pow 2 k) (Nat.pow 2 k) = ofNat n := by
  by_cases none : n = 0
  · rw [none, Nat.zero_mul]
    rfl
  · obtain ⟨m, _, finite⟩ := ofQuotient_exact none small
    rw [ofNat_eq, finite k, finite 0]

/-- Up to the bound the nearest double is the number itself. -/
theorem holds_ofNat (small : n ≤ exactBound) : (ofNat n).Holds n := by
  by_cases none : n = 0
  · rw [none]
    exact holds_zero
  · obtain ⟨m, exact, finite⟩ := ofQuotient_exact none small
    rw [ofNat_eq, finite 0]
    exact ⟨m, _, rfl, exact⟩

/-! ### The range -/

/-- The least natural number that is rounded beyond the range. It lies half a place below the end of
the last binade. -/
def overflowBound : Nat := Nat.pow 2 1024 - Nat.pow 2 970

/-- Only the last half place is rounded up to the end of a binade. -/
theorem roundDiv_eq_end {num den : Nat} (small : num < 2 * leastNormal * den) :
    roundDiv num den = 2 * leastNormal ↔ (4 * leastNormal - 1) * den ≤ 2 * num := by
  have positive : 0 < den := by
    rcases Nat.eq_zero_or_pos den with rfl | positive
    · cases small
    · exact positive
  have whole : den * (num / den) + num % den = num := Nat.div_add_mod num den
  have rest : num % den < den := Nat.mod_lt num positive
  have below : num / den < 2 * leastNormal := (Nat.div_lt_iff_lt_mul positive).mpr small
  have value : leastNormal = 4503599627370496 := by decide
  rw [value] at below ⊢
  simp only [roundDiv]
  by_cases last : num / den = 9007199254740991
  · rw [last] at whole ⊢
    split
    · omega
    · split <;> omega
  · have room : den * (num / den + 1) ≤ den * 9007199254740991 := Nat.mul_le_mul_left den (by omega)
    rw [Nat.mul_succ] at room
    split
    · omega
    · split <;> omega

/-- Rounding raises the exponent by one at most. -/
theorem roundAt_eq_infinite (negative : Bool) (num den : Nat) (e : Int) :
    (∃ s, roundAt negative num den e = .infinite s) ↔
      highestExponent < e ∨ (e = highestExponent ∧
        roundDiv (num * Nat.pow 2 (-e).toNat) (Nat.pow 2 e.toNat * den) = 2 * leastNormal) := by
  simp only [roundAt, scaled_eq, Int.neg_neg]
  generalize roundDiv (num * Nat.pow 2 (-e).toNat) (Nat.pow 2 e.toNat * den) = m
  by_cases carried : m = 2 * leastNormal
  · simp only [if_pos carried]
    split
    · exact iff_of_true ⟨_, rfl⟩ (by omega)
    · exact iff_of_false (by rintro ⟨_, ⟨⟩⟩) (by omega)
  · simp only [if_neg carried]
    split
    · exact iff_of_true ⟨_, rfl⟩ (by omega)
    · exact iff_of_false (by rintro ⟨_, ⟨⟩⟩) (by omega)

/-- The half place of the last binade, which the other powers are multiples of. -/
theorem exists_half : ∃ half, 0 < half ∧ overflowBound = half * 18014398509481983 ∧
    ∀ k, Nat.pow 2 (970 + k) = half * Nat.pow 2 k := by
  have power : ∀ j, ∃ half, half = Nat.pow 2 j ∧ ∀ k, Nat.pow 2 (j + k) = half * Nat.pow 2 k :=
    fun j => ⟨_, rfl, Nat.pow_add 2 j⟩
  obtain ⟨half, named, power⟩ := power 970
  refine ⟨half, ?_, ?_, power⟩
  · rw [named]
    decide +kernel
  · rw [named]
    decide +kernel

theorem ofQuotient_eq_infinite {n : Nat} (negative : Bool) (positive : n ≠ 0) :
    (∃ s, ofQuotient negative n 1 = .infinite s) ↔ overflowBound ≤ n := by
  obtain ⟨half, some, bound, power⟩ := exists_half
  have below : ∀ k, Nat.log2 n < 970 + k → n < half * Nat.pow 2 k := fun k less =>
    power k ▸ (Nat.log2_lt positive).mp less
  have above : ∀ k, 970 + k ≤ Nat.log2 n → half * Nat.pow 2 k ≤ n := fun k more =>
    power k ▸ (Nat.le_log2 positive).mp more
  have exponent := exponentOf_scaled positive 0
  rw [show n * Nat.pow 2 0 = n from Nat.mul_one n] at exponent
  rw [ofQuotient, if_neg positive, show exponentOf n 1 = _ from exponent, roundAt_eq_infinite,
    bound]
  rcases Nat.lt_trichotomy (Nat.log2 n) 1023 with less | last | more
  · have small : n < half * 9007199254740992 := below 53 less
    rw [highestExponent]
    omega
  · have small : n < half * 18014398509481984 := below 54 (by omega)
    have highest : (Nat.log2 n : Int) - 52 = highestExponent := by
      rw [last]
      rfl
    have whole : n * Nat.pow 2 (-highestExponent).toNat = n := Nat.mul_one n
    have place : Nat.pow 2 highestExponent.toNat * 1 = half * 2 := by
      rw [Nat.mul_one, show highestExponent.toNat = 970 + 1 from rfl]
      exact power 1
    have normal : leastNormal = 4503599627370496 := by decide
    have room : n < 2 * leastNormal * (half * 2) := by
      rw [normal]
      omega
    rw [highest, whole, place, roundDiv_eq_end room, normal]
    omega
  · have large : half * 18014398509481984 ≤ n := above 54 more
    rw [highestExponent]
    omega

/-- An integer has no nearest double exactly if it reaches the bound. -/
theorem ofInt?_eq_none {n : Int} : ofInt? n = none ↔ overflowBound ≤ n.natAbs := by
  by_cases zero : n.natAbs = 0
  · rw [ofInt?, ofQuotient, if_pos zero, zero]
    exact iff_of_false nofun (by decide +kernel)
  · rw [← ofQuotient_eq_infinite (n < 0) zero, ofInt?]
    constructor
    · intro none
      split at none
      · next s rounded => exact ⟨s, rounded⟩
      · cases none
    · rintro ⟨s, rounded⟩
      rw [rounded]

theorem pow_le_overflowBound {k : Nat} (range : k ≤ 1023) : Nat.pow 2 k ≤ overflowBound := by
  have grow : ∀ j, k ≤ j → Nat.pow 2 k ≤ Nat.pow 2 j := fun _ => Nat.pow_le_pow_right (by decide)
  exact Nat.le_trans (grow 1023 range) (by decide +kernel)

/-- Below it the double is the nearest one. -/
theorem ofInt?_natCast (small : n < overflowBound) : ofInt? n = some (ofNat n) := by
  have found : ofInt? n ≠ none := fun none => Nat.not_le.mpr small (ofInt?_eq_none.mp none)
  have whole : ofQuotient ((n : Int) < 0) (n : Int).natAbs 1 = ofNat n := by
    rw [show decide ((n : Int) < 0) = false from decide_eq_false (by omega), Int.natAbs_natCast,
      ofNat]
  rw [ofInt?, whole] at found ⊢
  split at found
  · exact absurd rfl found
  · rfl

/-! ### Arithmetic -/

/-- A significand moved to a lower exponent stands for the same number. -/
theorem shift_value {m : Nat} {e low : Int}
    (value : m * Nat.pow 2 e.toNat = n * Nat.pow 2 (-e).toNat) (below : low ≤ e) :
    m * Nat.pow 2 (e - low).toNat * Nat.pow 2 low.toNat = n * Nat.pow 2 (-low).toNat := by
  refine Nat.eq_of_mul_eq_mul_right (Nat.two_pow_pos (-e).toNat) ?_
  have powers : Nat.pow 2 (e - low).toNat * Nat.pow 2 low.toNat * Nat.pow 2 (-e).toNat =
      Nat.pow 2 e.toNat * Nat.pow 2 (-low).toNat := by
    simp only [Nat.pow_eq, ← Nat.pow_add]
    congr 1
    omega
  calc m * Nat.pow 2 (e - low).toNat * Nat.pow 2 low.toNat * Nat.pow 2 (-e).toNat
      = m * (Nat.pow 2 (e - low).toNat * Nat.pow 2 low.toNat * Nat.pow 2 (-e).toNat) := by
        simp only [Nat.mul_assoc]
    _ = m * Nat.pow 2 e.toNat * Nat.pow 2 (-low).toNat := by rw [powers, Nat.mul_assoc]
    _ = n * Nat.pow 2 (-low).toNat * Nat.pow 2 (-e).toNat := by rw [value, Nat.mul_right_comm]

/-- Within the bound the sum is exact. -/
theorem Holds.add (hx : x.Holds a) (hy : y.Holds b) (small : a + b ≤ exactBound) :
    x.add y = ofNat (a + b) := by
  obtain ⟨m, e, rfl, hm⟩ := hx
  obtain ⟨n, f, rfl, hn⟩ := hy
  have first := shift_value hm (Int.min_le_left e f)
  have second := shift_value hn (Int.min_le_right e f)
  have total : (m * Nat.pow 2 (e - min e f).toNat + n * Nat.pow 2 (f - min e f).toNat) *
      Nat.pow 2 (min e f).toNat = (a + b) * Nat.pow 2 (-min e f).toNat := by
    rw [Nat.add_mul, first, second, Nat.add_mul]
  have sum : shifted false m (e - min e f) + shifted false n (f - min e f) =
      ((m * Nat.pow 2 (e - min e f).toNat + n * Nat.pow 2 (f - min e f).toNat : Nat) : Int) := by
    simp only [shifted, signedMantissa, Bool.false_eq_true, if_false, Int.natCast_add]
  generalize m * Nat.pow 2 (e - min e f).toNat + n * Nat.pow 2 (f - min e f).toNat = s at total sum
  simp only [Binary64.add, sum]
  by_cases none : s = 0
  · have zeros : a + b = 0 := by
      rw [none, Nat.zero_mul] at total
      exact (Nat.mul_eq_zero.mp total.symm).resolve_right (Nat.ne_of_gt (Nat.two_pow_pos _))
    rw [if_pos (by omega), zeros]
    rfl
  · rw [if_neg (by omega), scaled_eq, Int.natAbs_natCast, total,
      show decide ((s : Int) < 0) = false from decide_eq_false (by omega)]
    exact ofQuotient_scaled small _

theorem add_ofNat (small : a + b ≤ exactBound) : (ofNat a).add (ofNat b) = ofNat (a + b) :=
  (holds_ofNat (by omega)).add (holds_ofNat (by omega)) small

/-- One more than the bound is halfway between two doubles, and rounded back. -/
theorem add_one_exactBound : (ofNat exactBound).add (ofNat 1) = ofNat exactBound := by
  decide +kernel

theorem Holds.lessEqual (hx : x.Holds a) (hy : y.Holds b) : x.lessEqual y = decide (a ≤ b) := by
  obtain ⟨m, e, rfl, hm⟩ := hx
  obtain ⟨n, f, rfl, hn⟩ := hy
  have first := shift_value hm (Int.min_le_left e f)
  have second := shift_value hn (Int.min_le_right e f)
  have same : m * Nat.pow 2 (e - min e f).toNat ≤ n * Nat.pow 2 (f - min e f).toNat ↔ a ≤ b := by
    rw [← Nat.mul_le_mul_right_iff (Nat.two_pow_pos (min e f).toNat)]
    rw [show m * Nat.pow 2 (e - min e f).toNat * 2 ^ (min e f).toNat = _ from first,
      show n * Nat.pow 2 (f - min e f).toNat * 2 ^ (min e f).toNat = _ from second]
    exact Nat.mul_le_mul_right_iff (Nat.two_pow_pos (-min e f).toNat)
  simp only [Binary64.lessEqual, shifted, signedMantissa, Bool.false_eq_true, if_false]
  exact decide_eq_decide.mpr (Int.ofNat_le.trans same)

theorem Holds.lessEqual_infinite (hx : x.Holds a) : x.lessEqual (.infinite false) = true := by
  obtain ⟨m, e, rfl, _⟩ := hx
  rfl

end Binary64

end SeededDraws
