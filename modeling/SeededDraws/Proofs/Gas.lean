import SeededDraws.Gas
/-!
# Charges on a meter

A charge is accepted exactly if its amount is an integer between zero and what is left on the meter.
Then that much more is used. A charge that is refused, for whatever reason, leaves the meter alone.
-/

namespace SeededDraws

theorem Datum.properInt?_eq_some {d : Datum} {n : Int} : d.properInt? = some n ↔ d = .int n := by
  cases d <;> simp [properInt?]

namespace GasMeter

variable {m : GasMeter}

/-- What a charge answers, and the reason for each refusal. -/
theorem consume_eq (within : m.used ≤ m.limit) (amount : Datum) :
    m.consume amount =
      match amount.properInt? with
      | none => (.error (.type (.notInteger "cost" amount.typeName)), m)
      | some n =>
        if n < 0 then (.error (.value (.below "cost" 0 n)), m)
        else if m.remaining < n then
          (.error (.failure (.outOfGas (.ofNat m.remaining) (.int n))), m)
        else (.ok (m.remaining - n.toNat), ⟨m.limit, m.used + n.toNat⟩) := by
  have supplied : (Datum.ofNat m.remaining).intAtLeast "supplied gas" 0 =
      .ok (m.remaining : Int) := by
    simp [Datum.intAtLeast, Datum.ofNat, Datum.properInt?]
  simp only [consume, deductGas, supplied, bind, Except.bind]
  rw [Datum.intAtLeast]
  cases amount.properInt? with
  | none => rfl
  | some n =>
    by_cases negative : n < 0
    · simp only [if_pos negative]
    · by_cases short : (m.remaining : Int) < n
      · simp only [if_neg negative, if_pos short]
        rfl
      · simp only [if_neg negative, if_neg short]
        have left : ((m.remaining : Int) - n).toNat = m.remaining - n.toNat := by omega
        have used : m.limit - (m.remaining - n.toNat) = m.used + n.toNat := by
          rw [remaining] at short ⊢
          omega
        simp only [left, used]

theorem consume_cases (within : m.used ≤ m.limit) (amount : Datum) :
    (∃ n : Nat, amount = .int n ∧ n ≤ m.remaining ∧
      m.consume amount = (.ok (m.remaining - n), ⟨m.limit, m.used + n⟩)) ∨
    ((∀ n : Nat, amount = .int n → m.remaining < n) ∧
      ∃ fault, m.consume amount = (.error fault, m)) := by
  rw [consume_eq within]
  cases named : amount.properInt? with
  | none =>
    refine .inr ⟨?_, _, rfl⟩
    intro n same
    rw [Datum.properInt?_eq_some.mpr same] at named
    cases named
  | some i =>
    obtain rfl := Datum.properInt?_eq_some.mp named
    simp only []
    by_cases negative : i < 0
    · rw [if_pos negative]
      refine .inr ⟨?_, _, rfl⟩
      intro n same
      cases same
      omega
    · rw [if_neg negative]
      by_cases short : (m.remaining : Int) < i
      · rw [if_pos short]
        refine .inr ⟨?_, _, rfl⟩
        intro n same
        cases same
        omega
      · rw [if_neg short]
        refine .inl ⟨i.toNat, ?_, by omega, rfl⟩
        rw [Int.toNat_of_nonneg (by omega)]

variable {amount : Datum}

theorem accepted_iff (within : m.used ≤ m.limit) :
    (∃ left, (m.consume amount).1 = .ok left) ↔
      ∃ n : Nat, amount = .int n ∧ n + m.used ≤ m.limit := by
  have room : m.remaining = m.limit - m.used := rfl
  rcases consume_cases within amount with ⟨n, rfl, enough, paid⟩ | ⟨short, fault, refused⟩
  · rw [paid]
    exact iff_of_true ⟨_, rfl⟩ ⟨n, rfl, by omega⟩
  · rw [refused]
    apply iff_of_false
    · rintro ⟨_, ⟨⟩⟩
    · rintro ⟨n, named, enough⟩
      have := short n named
      omega

/-- What is left, the amount and what was used before make up the limit. -/
theorem whole_of_accepted (within : m.used ≤ m.limit) {left : Nat}
    (accepted : (m.consume amount).1 = .ok left) :
    ∃ n : Nat, amount = .int n ∧ left + (m.used + n) = m.limit := by
  have room : m.remaining = m.limit - m.used := rfl
  rcases consume_cases within amount with ⟨n, rfl, enough, paid⟩ | ⟨_, fault, refused⟩
  · rw [paid] at accepted
    cases accepted
    exact ⟨n, rfl, by omega⟩
  · rw [refused] at accepted
    cases accepted

theorem same_of_refused (within : m.used ≤ m.limit) {fault : Fault}
    (refused : (m.consume amount).1 = .error fault) : (m.consume amount).2 = m := by
  rcases consume_cases within amount with ⟨n, rfl, _, paid⟩ | ⟨_, other, kept⟩
  · rw [paid] at refused
    cases refused
  · rw [kept]

end GasMeter

end SeededDraws
