import SeededDraws.Proofs.Abi.Words
import SeededDraws.Seed
/-!
# Draws on well-formed arguments

Once the arguments are byte strings and numbers in range, checking a count is three comparisons and
drawing is `Seed.values`. Every value fits a word.
-/

namespace SeededDraws

theorem maxUint256_lt {n : Nat} : maxUint256 < n ↔ Nat.pow 2 256 ≤ n := by
  change 2 ^ 256 - 1 < n ↔ 2 ^ 256 ≤ n
  omega

theorem maxUint64_lt {n : Nat} : maxUint64 < n ↔ Nat.pow 2 64 ≤ n := by
  change 2 ^ 64 - 1 < n ↔ 2 ^ 64 ≤ n
  omega

theorem Datum.natural_of_integer? {name : String} {d : Datum} {n : Nat}
    (named : d.integer? = some (n : Int)) : d.natural name = .ok n := by
  rw [natural, named]
  simp only []
  rw [if_neg (by omega), Int.toNat_natCast]

theorem deriveSeed_ofBytes (contract caller extra : Bytes) :
    deriveSeed (.ofBytes contract) (.ofBytes caller) (.ofBytes extra) =
      .ok (.ofBytes contract caller extra) := by
  have joined : Hash.joined [.ofBytes caller, .ofBytes (Keccak.hash contract), .ofBytes extra] =
      .ok (caller ++ (Keccak.hash contract ++ (extra ++ []))) := rfl
  simp only [deriveSeed, Hash.keccak256, Hash.keccak256Joined, bind, Except.bind, pure, Except.pure,
    show Hash.input "data" (.ofBytes contract) = .ok contract from rfl, joined]
  rw [Seed.ofBytes, Seed.userPreimage, List.append_nil, List.append_assoc]

theorem readUint64_of_integer? {name : String} {d : Datum} {k : Nat}
    (named : d.integer? = some (k : Int)) (fits : k ≤ maxUint64) :
    readUint64 name d = .ok k := by
  simp only [readUint64, Datum.natural_of_integer? named, bind, Except.bind,
    if_neg (Nat.not_lt.mpr fits)]

namespace Seed

/-- Below the bound every index fits. -/
theorem draw_of_le (seed : Seed) (nonce : Nat) {n : Nat} (small : n ≤ maxUint64 + 1) :
    seed.draw nonce n = .ok (seed.values nonce n) :=
  if_neg (Nat.not_lt.mpr small)

theorem draw_of_lt (seed : Seed) (nonce : Nat) {n : Nat} (small : n < Nat.pow 2 64) :
    seed.draw nonce n = .ok (seed.values nonce n) := by
  have fits : ¬maxUint64 < n := mt maxUint64_lt.mp (Nat.not_le.mpr small)
  exact seed.draw_of_le nonce (Nat.le_succ_of_le (Nat.le_of_not_lt fits))

end Seed

/-- Over byte strings the nonce decides, and behind it the count. -/
theorem generateValues_eq (server user : Bytes) (nonce : Datum) (n : Nat) :
    generateValues (.ofBytes server) (.ofBytes user) nonce (.ofNat n) =
      (readUint64 "nonce" nonce).bind fun k => (⟨server, user⟩ : Seed).draw k n := by
  have range : rangeLength (.ofNat n) = .ok n := rfl
  simp only [generateValues, range, bind, Except.bind]
  cases readUint64 "nonce" nonce with
  | error fault => rfl
  | ok k =>
    by_cases none : n = 0
    · subst none
      exact (Seed.draw_of_le ⟨server, user⟩ k (Nat.zero_le _)).symm
    · simp only [if_neg none]
      rfl

theorem generateValues_ofBytes (seed : Seed) {nonce : Datum} {k : Nat} (n : Nat)
    (named : nonce.integer? = some (k : Int)) (fits : k ≤ maxUint64) :
    generateValues (.ofBytes seed.server) (.ofBytes seed.user) nonce (.ofNat n) =
      seed.draw k n := by
  rw [generateValues_eq, readUint64_of_integer? named fits]
  rfl

namespace Seed

theorem length_values (seed : Seed) (nonce count : Nat) :
    (seed.values nonce count).length = count := by
  rw [values, List.length_map, List.length_range]

theorem value_lt (seed : Seed) (nonce index : Nat) : seed.value nonce index < Nat.pow 2 256 := by
  have sized := Sha256.length_hmac seed.server (seed.message nonce index)
  exact Nat.lt_of_lt_of_eq (Bytes.value_lt_of_length sized) (by decide)

theorem values_lt (seed : Seed) (nonce count : Nat) :
    ∀ v ∈ seed.values nonce count, v < Nat.pow 2 256 := by
  intro v drawn
  obtain ⟨index, _, rfl⟩ := List.mem_map.mp drawn
  exact seed.value_lt nonce index

end Seed

end SeededDraws
