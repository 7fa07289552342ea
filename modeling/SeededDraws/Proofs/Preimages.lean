import SeededDraws.Proofs.Seed
/-!
# What is hashed

A value is the keyed hash of a user seed and two numbers, and a user seed is the hash of an address,
a server seed and extra bytes. Every field but the extra bytes at the end has a fixed width, so that
what is hashed tells all the fields apart.
-/

namespace SeededDraws

namespace Bytes

/-- Numbers that fit the width are told by their numerals. -/
theorem numeral_inj {width m n : Nat} (first : m < Nat.pow 256 width)
    (second : n < Nat.pow 256 width) : numeral width m = numeral width n ↔ m = n := by
  constructor
  · intro same
    rw [← value_numeral first, same, value_numeral second]
  · exact congrArg (numeral width)

end Bytes

namespace Seed

/-- Both seeds are digests. -/
structure Sized (s : Seed) : Prop where
  server : s.server.length = 32
  user : s.user.length = 32

/-- The key and the message that one value is hashed from. -/
def keyed (s : Seed) (nonce index : Nat) : Bytes × Bytes := (s.server, s.message nonce index)

variable {s s' : Seed} {nonce nonce' index index' : Nat}

/-- The message ends with two numerals of eight bytes. -/
theorem message_inj (first : s.user.length = s'.user.length) (nonceFits : nonce < Nat.pow 2 64)
    (nonceFits' : nonce' < Nat.pow 2 64) (indexFits : index < Nat.pow 2 64)
    (indexFits' : index' < Nat.pow 2 64) :
    s.message nonce index = s'.message nonce' index' ↔
      s.user = s'.user ∧ nonce = nonce' ∧ index = index' := by
  have width : Nat.pow 2 64 = Nat.pow 256 nonceSize := by decide
  rw [width] at nonceFits nonceFits' indexFits indexFits'
  constructor
  · intro same
    have numerals : ∀ n m,
        (Bytes.numeral nonceSize n).length = (Bytes.numeral nonceSize m).length :=
      fun n m => by rw [Bytes.length_numeral, Bytes.length_numeral]
    obtain ⟨front, last⟩ := List.append_inj' same (numerals _ _)
    obtain ⟨user, middle⟩ := List.append_inj front first
    exact ⟨user, (Bytes.numeral_inj nonceFits nonceFits').mp middle,
      (Bytes.numeral_inj indexFits indexFits').mp last⟩
  · rintro ⟨user, rfl, rfl⟩
    rw [message, message, user]

/-- Seeds of digests, with nonces and indexes of eight bytes, share key and message only with
themselves. -/
theorem keyed_inj (sized : s.Sized) (sized' : s'.Sized) (nonceFits : nonce < Nat.pow 2 64)
    (nonceFits' : nonce' < Nat.pow 2 64) (indexFits : index < Nat.pow 2 64)
    (indexFits' : index' < Nat.pow 2 64) :
    s.keyed nonce index = s'.keyed nonce' index' ↔ s = s' ∧ nonce = nonce' ∧ index = index' := by
  have width : s.user.length = s'.user.length := sized.user.trans sized'.user.symm
  rw [keyed, keyed, Prod.mk.injEq,
    message_inj width nonceFits nonceFits' indexFits indexFits', ← and_assoc]
  obtain ⟨server, user⟩ := s
  obtain ⟨server', user'⟩ := s'
  rw [Seed.mk.injEq]

/-- Nothing follows the extra bytes, so they may have any length. -/
theorem userPreimage_inj {caller caller' server server' extra extra' : Bytes}
    (callers : caller.length = caller'.length) (servers : server.length = server'.length) :
    userPreimage caller server extra = userPreimage caller' server' extra' ↔
      caller = caller' ∧ server = server' ∧ extra = extra' := by
  constructor
  · intro same
    have front : (caller ++ server).length = (caller' ++ server').length := by
      rw [List.length_append, List.length_append, callers, servers]
    obtain ⟨both, extra⟩ := List.append_inj same front
    obtain ⟨caller, server⟩ := List.append_inj both callers
    exact ⟨caller, server, extra⟩
  · rintro ⟨rfl, rfl, rfl⟩
    rfl

theorem values_keyed (s : Seed) (nonce count : Nat) :
    s.values nonce count = (List.range count).map fun index =>
      Bytes.value (Sha256.hmac (s.keyed nonce index).1 (s.keyed nonce index).2) := rfl

end Seed

/-- Values are hashed from keys and messages that tell server seed, user seed, nonce and index
apart, and user seeds from byte strings that tell caller, server seed and extra bytes apart. No
value has an index beyond eight bytes: a sequence that gets there is refused. -/
theorem preimages_separated :
    (∀ (s : Seed) (nonce count : Nat), nonce ≤ maxUint64 →
      generateValues (.ofBytes s.server) (.ofBytes s.user) (.ofNat nonce) (.ofNat count) =
        if count ≤ maxUint64 + 1 then
          .ok ((List.range count).map fun index =>
            Bytes.value (Sha256.hmac (s.keyed nonce index).1 (s.keyed nonce index).2))
        else .error (.failure (.valueOverflow (maxUint64 + 1) (.int 64)))) ∧
    (∀ (s s' : Seed) (nonce nonce' index index' : Nat), s.Sized → s'.Sized →
      nonce ≤ maxUint64 → nonce' ≤ maxUint64 → index ≤ maxUint64 → index' ≤ maxUint64 →
      (s.keyed nonce index = s'.keyed nonce' index' ↔
        s = s' ∧ nonce = nonce' ∧ index = index')) ∧
    (∀ contract caller extra : Bytes,
      deriveSeed (.ofBytes contract) (.ofBytes caller) (.ofBytes extra) =
        .ok ⟨Keccak.hash contract,
          Keccak.hash (Seed.userPreimage caller (Keccak.hash contract) extra)⟩) ∧
    ∀ caller caller' server server' extra extra' : Bytes,
      caller.length = addressSize → caller'.length = addressSize →
      server.length = 32 → server'.length = 32 →
      (Seed.userPreimage caller server extra = Seed.userPreimage caller' server' extra' ↔
        caller = caller' ∧ server = server' ∧ extra = extra') := by
  have small : ∀ {n}, n ≤ maxUint64 → n < Nat.pow 2 64 := fun fits =>
    Nat.lt_of_not_le fun large => Nat.not_lt.mpr fits (maxUint64_lt.mpr large)
  refine ⟨?_, ?_, deriveSeed_ofBytes, ?_⟩
  · intro s nonce count fits
    rw [generateValues_ofBytes s count rfl fits]
    by_cases small : count ≤ maxUint64 + 1
    · rw [s.draw_of_le nonce small, if_pos small, s.values_keyed]
    · rw [Seed.draw, if_pos (Nat.lt_of_not_le small), if_neg small]
  · intro s s' nonce nonce' index index' sized sized' n n' i i'
    exact Seed.keyed_inj sized sized' (small n) (small n') (small i) (small i')
  · intro caller caller' server server' extra extra' sized sized' digest digest'
    exact Seed.userPreimage_inj (sized.trans sized'.symm) (digest.trans digest'.symm)

/-- Two numbers change places, and a zero joins the extra bytes. -/
theorem preimages_separated_moved :
    let s : Seed := ⟨Bytes.zeros 32, Bytes.zeros 32⟩
    s.keyed maxUint64 0 ≠ s.keyed 0 maxUint64 ∧
      Seed.userPreimage (Bytes.zeros 20) s.server [0, 1] ≠
        Seed.userPreimage (Bytes.zeros 20) s.server [1] := by
  intro s
  obtain ⟨_, keyed, _, hashed⟩ := preimages_separated
  have sized : s.Sized := ⟨rfl, rfl⟩
  constructor
  · rw [Ne, keyed s s maxUint64 0 0 maxUint64 sized sized (Nat.le_refl _) (Nat.zero_le _)
      (Nat.zero_le _) (Nat.le_refl _)]
    rintro ⟨_, none, _⟩
    cases none
  · rw [Ne, hashed _ _ s.server s.server [0, 1] [1] (Bytes.length_zeros 20)
      (Bytes.length_zeros 20) rfl rfl]
    rintro ⟨_, _, fewer⟩
    cases fewer

end SeededDraws
