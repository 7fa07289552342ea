import SeededDraws.Hash
/-!
# Seeds and draws

Seeds and the values drawn from them. The server seed belongs to the contract, the user seed to the
caller; a value is the keyed hash of the user seed, the nonce and the index, read as a number.
-/

namespace SeededDraws

structure Seed where
  server : Bytes
  user : Bytes
deriving DecidableEq

namespace Seed

/-- What is hashed for the user seed. -/
def userPreimage (caller server extra : Bytes) : Bytes := caller ++ server ++ extra

def ofBytes (contract caller extra : Bytes) : Seed :=
  let server := Keccak.hash contract
  ⟨server, Keccak.hash (userPreimage caller server extra)⟩

/-- What is hashed under the server seed for one value. -/
def message (seed : Seed) (nonce index : Nat) : Bytes :=
  seed.user ++ Bytes.numeral nonceSize nonce ++ Bytes.numeral nonceSize index

def value (seed : Seed) (nonce index : Nat) : Nat :=
  Bytes.value (Sha256.hmac seed.server (seed.message nonce index))

def values (seed : Seed) (nonce count : Nat) : List Nat :=
  (List.range count).map (seed.value nonce)

/-- An index has to fit eight bytes like a nonce; the first one that does not ends the sequence. -/
def draw (seed : Seed) (nonce count : Nat) : Outcome (List Nat) :=
  if maxUint64 + 1 < count then .error (.failure (.valueOverflow (maxUint64 + 1) (.int 64)))
  else .ok (seed.values nonce count)

end Seed

/-! ### Loosely typed arguments -/

def deriveSeed (contract caller extra : Datum) : Outcome Seed := do
  let server ← Hash.keccak256 contract
  let user ← Hash.keccak256Joined [caller, .ofBytes server, extra]
  return ⟨server, user⟩

/-- A number that fits eight bytes. -/
def readUint64 (name : String) (d : Datum) : Outcome Nat := do
  let n ← d.natural name
  if maxUint64 < n then .error (.failure (.valueOverflow n (.int 64))) else .ok n

/-- A count within both numeric ranges and the ceiling is handed on as it was given. -/
def checkCount (count ceiling : Datum) : Outcome Datum := do
  let n ← count.natural "n"
  if maxUint256 < n then .error (.failure (.valueOverflow n (.int 256)))
  else if maxUint64 < n then .error (.failure (.valueOverflow n (.int 64)))
  else if ← ceiling.isBelow n then .error (.failure (.requestTooLarge count ceiling))
  else .ok count

/-- The length of a range; a negative one is empty. -/
def rangeLength (count : Datum) : Outcome Nat :=
  match count.integer? with
  | some n => .ok n.toNat
  | none => .error (.bare .type)

/-- The nonce is read even if no value is wanted, the seeds only for the first value. -/
def generateValues (server user nonce count : Datum) : Outcome (List Nat) := do
  let k ← readUint64 "nonce" nonce
  let n ← rangeLength count
  if n = 0 then return []
  let key ← Hash.input "key" server
  let first ← Hash.input "chunk[0]" user
  Seed.draw ⟨key, first⟩ k n

def generate (contract caller nonce count ceiling : Datum) : Outcome (List Nat) := do
  let n ← checkCount count ceiling
  let seed ← deriveSeed contract caller (.ofBytes [])
  generateValues (.ofBytes seed.server) (.ofBytes seed.user) nonce n

end SeededDraws
