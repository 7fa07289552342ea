import SeededDraws.Datum.Reading
import SeededDraws.Hash.Keccak
import SeededDraws.Hash.Sha256
/-!
# Hashing

Hashing of loosely typed values: byte strings only, in one piece or in chunks, and the selectors of
function signatures.
-/

namespace SeededDraws.Hash

/-- A byte string under the name that a message gives it. -/
def input (name : String) (d : Datum) : Outcome Bytes :=
  d.bytesOr (.type (.notBytesBut name d.typeName))

def joined (chunks : List Datum) : Outcome Bytes := go 0 chunks
where
  go (i : Nat) : List Datum → Outcome Bytes
    | [] => .ok []
    | chunk :: rest => do
      let b ← input s!"chunk[{i}]" chunk
      return b ++ (← go (i + 1) rest)

def keccak256 (data : Datum) : Outcome Bytes := return Keccak.hash (← input "data" data)

def keccak256Joined (chunks : List Datum) : Outcome Bytes := return Keccak.hash (← joined chunks)

def sha256 (data : Datum) : Outcome Bytes := return Sha256.hash (← input "data" data)

def hmacSha256 (key : Datum) (chunks : List Datum) : Outcome Bytes := do
  let k ← input "key" key
  return Sha256.hmac k (← joined chunks)

/-- The code of each character, if all are ASCII. -/
def ascii? (t : Text) : Option Bytes :=
  t.mapM fun g => if g.code < 128 then some (UInt8.ofNat g.code) else none

/-- The first four bytes of the digest of a signature; a signature has an opening parenthesis. -/
def selector (signature : Datum) : Outcome Bytes :=
  match signature with
  | .text t =>
    if t.contains (.char '(') then
      match ascii? t with
      | some b => .ok ((Keccak.hash b).take selectorSize)
      | none => .error (.bare .encoding)
    else .error (.value (.signature signature))
  | _ => .error (.value (.signature signature))

end SeededDraws.Hash
