import SeededDraws.Bytes
/-!
# Keccak

The sponge over the 1600-bit permutation at a rate of 136 bytes and with a digest of 256 bits, with
the padding that was in use before the digest was standardised.
-/

namespace SeededDraws.Keccak

/-- Lane (x, y) stands at index `x + 5 * y`. -/
abbrev Lanes := Vector UInt64 25

def rate : Nat := 136
def digestSize : Nat := 32

def rotate (x : UInt64) (n : UInt64) : UInt64 := (x <<< n) ||| (x >>> (64 - n))

def rotations : Vector UInt64 25 := #v[
  0, 1, 62, 28, 27,
  36, 44, 6, 55, 20,
  3, 10, 43, 25, 39,
  41, 45, 15, 21, 8,
  18, 2, 61, 56, 14]

def roundConstants : List UInt64 := [
  0x0000000000000001, 0x0000000000008082, 0x800000000000808a, 0x8000000080008000,
  0x000000000000808b, 0x0000000080000001, 0x8000000080008081, 0x8000000000008009,
  0x000000000000008a, 0x0000000000000088, 0x0000000080008009, 0x000000008000000a,
  0x000000008000808b, 0x800000000000008b, 0x8000000000008089, 0x8000000000008003,
  0x8000000000008002, 0x8000000000000080, 0x000000000000800a, 0x800000008000000a,
  0x8000000080008081, 0x8000000000008080, 0x0000000080000001, 0x8000000080008008]

def at5 (v : Vector UInt64 5) (x : Nat) : UInt64 := v.get ⟨x % 5, Nat.mod_lt _ (by decide)⟩

def lane (s : Lanes) (x y : Nat) : UInt64 :=
  s.get ⟨x % 5 + 5 * (y % 5), by omega⟩

def build (f : Nat → Nat → UInt64) : Lanes := Vector.ofFn fun i => f (i.val % 5) (i.val / 5)

def theta (s : Lanes) : Lanes :=
  let c : Vector UInt64 5 := Vector.ofFn fun x =>
    lane s x 0 ^^^ lane s x 1 ^^^ lane s x 2 ^^^ lane s x 3 ^^^ lane s x 4
  let d : Vector UInt64 5 := Vector.ofFn fun x => at5 c (x + 4) ^^^ rotate (at5 c (x + 1)) 1
  build fun x y => lane s x y ^^^ at5 d x

def rhoPi (s : Lanes) : Lanes :=
  build fun x y => rotate (lane s (x + 3 * y) x) (lane rotations (x + 3 * y) x)

def chi (s : Lanes) : Lanes :=
  build fun x y => lane s x y ^^^ (~~~ lane s (x + 1) y &&& lane s (x + 2) y)

def iota (constant : UInt64) (s : Lanes) : Lanes := s.set 0 (s[0] ^^^ constant)

def permute (s : Lanes) : Lanes :=
  roundConstants.foldl (fun s constant => iota constant (chi (rhoPi (theta s)))) s

/-- A one bit after the message and a one bit at the end of the last block. -/
def pad (message : Bytes) : Bytes :=
  let free := rate - message.length % rate
  if free = 1 then message ++ [0x81]
  else message ++ [0x01] ++ Bytes.zeros (free - 2) ++ [0x80]

def laneOfBytes (b : Bytes) : UInt64 :=
  b.foldr (fun x acc => (acc <<< 8) ||| x.toUInt64) 0

def bytesOfLane (x : UInt64) : Bytes :=
  (List.range 8).map fun i => (x >>> (8 * UInt64.ofNat i)).toUInt8

def absorbBlock (s : Lanes) (block : Bytes) : Lanes :=
  let words := ((Bytes.chunks 8 block).map laneOfBytes).toArray
  permute (Vector.ofFn fun i => s[i] ^^^ words.getD i 0)

def absorb (message : Bytes) : Lanes :=
  (Bytes.chunks rate (pad message)).foldl absorbBlock (Vector.replicate 25 0)

def hash (message : Bytes) : Bytes :=
  ((absorb message).toList.flatMap bytesOfLane).take digestSize

@[simp] theorem length_hash (message : Bytes) : (hash message).length = digestSize := by
  have h : ∀ lanes : List UInt64, (lanes.flatMap bytesOfLane).length = 8 * lanes.length := by
    intro lanes
    induction lanes with
    | nil => rfl
    | cons x rest ih => simp [bytesOfLane, ih]; omega
  simp [hash, h, digestSize]

end SeededDraws.Keccak
