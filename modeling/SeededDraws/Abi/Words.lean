import SeededDraws.Abi.Buffer
import SeededDraws.Abi.Uint
/-!
# Sequences of words

Two forms of a list of unsigned integers: the counted form is the number of elements and the
elements, one word each; the array form has the word 32 in front of that. Reading takes a buffer of
exactly that length and no other.
-/

namespace SeededDraws

namespace Words

def encodeItems (items : List Datum) : Outcome Bytes := return (← items.mapM encodeUint256).flatten

/-- The length is read before the elements. -/
def encodeCounted (values : Datum) : Outcome Bytes := do
  let head ← encodeUint256 (.ofNat (← values.length))
  return head ++ (← encodeItems (← values.items))

def encodeArray (values : Datum) : Outcome Bytes := do
  let head ← encodeUint256 (.ofNat wordSize)
  return head ++ (← encodeCounted values)

/-- A number of `size` bytes at `offset`, and the offset behind it. -/
def decodeNumber (size : Nat) (buffer : Buffer) (offset : Nat) : Outcome (Nat × Nat) :=
  if offset + size ≤ buffer.size then do
    let b ← buffer.part offset size
    return (b.value, offset + size)
  else .error (.value .truncated)

def decodeWord (buffer : Buffer) (offset : Nat) : Outcome (Nat × Nat) :=
  decodeNumber wordSize buffer offset

def decodeUint64 (buffer : Buffer) (offset : Nat) : Outcome (Nat × Nat) :=
  decodeNumber nonceSize buffer offset

def decodeEach (buffer : Buffer) (offset : Nat) : Nat → Outcome (List Nat)
  | 0 => .ok []
  | count + 1 => do
    let b ← buffer.part offset wordSize
    return b.value :: (← decodeEach buffer (offset + wordSize) count)

/-- The words behind `offset`, if they are `count` and nothing else follows. -/
def decodeItems (buffer : Buffer) (offset count : Nat) : Outcome (List Nat) :=
  if buffer.size = offset + count * wordSize then decodeEach buffer offset count
  else .error (.value (.wordCount count offset buffer.size))

def decodeCounted (buffer : Buffer) : Outcome (List Nat) := do
  let (count, offset) ← decodeWord buffer 0
  decodeItems buffer offset count

def decodeArray (buffer : Buffer) : Outcome (List Nat) := do
  let (head, offset) ← decodeWord buffer 0
  if head ≠ wordSize then .error (.value (.arrayOffset head))
  else
    let (count, offset) ← decodeWord buffer offset
    decodeItems buffer offset count

/-- The first four bytes of typed call data, and the rest. -/
def splitSelector (buffer : Buffer) : Outcome (Bytes × Bytes) :=
  if buffer.size < selectorSize then
    .error (.failure (.missingSelector (.ofNat buffer.size)))
  else do
    let selector ← buffer.part 0 selectorSize
    return (selector, ← buffer.part selectorSize (buffer.size - selectorSize))

/-! ### Loosely typed places -/

/-- A fraction is no place, but it can be found to lie too far behind. -/
def decodeBehindFraction (size : Nat) (buffer : Buffer) (offset : Binary64) :
    Outcome (Nat × Int) := do
  let stop := offset.add (← (Datum.ofNat size).toDouble)
  if stop.compareInt buffer.size == some .gt then .error (.value .truncated)
  else .error (.bare .type)

/-- A negative place counts from the end of the buffer; the place behind is `size` more. -/
def decodeNumberAt (size : Nat) (buffer offset : Datum) : Outcome (Nat × Int) := do
  match offset with
  | .float x => decodeBehindFraction size (← Buffer.ofDatum buffer) x
  | _ =>
    let source ← Buffer.ofDatum buffer
    match offset.integer? with
    | none => .error (.bare .type)
    | some k =>
      if (source.size : Int) < k + size then .error (.value .truncated)
      else return ((← source.between k (k + size)).value, k + size)

end Words

end SeededDraws
