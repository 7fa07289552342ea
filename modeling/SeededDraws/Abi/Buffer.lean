import SeededDraws.Datum.Reading
/-!
# Buffers

What decoders read from: a size, and parts that may be bytes. Every part of a byte string is; a list
or tuple has such parts where its items are byte values; a text or a dictionary has a size alone.
-/

namespace SeededDraws

structure Buffer where
  size : Nat
  /-- So many bytes from a place on, as far as the buffer goes. -/
  part : (offset count : Nat) → Outcome Bytes

namespace Buffer

def ofBytes (b : Bytes) : Buffer := ⟨b.length, fun offset count => .ok ((b.drop offset).take count)⟩

instance : Coe Bytes Buffer := ⟨ofBytes⟩

/-- Only the items of a part are looked at. -/
def ofItems (items : List Datum) : Buffer :=
  ⟨items.length, fun offset count => ((items.drop offset).take count).mapM Datum.byte⟩

def ofDatum (d : Datum) : Outcome Buffer :=
  match d with
  | .bytes _ b => .ok (ofBytes b)
  | .list items => .ok (ofItems items)
  | .tuple items => .ok (ofItems items)
  | _ => return ⟨← d.length, fun _ _ => .error (.bare .type)⟩

/-- A place in the buffer; a negative one counts from the end. -/
def place (b : Buffer) (k : Int) : Nat :=
  if k < 0 then (b.size + k).toNat else min k.toNat b.size

def between (b : Buffer) (start stop : Int) : Outcome Bytes :=
  b.part (b.place start) (b.place stop - b.place start)

@[simp] theorem size_ofBytes (b : Bytes) : (ofBytes b).size = b.length := rfl

@[simp] theorem part_ofBytes (b : Bytes) (offset count : Nat) :
    (ofBytes b).part offset count = .ok ((b.drop offset).take count) := rfl

end Buffer

end SeededDraws
