import SeededDraws.Binary64.Reading
import SeededDraws.Fault
/-!
# Conversions

Reading loosely typed values: the conversions that more than one operation asks for.
-/

namespace SeededDraws.Datum

def length : Datum → Outcome Nat
  | .text t => .ok t.length
  | .bytes _ b => .ok b.length
  | .list items => .ok items.length
  | .tuple items => .ok items.length
  | .dict entries => .ok entries.length
  | _ => .error (.bare .type)

def items (d : Datum) : Outcome (List Datum) :=
  match d.items? with
  | some items => .ok items
  | none => .error (.bare .type)

/-- A pair, from anything that yields exactly two items. -/
def pair (d : Datum) : Outcome (Datum × Datum) := do
  match ← d.items with
  | [a, b] => .ok (a, b)
  | _ => .error (.bare .value)

/-- The characters of a byte string, all of them ASCII. -/
def asciiChars? (b : Bytes) : Option (List Char) :=
  if b.all (· < 128) then some (b.map fun x => Char.ofNat x.toNat) else none

/-- What a reader made of a text, if anything. -/
def orMalformed {α : Type} (result : Option α) : Outcome α :=
  match result with
  | some x => .ok x
  | none => .error (.bare .value)

/-- Floats lose their fraction, texts are decimal numerals. -/
def toInteger : Datum → Outcome Int
  | .bool b => .ok (if b then 1 else 0)
  | .int n => .ok n
  | .float .nan => .error (.bare .value)
  | .float x =>
    match x.toInt? with
    | some n => .ok n
    | none => .error (.bare .overflow)
  | .text t => orMalformed (Numeral.read? .decimal t.faces)
  | .bytes _ b => orMalformed ((asciiChars? b).bind (Numeral.read? .decimal))
  | _ => .error (.bare .type)

/-- Counts are words of 64 bits with a sign. -/
def isCount (n : Int) : Bool := -0x8000000000000000 ≤ n && n ≤ 0x7fffffffffffffff

/-- The most zero bytes that are made at once. -/
def zeroBytesLimit : Nat := 0x100000000

def zeroBytes (n : Int) : Outcome Bytes :=
  if !isCount n then .error (.bare .overflow)
  else if n < 0 then .error (.bare .value)
  else if zeroBytesLimit < n.toNat then .error (.bare .memory)
  else .ok (Bytes.zeros n.toNat)

def byte (d : Datum) : Outcome UInt8 :=
  match d.integer? with
  | some n => if 0 ≤ n ∧ n < 256 then .ok (UInt8.ofNat n.toNat) else .error (.bare .value)
  | none => .error (.bare .type)

/-- Containers give their items as bytes, an integer gives that many zeros. -/
def toByteString (d : Datum) : Outcome Bytes :=
  match d with
  | .bytes _ b => .ok b
  | .text _ => .error (.bare .type)
  | _ =>
    match d.integer?, d.items? with
    | some n, _ => zeroBytes n
    | none, some items => items.mapM byte
    | none, none => .error (.bare .type)

def bytesOr (fault : Fault) (d : Datum) : Outcome Bytes :=
  match d.bytes? with
  | some b => .ok b
  | none => .error fault

/-- Byte strings and nothing else. -/
def someBytes (name : String) (d : Datum) : Outcome Bytes := d.bytesOr (.type (.notBytes name))

/-- Byte strings of one size. -/
def exactBytes (name : String) (size : Nat) (d : Datum) : Outcome Bytes := do
  let b ← d.someBytes name
  if b.length = size then .ok b else .error (.value (.size name size b.length))

/-- An integer with a lower bound; truth values are refused. -/
def intAtLeast (name : String) (bound : Int) (d : Datum) : Outcome Int :=
  match d.properInt? with
  | some n => if n < bound then .error (.value (.below name bound n)) else .ok n
  | none => .error (.type (.notInteger name d.typeName))

/-- A non-negative integer, truth values included. -/
def natural (name : String) (d : Datum) : Outcome Nat :=
  match d.integer? with
  | some n => if n < 0 then .error (.value (.notNatural name d)) else .ok n.toNat
  | none => .error (.value (.notNatural name d))

/-- The double nearest to a number; texts are numerals with a point. -/
def toDouble : Datum → Outcome Binary64
  | .float x => .ok x
  | .text t => orMalformed (Binary64.read? t.faces)
  | .bytes _ b => orMalformed ((asciiChars? b).bind Binary64.read?)
  | d =>
    match d.integer? with
    | some n =>
      match Binary64.ofInt? n with
      | some x => .ok x
      | none => .error (.bare .overflow)
    | none => .error (.bare .type)

/-- A nan stands neither below nor above. -/
def isBelow (d : Datum) (n : Int) : Outcome Bool :=
  match d.compareInt? n with
  | some order => .ok (order == some .lt)
  | none => .error (.bare .type)

def isAtLeast (d : Datum) (n : Int) : Outcome Bool :=
  match d.compareInt? n with
  | some order => .ok (order == some .gt || order == some .eq)
  | none => .error (.bare .type)

mutual

/-- Values that can be members of a set. -/
def isHashable : Datum → Bool
  | .bytes .growable _ => false
  | .list _ => false
  | .dict _ => false
  | .tuple items => allHashable items
  | _ => true

def allHashable : List Datum → Bool
  | [] => true
  | item :: rest => item.isHashable && allHashable rest

end

/-- The integer that a value equals as a number. -/
def equalInt? (d : Datum) (n : Int) : Bool := d.compareInt? n == some (some .eq)

mutual

/-- Members of a set are told apart in this way: numbers by value, byte strings by their bytes. What
cannot be a member equals nothing. -/
def sameMember : Datum → Datum → Bool
  | .null, .null => true
  | .text t, .text u => t == u
  | .bytes _ b, .bytes _ c => b == c
  | .float x, .float y => x.lessEqual y && y.lessEqual x
  | .tuple items, .tuple others => sameMembers items others
  | d, e =>
    match d.integer?, e.integer? with
    | some n, _ => e.equalInt? n
    | none, some n => d.equalInt? n
    | none, none => false

def sameMembers : List Datum → List Datum → Bool
  | [], [] => true
  | d :: rest, e :: others => d.sameMember e && sameMembers rest others
  | _, _ => false

end

end SeededDraws.Datum
