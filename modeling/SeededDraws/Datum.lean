import SeededDraws.Binary64.Hexadecimal
import SeededDraws.Text.Quoted
/-!
# Loosely typed values

A host hands its arguments over in this form and answers in it; every operation says for itself
which of them it takes.
-/

namespace SeededDraws

/-- The three byte containers differ in name only. -/
inductive ByteKind where
  | fixed
  | growable
  | view
deriving DecidableEq, Inhabited

inductive Datum where
  | null
  | bool (b : Bool)
  | int (n : Int)
  | float (x : Binary64)
  | text (t : Text)
  | bytes (kind : ByteKind) (b : Bytes)
  | list (items : List Datum)
  | tuple (items : List Datum)
  | dict (entries : List (Text × Datum))
deriving Inhabited

namespace Datum

def ofBytes (b : Bytes) : Datum := .bytes .fixed b

def ofNat (n : Nat) : Datum := .int n

def typeName : Datum → String
  | .null => "NoneType"
  | .bool _ => "bool"
  | .int _ => "int"
  | .float _ => "float"
  | .text _ => "str"
  | .bytes .fixed _ => "bytes"
  | .bytes .growable _ => "bytearray"
  | .bytes .view _ => "memoryview"
  | .list _ => "list"
  | .tuple _ => "tuple"
  | .dict _ => "dict"

/-- Nothing, zero and whatever is empty count as false. -/
def truthy : Datum → Bool
  | .null => false
  | .bool b => b
  | .int n => n != 0
  | .float x => !x.isZero
  | .text t => !t.isEmpty
  | .bytes _ b => !b.isEmpty
  | .list items => !items.isEmpty
  | .tuple items => !items.isEmpty
  | .dict entries => !entries.isEmpty

/-! ### Printed form -/

mutual

/-- The form in which messages embed a value. -/
def printed : Datum → String
  | .null => "None"
  | .bool b => if b then "True" else "False"
  | .int n => toString n
  | .float x => x.text
  | .text t => Quoted.write t
  | .bytes .fixed b => Quoted.writeBytes b
  | .bytes .growable b => "bytearray(" ++ Quoted.writeBytes b ++ ")"
  | .bytes .view _ => "<memory>"
  | .list items => "[" ++ printedItems items ++ "]"
  | .tuple [item] => "(" ++ item.printed ++ ",)"
  | .tuple items => "(" ++ printedItems items ++ ")"
  | .dict entries => "\x7b" ++ printedEntries entries ++ "\x7d"

def printedItems : List Datum → String
  | [] => ""
  | [item] => item.printed
  | item :: rest => item.printed ++ ", " ++ printedItems rest

def printedEntries : List (Text × Datum) → String
  | [] => ""
  | [(key, item)] => Quoted.write key ++ ": " ++ item.printed
  | (key, item) :: rest => Quoted.write key ++ ": " ++ item.printed ++ ", " ++ printedEntries rest

end

/-- Text stands for itself where the printed form would quote it. -/
def shown : Datum → Text
  | .text t => t
  | d => d.printed

/-! ### Parts -/

/-- Truth values count as the integers 1 and 0. -/
def integer? : Datum → Option Int
  | .int n => some n
  | .bool b => some (if b then 1 else 0)
  | _ => none

/-- An integer, truth values left out. -/
def properInt? : Datum → Option Int
  | .int n => some n
  | _ => none

def bytes? : Datum → Option Bytes
  | .bytes _ b => some b
  | _ => none

/-- Text without halves. -/
def string? : Datum → Option String
  | .text t => t.string?
  | _ => none

/-- The hexadecimal form of what has one. -/
def hex? : Datum → Option String
  | .bytes _ b => some b.hex
  | .float x => some x.hexText
  | _ => none

/-- What a value yields one by one: characters, byte values, keys. -/
def items? : Datum → Option (List Datum)
  | .text t => some (t.map fun g => .text [g])
  | .bytes _ b => some (b.map fun x => .int x.toNat)
  | .list items => some items
  | .tuple items => some items
  | .dict entries => some (entries.map fun e => .text e.1)
  | _ => none

def field? (key : String) : Datum → Option Datum
  | .dict entries => entries.lookup (Text.ofString key)
  | _ => none

/-- How a number stands to an integer; the outer `none` is for what is no number. -/
def compareInt? : Datum → Int → Option (Option Ordering)
  | .float x, n => some (x.compareInt n)
  | d, n => d.integer?.map fun m => some (compare m n)

def isText (d : Datum) (s : String) : Bool := d.string? == some s

end Datum

end SeededDraws
