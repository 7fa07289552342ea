import SeededDraws.Bytes
import SeededDraws.Text
/-!
# Encodings

Byte strings that hold text. Documents come in five encodings and may hold surrogate halves like any
other code point. The environment keeps UTF-8; a byte that is no part of it stands there for a half.
-/

namespace SeededDraws

inductive Encoding where
  | utf8
  | utf16 (bigEndian : Bool)
  | utf32 (bigEndian : Bool)
deriving DecidableEq

/-! ### UTF-8 -/

namespace Utf8

/-- The six bits of a byte behind the first one. -/
def tail? (x : UInt8) : Option Nat :=
  if 0x80 ≤ x.toNat ∧ x.toNat < 0xc0 then some (x.toNat - 0x80) else none

/-- A first byte with `count` bytes behind it; their value must need that many. -/
def longer? (count least high : Nat) (rest : Bytes) : Option (Glyph × Bytes) := do
  let low ← (rest.take count).mapM tail?
  let n := low.foldl (fun n x => n * 64 + x) high
  let g ← Glyph.ofCode? n
  if low.length = count ∧ least ≤ n then some (g, rest.drop count) else none

def glyph? : Bytes → Option (Glyph × Bytes)
  | [] => none
  | x :: rest =>
    let n := x.toNat
    if n < 0x80 then some (.char (Char.ofNat n), rest)
    else if n < 0xc0 then none
    else if n < 0xe0 then longer? 1 0x80 (n - 0xc0) rest
    else if n < 0xf0 then longer? 2 0x800 (n - 0xe0) rest
    else longer? 3 0x10000 (n - 0xf0) rest

def decodeFrom : Nat → Bytes → Option Text
  | _, [] => some []
  | 0, _ => none
  | fuel + 1, b => do
    let (g, rest) ← glyph? b
    return g :: (← decodeFrom fuel rest)

/-- Every glyph takes at least one byte. -/
def decode? (b : Bytes) : Option Text := decodeFrom b.length b

def encode (n : Nat) : Bytes :=
  if n < 0x80 then [UInt8.ofNat n]
  else if n < 0x800 then [UInt8.ofNat (0xc0 + n / 64), low n]
  else if n < 0x10000 then [UInt8.ofNat (0xe0 + n / 4096), low (n / 64), low n]
  else [UInt8.ofNat (0xf0 + n / 262144), low (n / 4096), low (n / 64), low n]
where
  low (n : Nat) : UInt8 := UInt8.ofNat (0x80 + n % 64)

end Utf8

/-! ### Documents -/

namespace Encoding

/-- Units of two or four bytes, none of them cut short. -/
def units? (width : Nat) (bigEndian : Bool) (b : Bytes) : Option (List Nat) :=
  if b.length % width = 0 then
    some ((b.chunks width).map fun u => Bytes.value (if bigEndian then u else u.reverse))
  else none

def isHighHalf (n : Nat) : Bool := 0xd800 ≤ n && n < 0xdc00
def isLowHalf (n : Nat) : Bool := 0xdc00 ≤ n && n < 0xe000

def joinPair (high low : Nat) : Nat := 0x10000 + (high - 0xd800) * 0x400 + (low - 0xdc00)

/-- Two halves in order make one code point, all other units are code points themselves. -/
def joinPairs : List Nat → List Nat
  | [] => []
  | [n] => [n]
  | n :: m :: rest =>
    if isHighHalf n && isLowHalf m then joinPair n m :: joinPairs rest
    else n :: joinPairs (m :: rest)

def decode? (e : Encoding) (b : Bytes) : Option Text :=
  match e with
  | .utf8 => Utf8.decode? b
  | .utf16 bigEndian => do (joinPairs (← units? 2 bigEndian b)).mapM Glyph.ofCode?
  | .utf32 bigEndian => do (← units? 4 bigEndian b).mapM Glyph.ofCode?

def marks : List (Bytes × Encoding) := [
  ([0, 0, 0xfe, 0xff], .utf32 true), ([0xff, 0xfe, 0, 0], .utf32 false),
  ([0xfe, 0xff], .utf16 true), ([0xff, 0xfe], .utf16 false), ([0xef, 0xbb, 0xbf], .utf8)]

/-- A document starts with ASCII characters, so the zeros among its first bytes tell. -/
def ofZeros (b : Bytes) : Encoding :=
  match b.map (· == 0) with
  | [true, _] => .utf16 true
  | [false, true] => .utf16 false
  | true :: second :: _ :: _ :: _ => if second then .utf32 true else .utf16 true
  | false :: true :: third :: fourth :: _ => if third && fourth then .utf32 false else .utf16 false
  | _ => .utf8

/-- A byte order mark settles the encoding and is no part of the text. -/
def document? (b : Bytes) : Option Text :=
  match marks.find? fun m => m.1.isPrefixOf b with
  | some (mark, e) => e.decode? (b.drop mark.length)
  | none => (ofZeros b).decode? b

end Encoding

/-! ### The environment -/

namespace Text

/-- The halves from `0xdc80` to `0xdcff` stand for single bytes; the others cannot be kept. -/
def keptBytes? : Glyph → Option Bytes
  | .char c => some (Utf8.encode c.toNat)
  | .half n => if 0x480 ≤ n.val ∧ n.val < 0x500 then some [UInt8.ofNat (n.val - 0x400)] else none

/-- The half that stands for a byte. -/
def halfOf (x : UInt8) : Glyph := .half ⟨0x400 + x.toNat, by have := x.toNat_lt; omega⟩

def restoreFrom : Nat → Bytes → Text
  | 0, _ => []
  | _, [] => []
  | fuel + 1, x :: rest =>
    match Utf8.glyph? (x :: rest) with
    | some (.char c, rest) => .char c :: restoreFrom fuel rest
    | _ => halfOf x :: restoreFrom fuel rest

def kept? (t : Text) : Option Bytes := (t.mapM keptBytes?).map List.flatten

def restore (b : Bytes) : Text := restoreFrom b.length b

end Text

end SeededDraws
