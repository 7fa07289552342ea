import SeededDraws.Text.Hex
import SeededDraws.Text.Printable
/-!
# Quoted text

Quoted text and quoted byte strings, as messages show them. Single quotes are used unless the text
holds a single quote and no double one.
-/

namespace SeededDraws.Quoted

def single : Char := '\x27'
def double : Char := '\x22'
def backslash : Char := '\x5c'

def mark (text : List Char) : Char :=
  if text.contains single && !text.contains double then double else single

/-- The code point behind the shortest escape that holds it. -/
def escapeCode (n : Nat) : List Char :=
  if n ≤ 0xff then backslash :: 'x' :: Hex.padded 2 n
  else if n ≤ 0xffff then backslash :: 'u' :: Hex.padded 4 n
  else backslash :: 'U' :: Hex.padded 8 n

/-- The escapes that text and byte strings share. -/
def escapeCommon? (mark c : Char) : Option (List Char) :=
  if c = mark ∨ c = backslash then some [backslash, c]
  else if c = '\t' then some [backslash, 't']
  else if c = '\n' then some [backslash, 'n']
  else if c = '\r' then some [backslash, 'r']
  else none

def escapeChar (mark c : Char) : List Char :=
  (escapeCommon? mark c).getD (if isPrintable c then [c] else escapeCode c.toNat)

def escapeByte (mark : Char) (x : UInt8) : List Char :=
  let c := Char.ofNat x.toNat
  (escapeCommon? mark c).getD
    (if 32 ≤ x.toNat ∧ x.toNat < 127 then [c] else escapeCode x.toNat)

def escapeGlyph (mark : Char) : Glyph → List Char
  | .char c => escapeChar mark c
  | .half n => escapeCode (Glyph.half n).code

def write (text : Text) : String :=
  let q := mark text.faces
  String.ofList (q :: text.flatMap (escapeGlyph q) ++ [q])

def writeBytes (b : Bytes) : String :=
  let q := mark (b.map fun x => Char.ofNat x.toNat)
  String.ofList ('b' :: q :: b.flatMap (escapeByte q) ++ [q])

end SeededDraws.Quoted
