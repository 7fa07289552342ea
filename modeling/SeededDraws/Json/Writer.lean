import SeededDraws.Datum
/-!
# Writing JSON

One line of ASCII: no white space, and an escape for every other code unit. Tuples are written like
lists, byte strings as their hexadecimal digits.
-/

namespace SeededDraws.Json

def escapeUnit (n : Nat) : List Char := '\x5c' :: 'u' :: Hex.padded 4 n

/-- A code point above the first plane takes two units. -/
def escapeCode (n : Nat) : List Char :=
  if n < 0x10000 then escapeUnit n
  else escapeUnit (0xd800 + (n - 0x10000) / 0x400) ++ escapeUnit (0xdc00 + (n - 0x10000) % 0x400)

def writeGlyph (g : Glyph) : List Char :=
  if g = .char '\x22' ∨ g = .char '\x5c' then ['\x5c', g.face]
  else if 32 ≤ g.code ∧ g.code < 127 then [g.face]
  else escapeCode g.code

def writeText (t : Text) : String := String.ofList ('\x22' :: t.flatMap writeGlyph ++ ['\x22'])

mutual

def write : Datum → String
  | .null => "null"
  | .bool b => if b then "true" else "false"
  | .int n => toString n
  | .float x => x.text
  | .text t => writeText t
  | .bytes _ b => writeText b.hex
  | .list items => "[" ++ writeItems items ++ "]"
  | .tuple items => "[" ++ writeItems items ++ "]"
  | .dict entries => "\x7b" ++ writeMembers entries ++ "\x7d"

def writeItems : List Datum → String
  | [] => ""
  | [item] => write item
  | item :: rest => write item ++ "," ++ writeItems rest

def writeMembers : List (Text × Datum) → String
  | [] => ""
  | [(key, item)] => writeText key ++ ":" ++ write item
  | (key, item) :: rest => writeText key ++ ":" ++ write item ++ "," ++ writeMembers rest

end

end SeededDraws.Json
