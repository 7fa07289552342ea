import SeededDraws.Datum
import SeededDraws.Text.Decimal
import SeededDraws.Text.Encoding
import SeededDraws.Text.Numeral
/-!
# JSON documents

The standard grammar, with NaN and the two infinities as numbers. Objects keep their members in the
order of first appearance; a repeated member keeps its place and takes the last value. Half of a
surrogate pair may stand alone in a string.
-/

namespace SeededDraws.Json

inductive Flaw where
  | malformed
  /-- A well-formed integer with more digits than are read. -/
  | longInteger
  /-- More brackets inside each other than are read. -/
  | tooDeep
deriving DecidableEq

def isSpace (g : Glyph) : Bool :=
  g == .char ' ' || g == .char '\t' || g == .char '\n' || g == .char '\r'

def skipSpace (text : Text) : Text := text.dropWhile isSpace

/-- The rest of the text behind a fixed word. -/
def afterWord? : List Char → Text → Option Text
  | [], text => some text
  | _ :: _, [] => none
  | c :: word, g :: text => if g = .char c then afterWord? word text else none

/-! ### Strings -/

/-- Four hexadecimal digits. -/
def unit? : Text → Option (Nat × Text)
  | a :: b :: c :: d :: rest => do
    let digits ← [a, b, c, d].mapM fun g => Hex.value? g.face
    return (digits.foldl (fun n d => n * 16 + d) 0, rest)
  | _ => none

def escaped? : Char → Option Char
  | '\x22' => some '\x22'
  | '\x5c' => some '\x5c'
  | '/' => some '/'
  | 'b' => some '\x08'
  | 'f' => some '\x0c'
  | 'n' => some '\n'
  | 'r' => some '\r'
  | 't' => some '\t'
  | _ => none

/-- An escaped low half in front. -/
def lowHalf? : Text → Option (Nat × Text)
  | .char '\x5c' :: .char 'u' :: rest => (unit? rest).filter fun u => Encoding.isLowHalf u.1
  | _ => none

/-- An escaped code unit and, where the two make a pair, the one after it. -/
def codePoint? (text : Text) : Option (Nat × Text) := do
  let (n, rest) ← unit? text
  if Encoding.isHighHalf n then
    match lowHalf? rest with
    | some (m, tail) => return (Encoding.joinPair n m, tail)
    | none => return (n, rest)
  else return (n, rest)

/-- Reads on inside a string; `read` holds what was read, last glyph first. -/
def string (fuel : Nat) (read : Text) (text : Text) : Except Flaw (Text × Text) :=
  match fuel, text with
  | _, .char '\x22' :: rest => .ok (read.reverse, rest)
  | fuel + 1, .char '\x5c' :: .char 'u' :: rest =>
    match (codePoint? rest).bind fun p => (Glyph.ofCode? p.1).map (·, p.2) with
    | some (g, tail) => string fuel (g :: read) tail
    | none => .error .malformed
  | fuel + 1, .char '\x5c' :: .char c :: rest =>
    match escaped? c with
    | some e => string fuel (.char e :: read) rest
    | none => .error .malformed
  | fuel + 1, g :: rest =>
    if g.code < 32 ∨ g = .char '\x5c' then .error .malformed else string fuel (g :: read) rest
  | _, _ => .error .malformed

/-! ### Numbers -/

def isNumeric (c : Char) : Bool := Decimal.isDigit c || "+-.eE".toList.contains c

/-- A zero stands alone in front of the point. -/
def wholePart (text : List Char) : List Char × List Char :=
  match text with
  | '0' :: rest => (['0'], rest)
  | text => Decimal.splitDigits text

/-- A point and at least one digit; otherwise nothing is taken. -/
def fractionPart (text : List Char) : List Char × List Char :=
  match text with
  | '.' :: more =>
    match Decimal.splitDigits more with
    | ([], _) => ([], text)
    | found => found
  | _ => ([], text)

/-- A fraction or an exponent makes a double, neither an integer. What only looks like the start of
a fraction or an exponent is left in the text. -/
def figure (negative : Bool) (text : List Char) : Except Flaw (Datum × List Char) :=
  let (whole, rest) := wholePart text
  let (fraction, rest) := fractionPart rest
  let (power, rest) := Decimal.power rest
  if whole.isEmpty then .error .malformed
  else if fraction.isEmpty && power.isNone then
    if Numeral.digitLimit < whole.length then .error .longInteger
    else
      let n : Int := Decimal.value whole
      .ok (.int (if negative then -n else n), rest)
  else
    let x := Binary64.ofDecimal negative (Decimal.value (whole ++ fraction))
      (power.getD 0 - fraction.length)
    .ok (.float x, rest)

def number (negative : Bool) (text : Text) : Except Flaw (Datum × Text) := do
  let run := Text.faces (text.takeWhile fun g => isNumeric g.face)
  let (d, left) ← figure negative run
  return (d, text.drop (run.length - left.length))

def words : List (List Char × Datum) := [
  ("null".toList, .null), ("true".toList, .bool true), ("false".toList, .bool false),
  ("NaN".toList, .float .nan), ("Infinity".toList, .float (.infinite false)),
  ("-Infinity".toList, .float (.infinite true))]

def scalar (text : Text) : Except Flaw (Datum × Text) :=
  match words.findSome? fun w => (afterWord? w.1 text).map fun rest => (w.2, rest) with
  | some found => .ok found
  | none =>
    match text with
    | .char '-' :: rest => number true rest
    | _ => number false text

/-! ### Values -/

/-- A repeated key keeps its place and takes the new value. -/
def putMember (key : Text) (item : Datum) : List (Text × Datum) → List (Text × Datum)
  | [] => [(key, item)]
  | (k, old) :: rest => if k = key then (key, item) :: rest else (k, old) :: putMember key item rest

mutual

/-- `room` tells how many more brackets may open inside each other. -/
def value (fuel room : Nat) (text : Text) : Except Flaw (Datum × Text) :=
  match fuel, text with
  | 0, _ => .error .malformed
  | fuel + 1, .char '\x22' :: rest => do
    let (s, rest) ← string fuel [] rest
    return (.text s, rest)
  | fuel + 1, .char '[' :: rest =>
    match room, skipSpace rest with
    | 0, _ => .error .tooDeep
    | _, .char ']' :: rest => .ok (.list [], rest)
    | room + 1, rest => elements fuel room [] rest
  | fuel + 1, .char '\x7b' :: rest =>
    match room, skipSpace rest with
    | 0, _ => .error .tooDeep
    | _, .char '\x7d' :: rest => .ok (.dict [], rest)
    | room + 1, rest => members fuel room [] rest
  | _ + 1, text => scalar text

/-- Elements up to the closing bracket; `read` holds those before, last one first. -/
def elements (fuel room : Nat) (read : List Datum) (text : Text) : Except Flaw (Datum × Text) :=
  match fuel with
  | 0 => .error .malformed
  | fuel + 1 => do
    let (item, rest) ← value fuel room text
    match skipSpace rest with
    | .char ',' :: rest => elements fuel room (item :: read) (skipSpace rest)
    | .char ']' :: rest => return (.list (item :: read).reverse, rest)
    | _ => .error .malformed

def members (fuel room : Nat) (read : List (Text × Datum)) (text : Text) :
    Except Flaw (Datum × Text) :=
  match fuel, text with
  | fuel + 1, .char '\x22' :: rest => do
    let (key, rest) ← string fuel [] rest
    match skipSpace rest with
    | .char ':' :: rest =>
      let (item, rest) ← value fuel room (skipSpace rest)
      let read := putMember key item read
      match skipSpace rest with
      | .char ',' :: rest => members fuel room read (skipSpace rest)
      | .char '\x7d' :: rest => return (.dict read, rest)
      | _ => .error .malformed
    | _ => .error .malformed
  | _, _ => .error .malformed

end

/-- How deep brackets may nest. -/
def nestingLimit : Nat := 990

/-- Nothing but white space may follow the one value of a document. A bracket takes two steps, so
twice the length is enough. -/
def parse (text : Text) : Except Flaw Datum := do
  let text := skipSpace text
  let (d, rest) ← value (2 * text.length + 2) nestingLimit text
  if (skipSpace rest).isEmpty then .ok d else .error .malformed

end SeededDraws.Json
