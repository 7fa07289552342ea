import SeededDraws.Datum.Reading
/-!
# Spelled addresses

Bytes and addresses spelled as text. `ByteText.read` takes hexadecimal text of even length,
`Address.read` fills a short text with zeros on the left.
-/

namespace SeededDraws

namespace ByteText

/-- White space around the text and one 0x are no part of its digits. -/
def digits (t : Text) : Text := t.strip.unmarked

def ofText (t : Text) : Outcome Bytes :=
  let h := digits t
  if h.length % 2 ≠ 0 then .error (.context (.oddHex h.length))
  else match Hex.read h.faces with
    | some b => .ok b
    | none => .error (.context (.malformedHex t))

def read (d : Datum) : Outcome Bytes :=
  match d with
  | .bytes _ b => .ok b
  | .text t => ofText t
  | _ => .error (.context (.unconvertible d.typeName))

/-- The marked lowercase digits of anything that converts to bytes. -/
def write (d : Datum) : Outcome String := return (← d.toByteString).marked

end ByteText

namespace Address

def checkLength (b : Bytes) : Outcome Bytes :=
  if b.length = addressSize then .ok b else .error (.context (.addressLength b.length))

def read (d : Datum) : Outcome Bytes :=
  match d with
  | .text t =>
    let h := ByteText.digits t
    if 2 * addressSize < h.length then .error (.context (.addressTooLong t))
    else do checkLength (← ByteText.ofText (h.padZeros (2 * addressSize)))
  | _ => do checkLength (← ByteText.read d)

/-- Precompiled contracts live below this bound. -/
def reservedLimit : Nat := Nat.pow 2 32

/-- Sixteen leading zero bytes, and not zero altogether. -/
def isReserved (address : Bytes) : Bool :=
  0 < Bytes.value address && Bytes.value address < reservedLimit

end Address

end SeededDraws
