import SeededDraws.Abi.Function
/-!
# The two wire layouts

A typed request is a selector and a count, a raw request a caller, a count and a nonce. A typed
response is an array of words, a raw one the counted words alone.
-/

namespace SeededDraws

inductive Layout where
  | typed
  | raw
deriving DecidableEq

/-- What a payload asks for; the typed layout carries neither nonce nor caller. -/
structure Request where
  count : Nat
  nonce : Option Nat
  caller : Option Bytes
deriving DecidableEq

namespace Layout

def name : Layout → String
  | .typed => "typed"
  | .raw => "raw"

def ofDatum? (d : Datum) : Option Layout :=
  match d.string? with
  | some "typed" => some .typed
  | some "raw" => some .raw
  | _ => none

def read (d : Datum) : Outcome Layout :=
  match ofDatum? d with
  | some layout => .ok layout
  | none => .error (.value (.layout d))

def rawRequestSize : Nat := addressSize + wordSize + nonceSize

def wrongLength (got expected : Nat) (minimum : Bool) : Fault :=
  .failure (.invalidInputLength (.ofNat got) (.ofNat expected) (.bool minimum))

/-- The arguments behind a selector: one word and nothing more. -/
def decodeTypedArgs (args : Buffer) : Outcome Request :=
  if args.size ≠ wordSize then .error (wrongLength args.size wordSize false)
  else do
    let (n, _) ← Words.decodeWord args 0
    return ⟨n, none, none⟩

/-- Bytes behind the request are ignored. -/
def decodeRawRequest (input : Buffer) : Outcome Request :=
  if input.size < rawRequestSize then
    .error (wrongLength input.size rawRequestSize true)
  else do
    let caller ← input.part 0 addressSize
    let (n, offset) ← Words.decodeWord input addressSize
    let (nonce, _) ← Words.decodeUint64 input offset
    return ⟨n, some nonce, some caller⟩

def decodeTypedRequest (f : Function) (input : Buffer) : Outcome Request := do
  let (selector, args) ← Words.splitSelector input
  if selector ≠ (← f.selector) then .error (.failure (.ofSelector selector))
  else decodeTypedArgs args

def decodeRequest : Layout → Buffer → Outcome Request
  | .typed, input => decodeTypedRequest .randomSequence input
  | .raw, input => decodeRawRequest input

def decodeArgs : Layout → Buffer → Outcome Request
  | .typed, args => decodeTypedArgs args
  | .raw, args => decodeRawRequest args

def encodeTypedRequest (f : Function) (count : Datum) : Outcome Bytes := f.encodeCall [count]

def encodeRawRequest (caller count nonce : Datum) : Outcome Bytes := do
  let a ← readAddress caller
  let n ← encodeUint256 count
  let k ← encodeUint64 nonce
  return a ++ n ++ k

/-- The typed layout leaves caller and nonce out, the raw one needs both. -/
def encodeRequest : Layout → Datum → Datum → Datum → Outcome Bytes
  | .typed, count, _, _ => encodeTypedRequest .randomSequence count
  | .raw, _, .null, _ => .error (.misfit .incompleteRequest)
  | .raw, _, _, .null => .error (.misfit .incompleteRequest)
  | .raw, count, caller, nonce => encodeRawRequest caller count nonce

def encodeValues : Layout → Datum → Outcome Bytes
  | .typed => Words.encodeArray
  | .raw => Words.encodeCounted

/-- A value that does not fit becomes a failure of the call. -/
def encodeResponse (layout : Layout) (values : Datum) : Outcome Bytes :=
  match layout.encodeValues values with
  | .error (.misfit cause) => .error (.failure (.encodingFailure (.text cause.message)))
  | outcome => outcome

def decodeResponse : Layout → Buffer → Outcome (List Nat)
  | .typed => Words.decodeArray
  | .raw => Words.decodeCounted

end Layout

end SeededDraws
