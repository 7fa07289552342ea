import SeededDraws.Datum
/-!
# Failures

The one kind of fault that a contract call reports in its result: a code, a message and details.
Contracts may raise them with details of any type.
-/

namespace SeededDraws

inductive Failure where
  | missingSelector (length : Datum)
  /-- Known by the hexadecimal form of the selector. -/
  | unknownSelector (digits : String)
  | invalidInputLength (got expected minimum : Datum)
  | valueOverflow (value : Int) (bits : Datum)
  | requestTooLarge (count ceiling : Datum)
  | outOfGas (supplied required : Datum)
  | writeProtection (operation : Datum)
  | encodingFailure (reason : Datum)
  | general (message code data : Datum)
deriving Inhabited

namespace Failure

def ofSelector (selector : Bytes) : Failure := .unknownSelector selector.hex

def code : Failure → Datum
  | .missingSelector _ => .text "MISSING_SELECTOR"
  | .unknownSelector _ => .text "UNKNOWN_SELECTOR"
  | .invalidInputLength .. => .text "INVALID_INPUT_LENGTH"
  | .valueOverflow .. => .text "VALUE_OVERFLOW"
  | .requestTooLarge .. => .text "REQUEST_TOO_LARGE"
  | .outOfGas .. => .text "OUT_OF_GAS"
  | .writeProtection _ => .text "WRITE_PROTECTION"
  | .encodingFailure _ => .text "ENCODING_FAILURE"
  | .general _ code _ => code

def message : Failure → Datum
  | .missingSelector length =>
    .text ("function selector is missing (input length " ++ length.shown ++ ")")
  | .unknownSelector digits => .text s!"invalid function selector 0x{digits}"
  | .invalidInputLength got expected minimum =>
    let relation := if minimum.truthy then "at least " else ""
    .text ("invalid input length: got " ++ got.shown ++ s!" bytes, expected {relation}" ++
      expected.shown)
  | .valueOverflow _ bits => .text ("n overflows uint" ++ bits.shown)
  | .requestTooLarge count ceiling =>
    .text ("requested " ++ count.shown ++ " values, ceiling is " ++ ceiling.shown)
  | .outOfGas .. => .text "out of gas"
  | .writeProtection operation =>
    .text ("write protection: " ++ operation.shown ++ " is not allowed in a read-only call")
  | .encodingFailure reason => .text ("encoding failure: " ++ reason.shown)
  | .general message _ _ => message

/-- The details, or null if there are none. -/
def data : Failure → Datum
  | .missingSelector length => .dict [("length", length)]
  | .unknownSelector digits => .dict [("selector", .text s!"0x{digits}")]
  | .invalidInputLength got expected minimum =>
    .dict [("got", got), ("expected", expected), ("minimum", minimum)]
  | .valueOverflow value bits => .dict [("bits", bits), ("value", .text (Hex.ofInt value))]
  | .requestTooLarge count ceiling => .dict [("n", count), ("ceiling", ceiling)]
  | .outOfGas supplied required => .dict [("supplied", supplied), ("required", required)]
  | .writeProtection operation => .dict [("op", operation)]
  | .encodingFailure reason => .dict [("reason", reason)]
  | .general _ _ data => data

/-- One line for a log: the details follow if there are any. -/
def line (f : Failure) : Text :=
  let head := f.code.shown ++ ": " ++ f.message.shown
  if f.data.truthy then head ++ " (" ++ f.data.shown ++ ")" else head

def toDatum (f : Failure) : Datum :=
  match f.data with
  | .null => .dict [("code", f.code), ("message", f.message)]
  | data => .dict [("code", f.code), ("message", f.message), ("data", data)]

end Failure

end SeededDraws
