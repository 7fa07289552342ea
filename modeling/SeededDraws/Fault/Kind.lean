import SeededDraws.Fault
/-!
# Kinds of failures

Every failure has a kind, and a kind with its arguments makes a failure. The general kind has usual
values for all that is left out.
-/

namespace SeededDraws.Failure

def kind : Failure → String
  | .missingSelector _ => "MissingSelector"
  | .unknownSelector _ => "UnknownSelector"
  | .invalidInputLength .. => "InvalidInputLength"
  | .valueOverflow .. => "ValueOverflow"
  | .requestTooLarge .. => "RequestTooLarge"
  | .outOfGas .. => "OutOfGas"
  | .writeProtection _ => "WriteProtection"
  | .encodingFailure _ => "EncodingFailure"
  | .general .. => "PrecompileError"

def kinds : List String := [
  "MissingSelector", "UnknownSelector", "InvalidInputLength", "ValueOverflow", "RequestTooLarge",
  "OutOfGas", "WriteProtection", "EncodingFailure", "PrecompileError"]

def usualMessage : Datum := .text "precompile error"

def usualCode : Datum := .text "PRECOMPILE_ERROR"

/-- Not every value has a hexadecimal form, and only integers overflow. -/
def ofKind (kind : String) (args : List Datum) : Outcome Failure :=
  match kind, args with
  | "MissingSelector", [length] => .ok (.missingSelector length)
  | "UnknownSelector", [selector] =>
    match selector.hex? with
    | some digits => .ok (.unknownSelector digits)
    | none => .error (.bare .attribute)
  | "InvalidInputLength", [got, expected] => .ok (.invalidInputLength got expected (.bool false))
  | "InvalidInputLength", [got, expected, minimum] => .ok (.invalidInputLength got expected minimum)
  | "ValueOverflow", [value, bits] =>
    match value.integer? with
    | some n => .ok (.valueOverflow n bits)
    | none => .error (.bare .type)
  | "RequestTooLarge", [count, ceiling] => .ok (.requestTooLarge count ceiling)
  | "OutOfGas", [supplied, required] => .ok (.outOfGas supplied required)
  | "WriteProtection", [operation] => .ok (.writeProtection operation)
  | "EncodingFailure", [reason] => .ok (.encodingFailure reason)
  | "PrecompileError", [] => .ok (.general usualMessage usualCode .null)
  | "PrecompileError", [message] => .ok (.general message usualCode .null)
  | "PrecompileError", [message, code] => .ok (.general message code .null)
  | "PrecompileError", [message, code, data] => .ok (.general message code data)
  | _, _ => .error (.bare .type)

end SeededDraws.Failure
