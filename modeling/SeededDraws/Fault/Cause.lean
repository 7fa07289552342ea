import SeededDraws.Datum
/-!
# Causes of faults

What can be wrong with an argument, an interface, a context, a configuration or a registration, each
with the words for it.
-/

namespace SeededDraws

/-- A value that does not fit an ABI type. -/
inductive Misfit where
  | truthValue
  | unmarkedText
  | notInteger (bits : Datum) (typeName : String)
  | outOfRange (bits : Datum)
  | addressType
  | addressLength (got : Nat)
  | argumentCount (name : Text) (takes got : Nat)
  | argumentType (type : String)
  | incompleteRequest

def Misfit.message : Misfit → Text
  | .truthValue => "bool is not a uint"
  | .unmarkedText => "uint strings must be 0x-prefixed hex"
  | .notInteger bits typeName => "uint" ++ bits.shown ++ s!" must be int, got {typeName}"
  | .outOfRange bits => "value out of range for uint" ++ bits.shown
  | .addressType => "address must be bytes"
  | .addressLength got => s!"address must be 20 bytes, got {got}"
  | .argumentCount name takes got => name ++ s!" takes {takes} arguments, got {got}"
  | .argumentType type => s!"cannot encode {type} as a call argument"
  | .incompleteRequest => "raw layout requests carry both caller and nonce"

inductive AbiFault where
  | unsupportedType (type : Datum) (name : Text)
  | notFunction (type : Datum)
  | unnamed
  | malformed
  | notList

def AbiFault.message : AbiFault → Text
  | .unsupportedType type name => s!"unsupported ABI type {type.printed} in " ++ name
  | .notFunction type => s!"not a function entry: {type.printed}"
  | .unnamed => "function entry without a name"
  | .malformed => "invalid ABI JSON"
  | .notList => "ABI document must be a JSON list"

inductive ContextFault where
  | oddHex (digits : Nat)
  | malformedHex (text : Text)
  | unconvertible (typeName : String)
  | addressTooLong (text : Text)
  | addressLength (got : Nat)
  | notInteger (name typeName : String)
  | negative (name : String) (value : Int)
deriving DecidableEq

def ContextFault.message : ContextFault → String
  | .oddHex digits => s!"hex string must have even length, got {digits}"
  | .malformedHex text => s!"invalid hex string: {Quoted.write text}"
  | .unconvertible typeName => s!"cannot convert type {typeName} to bytes"
  | .addressTooLong text => s!"address too long: {Quoted.write text}"
  | .addressLength got => s!"address must be 20 bytes, got {got}"
  | .notInteger name typeName => s!"{name} must be int, got {typeName}"
  | .negative name value => s!"{name} must be non-negative, got {value}"

inductive ConfigFault where
  | layout (got : Datum)
  | nonceSource (got : Datum)
  | nonceWithoutPayload
  | malformedAddress (text : Text)
  | addressType (typeName : String)
  | addressLength (got : Nat)
  | negativeGas
  | negativeCount

def ConfigFault.message : ConfigFault → String
  | .layout got => s!"layout must be one of ('typed', 'raw'), got {got.printed}"
  | .nonceSource got => s!"nonce_source must be one of ('state', 'payload'), got {got.printed}"
  | .nonceWithoutPayload => "typed layout carries no nonce; use nonce_source='state'"
  | .malformedAddress text => s!"invalid address {Quoted.write text}"
  | .addressType typeName => s!"cannot parse address from {typeName}"
  | .addressLength got => s!"address must be 20 bytes, got {got}"
  | .negativeGas => "gas schedule values must be non-negative"
  | .negativeCount => "max_count must be non-negative"

inductive RegistryFault where
  | outsideRange (address : Bytes)
  | occupied (address : Bytes)
  | vacant (address : Bytes)
deriving DecidableEq

def RegistryFault.message : RegistryFault → String
  | .outsideRange address => s!"{address.marked} is outside the reserved precompile range"
  | .occupied address => s!"a precompile is already registered at {address.marked}"
  | .vacant address => s!"no precompile registered at {address.marked}"

/-- A value of a right type that is out of place. -/
inductive ValueFault where
  | truncated
  | arrayOffset (got : Nat)
  | wordCount (count offset held : Nat)
  | layout (got : Datum)
  | signature (got : Datum)
  | size (name : String) (expected got : Nat)
  | nonce (got : Datum)
  | notNatural (name : String) (got : Datum)
  | balanceOverflow
  | snapshot (id : Datum)
  | below (name : String) (bound got : Int)
  | payloadNonce
  | nonceSource (got : Datum)
  | duplicateSelector (selector : Bytes)
  | emptyContract
  | hostWordRange (got : Int)
  | hostWordSize (got : Nat)

def ValueFault.message : ValueFault → String
  | .truncated => "truncated payload"
  | .arrayOffset got => s!"unexpected dynamic array offset {got}"
  | .wordCount count offset held =>
    s!"expected {count} words after offset {offset}, buffer has {held} bytes"
  | .layout got => s!"unknown layout {got.printed}"
  | .signature got => s!"not a canonical signature: {got.printed}"
  | .size name expected got => s!"{name} must be {expected} bytes, got {got}"
  | .nonce got => s!"nonce must be a u64, got {got.printed}"
  | .notNatural name got => s!"{name} must be a non-negative int, got {got.printed}"
  | .balanceOverflow => "balance overflows uint256"
  | .snapshot id => s!"snapshot id {id.printed} is not open"
  | .below name bound got => s!"{name} must be >= {bound}, got {got}"
  | .payloadNonce => "payload nonce source requires a nonce in the request"
  | .nonceSource got => s!"unknown nonce source {got.printed}"
  | .duplicateSelector selector => s!"duplicate selector {selector.marked}"
  | .emptyContract => "contract needs at least one function or a fallback"
  | .hostWordRange got => s!"host word out of uint256 range: {got}"
  | .hostWordSize got => s!"host word is {got} bytes, expected at most 32"

/-- A value of a wrong type. -/
inductive TypeFault where
  | notBytes (name : String)
  | notBytesBut (name typeName : String)
  | notInteger (name typeName : String)
  | hostTruthValue
  | hostWord (typeName : String)
  | notContract
deriving DecidableEq

def TypeFault.message : TypeFault → String
  | .notBytes name => s!"{name} must be bytes-like"
  | .notBytesBut name typeName => s!"{name} must be bytes-like (got {typeName})"
  | .notInteger name typeName => s!"{name} must be int, got {typeName}"
  | .hostTruthValue => "host returned a bool where a word was expected"
  | .hostWord typeName => s!"cannot read a word from {typeName}"
  | .notContract => "contract must be a StatefulPrecompiledContract"

end SeededDraws
