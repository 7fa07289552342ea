import SeededDraws.Abi.Layout
import SeededDraws.Address
import SeededDraws.Environment
import SeededDraws.Nonce
/-!
# Deployment parameters

What a chain fixes for the random contract. A configuration is built from loosely typed fields or
from the environment; either way it passes the same checks in the same order.
-/

namespace SeededDraws

structure Config where
  layout : Layout
  nonceSource : NonceSource
  address : Bytes
  /-- Not below zero; whether they are integers is found out where they are used. -/
  baseGas : Datum
  gasPerWord : Datum
  maxCount : Datum

/-- The fields as they are given. -/
structure ConfigFields where
  layout : Datum
  nonceSource : Datum
  address : Datum
  baseGas : Datum
  gasPerWord : Datum
  maxCount : Datum

namespace ConfigFields

def standardAddress : String := "0x0000000000000000000000000000000000069420"

def standard : ConfigFields :=
  ⟨.text "typed", .text "state", .text standardAddress, .int 1024, .int 0, .int 1024⟩

/-- An unknown name is refused. -/
def set (f : ConfigFields) (change : Text × Datum) : Outcome ConfigFields :=
  let d := change.2
  match change.1.string? with
  | some "layout" => .ok { f with layout := d }
  | some "nonce_source" => .ok { f with nonceSource := d }
  | some "address" => .ok { f with address := d }
  | some "base_gas" => .ok { f with baseGas := d }
  | some "gas_per_word" => .ok { f with gasPerWord := d }
  | some "max_count" => .ok { f with maxCount := d }
  | _ => .error (.bare .type)

def update (f : ConfigFields) (changes : Datum) : Outcome ConfigFields :=
  match changes with
  | .dict entries => entries.foldlM set f
  | _ => .error (.bare .type)

end ConfigFields

namespace Config

/-! ### Checks -/

def addressOfText (t : Text) : Outcome Bytes :=
  match Hex.read ((ByteText.digits t).padZeros (2 * addressSize)).faces with
  | some b => .ok b
  | none => .error (.config (.malformedAddress t))

/-- Byte strings, or hexadecimal text filled up on the left. -/
def readAddress (d : Datum) : Outcome Bytes := do
  let b ← match d with
    | .bytes _ b => .ok b
    | .text t => addressOfText t
    | _ => .error (.config (.addressType d.typeName))
  if b.length = addressSize then .ok b else .error (.config (.addressLength b.length))

def readLayout (d : Datum) : Outcome Layout :=
  match Layout.ofDatum? d with
  | some layout => .ok layout
  | none => .error (.config (.layout d))

def readNonceSource (d : Datum) : Outcome NonceSource :=
  match NonceSource.ofDatum? d with
  | some source => .ok source
  | none => .error (.config (.nonceSource d))

def refuseIf (fault : ConfigFault) (bad : Bool) : Outcome Unit :=
  if bad then .error (.config fault) else .ok ()

/-- The second price is looked at only if the first is good. -/
def anyBelowZero (base perWord : Datum) : Outcome Bool := do
  if ← base.isBelow 0 then return true else perWord.isBelow 0

def ofFields (f : ConfigFields) : Outcome Config := do
  let layout ← readLayout f.layout
  let source ← readNonceSource f.nonceSource
  refuseIf .nonceWithoutPayload (layout = .typed ∧ source = .payload)
  let address ← readAddress f.address
  refuseIf .negativeGas (← anyBelowZero f.baseGas f.gasPerWord)
  refuseIf .negativeCount (← f.maxCount.isBelow 0)
  return ⟨layout, source, address, f.baseGas, f.gasPerWord, f.maxCount⟩

def toFields (c : Config) : ConfigFields :=
  ⟨.text c.layout.name, .text c.nonceSource.name, .ofBytes c.address, c.baseGas, c.gasPerWord,
    c.maxCount⟩

/-- Absent fields have their usual values. -/
def ofDatum (d : Datum) : Outcome Config := do ofFields (← ConfigFields.standard.update d)

def withChanges (c : Config) (changes : Datum) : Outcome Config := do
  ofFields (← c.toFields.update changes)

def toDatum (c : Config) : Datum :=
  .dict [("layout", .text c.layout.name), ("nonce_source", .text c.nonceSource.name),
    ("address", .text c.address.marked), ("base_gas", c.baseGas),
    ("gas_per_word", c.gasPerWord), ("max_count", c.maxCount)]

def standard : Config :=
  ⟨.typed, .state, Bytes.numeral addressSize 0x069420, .int 1024, .int 0, .int 1024⟩

/-- Every variable that is absent has its usual value. -/
def ofEnvironment (e : Environment) : Outcome Config := do
  let layout := (e.word "PRNG_PRECOMPILE_LAYOUT").getD "typed"
  let usual := if layout = Text.ofString "raw" then "payload" else "state"
  let source := (e.word "PRNG_PRECOMPILE_NONCE_SOURCE").getD usual
  let address ← readAddress
    (.text ((e "PRNG_PRECOMPILE_ADDRESS").getD ConfigFields.standardAddress))
  ofFields
    ⟨.text layout, .text source, .ofBytes address,
      .ofNat (e.bounded "PRNG_PRECOMPILE_BASE_GAS" 1024 10000000),
      .ofNat (e.bounded "PRNG_PRECOMPILE_GAS_PER_WORD" 0 1000000),
      .ofNat (e.bounded "PRNG_PRECOMPILE_MAX_COUNT" 1024 1048576)⟩

end Config

end SeededDraws
