import SeededDraws.Contract.Random
/-!
# Registered contracts

A finite map from reserved addresses to contracts. Every spelling of an address stands for its
twenty bytes, and a call goes to the contract that is registered there.
-/

namespace SeededDraws

/-- The serial number tells contracts apart that are built alike. -/
structure Deployed where
  serial : Nat
  contract : Contract

abbrev Registry := Table Deployed

namespace Registry

/-- Nothing but a contract can be registered, and an address is used once. -/
def register (r : Registry) (address : Datum) (contract : Option Deployed) : Outcome Registry := do
  let a ← Address.read address
  if !Address.isReserved a then .error (.registry (.outsideRange a))
  else match contract with
    | none => .error (.type .notContract)
    | some deployed =>
      if r.contains a then .error (.registry (.occupied a)) else return r.insert a deployed

def unregister (r : Registry) (address : Datum) : Outcome Registry :=
  return r.erase (← Address.read address)

def get (r : Registry) (address : Datum) : Outcome (Option Deployed) :=
  return r.find? (← Address.read address)

def isRegistered (r : Registry) (address : Datum) : Outcome Bool :=
  return r.contains (← Address.read address)

/-- In ascending order. -/
def addresses (r : Registry) : List Bytes := r.keys

def lookUp (r : Registry) (address : Datum) : Outcome Contract := do
  let a ← Address.read address
  match r.find? a with
  | some deployed => return deployed.contract
  | none => .error (.registry (.vacant a))

/-- A call by address; contracts call each other up to `depth` levels deep. -/
def enter (r : Registry) (setting : Setting) : Nat → Callee
  | 0, w, _, _, _, _, _ => (.error (.bare .depth), w)
  | depth + 1, w, address, caller, input, gas, readOnly =>
    match r.lookUp address with
    | .error fault => (.error fault, w)
    | .ok contract =>
      contract.run (enter r setting depth) setting w address caller input gas readOnly

/-- How deep calls may nest. -/
def depthLimit : Nat := 195

def call (r : Registry) (setting : Setting) : Callee := r.enter setting (depthLimit + 1)

/-- A call of a contract that need not be registered. -/
def run (r : Registry) (contract : Contract) (setting : Setting) : Callee :=
  contract.run (r.enter setting depthLimit) setting

/-- The random contract at its configured address, and further contracts after it. -/
def standard (config : Config) (entropy : Entropy) (serial : Nat)
    (extra : List (Datum × Option Deployed)) : Outcome Registry := do
  let contract ← randomContract config entropy
  let first ← register .empty (.ofBytes config.address) (some ⟨serial, contract⟩)
  extra.foldlM (fun r e => r.register e.1 e.2) first

end Registry

end SeededDraws
