import SeededDraws.Registry
/-!
# Deployments

An environment and the configuration that was made of it. The configuration is evaluated when it is
first asked for and then remembered until it is forgotten; only successes are remembered. Calls and
draws of a deployment use it where they are given no other.
-/

namespace SeededDraws

/-- A configuration with the number of its evaluation. -/
structure Loaded where
  serial : Nat
  config : Config

structure Deployment where
  environment : Environment
  remembered : Option Loaded
  /-- How many evaluations succeeded. -/
  evaluations : Nat

namespace Deployment

def fresh : Deployment := ⟨.empty, none, 0⟩

def load (d : Deployment) : Outcome Loaded × Deployment :=
  match d.remembered with
  | some loaded => (.ok loaded, d)
  | none =>
    match Config.ofEnvironment d.environment with
    | .error fault => (.error fault, d)
    | .ok config =>
      let loaded := ⟨d.evaluations, config⟩
      (.ok loaded, { d with remembered := some loaded, evaluations := d.evaluations + 1 })

/-- Changes a variable; a refused change leaves the deployment alone. -/
def setVariable (d : Deployment) (name : Text) (value : Option Text) : Outcome Deployment :=
  return { d with environment := ← d.environment.change name value }

def forget (d : Deployment) : Deployment := { d with remembered := none }

/-- The values that a call would draw, under the configured ceiling. -/
def generate (d : Deployment) (contract caller nonce count : Datum) :
    Outcome (List Nat) × Deployment :=
  let (loaded, d) := d.load
  (loaded.bind fun l => SeededDraws.generate contract caller nonce count l.config.maxCount, d)

/-- An empty address stands for the configured one. -/
def callAddress (config : Config) (address : Datum) : Datum :=
  if address.truthy then address else .ofBytes config.address

/-- One call of the random contract on a ledger, through a registry of its own. -/
def callOn (config : Config) (ledger : Ledger) (address caller input gas readOnly : Datum) :
    Outcome CallResult := do
  let registry ← Registry.standard config .none 0 []
  (registry.call ⟨.base, none⟩ ⟨.ofLedger ledger, .fresh, []⟩ (callAddress config address) caller
    input gas readOnly).1

def runCall (d : Deployment) (config : Option Config) (ledger : Ledger)
    (address caller input gas readOnly : Datum) : Outcome CallResult × Deployment :=
  match config with
  | some config => (callOn config ledger address caller input gas readOnly, d)
  | none =>
    let (loaded, d) := d.load
    (loaded.bind fun l => callOn l.config ledger address caller input gas readOnly, d)

end Deployment

/-- A ledger on which accounts have nonces; the first bad pair is the fault. -/
def Ledger.withNonces (pairs : List (Datum × Datum)) : Outcome Ledger :=
  pairs.foldlM
    (fun (l : Ledger) p =>
      let (answer, l) := l.step (.setNonce p.1 p.2)
      answer.map fun _ => l)
    (.start zeroWord)

end SeededDraws
