import SeededDraws.Contract.Script
import SeededDraws.Registry
import SeededDraws.Store.ScriptedHost
/-!
# What a session is made of

Descriptions of states, entropy sources and contracts, and what is built from them.
-/

namespace SeededDraws

inductive EntropySpec where
  | none
  | fixed (value : Datum)
  | constant (value : Datum)
  /-- The caller, and the number of the block if there is one. -/
  | echo

inductive ContractSpec where
  | random (config : Option Datum) (entropy : EntropySpec)
  | script (functions : List (Datum × List Instruction)) (fallback : Option (List Instruction))

inductive StateSpec where
  | ledger (txHash : Datum) (releases : Bool)
  | host (host : ScriptedHost)

structure CallArgs where
  caller : Datum
  address : Datum
  input : Datum
  gas : Datum
  readOnly : Datum

namespace EntropySpec

def callerAndBlock (caller : Bytes) (block : Option BlockEnv) : Outcome Datum :=
  match block with
  | .none => .ok (.ofBytes caller)
  | some env =>
    if env.number ≤ maxUint64 then .ok (.ofBytes (caller ++ Bytes.numeral nonceSize env.number))
    else .error (.bare .overflow)

def toEntropy : EntropySpec → Outcome Entropy
  | .none => .ok .none
  | .fixed value => Entropy.fixed value
  | .constant value => .ok (.constant value)
  | .echo => .ok callerAndBlock

end EntropySpec

def StateSpec.build : StateSpec → Outcome Base
  | .ledger txHash releases => return .ledger (← Ledger.make txHash) releases
  | .host h => .ok (.host (.start h.toHost))

namespace ContractSpec

def configOf (config : Option Datum) : Outcome Config :=
  match config with
  | some fields => Config.ofDatum fields
  | none => .ok .standard

def build : ContractSpec → Outcome Contract
  | .random config entropy => do
    let c ← configOf config
    randomContract c (← entropy.toEntropy)
  | .script functions fallback =>
    Contract.make (functions.map fun f => (f.1, Script.body f.2)) (fallback.map Script.body)

end ContractSpec

end SeededDraws
