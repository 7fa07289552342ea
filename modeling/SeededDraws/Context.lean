import SeededDraws.Address
/-!
# The context of a call

What a call is told about the block it runs in and about itself, checked on construction.
-/

namespace SeededDraws

def contextNatural (name : String) (d : Datum) : Outcome Nat :=
  match d.properInt? with
  | some n => if n < 0 then .error (.context (.negative name n)) else .ok n.toNat
  | none => .error (.context (.notInteger name d.typeName))

structure BlockEnv where
  number : Nat
  timestamp : Nat
  coinbase : Bytes
  chainId : Nat
deriving DecidableEq

namespace BlockEnv

def make (number timestamp coinbase chainId : Datum) : Outcome BlockEnv := do
  let n ← contextNatural "number" number
  let t ← contextNatural "timestamp" timestamp
  let c ← contextNatural "chain_id" chainId
  let a ← Address.read coinbase
  return ⟨n, t, a, c⟩

/-- Absent fields are zero. -/
def ofDatum (d : Datum) : Outcome BlockEnv :=
  match d with
  | .dict _ =>
    make ((d.field? "number").getD (.int 0)) ((d.field? "timestamp").getD (.int 0))
      ((d.field? "coinbase").getD (.ofBytes (Bytes.zeros addressSize)))
      ((d.field? "chain_id").getD (.int 0))
  | _ => .error (.bare .attribute)

def toDatum (e : BlockEnv) : Datum :=
  .dict [("number", .ofNat e.number), ("timestamp", .ofNat e.timestamp),
    ("coinbase", .text e.coinbase.marked), ("chain_id", .ofNat e.chainId)]

end BlockEnv

structure CallContext where
  caller : Bytes
  address : Bytes
  input : Bytes
  suppliedGas : Nat
  readOnly : Bool
deriving DecidableEq

namespace CallContext

def make (caller address input suppliedGas readOnly : Datum) : Outcome CallContext := do
  let c ← Address.read caller
  let a ← Address.read address
  let i ← ByteText.read input
  let g ← contextNatural "supplied_gas" suppliedGas
  return ⟨c, a, i, g, readOnly.truthy⟩

def toDatum (c : CallContext) : Datum :=
  .dict [("caller", .text c.caller.marked), ("address", .text c.address.marked),
    ("input", .text c.input.marked), ("supplied_gas", .ofNat c.suppliedGas),
    ("read_only", .bool c.readOnly)]

end CallContext

end SeededDraws
