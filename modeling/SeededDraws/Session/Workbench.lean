import SeededDraws.Session.Display
import SeededDraws.Session.Spec
/-!
# Sessions with a state

Steps on one state with contracts, a registry and metrics. Every entry shows how the step ended, the
state after it, and the remarks of the scripts that ran.
-/

namespace SeededDraws

inductive WorkStep where
  | state (on : Int) (method : String) (args : List Datum)
  | guard (on : Int) (readOnly : Bool)
  | innerIsBase (on : Int)
  | contract (name : Text) (spec : ContractSpec)
  | run (on : Int) (name : Text) (args : CallArgs)
  | call (on : Int) (args : CallArgs)
  | register (address : Datum) (name : Text)
  | unregister (address : Datum)
  | isRegistered (address : Datum)
  | addresses
  | get (address : Datum)
  | standardRegistry (config : Option Datum) (entropy : EntropySpec)
      (extra : List (Datum × Text))
  | metrics

structure Workbench where
  world : World
  handles : List Handle
  block : Option BlockEnv
  registry : Registry
  /-- By name, the last one built under it. -/
  contracts : List (Text × Deployed)
  /-- The next serial number. -/
  serial : Nat

/-- How a step ended, the state after it, and the remarks that were made. -/
structure Entry where
  outcome : Outcome Datum
  state : Datum
  trace : List Datum

namespace Workbench

def start (base : Base) (block : Option BlockEnv) : Workbench :=
  ⟨⟨⟨base, []⟩, .fresh, []⟩, [.base], block, .empty, [], 0⟩

/-- The state is built before the block. -/
def open? (state : StateSpec) (block : Option Datum) : Outcome Workbench := do
  let base ← state.build
  return start base (← block.mapM BlockEnv.ofDatum)

/-- Handles are numbered from the start, or by negative numbers from the end. -/
def handleAt (w : Workbench) (on : Int) : Outcome Handle :=
  let index := if on < 0 then on + w.handles.length else on
  match if index < 0 then none else w.handles[index.toNat]? with
  | some handle => .ok handle
  | none => .error (.bare .index)

def store (w : Workbench) (name : Text) (contract : Contract) : Workbench :=
  { w with
    contracts := (name, ⟨w.serial, contract⟩) :: w.contracts.filter fun e => e.1 ≠ name
    serial := w.serial + 1 }

def buildRegistry (w : Workbench) (config : Option Datum) (entropy : EntropySpec)
    (extra : List (Datum × Text)) : Outcome Registry := do
  let c ← ContractSpec.configOf config
  let e ← entropy.toEntropy
  Registry.standard c e w.serial (extra.map fun x => (x.1, w.contracts.lookup x.2))

/-! ### Steps -/

def addressList (r : Registry) : Datum := .list (r.addresses.map .ofBytes)

/-- The names under which a contract is kept, in order. -/
def namesOf (w : Workbench) (serial : Nat) : List Text :=
  ((w.contracts.filter fun e => e.2.serial = serial).map (·.1)).mergeSort Text.notAfter

def withRegistry (w : Workbench) (result : Outcome Registry) (answer : Registry → Datum) :
    Outcome Datum × Workbench :=
  match result with
  | .ok registry => (.ok (answer registry), { w with registry := registry })
  | .error fault => (.error fault, w)

def enter (w : Workbench) (on : Int) (callee : Setting → Callee) (args : CallArgs) :
    Outcome Datum × Workbench :=
  match w.handleAt on with
  | .error fault => (.error fault, w)
  | .ok handle =>
    let (result, world) :=
      callee ⟨handle, w.block⟩ w.world args.address args.caller args.input args.gas args.readOnly
    (result.bind CallResult.toDatum, { w with world := world })

def addView (w : Workbench) (handle : Handle) (readOnly : Bool) : Outcome Datum × Workbench :=
  let (view, store) := w.world.store.guard handle readOnly
  (.ok (.dict [("handle", .ofNat w.handles.length), ("same", .bool (view == handle))]),
    { w with world := { w.world with store := store }, handles := w.handles ++ [view] })

def act (w : Workbench) : WorkStep → Outcome Datum × Workbench
  | .state on method args =>
    match (do return (← w.handleAt on, ← StateOp.ofCall method args)) with
    | .error fault => (.error fault, w)
    | .ok (handle, op) =>
      let (answer, world) := w.world.step handle op
      (answer, { w with world := world })
  | .guard on readOnly =>
    match w.handleAt on with
    | .error fault => (.error fault, w)
    | .ok handle => w.addView handle readOnly
  | .innerIsBase on =>
    match w.handleAt on with
    | .error fault => (.error fault, w)
    | .ok .base => (.error (.bare .attribute), w)
    | .ok (.view _) => (.ok (.bool true), w)
  | .contract name spec =>
    match spec.build with
    | .error fault => (.error fault, w)
    | .ok c => (.ok (.list (c.functions.map (·.selector))), w.store name c)
  | .run on name args =>
    match w.contracts.lookup name with
    | none => (.error (.bare .key), w)
    | some d => w.enter on (w.registry.run d.contract) args
  | .call on args => w.enter on w.registry.call args
  | .register address name =>
    w.withRegistry (w.registry.register address (w.contracts.lookup name)) fun _ => .null
  | .unregister address => w.withRegistry (w.registry.unregister address) fun _ => .null
  | .isRegistered address => ((w.registry.isRegistered address).map .bool, w)
  | .addresses => (.ok (addressList w.registry), w)
  | .get address =>
    ((w.registry.get address).map fun found =>
      match found with
      | none => .null
      | some d => .list ((w.namesOf d.serial).map .text), w)
  | .standardRegistry config entropy extra =>
    { w with serial := w.serial + 1 }.withRegistry (w.buildRegistry config entropy extra)
      addressList
  | .metrics => (.ok w.world.metrics.toDatum, w)

def step (w : Workbench) (s : WorkStep) : Entry × Workbench :=
  let seen := w.world.store.base.callCount
  let (outcome, w) := { w with world := { w.world with notes := [] } }.act s
  (⟨outcome, w.world.store.base.shown seen, w.world.notes⟩, w)

end Workbench

end SeededDraws
