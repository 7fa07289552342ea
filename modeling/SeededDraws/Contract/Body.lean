import SeededDraws.Context
import SeededDraws.Gas
import SeededDraws.Metrics
import SeededDraws.Store
/-!
# Bodies of contract functions

A body is a tree of the things that a call may do: charge gas, use the state, call another contract.
What comes back chooses the rest of the body, refusals included.
-/

namespace SeededDraws

/-- What a call hands back. An error leaves no output. -/
structure CallResult where
  output : Datum
  remainingGas : Nat
  error : Option Failure

namespace CallResult

/-- Only byte strings can be shown as an output. -/
def toDatum (r : CallResult) : Outcome Datum :=
  match r.output, r.error with
  | .bytes _ b, none =>
    .ok (.dict [("ok", .bool true), ("output", .text b.marked),
      ("remainingGas", .ofNat r.remainingGas)])
  | .bytes _ b, some cause =>
    .ok (.dict [("ok", .bool false), ("output", .text b.marked),
      ("remainingGas", .ofNat r.remainingGas), ("error", cause.toDatum)])
  | _, _ => .error (.bare .attribute)

end CallResult

/-- The ways to the state of a call. -/
inductive Access where
  /-- The state as the call may use it; a read-only call gets a new view. -/
  | guarded
  /-- A state that the body kept, in the order of keeping. -/
  | kept (index : Nat)
  /-- The state that was handed to the contract. -/
  | direct
  /-- A new read-only view, whatever the call may do. -/
  | observing

inductive Body where
  | done (output : Datum)
  | fail (fault : Fault)
  /-- The rest is chosen by the gas that is left. -/
  | charge (amount : Datum) (next : Outcome Nat → Body)
  /-- Keeps one guarded state for later. -/
  | keep (next : Body)
  | state (via : Access) (op : StateOp) (next : Outcome Datum → Body)
  /-- Calls the contract registered at an address, from the address of this one. -/
  | call (address input gas readOnly : Datum) (next : Outcome CallResult → Body)
  /-- Counts drawn values. -/
  | observe (count : Nat) (next : Body)
  /-- Leaves a remark in the record of the call. -/
  | note (remark : Datum) (next : Body)

/-- What a function knows about its call. -/
structure Invocation where
  context : CallContext
  args : Bytes
  block : Option BlockEnv

/-- All that calls can change. -/
structure World where
  store : Store
  metrics : Metrics
  notes : List Datum

namespace World

def step (w : World) (handle : Handle) (op : StateOp) : Outcome Datum × World :=
  let (answer, store) := w.store.step handle op
  (answer, { w with store := store })

end World

/-- What the host exposes to a contract. -/
structure Setting where
  handle : Handle
  block : Option BlockEnv

/-- How a body reaches other contracts: address, caller, input, gas, read-only. -/
abbrev Callee := World → Datum → Datum → Datum → Datum → Datum → Outcome CallResult × World

structure Frame where
  world : World
  meter : GasMeter
  kept : List Handle

namespace Frame

def guard (f : Frame) (handle : Handle) (readOnly : Bool) : Handle × Frame :=
  let (handle, store) := f.world.store.guard handle readOnly
  (handle, { f with world := { f.world with store := store } })

/-- Where nothing was kept, the guarded state stands in. -/
def reach (f : Frame) (handle : Handle) (readOnly : Bool) : Access → Handle × Frame
  | .guarded => f.guard handle readOnly
  | .kept index =>
    match f.kept[index]? with
    | some handle => (handle, f)
    | none => f.guard handle readOnly
  | .direct => (handle, f)
  | .observing => f.guard handle true

def keep (f : Frame) (handle : Handle) (readOnly : Bool) : Frame :=
  let (handle, f) := f.guard handle readOnly
  { f with kept := f.kept ++ [handle] }

def step (f : Frame) (handle : Handle) (op : StateOp) : Outcome Datum × Frame :=
  let (answer, world) := f.world.step handle op
  (answer, { f with world := world })

def note (f : Frame) (remark : Datum) : Frame :=
  { f with world := { f.world with notes := f.world.notes ++ [remark] } }

def observe (f : Frame) (count : Nat) : Outcome Unit × Frame :=
  match f.world.metrics.observeValues (.ofNat count) with
  | .ok metrics => (.ok (), { f with world := { f.world with metrics := metrics } })
  | .error fault => (.error fault, f)

end Frame

def Body.run (callee : Callee) (handle : Handle) (context : CallContext) :
    Body → Frame → Outcome Datum × Frame
  | .done output, f => (.ok output, f)
  | .fail fault, f => (.error fault, f)
  | .charge amount next, f =>
    let (left, meter) := f.meter.consume amount
    (next left).run callee handle context { f with meter := meter }
  | .keep next, f => next.run callee handle context (f.keep handle context.readOnly)
  | .state via op next, f =>
    let (target, f) := f.reach handle context.readOnly via
    let (answer, f) := f.step target op
    (next answer).run callee handle context f
  | .call address input gas readOnly next, f =>
    let (result, world) := callee f.world address (.ofBytes context.address) input gas readOnly
    (next result).run callee handle context { f with world := world }
  | .observe count next, f =>
    match f.observe count with
    | (.error fault, f) => (.error fault, f)
    | (.ok _, f) => next.run callee handle context f
  | .note remark next, f => next.run callee handle context (f.note remark)

end SeededDraws
