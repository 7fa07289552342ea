import SeededDraws.Abi.Words
import SeededDraws.Contract.Body
/-!
# Contracts and their calls

A contract routes a call by selector, or hands the whole input to its fallback if it has no
functions. Each call takes a snapshot first. A failed call reverts to it, a good one releases it;
only typed failures become results, all other faults leave the call.
-/

namespace SeededDraws

structure ContractFunction where
  /-- Of length four; only a byte string is ever matched. -/
  selector : Datum
  body : Invocation → Body

structure Contract where
  functions : List ContractFunction
  fallback : Option (Invocation → Body)

namespace Contract

/-! ### Construction -/

def checkLength (selector : Datum) : Outcome Unit := do
  let n ← selector.length
  if n ≠ selectorSize then .error (.value (.size "selector" selectorSize n)) else return

def duplicate (selector : Datum) : Fault :=
  match selector.bytes? with
  | some b => .value (.duplicateSelector b)
  | none => .bare .attribute

/-- The functions in the order given; a selector is used once. -/
def addFunction (table : List ContractFunction) (f : Datum × (Invocation → Body)) :
    Outcome (List ContractFunction) :=
  if !f.1.isHashable then .error (.bare .type)
  else if table.any fun g => g.selector.sameMember f.1 then .error (duplicate f.1)
  else .ok (table ++ [⟨f.1, f.2⟩])

def make (functions : List (Datum × (Invocation → Body))) (fallback : Option (Invocation → Body)) :
    Outcome Contract := do
  functions.forM fun f => checkLength f.1
  let table ← functions.foldlM addFunction []
  if table.isEmpty && fallback.isNone then .error (.value .emptyContract)
  else return ⟨table, fallback⟩

/-! ### Routing -/

def find? (c : Contract) (selector : Bytes) : Option (Invocation → Body) :=
  (c.functions.find? fun f => f.selector.bytes? == some selector).map (·.body)

/-- The body for an input, and what of the input it gets as arguments. -/
def route (c : Contract) (input : Bytes) : Outcome ((Invocation → Body) × Bytes) :=
  match c.functions, c.fallback with
  | [], some body => .ok (body, input)
  | _, _ => do
    let (selector, args) ← Words.splitSelector input
    match c.find? selector with
    | some body => return (body, args)
    | none => .error (.failure (.ofSelector selector))

def execute (c : Contract) (callee : Callee) (setting : Setting) (context : CallContext)
    (f : Frame) : Outcome Datum × Frame :=
  match c.route context.input with
  | .error fault => (.error fault, f)
  | .ok (body, args) => (body ⟨context, args, setting.block⟩).run callee setting.handle context f

/-! ### How a call ends -/

/-- Running out of gas leaves nothing, any other failure what was not charged. -/
def gasAfter (cause : Failure) (meter : GasMeter) : Nat :=
  match cause with
  | .outOfGas .. => 0
  | _ => meter.remaining

def countResult (w : World) (code : Datum) (charged : Nat) (result : CallResult) :
    Outcome CallResult × World :=
  match w.metrics.recordCall code with
  | .error fault => (.error fault, w)
  | .ok counted =>
    match counted.addGas (.ofNat charged) with
    | .error fault => (.error fault, { w with metrics := counted })
    | .ok metrics => (.ok result, { w with metrics := metrics })

/-- The snapshot is released where the state can do so. At last the output is measured. -/
def commit (handle : Handle) (snapshot : Datum) (output : Datum) (f : Frame) :
    Outcome CallResult × World :=
  let (released, w) :=
    if f.world.store.releases handle then f.world.step handle (.discard snapshot)
    else (.ok .null, f.world)
  match released with
  | .error fault => (.error fault, w)
  | .ok _ =>
    let (counted, w) := countResult w (.text "ok") f.meter.used ⟨output, f.meter.remaining, none⟩
    (counted.bind fun result => output.length.map fun _ => result, w)

def reject (handle : Handle) (snapshot : Datum) (cause : Failure) (f : Frame) :
    Outcome CallResult × World :=
  let (reverted, w) := f.world.step handle (.revert snapshot)
  match reverted with
  | .error fault => (.error fault, w)
  | .ok _ =>
    let remaining := gasAfter cause f.meter
    countResult w cause.code (f.meter.limit - remaining)
      ⟨.ofBytes [], remaining, some cause⟩

def abandon (handle : Handle) (snapshot : Datum) (fault : Fault) (f : Frame) :
    Outcome CallResult × World :=
  let (reverted, w) := f.world.step handle (.revert snapshot)
  match reverted with
  | .error later => (.error later, w)
  | .ok _ => (.error fault, w)

def finish (handle : Handle) (snapshot : Datum) : Outcome Datum × Frame → Outcome CallResult × World
  | (.ok output, f) => commit handle snapshot output f
  | (.error (.failure cause), f) => reject handle snapshot cause f
  | (.error fault, f) => abandon handle snapshot fault f

/-- A call in a context that was found good. -/
def runIn (c : Contract) (callee : Callee) (setting : Setting) (context : CallContext) (w : World) :
    Outcome CallResult × World :=
  let (snapshot, w) := w.step setting.handle .snapshot
  match snapshot with
  | .error fault => (.error fault, w)
  | .ok id =>
    finish setting.handle id
      (c.execute callee setting context ⟨w, GasMeter.start context.suppliedGas, []⟩)

def run (c : Contract) (callee : Callee) (setting : Setting) (w : World)
    (address caller input gas readOnly : Datum) : Outcome CallResult × World :=
  match CallContext.make caller address input gas readOnly with
  | .error fault => (.error fault, w)
  | .ok context => c.runIn callee setting context w

end Contract

end SeededDraws
