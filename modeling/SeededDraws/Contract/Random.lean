import SeededDraws.Config
import SeededDraws.Contract
import SeededDraws.Seed
/-!
# The random contract

Charge for the payload, decode it, check the count, find the nonce, derive the seed, draw, encode.
The typed layout has a function for a sequence and one for a single value; the raw layout has the
sequence alone. The state is only ever read.
-/

namespace SeededDraws

/-- Extra bytes for the user seed, from the caller and the block. -/
abbrev Entropy := Bytes → Option BlockEnv → Outcome Datum

namespace Entropy

/-- Nothing is added to the seed. -/
def none : Entropy := fun _ _ => .ok (.ofBytes [])

def constant (d : Datum) : Entropy := fun _ _ => .ok d

/-- A value that is known beforehand. -/
def fixed (value : Datum) : Outcome Entropy :=
  return constant (.ofBytes (← value.someBytes "entropy value"))

end Entropy

namespace Body

/-- Goes on with a result, or fails. -/
def orFail {α : Type} (result : Outcome α) (next : α → Body) : Body :=
  match result with
  | .ok x => next x
  | .error fault => .fail fault

end Body

structure RandomContract where
  config : Config
  schedule : GasSchedule
  entropy : Entropy

namespace RandomContract

def make (config : Config) (entropy : Entropy) : Outcome RandomContract := do
  let schedule ← GasSchedule.make config.baseGas config.gasPerWord
  return ⟨config, schedule, entropy⟩

def requiredGas (r : RandomContract) (input : Bytes) : Nat := r.schedule.required input.length

/-- The nonce of the caller's account, or the one in the request. -/
def findNonce (r : RandomContract) (request : Request) (caller : Bytes)
    (next : Outcome Datum → Body) : Body :=
  match r.config.nonceSource with
  | .state => .state .observing (.getNonce (.ofBytes caller)) next
  | .payload => next (carriedNonce ((request.nonce.map Datum.ofNat).getD .null))

def valuesFor (r : RandomContract) (call : Invocation) (caller : Bytes) (nonce count : Datum) :
    Outcome (List Nat) := do
  let extra ← r.entropy caller call.block
  let seed ← deriveSeed (.ofBytes call.context.address) (.ofBytes caller) extra
  generateValues (.ofBytes seed.server) (.ofBytes seed.user) nonce count

/-- The values of a request; it speaks for its own caller if it names one. -/
def draw (r : RandomContract) (call : Invocation) (request : Request) (ceiling : Datum)
    (next : List Nat → Body) : Body :=
  .orFail (checkCount (.ofNat request.count) ceiling) fun count =>
    let caller := request.caller.getD call.context.caller
    r.findNonce request caller fun found =>
      .orFail found fun nonce => .orFail (r.valuesFor call caller nonce count) next

/-- The price is taken before the payload is looked at. -/
def metered (r : RandomContract) (call : Invocation) (next : Body) : Body :=
  .charge (.ofNat (r.requiredGas call.context.input)) fun left => .orFail left fun _ => next

def sequence (r : RandomContract) (call : Invocation) : Body :=
  r.metered call <|
    .orFail (r.config.layout.decodeArgs call.args) fun request =>
      r.draw call request r.config.maxCount fun values =>
        .observe values.length <|
          .orFail (r.config.layout.encodeResponse (.list (values.map .ofNat))) fun output =>
            .done (.ofBytes output)

/-- One value; the ceiling of the configuration does not matter. -/
def single (r : RandomContract) (call : Invocation) : Body :=
  r.metered call <|
    if call.args.isEmpty then
      r.draw call ⟨1, none, none⟩ (.int 1) fun values =>
        .observe 1 <| .orFail (encodeUint256 (.ofNat (values.headD 0))) fun output =>
          .done (.ofBytes output)
    else .fail (Layout.wrongLength call.args.length 0 false)

def contract (r : RandomContract) : Outcome Contract :=
  match r.config.layout with
  | .typed => do
    let first ← Function.randomSequence.selector
    let second ← Function.randomSingle.selector
    Contract.make [(.ofBytes first, r.sequence), (.ofBytes second, r.single)] none
  | .raw => Contract.make [] (some r.sequence)

end RandomContract

/-- The random contract of a deployment. -/
def randomContract (config : Config) (entropy : Entropy) : Outcome Contract := do
  (← RandomContract.make config entropy).contract

end SeededDraws
