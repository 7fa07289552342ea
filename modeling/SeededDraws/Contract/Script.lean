import SeededDraws.Contract.Body
import SeededDraws.Fault.Kind
/-!
# Scripted bodies

A script is a list of instructions, run in order. The result of each finished instruction is noted;
the first fault that nobody catches ends the script.
-/

namespace SeededDraws

/-- What a script may hand back besides a fixed output. -/
inductive CallPart where
  | args
  | input
  | caller
  | address

/-- Where a script finds its state: anew, past every guard, or in what it kept last. -/
inductive StateWord where
  | guarded
  | direct
  | held

inductive Instruction where
  | consume (amount : Datum)
  | state (word : StateWord) (method : String) (args : List Datum)
  | hold
  | fail (kind : String) (args : List Datum)
  | raise (kind : String) (message : Text)
  | call (address input gas readOnly : Datum)
  /-- A failure of the inner instruction becomes a result. -/
  | catching (inner : Instruction)
  | yield (output : Datum)
  | yieldPart (part : CallPart)
deriving Inhabited

namespace Script

def part (call : Invocation) : CallPart → Bytes
  | .args => call.args
  | .input => call.context.input
  | .caller => call.context.caller
  | .address => call.context.address

/-- The way to the state, if `held` of them were kept before. -/
def access (held : Nat) : StateWord → Outcome Access
  | .guarded => .ok .guarded
  | .direct => .ok .direct
  | .held => if held = 0 then .error (.bare .attribute) else .ok (.kept (held - 1))

def stateStep (held : Nat) (word : StateWord) (method : String) (args : List Datum) :
    Outcome (Access × StateOp) := do
  let via ← access held word
  return (via, ← StateOp.ofCall method args)

def failure (kind : String) (args : List Datum) : Fault :=
  match Failure.ofKind kind args with
  | .ok cause => .failure cause
  | .error fault => fault

def caught (result : Outcome Datum) : Outcome Datum :=
  match result with
  | .error (.failure cause) => .ok (.text ("caught " ++ cause.code.shown))
  | _ => result

/-- One instruction; `next` takes its result and the number of states kept so far. -/
def perform (call : Invocation) :
    Instruction → Nat → (Outcome Datum → Nat → Body) → Body
  | .consume amount, held, next => .charge amount fun left => next (left.map .ofNat) held
  | .state word method args, held, next =>
    match stateStep held word method args with
    | .error fault => next (.error fault) held
    | .ok (via, op) => .state via op fun answer => next answer held
  | .hold, held, next => .keep (next (.ok .null) (held + 1))
  | .fail kind args, held, next => next (.error (failure kind args)) held
  | .raise kind message, held, next => next (.error (.foreign kind message)) held
  | .call address input gas readOnly, held, next =>
    .call address input gas readOnly fun result => next (result.bind CallResult.toDatum) held
  | .catching inner, held, next => perform call inner held fun result => next (caught result)
  | .yield output, _, _ => .done output
  | .yieldPart p, _, _ => .done (.ofBytes (part call p))

def run (call : Invocation) : List Instruction → Nat → Body
  | [], _ => .done (.ofBytes [])
  | i :: rest, held => perform call i held fun result held =>
    match result with
    | .error fault => .fail fault
    | .ok remark => .note remark (run call rest held)

/-- The body that a script describes; without a yield it has no output. -/
def body (script : List Instruction) (call : Invocation) : Body := run call script 0

end Script

end SeededDraws
