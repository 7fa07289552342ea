import SeededDraws.Fault.Cause
import SeededDraws.Fault.Failure
/-!
# Faults

All that can go wrong, by cause. Failures are reported in the result of a call; all the other faults
leave it.
-/

namespace SeededDraws

/-- Faults of the loosely typed values themselves; only their kind is known. -/
inductive BareFault where
  | value
  | type
  | attribute
  | key
  | index
  | overflow
  | encoding
  | decoding
  | depth
  | memory
  | system
deriving DecidableEq

inductive Fault where
  | failure (cause : Failure)
  | misfit (cause : Misfit)
  | abi (cause : AbiFault)
  | context (cause : ContextFault)
  | config (cause : ConfigFault)
  | registry (cause : RegistryFault)
  | value (cause : ValueFault)
  | type (cause : TypeFault)
  /-- A host offers none of these methods. -/
  | unsupported (methods : List String)
  /-- Raised by a host or by the body of a contract, in its own words. Only ordinary errors are
  meant, on which a call goes back to its snapshot; for an interrupt or an exit it does nothing. -/
  | foreign (kind : String) (message : Text)
  | bare (cause : BareFault)

/-- The text of a fault, where it has one. -/
def Fault.message? : Fault → Option Text
  | .failure cause => some cause.message.shown
  | .misfit cause => some cause.message
  | .abi cause => some cause.message
  | .context cause => some cause.message
  | .config cause => some cause.message
  | .registry cause => some cause.message
  | .value cause => some cause.message
  | .type cause => some cause.message
  | .unsupported methods =>
    let names := methods.map fun (m : String) => Datum.text m
    some s!"host state provides none of {(Datum.list names).printed}"
  | .foreign _ message => some message
  | .bare _ => none

abbrev Outcome (α : Type) := Except Fault α

end SeededDraws
