import SeededDraws.Fault
/-!
# Operations on a store

All that a contract can do to the state it is handed. The arguments come as they were given; whoever
carries an operation out reads them.
-/

namespace SeededDraws

inductive StateOp where
  | getState (address key : Datum)
  | setState (address key value : Datum)
  | getNonce (address : Datum)
  | setNonce (address nonce : Datum)
  | getBalance (address : Datum)
  | addBalance (address amount : Datum)
  | createAccount (address : Datum)
  | exist (address : Datum)
  | addLog (address topics data block : Datum)
  | getLogData
  | getPredicate (address index : Datum)
  | setPredicates (address predicates : Datum)
  | getTxHash
  | snapshot
  | revert (id : Datum)
  | discard (id : Datum)

namespace StateOp

def name : StateOp → String
  | .getState .. => "get_state"
  | .setState .. => "set_state"
  | .getNonce _ => "get_nonce"
  | .setNonce .. => "set_nonce"
  | .getBalance _ => "get_balance"
  | .addBalance .. => "add_balance"
  | .createAccount _ => "create_account"
  | .exist _ => "exist"
  | .addLog .. => "add_log"
  | .getLogData => "get_log_data"
  | .getPredicate .. => "get_predicate_storage_slots"
  | .setPredicates .. => "set_predicate_storage_slots"
  | .getTxHash => "get_tx_hash"
  | .snapshot => "snapshot"
  | .revert _ => "revert_to_snapshot"
  | .discard _ => "discard_snapshot"

/-- The operations that change contents. -/
def mutates : StateOp → Bool
  | .setState .. => true
  | .setNonce .. => true
  | .addBalance .. => true
  | .createAccount _ => true
  | .addLog .. => true
  | .setPredicates .. => true
  | _ => false

def names : List String :=
  ["get_state", "set_state", "get_nonce", "set_nonce", "get_balance", "add_balance",
    "create_account", "exist", "add_log", "get_log_data", "get_predicate_storage_slots",
    "set_predicate_storage_slots", "get_tx_hash", "snapshot", "revert_to_snapshot",
    "discard_snapshot"]

/-- An operation by its name; a known name takes a fixed number of arguments. -/
def ofCall (method : String) (args : List Datum) : Outcome StateOp :=
  match method, args with
  | "get_state", [a, k] => .ok (.getState a k)
  | "set_state", [a, k, v] => .ok (.setState a k v)
  | "get_nonce", [a] => .ok (.getNonce a)
  | "set_nonce", [a, n] => .ok (.setNonce a n)
  | "get_balance", [a] => .ok (.getBalance a)
  | "add_balance", [a, n] => .ok (.addBalance a n)
  | "create_account", [a] => .ok (.createAccount a)
  | "exist", [a] => .ok (.exist a)
  | "add_log", [a, t, d, n] => .ok (.addLog a t d n)
  | "get_log_data", [] => .ok .getLogData
  | "get_predicate_storage_slots", [a, i] => .ok (.getPredicate a i)
  | "set_predicate_storage_slots", [a, p] => .ok (.setPredicates a p)
  | "get_tx_hash", [] => .ok .getTxHash
  | "snapshot", [] => .ok .snapshot
  | "revert_to_snapshot", [i] => .ok (.revert i)
  | "discard_snapshot", [i] => .ok (.discard i)
  -- not every state has this operation, and one that has it takes no list for a snapshot
  | "discard_snapshot", _ => .ok (.discard (.list []))
  | _, _ => .error (.bare (if names.contains method then .type else .attribute))

/-- The answer of a predicate look-up that found nothing. -/
def noPredicate : Datum := .tuple [.ofBytes [], .bool false]

end StateOp

end SeededDraws
