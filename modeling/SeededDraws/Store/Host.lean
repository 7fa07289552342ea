import SeededDraws.Datum.Reading
import SeededDraws.Store.Operation
/-!
# Host ledgers

A host is asked by name: of the names that an operation may go by, the first that the host has as a
method is called, once. Reads fall back on a neutral value where no method is found, writes fail.
-/

namespace SeededDraws

structure HostCall where
  method : String
  args : List Datum

inductive HostMember where
  | method
  | attribute (value : Datum)

/-- What a host answers may depend on all that it was asked before. -/
structure Host where
  member? : String → Option HostMember
  reply : List HostCall → HostCall → Outcome Datum

namespace Host

def hasMethod (h : Host) (name : String) : Bool :=
  match h.member? name with
  | some .method => true
  | _ => false

def first? (h : Host) (names : List String) : Option String := names.find? h.hasMethod

end Host

/-! ### Words of a host -/

namespace HostWord

def ofBytes (b : Bytes) : Outcome Bytes :=
  if wordSize < b.length then .error (.value (.hostWordSize b.length))
  else .ok (b.padLeft wordSize)

/-- Hexadecimal text of any length; an odd one gets a zero in front. -/
def ofText (t : Text) : Outcome Bytes :=
  let h := t.unmarked
  match Hex.read (h.padZeros (h.length + h.length % 2)).faces with
  | some b => ofBytes b
  | none => .error (.bare .value)

/-- A word by its value: nothing is zero, short forms are filled up on the left. -/
def read (d : Datum) : Outcome Bytes :=
  match d with
  | .null => .ok zeroWord
  | .bool _ => .error (.type .hostTruthValue)
  | .int n =>
    if 0 ≤ n ∧ n ≤ maxUint256 then .ok (Bytes.numeral wordSize n.toNat)
    else .error (.value (.hostWordRange n))
  | .text t => ofText t
  | .bytes _ b => ofBytes b
  | _ => .error (.type (.hostWord d.typeName))

end HostWord

/-! ### How operations map to a host -/

namespace StateOp

/-- The names that an operation may go by, in the order of preference. -/
def candidates : StateOp → List String
  | .getState .. => ["get_state", "get_storage", "read_storage"]
  | .setState .. => ["set_state", "set_storage", "write_storage"]
  | .getNonce _ => ["get_nonce", "nonce_of"]
  | .setNonce .. => ["set_nonce"]
  | .getBalance _ => ["get_balance", "balance_of"]
  | .addBalance .. => ["add_balance", "credit"]
  | .createAccount _ => ["create_account", "ensure_account"]
  | .exist _ => ["exist", "exists", "account_exists", "has_account"]
  | .addLog .. => ["add_log", "emit_log"]
  | .getLogData => ["get_log_data"]
  | .getPredicate .. => ["get_predicate_storage_slots"]
  | .setPredicates .. => ["set_predicate_storage_slots"]
  | .getTxHash => ["get_tx_hash"]
  | .snapshot => ["snapshot", "checkpoint"]
  | .revert _ => ["revert_to_snapshot", "revert_to", "rollback_to"]
  | .discard _ => ["discard_snapshot", "release_snapshot"]

/-- Numbers and containers are converted before the host is looked at. -/
def hostArgs : StateOp → Outcome (List Datum)
  | .getState address key => .ok [address, key]
  | .setState address key value => .ok [address, key, value]
  | .getNonce address => .ok [address]
  | .setNonce address nonce => return [address, .int (← nonce.toInteger)]
  | .getBalance address => .ok [address]
  | .addBalance address amount => return [address, .int (← amount.toInteger)]
  | .createAccount address => .ok [address]
  | .exist address => .ok [address]
  | .addLog address topics data block => do
    let t ← topics.items
    let d ← data.toByteString
    let b ← block.toInteger
    return [address, .list t, .ofBytes d, .int b]
  | .getLogData => .ok []
  | .getPredicate address index => .ok [address, index]
  | .setPredicates address predicates => do
    let p ← (← predicates.items).mapM Datum.toByteString
    return [address, .list (p.map .ofBytes)]
  | .getTxHash => .ok []
  | .snapshot => .ok []
  | .revert id => return [.int (← id.toInteger)]
  | .discard id => return [.int (← id.toInteger)]

end StateOp

namespace HostReply

/-- Whatever counts as false is zero. -/
def number (out : Datum) : Outcome Datum :=
  if out.truthy then return .int (← out.toInteger) else .ok (.int 0)

def noLogs : Datum := .tuple [.list [], .list []]

def logs (out : Datum) : Outcome Datum :=
  match out with
  | .null => .ok noLogs
  | _ => do
    let (topics, data) ← out.pair
    let t ← (← topics.items).mapM Datum.items
    let d ← (← data.items).mapM Datum.toByteString
    return .tuple [.list (t.map .list), .list (d.map .ofBytes)]

def predicate (out : Datum) : Outcome Datum :=
  match out with
  | .null => .ok StateOp.noPredicate
  | _ => do
    let (value, found) ← out.pair
    let b ← if value.truthy then value.toByteString else .ok []
    return .tuple [.ofBytes b, .bool found.truthy]

def word (out : Datum) : Outcome Datum := return .ofBytes (← HostWord.read out)

/-- What an operation makes of the host's answer; a write ignores it. -/
def read (op : StateOp) (out : Datum) : Outcome Datum :=
  match op with
  | .getState .. => word out
  | .getNonce _ => number out
  | .getBalance _ => number out
  | .exist _ => .ok (.bool out.truthy)
  | .getLogData => logs out
  | .getPredicate .. => predicate out
  | .getTxHash => word out
  | .snapshot => return .int (← out.toInteger)
  | _ => .ok .null

/-- The transaction hash may also be an attribute. -/
def txHash (h : Host) : Outcome Datum :=
  match h.member? "tx_hash" with
  | none => word .null
  | some (.attribute value) => word value
  | some .method => .error (.type (.hostWord "function"))

/-- The answer where the host has none of the names. -/
def absent (h : Host) (op : StateOp) : Outcome Datum :=
  match op with
  | .getState .. => word .null
  | .getNonce _ => .ok (.int 0)
  | .getBalance _ => .ok (.int 0)
  | .exist _ => .ok (.bool false)
  | .getLogData => .ok noLogs
  | .getPredicate .. => .ok StateOp.noPredicate
  | .getTxHash => txHash h
  | .discard _ => .ok .null
  | _ => .error (.unsupported op.candidates)

end HostReply

/-! ### Steps -/

structure HostState where
  host : Host
  /-- All that the host was asked, oldest first. -/
  calls : List HostCall

namespace HostState

def start (host : Host) : HostState := ⟨host, []⟩

def ask (s : HostState) (call : HostCall) : Outcome Datum × HostState :=
  (s.host.reply s.calls call, { s with calls := s.calls ++ [call] })

def step (s : HostState) (op : StateOp) : Outcome Datum × HostState :=
  match op.hostArgs with
  | .error fault => (.error fault, s)
  | .ok args =>
    match s.host.first? op.candidates with
    | some method =>
      let (out, s) := s.ask ⟨method, args⟩
      (out >>= HostReply.read op, s)
    | none => (HostReply.absent s.host op, s)

end HostState

end SeededDraws
