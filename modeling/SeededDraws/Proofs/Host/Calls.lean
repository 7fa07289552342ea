import SeededDraws.Proofs.Host
/-!
# What a host is asked

An operation is at most one call of the host, by the first of its names that the host has as a
method. The names of two operations never meet, so that a call tells whether it writes.
-/

namespace SeededDraws

/-- The methods that a host is probed for, operation by operation, in the order of preference. -/
def hostMethods : List (String × List String) := [
  ("get_state", ["get_state", "get_storage", "read_storage"]),
  ("set_state", ["set_state", "set_storage", "write_storage"]),
  ("get_nonce", ["get_nonce", "nonce_of"]),
  ("set_nonce", ["set_nonce"]),
  ("get_balance", ["get_balance", "balance_of"]),
  ("add_balance", ["add_balance", "credit"]),
  ("create_account", ["create_account", "ensure_account"]),
  ("exist", ["exist", "exists", "account_exists", "has_account"]),
  ("add_log", ["add_log", "emit_log"]),
  ("get_log_data", ["get_log_data"]),
  ("get_predicate_storage_slots", ["get_predicate_storage_slots"]),
  ("set_predicate_storage_slots", ["set_predicate_storage_slots"]),
  ("snapshot", ["snapshot", "checkpoint"]),
  ("revert_to_snapshot", ["revert_to_snapshot", "revert_to", "rollback_to"]),
  ("discard_snapshot", ["discard_snapshot", "release_snapshot"])]

def hostWriters : List String := [
  "set_state", "set_storage", "write_storage", "set_nonce", "add_balance", "credit",
  "create_account", "ensure_account", "add_log", "emit_log", "set_predicate_storage_slots"]

def hostReleasers : List String := [
  "revert_to_snapshot", "revert_to", "rollback_to", "discard_snapshot", "release_snapshot"]

namespace HostCall

def Writes (call : HostCall) : Prop := call.method ∈ hostWriters

def Releases (call : HostCall) : Prop := call.method ∈ hostReleasers

end HostCall

namespace StateOp

variable {op : StateOp}

theorem candidates_of_listed {names : List String} (listed : (op.name, names) ∈ hostMethods) :
    names = op.candidates := by
  cases op with
  | getTxHash => simp [hostMethods, name] at listed
  | _ => simpa [hostMethods, name, candidates] using listed

theorem mem_hostWriters {method : String} (named : method ∈ op.candidates) :
    method ∈ hostWriters ↔ op.mutates = true := by
  cases op <;> (revert method; simp only [candidates, hostWriters, mutates]; decide)

/-- Under a name of an operation that changes nothing, nothing is written. -/
theorem not_writes {call : HostCall} (named : call.method ∈ op.candidates)
    (harmless : op.mutates = false) : ¬call.Writes := by
  intro writes
  rw [(mem_hostWriters named).mp writes] at harmless
  cases harmless

theorem mem_hostReleasers {method : String} (named : method ∈ op.candidates)
    (releases : method ∈ hostReleasers) : ∃ id, op = .revert id ∨ op = .discard id := by
  cases op with
  | revert id => exact ⟨id, .inl rfl⟩
  | discard id => exact ⟨id, .inr rfl⟩
  | _ =>
    refine absurd releases ?_
    revert method
    simp only [candidates, hostReleasers]
    decide

/-- The arguments are well typed, and a host is handed these: integers as integers, containers
copied item by item, and everything else as it is. -/
inductive Passes : StateOp → List Datum → Prop
  | getState (address key : Datum) : Passes (.getState address key) [address, key]
  | setState (address key value : Datum) :
    Passes (.setState address key value) [address, key, value]
  | getNonce (address : Datum) : Passes (.getNonce address) [address]
  | setNonce (address : Datum) {nonce : Datum} {n : Int} (number : nonce.integer? = some n) :
    Passes (.setNonce address nonce) [address, .int n]
  | getBalance (address : Datum) : Passes (.getBalance address) [address]
  | addBalance (address : Datum) {amount : Datum} {n : Int} (number : amount.integer? = some n) :
    Passes (.addBalance address amount) [address, .int n]
  | createAccount (address : Datum) : Passes (.createAccount address) [address]
  | exist (address : Datum) : Passes (.exist address) [address]
  | addLog (address : Datum) {topics data block : Datum} {items : List Datum} {b : Bytes} {n : Int}
    (sequence : topics.items? = some items) (bytes : data.bytes? = some b)
    (number : block.integer? = some n) :
    Passes (.addLog address topics data block) [address, .list items, .ofBytes b, .int n]
  | getLogData : Passes .getLogData []
  | getPredicate (address index : Datum) : Passes (.getPredicate address index) [address, index]
  | setPredicates (address : Datum) {predicates : Datum} {items : List Datum} {parts : List Bytes}
    (sequence : predicates.items? = some items) (bytes : items.map Datum.bytes? = parts.map some) :
    Passes (.setPredicates address predicates) [address, .list (parts.map .ofBytes)]
  | snapshot : Passes .snapshot []
  | revert {id : Datum} {n : Int} (number : id.integer? = some n) : Passes (.revert id) [.int n]
  | discard {id : Datum} {n : Int} (number : id.integer? = some n) : Passes (.discard id) [.int n]

/-- What an operation answers where a host has none of its methods, if it can do without. -/
def fallback? : StateOp → Option Datum
  | .getState .. => some (.ofBytes zeroWord)
  | .getNonce _ => some (.int 0)
  | .getBalance _ => some (.int 0)
  | .exist _ => some (.bool false)
  | .getLogData => some (.tuple [.list [], .list []])
  | .getPredicate .. => some (.tuple [.ofBytes [], .bool false])
  | .discard _ => some .null
  | _ => none

end StateOp

namespace Datum

theorem toInteger_of_integer? {d : Datum} {n : Int} (number : d.integer? = some n) :
    d.toInteger = .ok n := by
  cases d with
  | bool b => exact congrArg _ (Option.some.inj number)
  | int m => exact congrArg _ (Option.some.inj number)
  | _ => cases number

theorem toByteString_of_bytes? {d : Datum} {b : Bytes} (bytes : d.bytes? = some b) :
    d.toByteString = .ok b := by
  cases d with
  | bytes kind held => exact congrArg _ (Option.some.inj bytes)
  | _ => cases bytes

theorem items_of_items? {d : Datum} {items : List Datum} (sequence : d.items? = some items) :
    d.items = .ok items := by
  rw [Datum.items, sequence]

theorem mapM_toByteString {items : List Datum} {parts : List Bytes}
    (bytes : items.map bytes? = parts.map some) : items.mapM toByteString = .ok parts := by
  rw [← List.forall₂_eq_eq_eq, List.forall₂_map_left_iff, List.forall₂_map_right_iff] at bytes
  exact Outcome.mapM_eq_ok.mpr (bytes.imp fun _ _ => toByteString_of_bytes?)

end Datum

theorem StateOp.Passes.hostArgs {op : StateOp} {args : List Datum} (passes : op.Passes args) :
    op.hostArgs = .ok args := by
  cases passes with
  | setNonce address number => rw [StateOp.hostArgs, Datum.toInteger_of_integer? number]; rfl
  | addBalance address number => rw [StateOp.hostArgs, Datum.toInteger_of_integer? number]; rfl
  | addLog address sequence bytes number =>
    rw [StateOp.hostArgs, Datum.items_of_items? sequence, Datum.toByteString_of_bytes? bytes,
      Datum.toInteger_of_integer? number]
    rfl
  | setPredicates address sequence bytes =>
    refine Outcome.bind_eq_ok.mpr ⟨_, Datum.items_of_items? sequence, ?_⟩
    exact Outcome.bind_eq_ok.mpr ⟨_, Datum.mapM_toByteString bytes, rfl⟩
  | revert number => rw [StateOp.hostArgs, Datum.toInteger_of_integer? number]; rfl
  | discard number => rw [StateOp.hostArgs, Datum.toInteger_of_integer? number]; rfl
  | _ => rfl

namespace Host

/-- What a host is asked for an operation with these arguments. -/
def asked (h : Host) (op : StateOp) (args : List Datum) : List HostCall :=
  (h.first? op.candidates).toList.map fun method => ⟨method, args⟩

theorem mem_asked {h : Host} {op : StateOp} {args : List Datum} {call : HostCall}
    (mem : call ∈ h.asked op args) : call.method ∈ op.candidates ∧ call.args = args := by
  obtain ⟨method, found, rfl⟩ := List.mem_map.mp mem
  exact ⟨List.mem_of_find?_eq_some (Option.mem_toList.mp found), rfl⟩

theorem first?_append {h : Host} {before after : List String} {method : String}
    (others : ∀ name ∈ before, h.hasMethod name = false) (present : h.hasMethod method = true) :
    h.first? (before ++ method :: after) = some method := by
  refine List.find?_eq_some_iff_append.mpr ⟨present, before, after, rfl, fun name mem => ?_⟩
  rw [others name mem]
  rfl

end Host

namespace HostState

variable {s : HostState} {op : StateOp} {args : List Datum}

theorem step_present {method : String} (given : op.hostArgs = .ok args)
    (found : s.host.first? op.candidates = some method) :
    s.step op = (s.host.reply s.calls ⟨method, args⟩ >>= HostReply.read op,
      { s with calls := s.calls ++ [⟨method, args⟩] }) := by
  rw [step]
  simp only [given, found]
  rfl

theorem step_absent (given : op.hostArgs = .ok args)
    (missing : s.host.first? op.candidates = none) :
    s.step op = (HostReply.absent s.host op, s) := by
  rw [step]
  simp only [given, missing]

theorem step_asked (given : op.hostArgs = .ok args) :
    (s.step op).2 = { s with calls := s.calls ++ s.host.asked op args } := by
  rw [Host.asked]
  cases found : s.host.first? op.candidates with
  | none =>
    rw [step_absent given found]
    simp
  | some method =>
    rw [step_present given found]
    simp

/-- An operation asks for what it was given, under one of its own names. -/
theorem step_calls (s : HostState) (op : StateOp) :
    ∃ new, (s.step op).2 = { s with calls := s.calls ++ new } ∧
      ∀ call ∈ new, call.method ∈ op.candidates ∧ op.hostArgs = .ok call.args := by
  cases given : op.hostArgs with
  | error fault =>
    refine ⟨[], ?_, by simp⟩
    rw [step, given]
    simp
  | ok args =>
    refine ⟨s.host.asked op args, step_asked given, fun call mem => ?_⟩
    obtain ⟨named, handed⟩ := Host.mem_asked mem
    exact ⟨named, congrArg _ handed.symm⟩

end HostState

/-- A read has an answer without the host, and so has a release; the rest cannot do without. -/
theorem HostReply.absent_eq (h : Host) {op : StateOp} (other : op ≠ .getTxHash) :
    HostReply.absent h op =
      match op.fallback? with
      | some answer => .ok answer
      | none => .error (.unsupported op.candidates) := by
  cases op with
  | getTxHash => exact absurd rfl other
  | _ => rfl

end SeededDraws
