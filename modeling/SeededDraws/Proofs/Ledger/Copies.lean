import SeededDraws.Store.Ledger
/-!
# A store of copies

The plainest store with snapshots: a snapshot is a full copy of the contents, reverting puts the
copy back. There is no journal. An operation first reads its arguments and then changes the
contents, or fails and changes nothing.
-/

namespace SeededDraws

/-- A write whose arguments have been read. -/
inductive Write where
  | slot (address key value : Bytes)
  | nonce (address : Bytes) (nonce : Datum)
  | credit (address : Bytes) (amount : Nat)
  | account (address : Bytes)
  | log (entry : LogEntry)
  | predicates (address : Bytes) (list : List Bytes)

/-- The write that an operation asks for, with its arguments read in their order; `none` if the
operation is no write. -/
def StateOp.write? : StateOp → Option (Outcome Write)
  | .setState address key value => some do
    let a ← Ledger.addressOf address
    let k ← Ledger.wordOf "key" key
    let v ← Ledger.wordOf "value" value
    return .slot a k v
  | .setNonce address nonce => some do
    let n ← Ledger.checkNonce nonce
    let a ← Ledger.addressOf address
    return .nonce a n
  | .addBalance address amount => some do
    let n ← amount.natural "amount"
    let a ← Ledger.addressOf address
    return .credit a n
  | .createAccount address => some do return .account (← Ledger.addressOf address)
  | .addLog address topics data block => some do
    return .log (← Ledger.logEntryOf address topics data block)
  | .setPredicates address predicates => some do
    let a ← Ledger.addressOf address
    let list ← (← predicates.items).mapM fun p => p.someBytes "predicate"
    return .predicates a list
  | _ => none

/-- The place among `count` that a number names, `none` if it lies outside. A fraction within range
is no place. -/
def placeAmong (count : Nat) (d : Datum) : Outcome (Option Nat) :=
  match d with
  | .float x =>
    if (x.compareInt 0 = some .gt ∨ x.compareInt 0 = some .eq) ∧ x.compareInt count = some .lt
    then .error (.bare .type) else .ok none
  | _ =>
    match d.integer? with
    | some n => .ok (if 0 ≤ n ∧ n < count then some n.toNat else none)
    | none => .error (.bare .type)

namespace Contents

/-- Only a balance that would grow too large is refused. -/
def perform (c : Contents) : Write → Outcome Contents
  | .slot address key value => .ok (c.putSlot address key value)
  | .nonce address nonce => .ok (c.putAccount address { c.account address with nonce := nonce })
  | .credit address amount =>
    let account := c.account address
    if maxUint256 < account.balance + amount then .error (.value .balanceOverflow)
    else .ok (c.putAccount address { account with balance := account.balance + amount })
  | .account address =>
    .ok (if c.accounts.contains address then c else c.putAccount address .fresh)
  | .log entry => .ok { c with logs := c.logs ++ [entry] }
  | .predicates address list => .ok (c.putPredicates address list)

def predicateAt (c : Contents) (address : Bytes) (index : Datum) : Outcome Datum :=
  match c.predicates.find? address with
  | none => .ok StateOp.noPredicate
  | some list => do
    match ← placeAmong list.length index with
    | some n => return .tuple [.ofBytes (list.getD n []), .bool true]
    | none => return StateOp.noPredicate

def logData (c : Contents) : Datum :=
  .tuple [.list (c.logs.map fun e => .list (e.topics.map .ofBytes)),
    .list (c.logs.map fun e => .ofBytes e.data)]

/-- What an operation that is no write reads. -/
def answer (c : Contents) (txHash : Bytes) : StateOp → Outcome Datum
  | .getState address key => do
    let a ← Ledger.addressOf address
    let k ← Ledger.wordOf "key" key
    return .ofBytes (c.word a k)
  | .getNonce address => return (c.account (← Ledger.addressOf address)).nonce
  | .getBalance address => return .ofNat (c.account (← Ledger.addressOf address)).balance
  | .exist address => return .bool (c.accounts.contains (← Ledger.addressOf address))
  | .getLogData => .ok c.logData
  | .getPredicate address index => do c.predicateAt (← Ledger.addressOf address) index
  | .getTxHash => .ok (.ofBytes txHash)
  | _ => .ok .null

end Contents

structure CopyStore where
  txHash : Bytes
  contents : Contents
  /-- The contents at each open snapshot, oldest first. -/
  copies : List Contents

namespace CopyStore

def start (txHash : Bytes) : CopyStore := ⟨txHash, .empty, []⟩

def openSnapshots (s : CopyStore) : Nat := s.copies.length

def openId (s : CopyStore) (id : Datum) : Outcome Nat := do
  match ← placeAmong s.copies.length id with
  | some n => return n
  | none => .error (.value (.snapshot id))

/-- Success hands over the new store, a fault leaves the old one. -/
def settle (s : CopyStore) : Outcome CopyStore → Outcome Datum × CopyStore
  | .ok after => (.ok .null, after)
  | .error fault => (.error fault, s)

def take (s : CopyStore) : Outcome Datum × CopyStore :=
  (.ok (.ofNat s.copies.length), { s with copies := s.copies ++ [s.contents] })

/-- Puts copy `n` back and forgets it and all later ones. -/
def putBack (s : CopyStore) (n : Nat) : CopyStore :=
  { s with contents := s.copies.getD n s.contents, copies := s.copies.take n }

/-- Forgets copy `n` and all later ones. -/
def forget (s : CopyStore) (n : Nat) : CopyStore := { s with copies := s.copies.take n }

def step (s : CopyStore) : StateOp → Outcome Datum × CopyStore
  | .snapshot => s.take
  | .revert id => s.settle do return s.putBack (← s.openId id)
  | .discard id => s.settle do return s.forget (← s.openId id)
  | op =>
    match op.write? with
    | some write => s.settle do return { s with contents := ← s.contents.perform (← write) }
    | none => (s.contents.answer s.txHash op, s)

def after (s : CopyStore) : List StateOp → CopyStore
  | [] => s
  | op :: rest => (s.step op).2.after rest

theorem after_append (s : CopyStore) (first rest : List StateOp) :
    s.after (first ++ rest) = (s.after first).after rest := by
  induction first generalizing s with
  | nil => rfl
  | cons op _ ih => exact ih (s.step op).2

/-- Each answer with the number of snapshots open behind it. -/
def trace (s : CopyStore) : List StateOp → List (Outcome Datum × Nat)
  | [] => []
  | op :: rest => ((s.step op).1, (s.step op).2.openSnapshots) :: (s.step op).2.trace rest

end CopyStore

namespace Ledger

def after (l : Ledger) : List StateOp → Ledger
  | [] => l
  | op :: rest => (l.step op).2.after rest

/-- Each answer with the number of snapshots open behind it. -/
def trace (l : Ledger) : List StateOp → List (Outcome Datum × Nat)
  | [] => []
  | op :: rest => ((l.step op).1, (l.step op).2.openSnapshots) :: (l.step op).2.trace rest

theorem after_append (l : Ledger) (first rest : List StateOp) :
    l.after (first ++ rest) = (l.after first).after rest := by
  induction first generalizing l with
  | nil => rfl
  | cons op _ ih => exact ih (l.step op).2

end Ledger

end SeededDraws
