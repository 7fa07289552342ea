import SeededDraws.Datum.Reading
import SeededDraws.Store.Operation
import SeededDraws.Store.Table
/-!
# The ledger

Contents, and a journal of what each write replaced. A snapshot marks a length of the journal;
reverting undoes the records above the mark, newest first. Records are kept only while a snapshot is
open, and all are dropped with the last one.
-/

namespace SeededDraws

structure Account where
  /-- An integer below `2 ^ 64`, or a truth value, as it was given. -/
  nonce : Datum
  balance : Nat

namespace Account

def fresh : Account := ⟨.int 0, 0⟩

end Account

structure LogEntry where
  address : Bytes
  topics : List Bytes
  data : Bytes
  block : Int

structure Contents where
  accounts : Table Account
  storage : Table (Table Bytes)
  logs : List LogEntry
  predicates : Table (List Bytes)

/-- What a write replaced; `none` stands for nothing. -/
inductive Undo where
  | slot (address key : Bytes) (before : Option Bytes)
  | account (address : Bytes) (before : Option Account)
  | log
  | predicates (address : Bytes) (before : Option (List Bytes))

namespace Contents

def empty : Contents := ⟨.empty, .empty, [], .empty⟩

def account (c : Contents) (address : Bytes) : Account :=
  (c.accounts.find? address).getD .fresh

def slots (c : Contents) (address : Bytes) : Table Bytes := (c.storage.find? address).getD .empty

def word (c : Contents) (address key : Bytes) : Bytes := ((c.slots address).find? key).getD zeroWord

def putAccount (c : Contents) (address : Bytes) (a : Account) : Contents :=
  { c with accounts := c.accounts.insert address a }

def putSlot (c : Contents) (address key value : Bytes) : Contents :=
  { c with storage := c.storage.insert address ((c.slots address).insert key value) }

def putPredicates (c : Contents) (address : Bytes) (predicates : List Bytes) : Contents :=
  { c with predicates := c.predicates.insert address predicates }

/-- Puts back what a record holds. A slot needs its table and a log record an entry to remove. -/
def undo (c : Contents) : Undo → Outcome Contents
  | .slot address key before =>
    match c.storage.find? address with
    | none => .error (.bare .key)
    | some slots =>
      let slots := match before with
        | none => slots.erase key
        | some value => slots.insert key value
      .ok { c with storage := c.storage.insert address slots }
  | .account address before =>
    .ok { c with accounts := match before with
      | none => c.accounts.erase address
      | some a => c.accounts.insert address a }
  | .log =>
    if c.logs.isEmpty then .error (.bare .index) else .ok { c with logs := c.logs.dropLast }
  | .predicates address before =>
    .ok { c with predicates := match before with
      | none => c.predicates.erase address
      | some list => c.predicates.insert address list }

def undoAll (c : Contents) (records : List Undo) : Outcome Contents := records.foldlM undo c

end Contents

structure Ledger where
  txHash : Bytes
  contents : Contents
  /-- Newest first. -/
  journal : List Undo
  /-- The journal's length at each open snapshot, oldest first. -/
  marks : List Nat

namespace Ledger

def start (txHash : Bytes) : Ledger := ⟨txHash, .empty, [], []⟩

def make (txHash : Datum) : Outcome Ledger := return start (← txHash.exactBytes "tx_hash" wordSize)

def record (l : Ledger) (u : Undo) : Ledger :=
  if l.marks.isEmpty then l else { l with journal := u :: l.journal }

/-! ### Writes -/

def putSlot (l : Ledger) (address key value : Bytes) : Ledger :=
  let l := l.record (.slot address key ((l.contents.slots address).find? key))
  { l with contents := l.contents.putSlot address key value }

def putAccount (l : Ledger) (address : Bytes) (a : Account) : Ledger :=
  let l := l.record (.account address (l.contents.accounts.find? address))
  { l with contents := l.contents.putAccount address a }

def appendLog (l : Ledger) (entry : LogEntry) : Ledger :=
  let l := l.record .log
  { l with contents := { l.contents with logs := l.contents.logs ++ [entry] } }

def putPredicates (l : Ledger) (address : Bytes) (predicates : List Bytes) : Ledger :=
  { l with contents := l.contents.putPredicates address predicates }

/-! ### Snapshots -/

def openSnapshots (l : Ledger) : Nat := l.marks.length

/-- A new mark; its place is its id. -/
def mark (l : Ledger) : Ledger := { l with marks := l.marks ++ [l.journal.length] }

def dropMarks (l : Ledger) (id : Nat) : Ledger :=
  let marks := l.marks.take id
  { l with marks := marks, journal := if marks.isEmpty then [] else l.journal }

def revertTo (l : Ledger) (id : Nat) : Outcome Ledger := do
  let newer := l.journal.length - l.marks.getD id 0
  let contents ← l.contents.undoAll (l.journal.take newer)
  return { l with contents := contents, journal := l.journal.drop newer }.dropMarks id

/-- Numbers within range are open; only integers among them can be looked up. -/
def openId (l : Ledger) (id : Datum) : Outcome Nat := do
  let high ← id.isAtLeast 0
  let low ← id.isBelow l.openSnapshots
  if high && low then
    match id.integer? with
    | some n => .ok n.toNat
    | none => .error (.bare .type)
  else .error (.value (.snapshot id))

/-! ### Arguments -/

def addressOf (d : Datum) : Outcome Bytes := d.exactBytes "address" addressSize

def wordOf (name : String) (d : Datum) : Outcome Bytes := d.exactBytes name wordSize

/-- A nonce fits eight bytes and is kept as it was given. -/
def checkNonce (nonce : Datum) : Outcome Datum :=
  match nonce.integer? with
  | some n => if 0 ≤ n ∧ n ≤ maxUint64 then .ok nonce else .error (.value (.nonce nonce))
  | none => .error (.value (.nonce nonce))

def logEntryOf (address topics data block : Datum) : Outcome LogEntry := do
  let a ← addressOf address
  let t ← (← topics.items).mapM (wordOf "topic")
  let d ← data.someBytes "data"
  let b ← block.toInteger
  return ⟨a, t, d, b⟩

def predicateAt (l : Ledger) (address : Bytes) (index : Datum) : Outcome Datum := do
  match l.contents.predicates.find? address with
  | none => return StateOp.noPredicate
  | some list =>
    let high ← index.isAtLeast 0
    let low ← index.isBelow list.length
    if high && low then
      match index.integer? with
      | some n => return .tuple [.ofBytes (list.getD n.toNat []), .bool true]
      | none => .error (.bare .type)
    else return StateOp.noPredicate

def logData (l : Ledger) : Datum :=
  .tuple [.list (l.contents.logs.map fun e => .list (e.topics.map .ofBytes)),
    .list (l.contents.logs.map fun e => .ofBytes e.data)]

/-! ### Steps -/

/-- A read leaves the ledger alone. -/
def reply (l : Ledger) (answer : Outcome Datum) : Outcome Datum × Ledger := (answer, l)

/-- A write that fails leaves the ledger alone. -/
def write (l : Ledger) : Outcome Ledger → Outcome Datum × Ledger
  | .ok after => (.ok .null, after)
  | .error fault => (.error fault, l)

def step (l : Ledger) : StateOp → Outcome Datum × Ledger
  | .getState address key => l.reply do
    let a ← addressOf address
    let k ← wordOf "key" key
    return .ofBytes (l.contents.word a k)
  | .setState address key value => l.write do
    let a ← addressOf address
    let k ← wordOf "key" key
    let v ← wordOf "value" value
    return l.putSlot a k v
  | .getNonce address => l.reply do
    let a ← addressOf address
    return (l.contents.account a).nonce
  | .setNonce address nonce => l.write do
    let n ← checkNonce nonce
    let a ← addressOf address
    return l.putAccount a { l.contents.account a with nonce := n }
  | .getBalance address => l.reply do
    let a ← addressOf address
    return .ofNat (l.contents.account a).balance
  | .addBalance address amount => l.write do
    let n ← amount.natural "amount"
    let a ← addressOf address
    let account := l.contents.account a
    if maxUint256 < account.balance + n then .error (.value .balanceOverflow)
    else return l.putAccount a { account with balance := account.balance + n }
  | .createAccount address => l.write do
    let a ← addressOf address
    return if l.contents.accounts.contains a then l else l.putAccount a .fresh
  | .exist address => l.reply do
    let a ← addressOf address
    return .bool (l.contents.accounts.contains a)
  | .addLog address topics data block => l.write do
    return l.appendLog (← logEntryOf address topics data block)
  | .getLogData => l.reply (.ok l.logData)
  | .getPredicate address index => l.reply do
    let a ← addressOf address
    l.predicateAt a index
  | .setPredicates address predicates =>
    match addressOf address with
    | .error fault => (.error fault, l)
    | .ok a =>
      -- the record stands even if the new list turns out to be bad
      let l := l.record (.predicates a (l.contents.predicates.find? a))
      l.write do
        return l.putPredicates a (← (← predicates.items).mapM fun p => p.someBytes "predicate")
  | .getTxHash => l.reply (.ok (.ofBytes l.txHash))
  | .snapshot => (.ok (.ofNat l.openSnapshots), l.mark)
  | .revert id => l.write do l.revertTo (← l.openId id)
  | .discard id => l.write do return l.dropMarks (← l.openId id)

end Ledger

end SeededDraws
