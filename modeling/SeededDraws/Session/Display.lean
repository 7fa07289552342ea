import SeededDraws.Store
/-!
# How states are shown

A ledger is shown in full, in the order of its addresses; a host by what it was asked.
-/

namespace SeededDraws

namespace Contents

def accountRows (c : Contents) : List Datum :=
  c.accounts.entries.map fun e => .list [.text e.1.hex, e.2.nonce, .ofNat e.2.balance]

/-- Zero words are left out. -/
def storageRows (c : Contents) : List Datum :=
  c.storage.entries.flatMap fun e =>
    (e.2.entries.filter fun s => s.2 ≠ zeroWord).map fun s =>
      .list [.text e.1.hex, .text s.1.hex, .text s.2.hex]

def logRows (c : Contents) : List Datum :=
  c.logs.map fun l => .list [.text l.address.hex, .list (l.topics.map fun t => .text t.hex),
    .text l.data.hex, .int l.block]

/-- Empty lists are left out. -/
def predicateRows (c : Contents) : List Datum :=
  (c.predicates.entries.filter fun e => e.2 ≠ []).map fun e =>
    .list [.text e.1.hex, .list (e.2.map fun p => .text p.hex)]

end Contents

namespace Ledger

def toDatum (l : Ledger) : Datum :=
  .dict [("accounts", .list l.contents.accountRows), ("storage", .list l.contents.storageRows),
    ("logs", .list l.contents.logRows), ("predicates", .list l.contents.predicateRows),
    ("open", .ofNat l.openSnapshots)]

end Ledger

namespace Base

def callCount : Base → Nat
  | .ledger .. => 0
  | .host state => state.calls.length

/-- A ledger in full, or what a host was asked after the first `seen` calls. -/
def shown (b : Base) (seen : Nat) : Datum :=
  match b with
  | .ledger state _ => state.toDatum
  | .host state =>
    .dict [("calls", .list ((state.calls.drop seen).map fun c =>
      .list [.text c.method, .list c.args]))]

end Base

end SeededDraws
