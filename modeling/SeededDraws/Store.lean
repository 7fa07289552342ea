import SeededDraws.Store.Host
import SeededDraws.Store.Ledger
/-!
# Stores and read-only views

A store is a ledger or a host, and any number of views of it. A view refuses every write; it may
take snapshots, and revert to or release those that it took itself.
-/

namespace SeededDraws

inductive Base where
  /-- A ledger may lack the release of snapshots. -/
  | ledger (state : Ledger) (releases : Bool)
  | host (state : HostState)

namespace Base

def releases : Base → Bool
  | .ledger _ releases => releases
  | .host _ => true

/-- A base without release has no such operation. -/
def lacks : Base → StateOp → Bool
  | .ledger _ false, .discard _ => true
  | _, _ => false

def step (b : Base) (op : StateOp) : Outcome Datum × Base :=
  if b.lacks op then (.error (.bare .attribute), b)
  else match b with
    | .ledger state releases =>
      let (answer, state) := state.step op
      (answer, .ledger state releases)
    | .host state =>
      let (answer, state) := state.step op
      (answer, .host state)

end Base

/-- The ids of the snapshots that a view took and has not released. -/
abbrev View := List Int

namespace View

/-- A view owns what its snapshots answer. -/
def add (own : View) : Outcome Datum → View
  | .ok (.int id) => if own.contains id then own else own ++ [id]
  | _ => own

/-- A view without the snapshot `id` and all later ones, if `id` is its own. -/
def release (own : View) (id : Datum) (operation : String) : Outcome View :=
  if !id.isHashable then .error (.bare .type)
  else if own.any id.equalInt? then
    .ok (own.filter fun (s : Int) => id.compareInt? s == some (some .gt))
  else .error (.failure (.writeProtection (.text operation)))

end View

structure Store where
  base : Base
  views : List View

inductive Handle where
  | base
  | view (index : Nat)
deriving DecidableEq

namespace Store

def ofLedger (state : Ledger) : Store := ⟨.ledger state true, []⟩

def fresh : Store := ofLedger (.start zeroWord)

def viewAt (s : Store) (index : Nat) : View := s.views.getD index []

def setView (s : Store) (index : Nat) (own : View) : Store :=
  { s with views := s.views.set index own }

def onBase (s : Store) (op : StateOp) : Outcome Datum × Store :=
  let (answer, base) := s.base.step op
  (answer, { s with base := base })

def refuse (s : Store) (op : StateOp) : Outcome Datum × Store :=
  (.error (.failure (.writeProtection (.text op.name))), s)

def onView (s : Store) (index : Nat) (op : StateOp) : Outcome Datum × Store :=
  if op.mutates then s.refuse op
  else match op with
    | .snapshot =>
      let (answer, s) := s.onBase .snapshot
      (answer, s.setView index ((s.viewAt index).add answer))
    | .revert id =>
      match (s.viewAt index).release id op.name with
      | .error fault => (.error fault, s)
      | .ok left => (s.setView index left).onBase op
    | .discard id =>
      match (s.viewAt index).release id op.name with
      | .error fault => (.error fault, s)
      | .ok left =>
        let s := s.setView index left
        if s.base.releases then s.onBase op else (.ok .null, s)
    | _ => s.onBase op

def step (s : Store) : Handle → StateOp → Outcome Datum × Store
  | .base, op => s.onBase op
  | .view index, op => s.onView index op

/-- Views always release; what they stand on is looked at then. -/
def releases (s : Store) : Handle → Bool
  | .base => s.base.releases
  | .view _ => true

/-- A read-only use of anything but a view gets a view of its own. -/
def guard (s : Store) (handle : Handle) (readOnly : Bool) : Handle × Store :=
  match handle, readOnly with
  | .base, true => (.view s.views.length, { s with views := s.views ++ [[]] })
  | _, _ => (handle, s)

end Store

end SeededDraws
