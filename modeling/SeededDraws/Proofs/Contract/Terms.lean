import SeededDraws.Contract.Random
import SeededDraws.Proofs.Abi.Selectors
import SeededDraws.Proofs.Abi.Words
/-!
# What the random contract answers

The answer to every input, written down as a table: which failure comes first, how much gas each end
leaves, and which values are drawn. Nothing here runs a body or uses a state.
-/

namespace SeededDraws

/-- The nonce of an account as a number; truth values count as 0 and 1. -/
def Ledger.nonceOf (l : Ledger) (address : Bytes) : Nat :=
  ((l.contents.account address).nonce.integer?.getD 0).toNat

/-- A deployment in plain numbers, with the nonces that the accounts have and the extra bytes that
each caller's user seed gets. -/
structure Terms where
  layout : Layout
  source : NonceSource
  base : Nat
  perWord : Nat
  ceiling : Nat
  extra : Bytes → Bytes
  nonceOf : Bytes → Nat

structure Attempt where
  address : Bytes
  caller : Bytes
  input : Bytes
  gas : Nat

namespace Terms

def cost (t : Terms) (a : Attempt) : Nat := t.base + t.perWord * (a.input.length / 32)

def seed (t : Terms) (a : Attempt) (caller : Bytes) : Seed :=
  .ofBytes a.address caller (t.extra caller)

/-- A count too large for eight bytes is found before one above the ceiling. -/
def draw (t : Terms) (a : Attempt) (caller : Bytes) (nonce count : Nat) : Except Failure Bytes :=
  if Nat.pow 2 64 ≤ count then .error (.valueOverflow count (.int 64))
  else if t.ceiling < count then .error (.requestTooLarge (.ofNat count) (.ofNat t.ceiling))
  else .ok (t.layout.response ((t.seed a caller).values nonce count))

def typedSequence (t : Terms) (a : Attempt) : Except Failure Bytes :=
  if a.input.length = 36 then t.draw a a.caller (t.nonceOf a.caller) (Bytes.value (a.input.drop 4))
  else .error (.invalidInputLength (.ofNat (a.input.length - 4)) (.int 32) (.bool false))

/-- One value whatever the ceiling is. -/
def typedSingle (t : Terms) (a : Attempt) : Except Failure Bytes :=
  if a.input.length = 4 then
    .ok (Bytes.numeral wordSize ((t.seed a a.caller).value (t.nonceOf a.caller) 0))
  else .error (.invalidInputLength (.ofNat (a.input.length - 4)) (.int 0) (.bool false))

/-- The payload names the caller that it speaks for. -/
def rawSequence (t : Terms) (a : Attempt) : Except Failure Bytes :=
  if a.input.length < 60 then
    .error (.invalidInputLength (.ofNat a.input.length) (.int 60) (.bool true))
  else
    let caller := a.input.take 20
    let nonce := match t.source with
      | .state => t.nonceOf caller
      | .payload => Bytes.value ((a.input.drop 52).take 8)
    t.draw a caller nonce (Bytes.value ((a.input.drop 20).take 32))

/-- The result of a call that ended with so much gas left. -/
def settle (rest : Nat) : Except Failure Bytes → CallResult
  | .ok output => ⟨.ofBytes output, rest, none⟩
  | .error cause => ⟨.ofBytes [], rest, some cause⟩

/-- Who cannot pay loses all gas; behind the charge every end leaves the same rest. -/
def metered (t : Terms) (a : Attempt) (ended : Except Failure Bytes) : CallResult :=
  if a.gas < t.cost a then settle 0 (.error (.outOfGas (.ofNat a.gas) (.ofNat (t.cost a))))
  else settle (a.gas - t.cost a) ended

def outcome (t : Terms) (a : Attempt) : CallResult :=
  match t.layout with
  | .raw => t.metered a (t.rawSequence a)
  | .typed =>
    if a.input.length < 4 then settle a.gas (.error (.missingSelector (.ofNat a.input.length)))
    else if a.input.take 4 = sequenceSelector then t.metered a (t.typedSequence a)
    else if a.input.take 4 = singleSelector then t.metered a (t.typedSingle a)
    else settle a.gas (.error (.unknownSelector (Bytes.hex (a.input.take 4))))

end Terms

end SeededDraws
