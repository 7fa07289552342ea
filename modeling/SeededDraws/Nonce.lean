import SeededDraws.Store
/-!
# Where the nonce comes from

A deployment either asks the caller's account or has the request carry the nonce. Nothing here ever
changes a nonce.
-/

namespace SeededDraws

/-- Either the account is asked, or the request carries the nonce. -/
inductive NonceSource where
  | state
  | payload
deriving DecidableEq

namespace NonceSource

def name : NonceSource → String
  | .state => "state"
  | .payload => "payload"

def ofDatum? (d : Datum) : Option NonceSource :=
  match d.string? with
  | some "state" => some .state
  | some "payload" => some .payload
  | _ => none

def read (d : Datum) : Outcome NonceSource :=
  match ofDatum? d with
  | some source => .ok source
  | none => .error (.value (.nonceSource d))

end NonceSource

/-- The nonce that a request carries. -/
def carriedNonce (nonce : Datum) : Outcome Datum :=
  match nonce with
  | .null => .error (.value .payloadNonce)
  | _ => .ok nonce

/-- The nonce for a caller; only the account's is looked up. -/
def Store.findNonce (s : Store) (handle : Handle) (source carried caller : Datum) :
    Outcome Datum × Store :=
  match NonceSource.read source with
  | .error fault => (.error fault, s)
  | .ok .state => s.step handle (.getNonce caller)
  | .ok .payload => (carriedNonce carried, s)

end SeededDraws
