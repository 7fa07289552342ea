import SeededDraws.Deployment
/-!
# Sessions with a deployment

Steps on one deployment: variables are set, configurations loaded, calls made. A load also says
whether it gave the very configuration of the last good load.
-/

namespace SeededDraws

inductive ConsoleStep where
  | set (changes : List (Text × Option Text))
  | forget
  | load
  | version (distribution : Text)
  | importedVersion
  | generate (args : List Datum)
  | runCall (config : Option Datum) (nonces : List (Datum × Datum))
      (address caller input gas readOnly : Datum)

structure Console where
  deployment : Deployment
  /-- The evaluation that the last good load gave. -/
  handedOut : Option Nat

namespace Console

def start : Console := ⟨.fresh, none⟩

/-- The changes before a refused one stand. -/
def set (p : Console) : List (Text × Option Text) → Outcome Datum × Console
  | [] => (.ok .null, p)
  | (name, value) :: rest =>
    match p.deployment.setVariable name value with
    | .error fault => (.error fault, p)
    | .ok d => set { p with deployment := d } rest

def load (p : Console) : Outcome Datum × Console :=
  let (loaded, d) := p.deployment.load
  match loaded with
  | .error fault => (.error fault, { p with deployment := d })
  | .ok l =>
    (.ok (.dict [("config", l.config.toDatum), ("same", .bool (p.handedOut == some l.serial))]),
      ⟨d, some l.serial⟩)

def runCall (p : Console) (config : Option Datum) (nonces : List (Datum × Datum))
    (address caller input gas readOnly : Datum) : Outcome Datum × Console :=
  match (do return (← config.mapM Config.ofDatum, ← Ledger.withNonces nonces)) with
  | .error fault => (.error fault, p)
  | .ok (config, ledger) =>
    let (result, d) := p.deployment.runCall config ledger address caller input gas readOnly
    (result.bind CallResult.toDatum, { p with deployment := d })

def usualDistribution : Text := "prng-precompile"

/-- The version that was found before any variable was set. -/
def importedVersion : Outcome Text := Environment.empty.version usualDistribution

def step (p : Console) : ConsoleStep → Outcome Datum × Console
  | .set changes => p.set changes
  | .forget => (.ok .null, { p with deployment := p.deployment.forget })
  | .load => p.load
  | .version distribution =>
    ((p.deployment.environment.version distribution).map .text, p)
  | .importedVersion => ((importedVersion.map fun v => .list [.text v, .bool true]), p)
  | .generate [contract, caller, nonce, count] =>
    let (values, d) := p.deployment.generate contract caller nonce count
    (values.map fun vs => .list (vs.map .ofNat), { p with deployment := d })
  | .generate _ => (.error (.bare .type), p)
  | .runCall config nonces address caller input gas readOnly =>
    p.runCall config nonces address caller input gas readOnly

end Console

end SeededDraws
