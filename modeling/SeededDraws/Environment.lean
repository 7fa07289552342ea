import SeededDraws.Fault
import SeededDraws.Text.Encoding
import SeededDraws.Text.LowerCase
import SeededDraws.Text.Numeral
/-!
# Environment variables

Variables and how their texts are read. A text is kept as bytes, so that it must have some and may
come back changed: halves that stand for the bytes of a character come back as that character.
-/

namespace SeededDraws

abbrev Environment := String → Option Text

namespace Environment

def empty : Environment := fun _ => none

def put (e : Environment) (name : String) (value : Option Text) : Environment :=
  fun n => if n = name then value else e n

/-! ### Changes -/

def bytesOf (t : Text) : Outcome Bytes :=
  match t.kept? with
  | some b => .ok b
  | none => .error (.bare .encoding)

/-- Zero bytes end a text, an equals sign ends a name. -/
def checkBinding (name value : Bytes) : Outcome Unit :=
  if name.contains 0 || value.contains 0 || name.contains 0x3d then .error (.bare .value)
  else if name.isEmpty then .error (.bare .system)
  else .ok ()

/-- A variable whose name is no string is never read. -/
def putKept (e : Environment) (name : Bytes) (value : Option Text) : Environment :=
  match (Text.restore name).string? with
  | some s => e.put s value
  | none => e

/-- Sets a variable, or removes it if there is no value. -/
def change (e : Environment) (name : Text) (value : Option Text) : Outcome Environment := do
  let n ← bytesOf name
  match value with
  | none => return e.putKept n none
  | some t =>
    let v ← bytesOf t
    checkBinding n v
    return e.putKept n (some (Text.restore v))

/-! ### Readers -/

/-- A word without white space around it, in lowercase; a blank one counts as absent. -/
def word (e : Environment) (name : String) : Option Text :=
  (e name).bind fun t =>
    let w := t.strip.lower
    if w.isEmpty then none else some w

/-- An integer forced into bounds; what is no integer counts as absent. -/
def bounded (e : Environment) (name : String) (absent high : Nat) : Nat :=
  match (e name).bind fun t => Numeral.read? .free t.faces with
  | none => absent
  | some n => min n.toNat high

/-- A stamped version wins over the one of this release, whatever distribution is asked for; but it
must have a name. -/
def version (e : Environment) (distribution : Text) : Outcome Text :=
  let stamped := ((e "PRNG_PRECOMPILE_VERSION").getD []).strip
  if !stamped.isEmpty then .ok stamped
  else if distribution.isEmpty then .error (.bare .value)
  else .ok "0.1.0"

end Environment

end SeededDraws
