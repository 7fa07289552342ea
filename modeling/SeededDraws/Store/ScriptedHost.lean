import SeededDraws.Fault.Kind
import SeededDraws.Store.Host
/-!
# Scripted hosts

A host whose methods answer from lists, one result a call and the last again and again, or raise the
same fault each time.
-/

namespace SeededDraws

inductive HostScript where
  | results (list : List Datum)
  | raises (fault : Fault)

structure ScriptedHost where
  methods : List (String × HostScript)
  attributes : List (String × Datum)

namespace ScriptedHost

/-- A failure is made of its one argument or cannot be made at all; a missing key is shown as a
quoted text, other faults in their own words. -/
def raised (kind : String) (message : Text) : Fault :=
  if Failure.kinds.contains kind then
    match Failure.ofKind kind [.text message] with
    | .ok cause => .failure cause
    | .error fault => fault
  else .foreign kind (if kind = "KeyError" then Quoted.write message else message)

def member? (h : ScriptedHost) (name : String) : Option HostMember :=
  match h.methods.lookup name with
  | some _ => some .method
  | none => (h.attributes.lookup name).map .attribute

def reply (h : ScriptedHost) (earlier : List HostCall) (call : HostCall) : Outcome Datum :=
  match h.methods.lookup call.method with
  | none => .ok .null
  | some (.raises fault) => .error fault
  | some (.results []) => .error (.bare .index)
  | some (.results (first :: rest)) =>
    let n := earlier.countP fun c => c.method == call.method
    .ok ((first :: rest).getD n (rest.getLastD first))

def toHost (h : ScriptedHost) : Host := ⟨h.member?, h.reply⟩

end ScriptedHost

end SeededDraws
