import SeededDraws.Proofs.Fault
import SeededDraws.Proofs.Store
/-!
# Stores on a host

A host may raise what it likes, failures included. The operations that open and close a call add no
failures of their own to these.
-/

namespace SeededDraws

theorem Datum.toInteger_plain (d : Datum) : d.toInteger.Plain := by
  have numeral : ∀ read : Option Int, (Datum.orMalformed read).Plain := by
    intro read
    cases read with
    | none => exact Outcome.plain_error.mpr (by simp)
    | some n => exact Outcome.plain_ok n
  rw [toInteger.eq_def]
  split
  · exact Outcome.plain_ok _
  · exact Outcome.plain_ok _
  · exact Outcome.plain_error.mpr (by simp)
  · split
    · exact Outcome.plain_ok _
    · exact Outcome.plain_error.mpr (by simp)
  · exact numeral _
  · exact numeral _
  · exact Outcome.plain_error.mpr (by simp)

namespace HostState

/-- The host has a method for the operation, and that method raises the failure. -/
def Raises (s : HostState) (op : StateOp) (cause : Failure) : Prop :=
  ∃ args method, op.hostArgs = .ok args ∧ s.host.first? op.candidates = some method ∧
    s.host.reply s.calls ⟨method, args⟩ = .error (.failure cause)

variable {s : HostState} {op : StateOp} {cause : Failure}

/-- Where reading answers has no failures of its own, those of the host are left. -/
theorem step_eq_failure {args : List Datum} (given : op.hostArgs = .ok args)
    (reads : ∀ out, (HostReply.read op out).Plain) (absent : (HostReply.absent s.host op).Plain) :
    (s.step op).1 = .error (.failure cause) ↔ s.Raises op cause := by
  rw [step]
  simp only [given]
  cases found : s.host.first? op.candidates with
  | none =>
    refine iff_of_false (absent cause) ?_
    rintro ⟨_, method, _, named, _⟩
    rw [found] at named
    cases named
  | some method =>
    refine (Outcome.bind_eq_failure reads).trans ?_
    constructor
    · intro raised
      exact ⟨args, method, given, found, raised⟩
    · rintro ⟨args', method', given', found', raised⟩
      rw [given] at given'
      rw [found] at found'
      cases given'
      cases found'
      exact raised

theorem snapshot_eq_failure :
    (s.step .snapshot).1 = .error (.failure cause) ↔ s.Raises .snapshot cause := by
  refine step_eq_failure rfl ?_ (Outcome.plain_error.mpr (by simp))
  intro out
  exact (Datum.toInteger_plain out).bind fun _ => Outcome.plain_ok _

theorem release_eq_failure {n : Int}
    (release : op = .revert (.int n) ∨ op = .discard (.int n)) :
    (s.step op).1 = .error (.failure cause) ↔ s.Raises op cause := by
  rcases release with rfl | rfl
  · exact step_eq_failure rfl (fun _ => Outcome.plain_ok _) (Outcome.plain_error.mpr (by simp))
  · exact step_eq_failure rfl (fun _ => Outcome.plain_ok _) (Outcome.plain_ok _)

/-- The ids of a host are integers. -/
theorem int_of_snapshot {id : Datum} (taken : (s.step .snapshot).1 = .ok id) :
    ∃ n, id = .int n := by
  rw [step] at taken
  simp only [StateOp.hostArgs] at taken
  split at taken
  · obtain ⟨out, _, read⟩ := Outcome.bind_eq_ok.mp taken
    obtain ⟨n, _, int⟩ := Outcome.bind_eq_ok.mp read
    cases int
    exact ⟨n, rfl⟩
  · cases taken

end HostState

namespace Store

variable {s : Store} {host : HostState}

theorem onBase_host (on : s.base = .host host) (op : StateOp) :
    s.onBase op = ((host.step op).1, { s with base := .host (host.step op).2 }) := by
  simp only [onBase, on, Base.step, Base.lacks]
  rfl

theorem step_host (on : ∃ host, s.base = .host host) (handle : Handle) (op : StateOp) :
    ∃ host, (s.step handle op).2.base = .host host := by
  obtain ⟨host, on⟩ := on
  rcases s.step_base handle op with carried | same
  · rw [carried, on]
    exact ⟨_, rfl⟩
  · exact ⟨host, same.trans on⟩

end Store

end SeededDraws
