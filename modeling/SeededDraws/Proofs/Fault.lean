import Mathlib.Data.List.Forall2
import SeededDraws.Fault
/-!
# Outcomes

What a chain of steps answers, in terms of its steps.
-/

namespace SeededDraws

namespace Outcome

variable {α β : Type} {x : Outcome α} {f : α → Outcome β}

theorem bind_eq_ok {b : β} : x >>= f = .ok b ↔ ∃ a, x = .ok a ∧ f a = .ok b := by
  cases x with
  | ok a => simp [bind, Except.bind]
  | error fault => simp [bind, Except.bind]

theorem map_eq_error {g : α → β} {fault : Fault} :
    Except.map g x = .error fault ↔ x = .error fault := by
  cases x with
  | ok a => simp [Except.map]
  | error other => simp [Except.map]

/-- The outcome is no failure. It may be any other fault. -/
def Plain (x : Outcome α) : Prop := ∀ cause, x ≠ .error (.failure cause)

theorem plain_ok (a : α) : Plain (.ok a) := fun _ failed => by cases failed

theorem plain_error {fault : Fault} :
    Plain (.error fault : Outcome α) ↔ ∀ cause, fault ≠ .failure cause := by
  constructor
  · intro plain cause same
    exact plain cause (congrArg _ same)
  · intro other cause failed
    cases failed
    exact other cause rfl

theorem Plain.bind (first : x.Plain) (rest : ∀ a, (f a).Plain) : (x >>= f).Plain := by
  cases x with
  | ok a => exact rest a
  | error fault =>
    intro cause failed
    cases failed
    exact first cause rfl

/-- What has no failures of its own passes on those of the step before. -/
theorem bind_eq_failure (rest : ∀ a, (f a).Plain) {cause : Failure} :
    x >>= f = .error (.failure cause) ↔ x = .error (.failure cause) := by
  cases x with
  | ok a =>
    constructor
    · intro failed
      exact absurd failed (rest a cause)
    · intro failed
      cases failed
  | error fault =>
    constructor
    · intro failed
      cases failed
      rfl
    · intro failed
      cases failed
      rfl

theorem forall_of_mapM {p : β → Prop} {l : List α} {out : List β} (mapped : l.mapM f = .ok out)
    (each : ∀ a b, f a = .ok b → p b) : ∀ b ∈ out, p b := by
  induction l generalizing out with
  | nil =>
    cases mapped
    exact List.forall_mem_nil _
  | cons a rest ih =>
    rw [List.mapM_cons] at mapped
    obtain ⟨b, first, mapped⟩ := bind_eq_ok.mp mapped
    obtain ⟨bs, later, mapped⟩ := bind_eq_ok.mp mapped
    cases mapped
    exact List.forall_mem_cons.mpr ⟨each a b first, ih later⟩

/-! ### Lists -/

section Lists

variable {α β : Type} {f : α → Outcome β} {l : List α}

theorem mapM_eq_ok {out : List β} :
    l.mapM f = .ok out ↔ List.Forall₂ (fun a b => f a = .ok b) l out := by
  induction l generalizing out with
  | nil =>
    rw [List.mapM_nil, List.forall₂_nil_left_iff]
    exact ⟨fun made => (Except.ok.inj made).symm, fun none => none ▸ rfl⟩
  | cons a rest ih =>
    rw [List.mapM_cons, List.forall₂_cons_left_iff, bind_eq_ok]
    constructor
    · rintro ⟨b, first, made⟩
      obtain ⟨bs, later, made⟩ := bind_eq_ok.mp made
      cases made
      exact ⟨b, bs, first, ih.mp later, rfl⟩
    · rintro ⟨b, bs, first, later, rfl⟩
      exact ⟨b, first, bind_eq_ok.mpr ⟨bs, ih.mpr later, rfl⟩⟩

theorem mapM_succeeds_iff : (∃ out, l.mapM f = .ok out) ↔ ∀ a ∈ l, ∃ b, f a = .ok b := by
  induction l with
  | nil => exact iff_of_true ⟨[], rfl⟩ (List.forall_mem_nil _)
  | cons a rest ih =>
    rw [List.forall_mem_cons, ← ih]
    simp only [mapM_eq_ok, List.forall₂_cons_left_iff]
    constructor
    · rintro ⟨_, b, bs, first, later, _⟩
      exact ⟨⟨b, first⟩, bs, later⟩
    · rintro ⟨⟨b, first⟩, bs, later⟩
      exact ⟨_, b, bs, first, later, rfl⟩

/-- The first outcome that is a fault is the fault of the list. -/
theorem mapM_eq_error {fault : Fault} :
    l.mapM f = .error fault ↔ ∃ before a after, l = before ++ a :: after ∧
      (∀ x ∈ before, ∃ b, f x = .ok b) ∧ f a = .error fault := by
  induction l with
  | nil => exact iff_of_false nofun fun ⟨before, a, after, split, _⟩ => by simp at split
  | cons a rest ih =>
    rw [List.mapM_cons]
    cases first : f a with
    | error other =>
      constructor
      · intro failed
        cases failed
        exact ⟨[], a, rest, rfl, List.forall_mem_nil _, first⟩
      · rintro ⟨_ | ⟨x, before⟩, c, after, split, good, failed⟩
        · cases split
          rw [first] at failed
          cases failed
          rfl
        · cases split
          obtain ⟨b, made⟩ := good a List.mem_cons_self
          rw [first] at made
          cases made
    | ok b =>
      have rest_fails : (do let bs ← rest.mapM f; pure (b :: bs)) = .error fault ↔
          rest.mapM f = .error fault := by
        cases rest.mapM f with
        | error other => exact Iff.rfl
        | ok bs => exact iff_of_false nofun nofun
      refine rest_fails.trans (ih.trans ?_)
      constructor
      · rintro ⟨before, c, after, rfl, good, failed⟩
        exact ⟨a :: before, c, after, rfl, List.forall_mem_cons.mpr ⟨⟨b, first⟩, good⟩, failed⟩
      · rintro ⟨_ | ⟨x, before⟩, c, after, split, good, failed⟩
        · cases split
          rw [first] at failed
          cases failed
        · cases split
          exact ⟨before, c, after, rfl, (List.forall_mem_cons.mp good).2, failed⟩

end Lists

end Outcome

end SeededDraws
