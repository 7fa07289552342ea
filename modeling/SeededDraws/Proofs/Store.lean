import SeededDraws.Store
/-!
# Stores and their base

What a step through any handle does to what is under a store: it carries the operation out there or
leaves the base alone. New views leave it alone as well.
-/

namespace SeededDraws

namespace View

theorem mem_add {own : View} {n x : Int} : x ∈ own.add (.ok (.int n)) ↔ x = n ∨ x ∈ own := by
  rw [add]
  by_cases held : own.contains n = true
  · rw [if_pos held]
    constructor
    · exact .inr
    · rintro (rfl | mem)
      · exact List.contains_iff_mem.mp held
      · exact mem
  · rw [if_neg held, List.mem_append, List.mem_singleton]
    exact or_comm

/-- A view releases the ids that it remembers, and nothing else. -/
theorem release_eq (own : View) (id : Datum) (operation : String)
    (hashable : id.isHashable = true) :
    own.release id operation =
      if own.any id.equalInt? then
        .ok (own.filter fun (s : Int) => id.compareInt? s == some (some .gt))
      else .error (.failure (.writeProtection (.text operation))) := by
  rw [release, hashable]
  rfl

end View

namespace Store

variable {s : Store} {l : Ledger}

theorem viewAt_set (base : Base) (views : List View) (v w : Nat) (own : View) :
    (⟨base, views.set v own⟩ : Store).viewAt w =
      if v = w ∧ v < views.length then own else views.getD w [] := by
  simp only [viewAt, List.getD_eq_getElem?_getD, List.getElem?_set]
  by_cases same : v = w
  · by_cases held : v < views.length
    · rw [if_pos same, if_pos held, if_pos ⟨same, held⟩]
      rfl
    · have none : views[w]? = none := List.getElem?_eq_none (same ▸ Nat.le_of_not_lt held)
      rw [if_pos same, if_neg held, if_neg fun h => held h.2, none]
  · rw [if_neg same, if_neg fun h => same h.1]

/-- A view that is not there yet remembers nothing. -/
theorem viewAt_of_le {v : Nat} (beyond : s.views.length ≤ v) : s.viewAt v = [] := by
  rw [viewAt, List.getD_eq_getElem?_getD, List.getElem?_eq_none beyond, Option.getD_none]

theorem onBase_ledger (on : s.base = .ledger l true) (op : StateOp) :
    s.onBase op = ((l.step op).1, { s with base := .ledger (l.step op).2 true }) := by
  simp only [onBase, on, Base.step, Base.lacks]
  rfl

theorem onView_snapshot (on : s.base = .ledger l true) (index : Nat) :
    s.onView index .snapshot =
      (.ok (.ofNat l.openSnapshots),
        ⟨.ledger l.mark true,
          s.views.set index ((s.viewAt index).add (.ok (.ofNat l.openSnapshots)))⟩) := by
  have carried := onBase_ledger on .snapshot
  simp only [onView, StateOp.mutates, Bool.false_eq_true, if_false, carried]
  rfl

/-- A view's release goes through to the ledger if the view owns the id. -/
theorem onView_release (on : s.base = .ledger l true) (index : Nat) {op : StateOp} {id : Datum}
    (release : op = .revert id ∨ op = .discard id) :
    s.onView index op =
      match (s.viewAt index).release id op.name with
      | .error fault => (.error fault, s)
      | .ok left => ((l.step op).1, ⟨.ledger (l.step op).2 true, s.views.set index left⟩) := by
  rcases release with rfl | rfl
  · simp only [onView, StateOp.mutates, Bool.false_eq_true, if_false]
    cases (s.viewAt index).release id (StateOp.revert id).name with
    | error fault => rfl
    | ok left => exact onBase_ledger (s := s.setView index left) on (.revert id)
  · simp only [onView, StateOp.mutates, Bool.false_eq_true, if_false]
    cases (s.viewAt index).release id (StateOp.discard id).name with
    | error fault => rfl
    | ok left =>
      have releases : (s.setView index left).base.releases = true := by
        rw [show (s.setView index left).base = .ledger l true from on]
        rfl
      simp only [if_pos releases]
      exact onBase_ledger (s := s.setView index left) on (.discard id)

/-- A step carries the operation out on the base, or leaves the base alone. Unless a release is
missing, it is refused then. -/
theorem step_cases (s : Store) (handle : Handle) (op : StateOp) :
    ((s.step handle op).1 = (s.base.step op).1 ∧
        (s.step handle op).2.base = (s.base.step op).2) ∨
      ((s.step handle op).2.base = s.base ∧
        (s.base.releases = true → ∃ fault, (s.step handle op).1 = .error fault)) := by
  cases handle with
  | base => exact .inl ⟨rfl, rfl⟩
  | view v =>
    rw [step, onView.eq_def]
    split
    · exact .inr ⟨rfl, fun _ => ⟨_, rfl⟩⟩
    · split
      · exact .inl ⟨rfl, rfl⟩
      · next id _ =>
        cases (s.viewAt v).release id (StateOp.revert id).name with
        | error fault => exact .inr ⟨rfl, fun _ => ⟨fault, rfl⟩⟩
        | ok left => exact .inl ⟨rfl, rfl⟩
      · next id _ =>
        cases (s.viewAt v).release id (StateOp.discard id).name with
        | error fault => exact .inr ⟨rfl, fun _ => ⟨fault, rfl⟩⟩
        | ok left =>
          simp only []
          split
          · exact .inl ⟨rfl, rfl⟩
          · next missing => exact .inr ⟨rfl, fun releases => absurd releases missing⟩
      · exact .inl ⟨rfl, rfl⟩

theorem step_base (s : Store) (handle : Handle) (op : StateOp) :
    (s.step handle op).2.base = (s.base.step op).2 ∨ (s.step handle op).2.base = s.base := by
  rcases s.step_cases handle op with ⟨_, carried⟩ | ⟨same, _⟩
  · exact .inl carried
  · exact .inr same

/-- A ledger carries an operation out or is not asked. -/
theorem step_on_ledger (on : s.base = .ledger l true) (handle : Handle) (op : StateOp) :
    ((s.step handle op).1 = (l.step op).1 ∧
        (s.step handle op).2.base = .ledger (l.step op).2 true) ∨
      ((s.step handle op).2.base = s.base ∧ ∃ fault, (s.step handle op).1 = .error fault) := by
  have base : s.base.step op = ((l.step op).1, .ledger (l.step op).2 true) := by
    simp only [on, Base.step, Base.lacks]
    rfl
  rcases s.step_cases handle op with ⟨answer, carried⟩ | ⟨same, refused⟩
  · rw [base] at answer carried
    exact .inl ⟨answer, carried⟩
  · exact .inr ⟨same, refused (by rw [on]; rfl)⟩

theorem step_ledger (on : s.base = .ledger l true) (handle : Handle) (op : StateOp) :
    (s.step handle op).2.base = .ledger l true ∨
      (s.step handle op).2.base = .ledger (l.step op).2 true := by
  rcases s.step_base handle op with carried | same
  · rw [carried, on]
    exact .inr rfl
  · exact .inl (same.trans on)

/-- A view refuses every write, whatever its arguments are. -/
theorem step_mutating (s : Store) (v : Nat) {op : StateOp} (mutating : op.mutates = true) :
    s.step (.view v) op = s.refuse op := by
  rw [step, onView.eq_def, if_pos mutating]

theorem base_guard (s : Store) (handle : Handle) (readOnly : Bool) :
    (s.guard handle readOnly).2.base = s.base := by
  cases handle <;> cases readOnly <;> rfl

/-- A new view remembers nothing, and the others remember what they did. -/
theorem viewAt_guard (s : Store) (handle : Handle) (readOnly : Bool) (w : Nat) :
    (s.guard handle readOnly).2.viewAt w = s.viewAt w := by
  cases handle with
  | view v => rfl
  | base =>
    cases readOnly with
    | false => rfl
    | true =>
      show (s.views ++ [[]]).getD w [] = s.views.getD w []
      simp only [List.getD_eq_getElem?_getD, List.getElem?_append]
      split
      · rfl
      · next long =>
        rw [List.getElem?_eq_none (Nat.le_of_not_lt long)]
        cases w - s.views.length <;> rfl

end Store

end SeededDraws
