import SeededDraws.Proofs.Ledger.Marks
import SeededDraws.Proofs.Store
/-!
# Views on top of a ledger

New views remember no snapshot but those that were taken through them, and these lie on top of all
that were open before. So whatever is done through new views, the ledger is the old one with some
snapshots on top.
-/

namespace SeededDraws

/-- Neither a write nor an operation on snapshots. -/
structure StateOp.IsRead (op : StateOp) : Prop where
  calm : op.mutates = false
  noSnapshot : op ≠ .snapshot
  noRelease : ¬∃ id, op = .revert id ∨ op = .discard id

theorem StateOp.isRead_getNonce (address : Datum) : (StateOp.getNonce address).IsRead := by
  refine ⟨rfl, ?_, ?_⟩
  · intro same
    cases same
  · rintro ⟨id, same | same⟩
    · cases same
    · cases same

namespace Store

variable {s : Store} {before : Ledger} {floor v : Nat} {op : StateOp}

/-- A read is answered by the ledger, whatever it goes through. -/
theorem step_isRead {l : Ledger} (on : s.base = .ledger l true) (read : op.IsRead)
    (handle : Handle) : s.step handle op = ((l.step op).1, s) := by
  have carried : s.onBase op = ((l.step op).1, s) := by
    rw [onBase_ledger on, l.step_read read.calm read.noSnapshot read.noRelease, ← on]
  cases handle with
  | base => exact carried
  | view v =>
    rw [step, onView.eq_def, if_neg (by simp [read.calm])]
    split
    · exact absurd rfl read.noSnapshot
    · exact absurd ⟨_, .inl rfl⟩ read.noRelease
    · exact absurd ⟨_, .inr rfl⟩ read.noRelease
    · exact carried

/-- Nothing but snapshots happened to the ledger, and no view from `floor` on remembers an old
one. -/
structure Overlaid (before : Ledger) (floor : Nat) (s : Store) : Prop where
  base : ∃ more, s.base = .ledger (before.marked more) true
  grown : floor ≤ s.views.length
  above : ∀ v, floor ≤ v → ∀ n ∈ s.viewAt v, (before.openSnapshots : Int) ≤ n

namespace Overlaid

/-- At first there are no snapshots on top, and no new views. -/
theorem start (before : Ledger) (views : List View) :
    Overlaid before views.length ⟨.ledger before true, views⟩ := by
  refine ⟨⟨0, ?_⟩, Nat.le_refl _, ?_⟩
  · rw [Ledger.marked_zero]
  · intro v high n held
    rw [viewAt_of_le high] at held
    cases held

theorem guard (h : s.Overlaid before floor) (handle : Handle) (readOnly : Bool) :
    (s.guard handle readOnly).2.Overlaid before floor := by
  cases handle with
  | view v => exact h
  | base =>
    cases readOnly with
    | false => exact h
    | true =>
      refine ⟨h.base, ?_, ?_⟩
      · show floor ≤ (s.views ++ [[]]).length
        rw [List.length_append]
        exact Nat.le_add_right_of_le h.grown
      · intro v high n held
        rw [viewAt_guard] at held
        exact h.above v high n held

/-- A view may come to remember what is on top. -/
theorem set (h : s.Overlaid before floor) {base : Base} {left : Nat}
    (on : base = .ledger (before.marked left) true) (v : Nat) {own : View}
    (owned : ∀ n ∈ own, (before.openSnapshots : Int) ≤ n) :
    Overlaid before floor ⟨base, s.views.set v own⟩ := by
  refine ⟨⟨left, on⟩, ?_, ?_⟩
  · rw [List.length_set]
    exact h.grown
  · intro w high n held
    rw [viewAt_set] at held
    split at held
    · exact owned n held
    · exact h.above w high n held

/-- A release through a new view names a snapshot on top, or is refused. -/
theorem step_release (h : s.Overlaid before floor) (idle : before.marks = [] → before.journal = [])
    (high : floor ≤ v) {id : Datum} (release : op = .revert id ∨ op = .discard id) :
    (s.step (.view v) op).2.Overlaid before floor := by
  obtain ⟨more, on⟩ := h.base
  rw [Store.step, onView_release on v release]
  cases hashable : id.isHashable with
  | false =>
    rw [View.release, hashable]
    exact h
  | true =>
    rw [View.release_eq _ _ _ hashable]
    by_cases own : (s.viewAt v).any id.equalInt? = true
    · have above : ∀ i, id.integer? = some i → (before.openSnapshots : Int) ≤ i := by
        intro i named
        obtain ⟨n, held, equal⟩ := List.any_eq_true.mp own
        rw [(Datum.equalInt?_iff named).mp equal]
        exact h.above v high n held
      obtain ⟨left, released⟩ := Ledger.step_release_marked (k := more) idle release above
      rw [if_pos own]
      refine h.set (congrArg (Base.ledger · true) released) v ?_
      intro n held
      exact h.above v high n (List.mem_filter.mp held).1
    · rw [if_neg own]
      exact h

/-- No operation through a new view does more than take snapshots and release them again. -/
theorem step (h : s.Overlaid before floor) (idle : before.marks = [] → before.journal = [])
    (high : floor ≤ v) (op : StateOp) : (s.step (.view v) op).2.Overlaid before floor := by
  obtain ⟨more, on⟩ := h.base
  by_cases release : ∃ id, op = .revert id ∨ op = .discard id
  · obtain ⟨id, release⟩ := release
    exact h.step_release idle high release
  by_cases snapshot : op = .snapshot
  · rw [snapshot, Store.step, onView_snapshot on]
    refine h.set (congrArg (Base.ledger · true) Ledger.mark_marked) v ?_
    intro n held
    rcases View.mem_add.mp held with rfl | known
    · rw [Ledger.openSnapshots_marked]
      omega
    · exact h.above v high n known
  by_cases mutating : op.mutates = true
  · rw [s.step_mutating v mutating]
    exact h
  · have read : op.IsRead := ⟨Bool.eq_false_iff.mpr mutating, snapshot, release⟩
    rw [step_isRead on read]
    exact h

end Overlaid

end Store

end SeededDraws
