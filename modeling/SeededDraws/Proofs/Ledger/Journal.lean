import SeededDraws.Proofs.Fault
import SeededDraws.Proofs.Ledger.Refinement
/-!
# The journal under its marks

The marks of the open snapshots stand in order over the journal, the first of them below the oldest
record, and without a mark there is no journal. Every record can be undone when its turn comes, down
to any mark, so a revert fails for no other reason than its id.
-/

namespace SeededDraws

/-- What a record needs in order to be undone: the slot table of its account, an entry to remove. -/
def Contents.CanUndo (c : Contents) : Undo → Prop
  | .slot address _ _ => ∃ slots, c.storage.find? address = some slots
  | .account _ _ => True
  | .log => c.logs ≠ []
  | .predicates _ _ => True

theorem Contents.undo_succeeds_iff {c : Contents} {u : Undo} :
    (∃ d, c.undo u = .ok d) ↔ c.CanUndo u := by
  cases u with
  | slot address key before =>
    constructor
    · rintro ⟨d, undone⟩
      cases found : c.storage.find? address with
      | some slots => exact ⟨slots, found⟩
      | none =>
        rw [undo, found] at undone
        cases undone
    · rintro ⟨slots, found⟩
      exact ⟨_, undo_slot found key before⟩
  | account address before => exact iff_of_true ⟨_, undo_account c address before⟩ trivial
  | log =>
    rw [undo, CanUndo, Ne, ← List.isEmpty_iff]
    constructor
    · rintro ⟨d, undone⟩ empty
      rw [if_pos empty] at undone
      cases undone
    · intro some
      exact ⟨_, if_neg some⟩
  | predicates address before => exact iff_of_true ⟨_, undo_predicates c address before⟩ trivial

namespace Ledger

variable {l : Ledger} {s : CopyStore}

/-! ### The marks behind a step -/

theorem marks_record (l : Ledger) (u : Undo) : (l.record u).marks = l.marks := by
  rw [record]
  split <;> rfl

theorem marks_recorded {l' : Ledger} (recorded : Recorded l l') : l'.marks = l.marks := by
  cases recorded with
  | nothing => rfl
  | change u c back => exact marks_record l u

/-- A step adds a mark for the whole journal, or drops marks from the newest on, or leaves them. -/
theorem marks_step (l : Ledger) (op : StateOp) :
    (l.step op).2.marks = l.marks ++ [l.journal.length] ∨
      ∃ n, (l.step op).2.marks = l.marks.take n := by
  have kept : ∀ {marks : List Nat}, marks = l.marks → ∃ n, marks = l.marks.take n :=
    fun same => ⟨l.marks.length, by rw [same, List.take_length]⟩
  cases asked : op.write? with
  | some write => exact .inr (kept (marks_recorded (step_write l asked).1))
  | none =>
    cases op with
    | snapshot => exact .inl rfl
    | revert id =>
      right
      simp only [step, bind, Except.bind]
      cases l.openId id with
      | error fault => exact kept rfl
      | ok n =>
        simp only [revertTo, bind, Except.bind]
        cases l.contents.undoAll (l.journal.take (l.journal.length - l.marks.getD n 0)) with
        | error fault => exact kept rfl
        | ok c => exact ⟨n, rfl⟩
    | discard id =>
      right
      simp only [step, bind, Except.bind]
      cases l.openId id with
      | error fault => exact kept rfl
      | ok n => exact ⟨n, rfl⟩
    | _ => first | exact .inr (kept rfl) | cases asked

/-! ### The invariant -/

/-- The oldest open snapshot has every record above it. -/
def Grounded (l : Ledger) : Prop := ∀ m ∈ l.marks.head?, m = 0

/-- The first mark is set while there is no journal. -/
theorem Grounded.step (grounded : l.Grounded) (idle : l.marks = [] → l.journal = [])
    (op : StateOp) : (l.step op).2.Grounded := by
  intro m first
  rcases marks_step l op with more | ⟨n, fewer⟩
  · rw [more] at first
    cases marks : l.marks with
    | nil =>
      rw [marks, idle marks] at first
      cases first
      rfl
    | cons oldest rest =>
      rw [marks] at first
      exact grounded m (marks ▸ first)
  · rw [fewer] at first
    cases n with
    | zero => cases first
    | succ n =>
      rw [List.head?_take] at first
      exact grounded m first

theorem Grounded.after (grounded : l.Grounded) (refines : Refines l s) (ops : List StateOp) :
    (l.after ops).Grounded := by
  induction ops generalizing l s with
  | nil => exact grounded
  | cons op rest ih => exact ih (grounded.step refines.idle op) (refines.step op).2

end Ledger

/-- With all records below its first mark out of the way, a journal can be undone as a whole. -/
theorem Refines.undo_journal {l : Ledger} {s : CopyStore} (h : Refines l s)
    (grounded : l.Grounded) : ∃ c, l.contents.undoAll l.journal = .ok c := by
  cases marks : l.marks with
  | nil =>
    rw [h.idle marks]
    exact ⟨_, rfl⟩
  | cons first rest =>
    have size := h.size
    rw [marks, List.length_cons] at size
    obtain ⟨copy, held⟩ : ∃ copy, s.copies[0]? = some copy :=
      ⟨_, List.getElem?_eq_getElem (by omega)⟩
    obtain ⟨c, undone, _⟩ := h.restores 0 copy held
    have ground : first = 0 := grounded first (by rw [marks]; rfl)
    rw [marks, List.getD_cons_zero, ground, Nat.sub_zero, List.take_length] at undone
    exact ⟨c, undone⟩

/-- What can be undone as a whole can be undone record by record. -/
theorem Contents.canUndo_of_undoAll {c d : Contents} {newer older : List Undo} {u : Undo}
    (undone : c.undoAll (newer ++ u :: older) = .ok d) :
    ∃ before, c.undoAll newer = .ok before ∧ before.CanUndo u := by
  rw [undoAll_append] at undone
  obtain ⟨before, first, undone⟩ := Outcome.bind_eq_ok.mp undone
  rw [undoAll_cons] at undone
  obtain ⟨next, turn, _⟩ := Outcome.bind_eq_ok.mp undone
  exact ⟨before, first, undo_succeeds_iff.mp ⟨next, turn⟩⟩

/-! ### Reverting -/

theorem openPlace_succeeds_iff {count : Nat} {id : Datum} :
    (∃ n, openPlace count id = .ok n) ↔ ∃ n : Nat, id.integer? = some n ∧ n < count := by
  constructor
  · rintro ⟨n, found⟩
    exact ⟨n, integer?_of_openPlace found⟩
  · rintro ⟨n, named, open_⟩
    refine ⟨n, ?_⟩
    rw [openPlace, placeAmong_of_integer? named, if_pos ⟨by omega, by omega⟩]
    rfl

theorem Refines.revert_succeeds_iff {l : Ledger} {s : CopyStore} (h : Refines l s) (id : Datum) :
    (∃ answer, (l.step (.revert id)).1 = .ok answer) ↔
      ∃ n : Nat, id.integer? = some n ∧ n < l.openSnapshots := by
  rw [← openPlace_succeeds_iff, ← l.openId_eq]
  simp only [Ledger.step, bind, Except.bind]
  cases found : l.openId id with
  | error fault =>
    constructor
    · rintro ⟨answer, failed⟩
      cases failed
    · rintro ⟨n, failed⟩
      cases failed
  | ok n =>
    have open_ := (integer?_of_openPlace (l.openId_eq id ▸ found)).2
    obtain ⟨reverted, undone, _⟩ := h.revert open_
    simp only [undone]
    exact iff_of_true ⟨_, rfl⟩ ⟨n, rfl⟩

/-! ### Every run -/

/-- Whatever was done to a ledger, its marks are in order, begin at zero and stay within the
journal, which is empty while no snapshot is open. Undoing finds all that it needs, record by record
from the newest down to any mark, and a revert fails exactly for an id that is not open. -/
theorem journal_stays_undoable (txHash : Bytes) (ops : List StateOp) :
    let l := (Ledger.start txHash).after ops
    (l.marks.Pairwise (· ≤ ·) ∧ (∀ m ∈ l.marks.head?, m = 0) ∧
      (∀ m ∈ l.marks, m ≤ l.journal.length) ∧ (l.openSnapshots = 0 → l.journal = [])) ∧
    (∀ newer u older, l.journal = newer ++ u :: older →
      ∃ before, l.contents.undoAll newer = .ok before ∧ before.CanUndo u) ∧
    (∀ m ∈ l.marks, ∃ c,
      l.contents.undoAll (l.journal.take (l.journal.length - m)) = .ok c) ∧
    ∀ id, (∃ answer, (l.step (.revert id)).1 = .ok answer) ↔
      ∃ n : Nat, id.integer? = some n ∧ n < l.openSnapshots := by
  intro l
  have h : Refines l ((CopyStore.start txHash).after ops) := refines_after txHash ops
  have ground : (Ledger.start txHash).Grounded := by
    intro m first
    cases first
  have grounded : l.Grounded := ground.after (.start txHash) ops
  obtain ⟨c, whole⟩ := h.undo_journal grounded
  refine ⟨⟨h.ordered, grounded, h.bounded, fun none => ?_⟩, ?_, ?_, h.revert_succeeds_iff⟩
  · exact h.idle (List.eq_nil_of_length_eq_zero none)
  · intro newer u older split
    exact Contents.canUndo_of_undoAll (split ▸ whole)
  · intro m _
    rw [← List.take_append_drop (l.journal.length - m) l.journal, Contents.undoAll_append] at whole
    obtain ⟨below, above, _⟩ := Outcome.bind_eq_ok.mp whole
    exact ⟨below, above⟩

/-- The inner snapshot is gone and its records are still there, with that of the refused list. -/
theorem journal_stays_undoable_refused :
    let account := Datum.ofBytes (Bytes.numeral addressSize 1)
    let word := fun n => Datum.ofBytes (Bytes.numeral wordSize n)
    let l := (Ledger.start zeroWord).after [.setNonce account (.int 1), .snapshot,
      .setState account (word 0) (word 7), .snapshot,
      .addLog account (.list [word 3]) (word 4) (.int 9), .setPredicates account .null,
      .discard (.int 1), .revert (.int 1)]
    (l.marks = [0] ∧ l.journal.length = 3) ∧
      (∃ newer u older, l.journal = newer ++ u :: older ∧
        ∃ before, l.contents.undoAll newer = .ok before ∧ before.CanUndo u) ∧
      (∃ c, l.contents.undoAll (l.journal.take (l.journal.length - 0)) = .ok c) ∧
      (∃ answer, (l.step (.revert (.int 0))).1 = .ok answer) ∧
      ¬∃ answer, (l.step (.revert (.int 1))).1 = .ok answer := by
  intro account word l
  have marks : l.marks = [0] := by decide +kernel
  have size : l.journal.length = 3 := by decide +kernel
  obtain ⟨_, records, below, reverts⟩ := journal_stays_undoable zeroWord
    [.setNonce account (.int 1), .snapshot, .setState account (word 0) (word 7), .snapshot,
      .addLog account (.list [word 3]) (word 4) (.int 9), .setPredicates account .null,
      .discard (.int 1), .revert (.int 1)]
  have one : l.openSnapshots = 1 := congrArg List.length marks
  refine ⟨⟨marks, size⟩, ?_, below 0 (marks ▸ List.mem_singleton_self 0),
    (reverts _).mpr ⟨0, rfl, one ▸ Nat.one_pos⟩, fun reverted => ?_⟩
  · match journal : l.journal with
    | [] => rw [journal] at size; cases size
    | u :: older => exact ⟨[], u, older, rfl, records [] u older journal⟩
  · obtain ⟨n, named, open_⟩ := (reverts _).mp reverted
    have place : (1 : Int) = n := Option.some.inj named
    have open_ : n < 1 := one ▸ open_
    omega

end SeededDraws
