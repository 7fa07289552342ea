import SeededDraws.Proofs.Host.Views
import SeededDraws.Proofs.Overlay
/-!
# Ledgers under views

What any number of views do together, in any order: they may take snapshots, release those of each
other and remember ids that are long gone, but nothing was ever written on top of the old snapshots,
so no release finds anything to undo.
-/

namespace SeededDraws

/-- New views are opened, and nothing is done but through views from `floor` on. -/
def Move.Above (floor : Nat) : Move → Prop
  | .look => True
  | .use handle _ => ∃ v, handle = .view v ∧ floor ≤ v

theorem Move.ThroughView.above {m : Move} (through : m.ThroughView) : m.Above 0 := by
  cases m with
  | look => trivial
  | use handle op =>
    cases handle with
    | base => exact absurd rfl through
    | view v => exact ⟨v, rfl, Nat.zero_le v⟩

namespace Store.Overlaid

variable {s : Store} {before : Ledger} {floor : Nat}

theorem move (h : s.Overlaid before floor) (idle : before.marks = [] → before.journal = [])
    {m : Move} (above : m.Above floor) : (s.move m).Overlaid before floor := by
  cases m with
  | look => exact h.guard .base true
  | use handle op =>
    obtain ⟨v, rfl, high⟩ := above
    exact h.step idle high op

theorem afterMoves (h : s.Overlaid before floor) (idle : before.marks = [] → before.journal = [])
    {moves : List Move} (above : ∀ m ∈ moves, m.Above floor) :
    (s.afterMoves moves).Overlaid before floor := by
  induction moves generalizing s with
  | nil => exact h
  | cons m rest ih =>
    have first := h.move idle (above m List.mem_cons_self)
    exact ih first fun m mem => above m (.tail _ mem)

end Store.Overlaid

/-- An open snapshot can be released, in either way. -/
theorem Refines.release_open {l : Ledger} {c : CopyStore} (h : Refines l c) {n : Nat} {op : StateOp}
    (open_ : n < l.openSnapshots) (release : op = .revert (.ofNat n) ∨ op = .discard (.ofNat n)) :
    (l.step op).1 = .ok .null ∧ (l.step op).2.openSnapshots = n := by
  have held : n < c.copies.length := h.size ▸ open_
  rcases release with rfl | rfl
  · obtain ⟨back, reverted, _, left, _⟩ := h.step_revert (List.getElem?_eq_getElem held)
    rw [reverted]
    exact ⟨rfl, left⟩
  · obtain ⟨discarded, _⟩ := h.step_discard held
    rw [discarded]
    refine ⟨rfl, ?_⟩
    rw [Ledger.openSnapshots, Ledger.dropMarks, List.length_take]
    exact Nat.min_eq_left (Nat.le_of_lt open_)

/-- Snapshots on top are not seen by a read. -/
theorem Ledger.answer_marked (l : Ledger) (k : Nat) {op : StateOp} (read : op.IsRead) :
    ((l.marked k).step op).1 = (l.step op).1 := by
  have calm := read.calm
  cases op with
  | snapshot => exact absurd rfl read.noSnapshot
  | revert id => exact absurd ⟨id, .inl rfl⟩ read.noRelease
  | discard id => exact absurd ⟨id, .inr rfl⟩ read.noRelease
  | setState _ _ _ => cases calm
  | setNonce _ _ => cases calm
  | addBalance _ _ => cases calm
  | createAccount _ => cases calm
  | addLog _ _ _ _ => cases calm
  | setPredicates _ _ => cases calm
  | _ => rfl

/-- Whatever is done through views alone, the contents stay the same. The snapshots that were open
before the first view are open still, and their release ends as it would have ended then. Reads are
answered as they are on the ledger, and every write is refused. -/
theorem views_change_nothing (txHash : Bytes) (history : List StateOp) (moves : List Move)
    (through : ∀ m ∈ moves, m.ThroughView) :
    let before := (Ledger.start txHash).after history
    let s := (Store.ofLedger before).afterMoves moves
    ∃ after, s.base = .ledger after true ∧ after.contents = before.contents ∧
      before.openSnapshots ≤ after.openSnapshots ∧
      (∀ (id : Nat) (op : StateOp), id < before.openSnapshots →
        op = .revert (.ofNat id) ∨ op = .discard (.ofNat id) →
        (after.step op).1 = .ok .null ∧ after.step op = before.step op) ∧
      ∀ (v : Nat) (op : StateOp),
        (op.IsRead →
          s.step (.view v) op = s.step .base op ∧ (s.step .base op).1 = (before.step op).1) ∧
        (op.mutates = true → s.step (.view v) op = s.refuse op) := by
  intro before s
  have refines := refines_after txHash history
  have start : (Store.ofLedger before).Overlaid before 0 := .start before []
  have overlaid : s.Overlaid before 0 :=
    start.afterMoves refines.idle fun m mem => (through m mem).above
  obtain ⟨more, on⟩ := overlaid.base
  refine ⟨before.marked more, on, rfl, ?_, ?_, ?_⟩
  · rw [Ledger.openSnapshots_marked]
    exact Nat.le_add_right _ _
  · intro id op old release
    obtain ⟨answer, _⟩ := refines.release_open old release
    have carried : before.step op = (.ok .null, (before.step op).2) := Prod.ext answer rfl
    have same := Ledger.step_old_marked (k := more) old release carried
    refine ⟨congrArg Prod.fst same, ?_⟩
    rw [same, ← carried]
  · intro v op
    constructor
    · intro read
      rw [Store.step_isRead on read (.view v), Store.step_isRead on read .base]
      exact ⟨rfl, before.answer_marked more read⟩
    · exact s.step_mutating v

/-- One view releases the snapshots of both and takes the ids again, and the other one reverts to an
id that it still remembers. -/
def staleRelease : List Move :=
  [.look, .look, .use (.view 0) .snapshot, .use (.view 1) .snapshot,
    .use (.view 0) (.discard (.int 1)), .use (.view 0) .snapshot, .use (.view 0) .snapshot,
    .use (.view 1) (.revert (.int 2))]

theorem views_change_nothing_stale :
    let account := Datum.ofBytes (Bytes.numeral addressSize 1)
    let before := (Ledger.start zeroWord).after [.snapshot, .setNonce account (.int 7)]
    let s := (Store.ofLedger before).afterMoves staleRelease
    ∃ after, s.base = .ledger after true ∧ after.contents = before.contents ∧
      (after.step (.revert (.ofNat 0))).1 = .ok .null ∧
      (s.step (.view 1) (.getNonce account)).1 = (before.step (.getNonce account)).1 ∧
      s.step (.view 0) (.createAccount account) = s.refuse (.createAccount account) := by
  intro account before s
  have through : ∀ m ∈ staleRelease, m.ThroughView := by
    simp [staleRelease, Move.ThroughView]
  obtain ⟨after, on, same, _, released, answered⟩ := views_change_nothing zeroWord
    [.snapshot, .setNonce account (.int 7)] _ through
  refine ⟨after, on, same, ?_, ?_, ?_⟩
  · exact (released 0 (.revert (.ofNat 0)) (by decide +kernel) (.inl rfl)).1
  · obtain ⟨alike, read⟩ := (answered 1 (.getNonce account)).1 (StateOp.isRead_getNonce account)
    rw [alike]
    exact read
  · exact (answered 0 (.createAccount account)).2 rfl

end SeededDraws
