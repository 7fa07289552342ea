import SeededDraws.Proofs.Ledger.Refinement
/-!
# Snapshots on top of a ledger

While nothing is written, snapshots only add marks at one height of the journal. To release one of
them takes away marks and undoes nothing, and to release the first gives the old ledger back.
-/

namespace SeededDraws

namespace Ledger

/-- The ledger after `k` more snapshots, with nothing written since. -/
def marked (l : Ledger) (k : Nat) : Ledger :=
  { l with marks := l.marks ++ List.replicate k l.journal.length }

variable {l : Ledger} {k n : Nat}

theorem marked_zero (l : Ledger) : l.marked 0 = l := by
  rw [marked, List.replicate_zero, List.append_nil]

theorem mark_marked : (l.marked k).mark = l.marked (k + 1) := by
  simp only [mark, marked, List.replicate_succ', List.append_assoc]

/-- The first of the new snapshots may as well count as an old one. -/
theorem marked_mark : l.mark.marked k = l.marked (k + 1) := by
  simp only [mark, marked, List.replicate_succ, List.append_assoc, List.singleton_append]

theorem openSnapshots_mark : l.mark.openSnapshots = l.openSnapshots + 1 := by
  simp only [openSnapshots, mark, List.length_append, List.length_singleton]

theorem idle_mark : l.mark.marks = [] → l.mark.journal = [] := by
  intro none
  simp [mark] at none

theorem openSnapshots_marked : (l.marked k).openSnapshots = l.openSnapshots + k := by
  simp only [openSnapshots, marked, List.length_append, List.length_replicate]

theorem take_marked (reached : l.openSnapshots ≤ n) :
    (l.marked k).marks.take n =
      l.marks ++ List.replicate (min (n - l.openSnapshots) k) l.journal.length := by
  have size : l.marks.length ≤ n := reached
  rw [marked, List.take_append, List.take_of_length_le size, List.take_replicate]
  rfl

/-- Forgetting one of the new snapshots and those above it leaves the others. -/
theorem dropMarks_marked (idle : l.marks = [] → l.journal = []) (reached : l.openSnapshots ≤ n) :
    (l.marked k).dropMarks n = l.marked (min (n - l.openSnapshots) k) := by
  have taken := take_marked (l := l) (k := k) reached
  rw [dropMarks, taken]
  simp only [marked]
  by_cases none : l.marks = [] ∧ min (n - l.openSnapshots) k = 0
  · -- no snapshot is open any more, and there is no journal to lose
    rw [none.1, none.2, List.replicate_zero, List.append_nil, List.isEmpty_nil, if_pos rfl,
      idle none.1]
  · have held : (l.marks ++
        List.replicate (min (n - l.openSnapshots) k) l.journal.length).isEmpty = false := by
      rw [List.isEmpty_eq_false_iff, Ne, List.append_eq_nil_iff, List.replicate_eq_nil_iff]
      exact none
    rw [held]
    rfl

/-- There is nothing to undo above a new snapshot. -/
theorem revertTo_marked (reached : l.openSnapshots ≤ n) (open_ : n < l.openSnapshots + k) :
    (l.marked k).revertTo n = .ok ((l.marked k).dropMarks n) := by
  have size : l.marks.length ≤ n := reached
  have place : n - l.marks.length < k := by
    have total : l.openSnapshots = l.marks.length := rfl
    omega
  have mark : (l.marked k).marks.getD n 0 = l.journal.length := by
    rw [marked, List.getD_eq_getElem?_getD, List.getElem?_append_right size,
      List.getElem?_replicate_of_lt place, Option.getD_some]
  have journal : (l.marked k).journal = l.journal := rfl
  rw [revertTo, mark, journal, Nat.sub_self, List.take_zero, List.drop_zero]
  rfl

/-- To release a new snapshot is to forget it and those above it. -/
theorem step_release_open (idle : l.marks = [] → l.journal = []) {op : StateOp} {id : Datum}
    (release : op = .revert id ∨ op = .discard id) (found : (l.marked k).openId id = .ok n)
    (reached : l.openSnapshots ≤ n) (open_ : n < l.openSnapshots + k) :
    (l.marked k).step op = (.ok .null, l.marked (n - l.openSnapshots)) := by
  have dropped : (l.marked k).dropMarks n = l.marked (n - l.openSnapshots) := by
    rw [dropMarks_marked idle reached]
    congr 1
    omega
  rcases release with rfl | rfl
  · simp only [step, found, bind, Except.bind, revertTo_marked reached open_, write, dropped]
  · simp only [step, found, bind, Except.bind, pure, Except.pure, write, dropped]

/-- A release that names no old snapshot takes away new snapshots, or nothing. -/
theorem step_release_marked (idle : l.marks = [] → l.journal = []) {op : StateOp} {id : Datum}
    (release : op = .revert id ∨ op = .discard id)
    (above : ∀ i, id.integer? = some i → (l.openSnapshots : Int) ≤ i) :
    ∃ left, ((l.marked k).step op).2 = l.marked left := by
  cases found : (l.marked k).openId id with
  | error fault =>
    refine ⟨k, ?_⟩
    rcases release with rfl | rfl
    · simp only [step, found, bind, Except.bind, write]
    · simp only [step, found, bind, Except.bind, write]
  | ok n =>
    have place := found
    rw [openId_eq, openSnapshots_marked] at place
    obtain ⟨named, open_⟩ := integer?_of_openPlace place
    have reached : l.openSnapshots ≤ n := by
      have := above n named
      omega
    exact ⟨_, congrArg Prod.snd (step_release_open idle release found reached open_)⟩

/-- The release of the first new snapshot gives the ledger back. -/
theorem step_first_marked (idle : l.marks = [] → l.journal = []) {op : StateOp}
    (release : op = .revert (.ofNat l.openSnapshots) ∨ op = .discard (.ofNat l.openSnapshots)) :
    (l.marked (k + 1)).step op = (.ok .null, l) := by
  have found : (l.marked (k + 1)).openId (.ofNat l.openSnapshots) = .ok l.openSnapshots := by
    rw [openId_eq, openSnapshots_marked]
    exact openPlace_ofNat (by omega)
  rw [step_release_open idle release found (Nat.le_refl _) (by omega), Nat.sub_self, marked_zero]

theorem take_marked_old (old : n ≤ l.openSnapshots) :
    (l.marked k).marks.take n = l.marks.take n := List.take_append_of_le_length old

/-- The release of an old snapshot takes the new ones away with it, and ends as it would have ended
without them. -/
theorem step_old_marked {op : StateOp} {after : Ledger} (old : n < l.openSnapshots)
    (release : op = .revert (.ofNat n) ∨ op = .discard (.ofNat n))
    (carried : l.step op = (.ok .null, after)) : (l.marked k).step op = (.ok .null, after) := by
  have found : l.openId (.ofNat n) = .ok n := by
    rw [openId_eq]
    exact openPlace_ofNat old
  have found' : (l.marked k).openId (.ofNat n) = .ok n := by
    rw [openId_eq, openSnapshots_marked]
    exact openPlace_ofNat (by omega)
  have taken := take_marked_old (l := l) (k := k) (Nat.le_of_lt old)
  have mark : (l.marked k).marks.getD n 0 = l.marks.getD n 0 := by
    rw [List.getD_eq_getElem?_getD, List.getD_eq_getElem?_getD, marked,
      List.getElem?_append_left old]
  have reverted : (l.marked k).revertTo n = l.revertTo n := by
    rw [revertTo, revertTo, mark]
    simp only [dropMarks, taken]
    rfl
  have dropped : (l.marked k).dropMarks n = l.dropMarks n := by
    rw [dropMarks, dropMarks, taken]
    rfl
  rcases release with rfl | rfl
  · simp only [step, found, found', bind, Except.bind, reverted] at carried ⊢
    cases undone : l.revertTo n with
    | error fault =>
      rw [undone] at carried
      cases carried
    | ok back =>
      rw [undone] at carried
      exact carried
  · simp only [step, found, found', bind, Except.bind, pure, Except.pure, write, dropped]
      at carried ⊢
    exact carried

/-- What is neither a write nor about snapshots leaves a ledger as it is. -/
theorem step_read (l : Ledger) {op : StateOp} (calm : op.mutates = false)
    (noSnapshot : op ≠ .snapshot) (noRelease : ¬∃ id, op = .revert id ∨ op = .discard id) :
    (l.step op).2 = l := by
  cases op with
  | snapshot => exact absurd rfl noSnapshot
  | revert id => exact absurd ⟨id, .inl rfl⟩ noRelease
  | discard id => exact absurd ⟨id, .inr rfl⟩ noRelease
  | setState _ _ _ => cases calm
  | setNonce _ _ => cases calm
  | addBalance _ _ => cases calm
  | createAccount _ => cases calm
  | addLog _ _ _ _ => cases calm
  | setPredicates _ _ => cases calm
  | _ => rfl

end Ledger

end SeededDraws
