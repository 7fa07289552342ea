import SeededDraws.Proofs.Ledger.WellFormed
import SeededDraws.Proofs.Ownership
/-!
# Which accounts exist

An account exists because an operation made it that no revert has undone. The time of a move is its
place among all moves. A revert at one time goes back to a snapshot of an earlier time that has been
open all the while, and it undoes what was made in between.
-/

namespace SeededDraws

/-! ### One step -/

/-- The operation is one that makes the account, if it is not there yet. -/
def StateOp.Makes (address : Bytes) : StateOp → Prop
  | .setNonce given _ => given.bytes? = some address
  | .addBalance given _ => given.bytes? = some address
  | .createAccount given => given.bytes? = some address
  | _ => False

def Write.Makes (address : Bytes) : Write → Prop
  | .nonce made _ => made = address
  | .credit made _ => made = address
  | .account made => made = address
  | _ => False

variable {address : Bytes}

theorem StateOp.makes_of_write? {op : StateOp} {w : Write} (asked : op.write? = some (.ok w)) :
    op.Makes address ↔ w.Makes address := by
  have given : ∀ {d : Datum} {made : Bytes}, Ledger.addressOf d = .ok made →
      (d.bytes? = some address ↔ made = address) := by
    intro d made read
    rw [(Datum.exactBytes_eq_ok.mp read).1, Option.some.injEq]
  cases op with
  | setNonce target nonce =>
    obtain ⟨n, _, asked⟩ := Outcome.bind_eq_ok.mp (Option.some.inj asked)
    obtain ⟨a, read, asked⟩ := Outcome.bind_eq_ok.mp asked
    cases asked
    exact given read
  | addBalance target amount =>
    obtain ⟨n, _, asked⟩ := Outcome.bind_eq_ok.mp (Option.some.inj asked)
    obtain ⟨a, read, asked⟩ := Outcome.bind_eq_ok.mp asked
    cases asked
    exact given read
  | createAccount target =>
    obtain ⟨a, read, asked⟩ := Outcome.bind_eq_ok.mp (Option.some.inj asked)
    cases asked
    exact given read
  | setState target key value =>
    obtain ⟨a, _, asked⟩ := Outcome.bind_eq_ok.mp (Option.some.inj asked)
    obtain ⟨k, _, asked⟩ := Outcome.bind_eq_ok.mp asked
    obtain ⟨v, _, asked⟩ := Outcome.bind_eq_ok.mp asked
    cases asked
    exact Iff.rfl
  | addLog target topics data block =>
    obtain ⟨entry, _, asked⟩ := Outcome.bind_eq_ok.mp (Option.some.inj asked)
    cases asked
    exact Iff.rfl
  | setPredicates target predicates =>
    obtain ⟨a, _, asked⟩ := Outcome.bind_eq_ok.mp (Option.some.inj asked)
    obtain ⟨items, _, asked⟩ := Outcome.bind_eq_ok.mp asked
    obtain ⟨list, _, asked⟩ := Outcome.bind_eq_ok.mp asked
    cases asked
    exact Iff.rfl
  | _ => cases asked

namespace Contents

variable {c d : Contents}

theorem exists_putAccount (c : Contents) (made : Bytes) (a : Account) :
    (c.putAccount made a).accounts.contains address = true ↔
      c.accounts.contains address = true ∨ made = address := by
  rw [putAccount, Table.contains, Table.find?_insert, Table.contains]
  by_cases same : address = made
  · simp [same]
  · simp [same, Ne.symm same]

/-- Accounts are made, and never removed, by a write. -/
theorem exists_perform {w : Write} (performed : c.perform w = .ok d) :
    d.accounts.contains address = true ↔
      c.accounts.contains address = true ∨ w.Makes address := by
  cases w with
  | nonce made nonce =>
    cases performed
    exact c.exists_putAccount made _
  | credit made amount =>
    simp only [perform] at performed
    split at performed
    · cases performed
    · cases performed
      exact c.exists_putAccount made _
  | account made =>
    cases performed
    split
    · next held =>
      constructor
      · exact .inl
      · rintro (old | rfl)
        · exact old
        · exact held
    · exact c.exists_putAccount made _
  | slot made key value =>
    cases performed
    exact (or_iff_left not_false).symm
  | log entry =>
    cases performed
    exact (or_iff_left not_false).symm
  | predicates made list =>
    cases performed
    exact (or_iff_left not_false).symm

end Contents

namespace CopyStore

variable {s : CopyStore} {op : StateOp}

theorem step_revert_ok {id : Datum} (reverted : (s.step (.revert id)).1 = .ok .null) :
    ∃ n : Nat, id.integer? = some (n : Int) ∧ n < s.copies.length ∧
      (s.step (.revert id)).2 = s.putBack n := by
  simp only [step] at reverted ⊢
  cases opened : s.openId id with
  | error fault =>
    rw [opened] at reverted
    cases reverted
  | ok n =>
    obtain ⟨named, lt⟩ := integer?_of_openPlace opened
    exact ⟨n, named, lt, rfl⟩

/-- Unless it is a revert that succeeds, an operation removes no account, and makes those that it is
meant to make. -/
theorem exists_step (calm : ∀ id, op = .revert id → (s.step op).1 ≠ .ok .null) :
    (s.step op).2.contents.accounts.contains address = true ↔
      s.contents.accounts.contains address = true ∨
        (op.Makes address ∧ (s.step op).1 = .ok .null) := by
  cases hw : op.write? with
  | some write =>
    rw [s.step_of_write hw]
    cases write with
    | error fault => simp [settle, bind, Except.bind]
    | ok w =>
      simp only [bind, Except.bind]
      cases performed : s.contents.perform w with
      | error fault => simp [settle]
      | ok c =>
        simp only [settle, pure, Except.pure, and_true, StateOp.makes_of_write? hw]
        exact Contents.exists_perform performed
  | none =>
    have idle : ¬op.Makes address := by
      cases op <;> simp_all [StateOp.Makes, StateOp.write?]
    have same : (s.step op).2.contents = s.contents := by
      cases op with
      | snapshot => rfl
      | revert id =>
        simp only [step]
        cases opened : s.openId id with
        | error fault => rfl
        | ok n =>
          refine absurd ?_ (calm id rfl)
          simp only [step, opened]
          rfl
      | discard id =>
        simp only [step]
        cases s.openId id <;> rfl
      | _ => simp_all [step, StateOp.write?]
    rw [same]
    exact (or_iff_left fun made => idle made.1).symm

/-- Every copy behind a step was there before, or is that of a new snapshot. -/
theorem copies_step {n : Nat} {copy : Contents} (held : (s.step op).2.copies[n]? = some copy) :
    s.copies[n]? = some copy ∨
      (op = .snapshot ∧ n = s.copies.length ∧ copy = s.contents) := by
  rcases s.step_cases op with ⟨c, same⟩ | ⟨taken, more⟩ | ⟨m, id, c, _, _, _, fewer⟩
  · rw [same] at held
    exact .inl held
  · rw [more, take, List.getElem?_append] at held
    split at held
    · exact .inl held
    · next beyond =>
      obtain ⟨zero, same⟩ := List.getElem?_eq_some_iff.mp held
      refine .inr ⟨taken, ?_, ?_⟩
      · rw [List.length_singleton] at zero
        omega
      · rw [← same, List.getElem_singleton]
  · rw [fewer, List.getElem?_take] at held
    split at held
    · exact .inl held
    · cases held

end CopyStore

/-! ### Times -/

namespace Store

variable (s : Store) (moves : List Move)

/-- The store behind the first `t` moves. -/
def past (t : Nat) : Store := s.afterMoves (moves.take t)

def openAt (t : Nat) : Nat := (s.past moves t).openSnapshots

/-- Move `j` took a snapshot that has been open ever since. -/
def OpenSince (j t : Nat) : Prop :=
  j < t ∧ (∃ taker, moves[j]? = some (.use taker .snapshot)) ∧
    ∀ between, j < between → between ≤ t → s.openAt moves j < s.openAt moves between

/-- Move `t` goes back to the snapshot of move `j`. -/
def GoesBack (j t : Nat) : Prop :=
  s.OpenSince moves j t ∧ ∃ releaser id, moves[t]? = some (.use releaser (.revert id)) ∧
    id.integer? = some (s.openAt moves j : Int) ∧
    ((s.past moves t).step releaser (.revert id)).1 = .ok .null

/-- A later move goes back to a snapshot from before move `i`. -/
def Undone (i t : Nat) : Prop := ∃ j k, j < i ∧ i < k ∧ k < t ∧ s.GoesBack moves j k

/-- Move `i` succeeds in making the account, or finds it there. -/
def Makes (address : Bytes) (i : Nat) : Prop :=
  ∃ handle op, moves[i]? = some (.use handle op) ∧ op.Makes address ∧
    ((s.past moves i).step handle op).1 = .ok .null

/-- At time `t` there is a move that made the account and has not been undone. -/
def Stands (address : Bytes) (t : Nat) : Prop :=
  ∃ i, i < t ∧ s.Makes moves address i ∧ ¬s.Undone moves i t

variable {s moves} {i j k t : Nat} {m : Move}

theorem past_succ (now : moves[t]? = some m) : s.past moves (t + 1) = (s.past moves t).move m := by
  rw [past, List.take_add_one, now, Option.toList_some, afterMoves_concat, past]

theorem past_end (none : moves[t]? = none) : s.past moves (t + 1) = s.past moves t := by
  rw [past, List.take_add_one, none, Option.toList_none, List.append_nil, past]

theorem not_makes_of_snapshot (taken : ∃ taker, moves[i]? = some (.use taker .snapshot)) :
    ¬s.Makes moves address i := by
  rintro ⟨handle, op, here, makes, _⟩
  obtain ⟨taker, taken⟩ := taken
  rw [taken] at here
  cases here
  exact makes

theorem GoesBack.not_makes (back : s.GoesBack moves j t) : ¬s.Makes moves address t := by
  rintro ⟨handle, op, here, makes, _⟩
  obtain ⟨_, releaser, id, reverted, _⟩ := back
  rw [reverted] at here
  cases here
  exact makes

theorem GoesBack.not_snapshot (back : s.GoesBack moves j t) :
    ¬∃ taker, moves[t]? = some (.use taker .snapshot) := by
  rintro ⟨taker, taken⟩
  obtain ⟨_, releaser, id, reverted, _⟩ := back
  rw [reverted] at taken
  cases taken

/-- A move goes back to one snapshot only. -/
theorem GoesBack.openAt_eq (back : s.GoesBack moves j t) (other : s.GoesBack moves k t) :
    s.openAt moves j = s.openAt moves k := by
  obtain ⟨_, releaser, id, reverted, named, _⟩ := back
  obtain ⟨_, releaser', id', reverted', named', _⟩ := other
  rw [reverted] at reverted'
  cases reverted'
  have places := Option.some.inj (named.symm.trans named')
  omega

theorem Undone.mono (undone : s.Undone moves i j) (le : j ≤ t) : s.Undone moves i t := by
  obtain ⟨taken, reverted, before, behind, early, back⟩ := undone
  exact ⟨taken, reverted, before, behind, by omega, back⟩

/-- A move that goes back nowhere undoes nothing. -/
theorem stands_succ (calm : ∀ j, ¬s.GoesBack moves j t) :
    s.Stands moves address (t + 1) ↔ s.Stands moves address t ∨ s.Makes moves address t := by
  constructor
  · rintro ⟨i, early, makes, kept⟩
    by_cases now : i = t
    · exact .inr (now ▸ makes)
    · exact .inl ⟨i, by omega, makes, fun undone => kept (undone.mono (by omega))⟩
  · rintro (⟨i, early, makes, kept⟩ | makes)
    · refine ⟨i, by omega, makes, ?_⟩
      rintro ⟨j, k, before, behind, within, back⟩
      by_cases now : k = t
      · exact calm j (now ▸ back)
      · exact kept ⟨j, k, before, behind, by omega, back⟩
    · refine ⟨t, by omega, makes, ?_⟩
      rintro ⟨j, k, _, behind, within, _⟩
      omega

/-! ### Reverts -/

theorem Sound.past (sound : s.Sound) (moves : List Move) (t : Nat) : (s.past moves t).Sound :=
  sound.afterMoves _

/-- Behind a revert as many snapshots are open as were before the one that it goes back to. -/
theorem GoesBack.openAt_succ (back : s.GoesBack moves j t) (sound : s.Sound) :
    s.openAt moves (t + 1) = s.openAt moves j := by
  obtain ⟨_, releaser, id, reverted, named, answer⟩ := back
  obtain ⟨l, c, on, refines⟩ := sound.past moves t
  rcases step_on_ledger on releaser (.revert id) with ⟨carried, base⟩ | ⟨_, fault, refused⟩
  · obtain ⟨same, next⟩ := refines.step (.revert id)
    have succeeded : (c.step (.revert id)).1 = .ok .null := by rw [← same, ← carried, answer]
    obtain ⟨n, named', lt, behind⟩ := c.step_revert_ok succeeded
    have size : (l.step (.revert id)).2.openSnapshots = n := by
      rw [Ledger.openSnapshots, next.size, behind, CopyStore.putBack, List.length_take]
      exact Nat.min_eq_left (Nat.le_of_lt lt)
    have place : (s.openAt moves j : Int) = n := Option.some.inj (named.symm.trans named')
    rw [openAt, past_succ reverted, Store.move, openSnapshots, base]
    simp only []
    omega
  · rw [refused] at answer
    cases answer

/-- Going back to a snapshot leaves the accounts that stood when it was taken. -/
theorem GoesBack.stands_succ (back : s.GoesBack moves j t) (sound : s.Sound) :
    s.Stands moves address (t + 1) ↔ s.Stands moves address j := by
  obtain ⟨earlier, taken, above⟩ := back.1
  constructor
  · rintro ⟨i, early, makes, kept⟩
    have notNow : i ≠ t := fun now => back.not_makes (now ▸ makes)
    have notTaken : i ≠ j := fun now => not_makes_of_snapshot taken (now ▸ makes)
    -- what was made behind the snapshot is undone now
    have before : i < j := by
      by_contra late
      exact kept ⟨j, t, by omega, by omega, by omega, back⟩
    exact ⟨i, before, makes, fun undone => kept (undone.mono (by omega))⟩
  · rintro ⟨i, early, makes, kept⟩
    refine ⟨i, by omega, makes, ?_⟩
    rintro ⟨j', k, before, behind, within, other⟩
    have notTaken : k ≠ j := fun now => other.not_snapshot (now ▸ taken)
    by_cases soon : k < j
    · exact kept ⟨j', k, before, behind, soon, other⟩
    -- an older snapshot that was open at time `j` has a smaller place than the one taken then
    have older := other.1.2.2 j (by omega) (by omega)
    by_cases now : k = t
    · subst now
      have same := back.openAt_eq other
      omega
    · have left := other.openAt_succ sound
      have still := above (k + 1) (by omega) (by omega)
      omega

/-! ### The invariant -/

/-- The copies hold the account exactly if it stood when their snapshots were taken. -/
structure Tracks (s : Store) (moves : List Move) (address : Bytes) (t : Nat) (c : CopyStore) :
    Prop where
  base : ∃ l, (s.past moves t).base = .ledger l true ∧ Refines l c
  contents : c.contents.accounts.contains address = true ↔ s.Stands moves address t
  copies : ∀ n copy, c.copies[n]? = some copy → ∃ j, s.OpenSince moves j t ∧
    s.openAt moves j = n ∧ (copy.accounts.contains address = true ↔ s.Stands moves address j)

namespace Tracks

variable {c : CopyStore} {handle : Handle} {op : StateOp}

theorem start (txHash : Bytes) (moves : List Move) (address : Bytes) :
    Tracks (.ofLedger (.start txHash)) moves address 0 (.start txHash) where
  base := ⟨_, rfl, .start txHash⟩
  contents := by
    constructor
    · intro held
      cases held
    · rintro ⟨i, early, _⟩
      cases early
  copies n copy held := by cases held

theorem sound (h : s.Tracks moves address t c) : (s.past moves t).Sound := by
  obtain ⟨l, on, refines⟩ := h.base
  exact ⟨l, c, on, refines⟩

theorem openAt_eq (h : s.Tracks moves address t c) : s.openAt moves t = c.copies.length := by
  obtain ⟨l, on, refines⟩ := h.base
  rw [openAt, openSnapshots, on]
  exact refines.size

/-- Where nothing is carried out, nothing changes. -/
theorem quiet (h : s.Tracks moves address t c)
    (same : (s.past moves (t + 1)).base = (s.past moves t).base)
    (failed : ∀ handle op, moves[t]? = some (.use handle op) →
      ((s.past moves t).step handle op).1 ≠ .ok .null) :
    s.Tracks moves address (t + 1) c where
  base := by
    rw [same]
    exact h.base
  contents := by
    have calm : ∀ j, ¬s.GoesBack moves j t := by
      rintro j ⟨_, releaser, id, reverted, _, succeeded⟩
      exact failed releaser _ reverted succeeded
    have idle : ¬s.Makes moves address t := by
      rintro ⟨handle, op, here, _, succeeded⟩
      exact failed handle op here succeeded
    rw [h.contents, Store.stands_succ calm, or_iff_left idle]
  copies n copy held := by
    obtain ⟨j, ⟨earlier, taken, above⟩, place, stood⟩ := h.copies n copy held
    refine ⟨j, ⟨by omega, taken, ?_⟩, place, stood⟩
    intro between late early
    by_cases now : between = t + 1
    · have alike : s.openAt moves (t + 1) = s.openAt moves t := by
        rw [openAt, openSnapshots, same, openAt, openSnapshots]
      rw [now, alike]
      exact above t earlier (Nat.le_refl t)
    · exact above between late (by omega)

/-- An operation that the ledger carries out is carried out on the copies. -/
theorem carried (h : s.Tracks moves address t c) (now : moves[t]? = some (.use handle op))
    {l : Ledger} (refines : Refines l c)
    (answer : ((s.past moves t).step handle op).1 = (l.step op).1)
    (base : ((s.past moves t).step handle op).2.base = .ledger (l.step op).2 true)
    (sound : s.Sound) : s.Tracks moves address (t + 1) (c.step op).2 := by
  obtain ⟨same, next⟩ := refines.step op
  have answered : ((s.past moves t).step handle op).1 = (c.step op).1 := answer.trans same
  have behind : (s.past moves (t + 1)).base = .ledger (l.step op).2 true := by
    rw [past_succ now]
    exact base
  have size : s.openAt moves (t + 1) = (c.step op).2.copies.length := by
    rw [openAt, openSnapshots, behind]
    exact next.size
  refine ⟨⟨_, behind, next⟩, ?_, ?_⟩
  · by_cases reverts : ∃ id, op = .revert id ∧ (c.step op).1 = .ok .null
    · obtain ⟨id, rfl, succeeded⟩ := reverts
      obtain ⟨n, named, lt, put⟩ := c.step_revert_ok succeeded
      have copy : c.copies[n]? = some (c.putBack n).contents := by
        rw [CopyStore.putBack, List.getD_eq_getElem _ _ lt, List.getElem?_eq_getElem lt]
      obtain ⟨j, open_, place, stood⟩ := h.copies n _ copy
      have back : s.GoesBack moves j t := by
        refine ⟨open_, handle, id, now, ?_, answered.trans succeeded⟩
        rw [place, named]
      rw [put, stood, back.stands_succ sound]
    · have calm : ∀ j, ¬s.GoesBack moves j t := by
        rintro j ⟨_, releaser, id, reverted, _, succeeded⟩
        rw [now] at reverted
        cases reverted
        exact reverts ⟨id, rfl, answered.symm.trans succeeded⟩
      have makes : s.Makes moves address t ↔ op.Makes address ∧ (c.step op).1 = .ok .null := by
        constructor
        · rintro ⟨handle', op', here, makes, succeeded⟩
          rw [now] at here
          cases here
          exact ⟨makes, answered.symm.trans succeeded⟩
        · rintro ⟨makes, succeeded⟩
          exact ⟨handle, op, now, makes, answered.trans succeeded⟩
      rw [CopyStore.exists_step fun id reverted succeeded => reverts ⟨id, reverted, succeeded⟩,
        Store.stands_succ calm, h.contents, makes]
  · intro n copy held
    have lt : n < s.openAt moves (t + 1) := by
      rw [size]
      exact (List.getElem?_eq_some_iff.mp held).1
    rcases CopyStore.copies_step held with old | ⟨rfl, rfl, rfl⟩
    · obtain ⟨j, ⟨earlier, taken, above⟩, place, stood⟩ := h.copies n copy old
      refine ⟨j, ⟨by omega, taken, ?_⟩, place, stood⟩
      intro between late early
      by_cases last : between = t + 1
      · rw [last]
        omega
      · exact above between late (by omega)
    · have place := h.openAt_eq
      refine ⟨t, ⟨by omega, ⟨handle, now⟩, ?_⟩, place, h.contents⟩
      intro between late early
      have last : between = t + 1 := by omega
      rw [last]
      omega

/-- What one move does, whichever way it goes. -/
theorem succ (h : s.Tracks moves address t c) (sound : s.Sound) :
    ∃ c', s.Tracks moves address (t + 1) c' := by
  cases now : moves[t]? with
  | none =>
    refine ⟨c, h.quiet (by rw [past_end now]) ?_⟩
    intro handle op here
    rw [now] at here
    cases here
  | some m =>
    cases m with
    | look =>
      refine ⟨c, h.quiet ?_ ?_⟩
      · rw [past_succ now]
        exact base_guard _ .base true
      · intro handle op here
        rw [now] at here
        cases here
    | use handle op =>
      obtain ⟨l, on, refines⟩ := h.base
      rcases step_on_ledger on handle op with ⟨answer, base⟩ | ⟨same, fault, refused⟩
      · exact ⟨_, h.carried now refines answer base sound⟩
      · refine ⟨c, h.quiet (by rw [past_succ now, Store.move, same]) ?_⟩
        intro handle' op' here succeeded
        rw [now] at here
        cases here
        rw [refused] at succeeded
        cases succeeded

end Tracks

/-- An account exists exactly if it stands, at any time. -/
theorem exists_iff_stands (txHash : Bytes) (moves : List Move) (address : Bytes) (t : Nat) :
    let s := Store.ofLedger (.start txHash)
    ∃ l, (s.past moves t).base = .ledger l true ∧
      (l.contents.accounts.contains address = true ↔ s.Stands moves address t) := by
  intro s
  have sound : s.Sound := ⟨_, _, rfl, .start txHash⟩
  have tracked : ∃ c, s.Tracks moves address t c := by
    induction t with
    | zero => exact ⟨_, .start txHash moves address⟩
    | succ t ih =>
      obtain ⟨c, h⟩ := ih
      exact h.succ sound
  obtain ⟨c, h⟩ := tracked
  obtain ⟨l, on, refines⟩ := h.base
  refine ⟨l, on, ?_⟩
  rw [refines.contents.accounts]
  exact h.contents

end Store

end SeededDraws
