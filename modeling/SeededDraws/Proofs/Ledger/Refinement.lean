import Mathlib.Data.List.GetD
import SeededDraws.Proofs.Ledger.Contents
import SeededDraws.Proofs.Ledger.Copies
/-!
# The journal refines copying

A ledger with its journal answers every run as a store of full copies does. The invariant: undoing
the records above a mark gives back what was copied when the mark was set. A write adds a record
that takes the write back, and a release forgets marks from the newest on, so both keep it.
-/

namespace SeededDraws

open Contents

/-! ### Numbers as places -/

theorem Datum.compareInt?_of_integer? {d : Datum} {n : Int} (h : d.integer? = some n) (m : Int) :
    d.compareInt? m = some (some (compare n m)) := by
  cases d <;> simp_all [Datum.compareInt?, Datum.integer?]

theorem Datum.equalInt?_iff {d : Datum} {n m : Int} (h : d.integer? = some n) :
    d.equalInt? m = true ↔ n = m := by
  rw [Datum.equalInt?, Datum.compareInt?_of_integer? h]
  simp

theorem isAtLeast_of_integer? {d : Datum} {n : Int} (h : d.integer? = some n) (m : Int) :
    d.isAtLeast m = .ok (decide (m ≤ n)) := by
  rw [Datum.isAtLeast, Datum.compareInt?_of_integer? h]
  rcases Int.lt_trichotomy n m with hlt | heq | hgt
  · simp [Int.compare_eq_lt.mpr hlt, Int.not_le.mpr hlt]
  · simp [heq]
  · simp [Int.compare_eq_gt.mpr hgt, Int.le_of_lt hgt]

theorem isBelow_of_integer? {d : Datum} {n : Int} (h : d.integer? = some n) (m : Int) :
    d.isBelow m = .ok (decide (n < m)) := by
  rw [Datum.isBelow, Datum.compareInt?_of_integer? h]
  rcases Int.lt_trichotomy n m with hlt | heq | hgt
  · simp [Int.compare_eq_lt.mpr hlt, hlt]
  · simp [heq]
  · simp [Int.compare_eq_gt.mpr hgt, Int.not_lt.mpr (Int.le_of_lt hgt)]

theorem placeAmong_of_integer? {d : Datum} {n : Int} (h : d.integer? = some n) (count : Nat) :
    placeAmong count d = .ok (if 0 ≤ n ∧ n < count then some n.toNat else none) := by
  cases d <;> simp_all [placeAmong, Datum.integer?]

/-- Whatever is no integer is no place. -/
theorem placeAmong_of_no_integer {d : Datum} (h : d.integer? = none) (count : Nat) :
    placeAmong count d = .ok none ∨ placeAmong count d = .error (.bare .type) := by
  cases d with
  | float x =>
    rw [placeAmong]
    split
    · exact .inr rfl
    · exact .inl rfl
  | int _ => cases h
  | bool _ => cases h
  | _ => exact .inr rfl

theorem integer?_of_placeAmong {count n : Nat} {d : Datum}
    (found : placeAmong count d = .ok (some n)) : d.integer? = some n ∧ n < count := by
  cases hk : d.integer? with
  | some k =>
    rw [placeAmong_of_integer? hk] at found
    by_cases hr : 0 ≤ k ∧ k < (count : Int)
    · rw [if_pos hr] at found
      cases found
      exact ⟨congrArg some (Int.toNat_of_nonneg hr.1).symm, by omega⟩
    · rw [if_neg hr] at found
      cases found
  | none =>
    rcases placeAmong_of_no_integer hk count with outside | failed
    · rw [outside] at found
      cases found
    · rw [failed] at found
      cases found

/-- Both bounds are looked at before the number is used as a place. -/
theorem placeAmong_eq (count : Nat) (d : Datum) :
    placeAmong count d = (do
      let high ← d.isAtLeast 0
      let low ← d.isBelow count
      if high && low then
        match d.integer? with
        | some n => .ok (some n.toNat)
        | none => .error (.bare .type)
      else .ok none) := by
  cases hn : d.integer? with
  | some n =>
    rw [isAtLeast_of_integer? hn, isBelow_of_integer? hn, placeAmong_of_integer? hn]
    by_cases hr : 0 ≤ n ∧ n < (count : Int)
    · simp [hr, bind, Except.bind]
    · simp [hr, bind, Except.bind]
  | none =>
    cases d with
    | float x =>
      simp only [placeAmong, Datum.isAtLeast, Datum.isBelow, Datum.compareInt?]
      by_cases hr : (x.compareInt 0 = some .gt ∨ x.compareInt 0 = some .eq) ∧
          x.compareInt count = some .lt
      · simp [hr, bind, Except.bind]
      · simp [hr, bind, Except.bind]
    | int n => cases hn
    | bool b => cases hn
    | _ => rfl

/-- The place of an open snapshot, if `count` of them are open. -/
def openPlace (count : Nat) (id : Datum) : Outcome Nat := do
  match ← placeAmong count id with
  | some n => return n
  | none => .error (.value (.snapshot id))

/-- Only an integer among the places is an open id. -/
theorem integer?_of_openPlace {count n : Nat} {id : Datum} (found : openPlace count id = .ok n) :
    id.integer? = some n ∧ n < count := by
  cases hp : placeAmong count id with
  | error fault =>
    rw [openPlace, hp] at found
    cases found
  | ok place =>
    rw [openPlace, hp] at found
    cases place with
    | none => cases found
    | some m =>
      cases found
      exact integer?_of_placeAmong hp

theorem openPlace_ofNat {count n : Nat} (open_ : n < count) :
    openPlace count (.ofNat n) = .ok n := by
  rw [openPlace, placeAmong_of_integer? (n := n) rfl, if_pos ⟨by omega, by omega⟩]
  rfl

/-! ### The invariant -/

/-- The ledger stands for the store of copies: the records above a mark take its contents back to
the copy of the same place. -/
structure Refines (l : Ledger) (s : CopyStore) : Prop where
  txHash : l.txHash = s.txHash
  contents : l.contents.Same s.contents
  size : l.marks.length = s.copies.length
  idle : l.marks = [] → l.journal = []
  ordered : l.marks.Pairwise (· ≤ ·)
  bounded : ∀ m ∈ l.marks, m ≤ l.journal.length
  restores : ∀ i c, s.copies[i]? = some c →
    ∃ d, l.contents.undoAll (l.journal.take (l.journal.length - l.marks.getD i 0)) = .ok d ∧
      d.Same c

namespace Refines

variable {l : Ledger} {s : CopyStore}

theorem start (txHash : Bytes) : Refines (.start txHash) (.start txHash) where
  txHash := rfl
  contents := .refl _
  size := rfl
  idle _ := rfl
  ordered := .nil
  bounded _ h := by cases h
  restores _ _ h := by cases h

theorem place_lt (h : Refines l s) {i : Nat} {c : Contents} (copy : s.copies[i]? = some c) :
    i < l.marks.length := by
  rw [h.size]
  exact (List.getElem?_eq_some_iff.mp copy).1

theorem mark_le (h : Refines l s) {i : Nat} (open_ : i < l.marks.length) :
    l.marks.getD i 0 ≤ l.journal.length := by
  apply h.bounded
  rw [List.getD_eq_getElem _ _ open_]
  exact List.getElem_mem open_

theorem marks_ordered (h : Refines l s) {i n : Nat} (before : i < n) (open_ : n < l.marks.length) :
    l.marks.getD i 0 ≤ l.marks.getD n 0 := by
  rw [List.getD_eq_getElem _ _ (Nat.lt_trans before open_), List.getD_eq_getElem _ _ open_]
  exact List.pairwise_iff_getElem.mp h.ordered i n _ _ before

/-- A write with its record keeps the invariant, whether or not a snapshot is open. -/
theorem recorded (h : Refines l s) {u : Undo} {c c' : Contents}
    (back : TakesBack u c l.contents) (same : c.Same c') :
    Refines { l.record u with contents := c } { s with contents := c' } := by
  by_cases hm : l.marks = []
  · have hrecord : l.record u = l := by simp [Ledger.record, hm]
    rw [hrecord]
    refine ⟨h.txHash, same, h.size, h.idle, h.ordered, h.bounded, ?_⟩
    intro i d copy
    have hlt := h.place_lt copy
    rw [hm] at hlt
    exact absurd hlt (Nat.not_lt_zero i)
  · have hrecord : l.record u = { l with journal := u :: l.journal } := by simp [Ledger.record, hm]
    rw [hrecord]
    refine ⟨h.txHash, same, h.size, fun none => absurd none hm, h.ordered, ?_, ?_⟩
    · intro m hmem
      exact Nat.le_succ_of_le (h.bounded m hmem)
    · intro i copied copy
      have hle := h.mark_le (h.place_lt copy)
      obtain ⟨before, undone, covers⟩ := back
      obtain ⟨d, restored, read⟩ := h.restores i copied copy
      obtain ⟨d', restored', covers'⟩ := undoAll_covers covers restored
      refine ⟨d', ?_, covers'.toSame.trans read⟩
      have hlen : (u :: l.journal).length - l.marks.getD i 0 =
          (l.journal.length - l.marks.getD i 0) + 1 := by
        rw [List.length_cons]
        omega
      simp only [hlen, List.take_succ_cons, undoAll_cons, undone]
      exact restored'

theorem mark (h : Refines l s) : Refines l.mark s.take.2 where
  txHash := h.txHash
  contents := h.contents
  size := by simp [Ledger.mark, CopyStore.take, h.size]
  idle none := by simp [Ledger.mark] at none
  ordered := by
    refine List.pairwise_append.mpr ⟨h.ordered, List.pairwise_singleton _ _, ?_⟩
    intro m hm n hn
    rw [List.mem_singleton.mp hn]
    exact h.bounded m hm
  bounded m hm := by
    rcases List.mem_append.mp hm with hm | hm
    · exact h.bounded m hm
    · rw [List.mem_singleton.mp hm]
      exact Nat.le_refl _
  restores i c copy := by
    simp only [Ledger.mark]
    by_cases hi : i < l.marks.length
    · rw [List.getD_append _ _ _ _ hi]
      apply h.restores i c
      rwa [CopyStore.take, List.getElem?_append_left (h.size ▸ hi)] at copy
    · have hlast : i = l.marks.length := by
        have hlt := (List.getElem?_eq_some_iff.mp copy).1
        simp only [CopyStore.take, List.length_append, List.length_singleton] at hlt
        have := h.size
        omega
      subst hlast
      rw [CopyStore.take, h.size, List.getElem?_concat_length] at copy
      cases copy
      refine ⟨l.contents, ?_, h.contents⟩
      rw [List.getD_append_right _ _ _ _ (Nat.le_refl _)]
      simp [undoAll, pure, Except.pure]

/-- Forgetting the marks from place `n` on, with `k` records undone that all lie above mark `n`. -/
theorem truncate (h : Refines l s) {n k : Nat} (open_ : n < l.marks.length)
    (above : l.marks.getD n 0 + k ≤ l.journal.length) {c c' : Contents}
    (undone : l.contents.undoAll (l.journal.take k) = .ok c) (same : c.Same c') :
    Refines (Ledger.dropMarks { l with contents := c, journal := l.journal.drop k } n)
      { s with contents := c', copies := s.copies.take n } where
  txHash := h.txHash
  contents := same
  size := by simp [Ledger.dropMarks, h.size]
  idle none := by
    simp only [Ledger.dropMarks] at none ⊢
    simp [none]
  ordered := h.ordered.sublist (List.take_sublist n l.marks)
  bounded m hm := by
    obtain ⟨i, hi, rfl⟩ := List.getElem_of_mem (show m ∈ l.marks.take n from hm)
    have hin : i < n := by
      rw [List.length_take] at hi
      omega
    have hle := h.marks_ordered hin open_
    rw [List.getD_eq_getElem _ _ (Nat.lt_trans hin open_)] at hle
    have hne : (l.marks.take n).isEmpty = false :=
      List.isEmpty_eq_false_iff.mpr (List.ne_nil_of_length_pos (Nat.zero_lt_of_lt hi))
    simp only [Ledger.dropMarks, hne, List.getElem_take, List.length_drop, Bool.false_eq_true,
      if_false]
    omega
  restores i d copy := by
    have hin : i < n := by
      have hlt := (List.getElem?_eq_some_iff.mp copy).1
      rw [List.length_take] at hlt
      omega
    rw [List.getElem?_take_of_lt hin] at copy
    have hle := h.marks_ordered hin open_
    have hi : i < (l.marks.take n).length := by
      rw [List.length_take]
      omega
    have hmark : (l.marks.take n).getD i 0 = l.marks.getD i 0 := by
      rw [List.getD_eq_getElem _ _ hi, List.getD_eq_getElem _ _ (Nat.lt_trans hin open_),
        List.getElem_take]
    have hne : (l.marks.take n).isEmpty = false :=
      List.isEmpty_eq_false_iff.mpr (List.ne_nil_of_length_pos (Nat.zero_lt_of_lt hi))
    -- the records above mark `i` are those undone and those left above it
    have hsplit : l.journal.take (l.journal.length - l.marks.getD i 0) =
        l.journal.take k ++
          (l.journal.drop k).take ((l.journal.drop k).length - l.marks.getD i 0) := by
      rw [← List.take_add, List.length_drop]
      congr 1
      omega
    obtain ⟨e, restored, read⟩ := h.restores i d copy
    rw [hsplit, undoAll_append, undone] at restored
    refine ⟨e, ?_, read⟩
    simp only [Ledger.dropMarks, hne, hmark, Bool.false_eq_true, if_false]
    exact restored

end Refines

/-! ### Reads and writes -/

theorem Contents.Same.predicateAt {l : Ledger} {c : Contents} (same : l.contents.Same c)
    (address : Bytes) (index : Datum) :
    l.predicateAt address index = c.predicateAt address index := by
  rw [Ledger.predicateAt, Contents.predicateAt, same.predicates]
  cases c.predicates.find? address with
  | none => rfl
  | some list =>
    simp only [placeAmong_eq, bind, Except.bind, pure, Except.pure]
    cases index.isAtLeast 0 with
    | error fault => rfl
    | ok high =>
      cases index.isBelow list.length with
      | error fault => rfl
      | ok low =>
        cases high <;> cases low <;> try rfl
        cases index.integer? <;> rfl

theorem Ledger.openId_eq (l : Ledger) (id : Datum) :
    l.openId id = openPlace l.openSnapshots id := by
  rw [Ledger.openId, openPlace, placeAmong_eq]
  simp only [bind, Except.bind, pure, Except.pure]
  cases id.isAtLeast 0 with
  | error fault => rfl
  | ok high =>
    cases id.isBelow l.openSnapshots with
    | error fault => rfl
    | ok low =>
      cases high <;> cases low <;> try rfl
      cases id.integer? <;> rfl

theorem CopyStore.openId_eq (s : CopyStore) (id : Datum) :
    s.openId id = openPlace s.copies.length id := rfl

theorem Refines.openId {l : Ledger} {s : CopyStore} (h : Refines l s) (id : Datum) :
    l.openId id = s.openId id := by
  rw [Ledger.openId_eq, CopyStore.openId_eq, Ledger.openSnapshots, h.size]

/-- The ledger behind a write: nothing happened, or a record takes the change back. -/
inductive Recorded (l : Ledger) : Ledger → Prop where
  | nothing : Recorded l l
  | change (u : Undo) (c : Contents) (back : TakesBack u c l.contents) :
    Recorded l { l.record u with contents := c }

theorem Recorded.refines {l l' : Ledger} {s : CopyStore} (recorded : Recorded l l')
    (h : Refines l s) {c : Contents} (same : l'.contents.Same c) :
    Refines l' { s with contents := c } := by
  cases recorded with
  | nothing => exact { h with contents := same }
  | change u after back => exact h.recorded back same

namespace Recorded

variable (l : Ledger)

theorem contents_record (u : Undo) : (l.record u).contents = l.contents := by
  rw [Ledger.record]
  split <;> rfl

theorem putSlot (address key value : Bytes) : Recorded l (l.putSlot address key value) := by
  rw [Ledger.putSlot]
  simp only [contents_record]
  exact .change _ _ (takesBack_putSlot l.contents address key value)

theorem putAccount (address : Bytes) (a : Account) : Recorded l (l.putAccount address a) := by
  rw [Ledger.putAccount]
  simp only [contents_record]
  exact .change _ _ (takesBack_putAccount l.contents address a)

theorem appendLog (entry : LogEntry) : Recorded l (l.appendLog entry) := by
  rw [Ledger.appendLog]
  simp only [contents_record]
  exact .change _ _ (takesBack_log l.contents entry)

theorem putPredicates (address : Bytes) (list : List Bytes) :
    Recorded l ((l.record (.predicates address (l.contents.predicates.find? address))).putPredicates
      address list) := by
  rw [Ledger.putPredicates]
  simp only [contents_record]
  exact .change _ _ (takesBack_putPredicates l.contents address list)

theorem refused (address : Bytes) :
    Recorded l (l.record (.predicates address (l.contents.predicates.find? address))) := by
  have keeps : ∀ u, { l.record u with contents := l.contents } = l.record u := by
    intro u
    rw [Ledger.record]
    split <;> rfl
  rw [← keeps]
  exact .change _ _ (takesBack_refused l.contents address)

end Recorded

/-- A write answers and changes the contents as `perform` says, and what it leaves in the journal
takes the change back. -/
theorem step_write (l : Ledger) {op : StateOp} {write : Outcome Write}
    (asked : op.write? = some write) :
    Recorded l (l.step op).2 ∧
      match write.bind l.contents.perform with
      | .ok c => (l.step op).1 = .ok .null ∧ (l.step op).2.contents = c
      | .error fault => (l.step op).1 = .error fault ∧ (l.step op).2.contents = l.contents := by
  cases op with
  | setState address key value =>
    cases asked
    simp only [Ledger.step, bind, Except.bind, pure, Except.pure]
    cases Ledger.addressOf address with
    | error fault => exact ⟨.nothing, rfl, rfl⟩
    | ok a =>
      cases Ledger.wordOf "key" key with
      | error fault => exact ⟨.nothing, rfl, rfl⟩
      | ok k =>
        cases Ledger.wordOf "value" value with
        | error fault => exact ⟨.nothing, rfl, rfl⟩
        | ok v =>
          refine ⟨.putSlot l a k v, rfl, ?_⟩
          simp only [Ledger.write, Ledger.putSlot, Recorded.contents_record]
  | setNonce address nonce =>
    cases asked
    simp only [Ledger.step, bind, Except.bind, pure, Except.pure]
    cases Ledger.checkNonce nonce with
    | error fault => exact ⟨.nothing, rfl, rfl⟩
    | ok n =>
      cases Ledger.addressOf address with
      | error fault => exact ⟨.nothing, rfl, rfl⟩
      | ok a =>
        refine ⟨.putAccount l a _, rfl, ?_⟩
        simp only [Ledger.write, Ledger.putAccount, Recorded.contents_record]
  | addBalance address amount =>
    cases asked
    simp only [Ledger.step, bind, Except.bind, pure, Except.pure]
    cases amount.natural "amount" with
    | error fault => exact ⟨.nothing, rfl, rfl⟩
    | ok n =>
      cases Ledger.addressOf address with
      | error fault => exact ⟨.nothing, rfl, rfl⟩
      | ok a =>
        by_cases tooMuch : maxUint256 < (l.contents.account a).balance + n
        · simp only [Contents.perform, if_pos tooMuch]
          exact ⟨.nothing, rfl, rfl⟩
        · simp only [Contents.perform, if_neg tooMuch]
          refine ⟨.putAccount l a _, rfl, ?_⟩
          simp only [Ledger.write, Ledger.putAccount, Recorded.contents_record]
  | createAccount address =>
    cases asked
    simp only [Ledger.step, bind, Except.bind, pure, Except.pure]
    cases Ledger.addressOf address with
    | error fault => exact ⟨.nothing, rfl, rfl⟩
    | ok a =>
      by_cases present : l.contents.accounts.contains a
      · simp only [Contents.perform, if_pos present]
        exact ⟨.nothing, rfl, rfl⟩
      · simp only [Contents.perform, if_neg present]
        refine ⟨.putAccount l a _, rfl, ?_⟩
        simp only [Ledger.write, Ledger.putAccount, Recorded.contents_record]
  | addLog address topics data block =>
    cases asked
    simp only [Ledger.step, bind, Except.bind, pure, Except.pure]
    cases Ledger.logEntryOf address topics data block with
    | error fault => exact ⟨.nothing, rfl, rfl⟩
    | ok entry =>
      refine ⟨.appendLog l entry, rfl, ?_⟩
      simp only [Ledger.write, Ledger.appendLog, Recorded.contents_record]
  | setPredicates address predicates =>
    cases asked
    simp only [Ledger.step, bind, Except.bind, pure, Except.pure]
    cases Ledger.addressOf address with
    | error fault => exact ⟨.nothing, rfl, rfl⟩
    | ok a =>
      -- from here on the record stands, whatever the list is
      cases predicates.items with
      | error fault => exact ⟨.refused l a, rfl, Recorded.contents_record ..⟩
      | ok items =>
        simp only []
        cases items.mapM fun p => p.someBytes "predicate" with
        | error fault => exact ⟨.refused l a, rfl, Recorded.contents_record ..⟩
        | ok list =>
          refine ⟨.putPredicates l a list, rfl, ?_⟩
          simp only [Ledger.write, Ledger.putPredicates, Recorded.contents_record]
  | _ => cases asked

/-- Contents that read the same refuse the same writes and read the same behind the others. -/
theorem Contents.Same.perform {c d : Contents} (same : c.Same d) (w : Write) :
    (∃ fault, c.perform w = .error fault ∧ d.perform w = .error fault) ∨
      ∃ c' d', c.perform w = .ok c' ∧ d.perform w = .ok d' ∧ c'.Same d' := by
  cases w with
  | slot address key value => exact .inr ⟨_, _, rfl, rfl, same.putSlot address key value⟩
  | nonce address nonce =>
    refine .inr ⟨_, _, rfl, rfl, ?_⟩
    rw [same.account address]
    exact same.putAccount address _
  | credit address amount =>
    simp only [Contents.perform, same.account address]
    by_cases tooMuch : maxUint256 < (d.account address).balance + amount
    · rw [if_pos tooMuch, if_pos tooMuch]
      exact .inl ⟨_, rfl, rfl⟩
    · rw [if_neg tooMuch, if_neg tooMuch]
      exact .inr ⟨_, _, rfl, rfl, same.putAccount address _⟩
  | account address =>
    simp only [Contents.perform, same.accounts]
    by_cases present : d.accounts.contains address
    · rw [if_pos present, if_pos present]
      exact .inr ⟨_, _, rfl, rfl, same⟩
    · rw [if_neg present, if_neg present]
      exact .inr ⟨_, _, rfl, rfl, same.putAccount address _⟩
  | log entry => exact .inr ⟨_, _, rfl, rfl, same.appendLog entry⟩
  | predicates address list => exact .inr ⟨_, _, rfl, rfl, same.putPredicates address list⟩

theorem CopyStore.step_of_write (s : CopyStore) {op : StateOp} {write : Outcome Write}
    (asked : op.write? = some write) :
    s.step op = s.settle do return { s with contents := ← s.contents.perform (← write) } := by
  cases op <;> simp_all [StateOp.write?, CopyStore.step]

namespace Refines

variable {l : Ledger} {s : CopyStore}

theorem step_write (h : Refines l s) {op : StateOp} {write : Outcome Write}
    (asked : op.write? = some write) :
    (l.step op).1 = (s.step op).1 ∧ Refines (l.step op).2 (s.step op).2 := by
  rw [s.step_of_write asked]
  obtain ⟨recorded, after⟩ := SeededDraws.step_write l asked
  cases write with
  | error fault =>
    obtain ⟨answer, contents⟩ := after
    exact ⟨answer, recorded.refines h (contents ▸ h.contents)⟩
  | ok w =>
    simp only [Except.bind, bind, pure, Except.pure] at after ⊢
    rcases h.contents.perform w with ⟨fault, hl, hs⟩ | ⟨c, d, hl, hs, same⟩
    · rw [hl] at after
      rw [hs]
      obtain ⟨answer, contents⟩ := after
      exact ⟨answer, recorded.refines h (contents ▸ h.contents)⟩
    · rw [hl] at after
      rw [hs]
      obtain ⟨answer, contents⟩ := after
      exact ⟨answer, recorded.refines h (contents ▸ same)⟩

theorem discard (h : Refines l s) {n : Nat} (open_ : n < l.marks.length) :
    Refines (l.dropMarks n) (s.forget n) := by
  have undone : l.contents.undoAll (l.journal.take 0) = .ok l.contents := rfl
  have truncated := h.truncate open_ (h.mark_le open_) undone h.contents
  rwa [List.drop_zero] at truncated

/-- Undoing never fails on the records above an open mark. -/
theorem revert (h : Refines l s) {n : Nat} (open_ : n < l.marks.length) :
    ∃ l', l.revertTo n = .ok l' ∧ Refines l' (s.putBack n) := by
  have copy : s.copies[n]? = some (s.copies.getD n s.contents) := by
    rw [List.getD_eq_getElem _ _ (h.size ▸ open_), List.getElem?_eq_getElem (h.size ▸ open_)]
  obtain ⟨c, undone, same⟩ := h.restores n _ copy
  have hle := h.mark_le open_
  refine ⟨_, ?_, h.truncate open_ (by omega) undone same⟩
  rw [Ledger.revertTo, undone]
  rfl

theorem answer (h : Refines l s) {op : StateOp} (read : op.write? = none)
    (noSnapshot : op ≠ .snapshot) (noRevert : ∀ id, op ≠ .revert id)
    (noDiscard : ∀ id, op ≠ .discard id) :
    l.step op = (s.contents.answer s.txHash op, l) := by
  cases op with
  | getState address key =>
    simp only [Ledger.step, Ledger.reply, Contents.answer, h.contents.word]
  | getNonce address =>
    simp only [Ledger.step, Ledger.reply, Contents.answer, h.contents.account]
  | getBalance address =>
    simp only [Ledger.step, Ledger.reply, Contents.answer, h.contents.account]
  | exist address => simp only [Ledger.step, Ledger.reply, Contents.answer, h.contents.accounts]
  | getLogData =>
    simp only [Ledger.step, Ledger.reply, Contents.answer, Ledger.logData, Contents.logData,
      h.contents.logs]
  | getPredicate address index =>
    simp only [Ledger.step, Ledger.reply, Contents.answer, h.contents.predicateAt]
  | getTxHash => simp only [Ledger.step, Ledger.reply, Contents.answer, h.txHash]
  | snapshot => exact absurd rfl noSnapshot
  | revert id => exact absurd rfl (noRevert id)
  | discard id => exact absurd rfl (noDiscard id)
  | _ => cases read

/-- One step: equal answers, and the invariant again. -/
theorem step (h : Refines l s) (op : StateOp) :
    (l.step op).1 = (s.step op).1 ∧ Refines (l.step op).2 (s.step op).2 := by
  cases hw : op.write? with
  | some write => exact h.step_write hw
  | none =>
    cases op with
    | snapshot =>
      refine ⟨?_, h.mark⟩
      simp only [Ledger.step, CopyStore.step, CopyStore.take, Ledger.openSnapshots, h.size]
    | revert id =>
      simp only [Ledger.step, CopyStore.step, h.openId id]
      cases ho : s.openId id with
      | error fault => exact ⟨rfl, h⟩
      | ok n =>
        obtain ⟨l', reverted, refines⟩ := h.revert (h.size ▸ (integer?_of_openPlace ho).2)
        simp only [bind, Except.bind, reverted]
        exact ⟨rfl, refines⟩
    | discard id =>
      simp only [Ledger.step, CopyStore.step, h.openId id]
      cases ho : s.openId id with
      | error fault => exact ⟨rfl, h⟩
      | ok n => exact ⟨rfl, h.discard (h.size ▸ (integer?_of_openPlace ho).2)⟩
    | _ =>
      rw [h.answer hw (by simp) (by simp) (by simp)]
      simp_all [CopyStore.step, StateOp.write?]

theorem after (h : Refines l s) (ops : List StateOp) : Refines (l.after ops) (s.after ops) := by
  induction ops generalizing l s with
  | nil => exact h
  | cons op rest ih => exact ih (h.step op).2

theorem trace (h : Refines l s) (ops : List StateOp) : l.trace ops = s.trace ops := by
  induction ops generalizing l s with
  | nil => rfl
  | cons op rest ih =>
    obtain ⟨answer, next⟩ := h.step op
    rw [Ledger.trace, CopyStore.trace, answer, ih next, Ledger.openSnapshots, next.size]
    rfl

end Refines

theorem refines_after (txHash : Bytes) (ops : List StateOp) :
    Refines ((Ledger.start txHash).after ops) ((CopyStore.start txHash).after ops) :=
  (Refines.start txHash).after ops

/-! ### Snapshots that stay open -/

/-- More than `n` snapshots are open before and behind every step of a run, so the one at place `n`
is never released. -/
def Ledger.HoldsOpen (n : Nat) (l : Ledger) : List StateOp → Prop
  | [] => n < l.openSnapshots
  | op :: rest => n < l.openSnapshots ∧ (l.step op).2.HoldsOpen n rest

instance Ledger.decidableHoldsOpen (n : Nat) (l : Ledger) (ops : List StateOp) :
    Decidable (l.HoldsOpen n ops) :=
  match ops with
  | [] => inferInstanceAs (Decidable (n < l.openSnapshots))
  | op :: rest =>
    have := (l.step op).2.decidableHoldsOpen n rest
    inferInstanceAs (Decidable (_ ∧ _))

theorem Ledger.HoldsOpen.now {n : Nat} {l : Ledger} {ops : List StateOp} (h : l.HoldsOpen n ops) :
    n < l.openSnapshots := by
  cases ops with
  | nil => exact h
  | cons op rest => exact h.1

/-- An operation leaves the copies alone, adds one at the end, or forgets those from its id on. -/
theorem CopyStore.step_cases (s : CopyStore) (op : StateOp) :
    (∃ c, (s.step op).2 = { s with contents := c }) ∨
      (op = .snapshot ∧ s.step op = s.take) ∨
      ∃ (n : Nat) (id : Datum) (c : Contents), (op = .revert id ∨ op = .discard id) ∧
        id.integer? = some n ∧ n < s.copies.length ∧
        (s.step op).2 = { s with contents := c, copies := s.copies.take n } := by
  cases hw : op.write? with
  | some write =>
    rw [s.step_of_write hw]
    left
    cases write with
    | error fault => exact ⟨_, rfl⟩
    | ok w =>
      simp only [bind, Except.bind]
      cases s.contents.perform w <;> exact ⟨_, rfl⟩
  | none =>
    cases op with
    | snapshot => exact .inr (.inl ⟨rfl, rfl⟩)
    | revert id =>
      simp only [CopyStore.step]
      cases ho : s.openId id with
      | error fault => exact .inl ⟨_, rfl⟩
      | ok n =>
        obtain ⟨named, lt⟩ := integer?_of_openPlace ho
        exact .inr (.inr ⟨n, id, _, .inl rfl, named, lt, rfl⟩)
    | discard id =>
      simp only [CopyStore.step]
      cases ho : s.openId id with
      | error fault => exact .inl ⟨_, rfl⟩
      | ok n =>
        obtain ⟨named, lt⟩ := integer?_of_openPlace ho
        exact .inr (.inr ⟨n, id, _, .inr rfl, named, lt, rfl⟩)
    | _ => exact .inl ⟨s.contents, by simp_all [CopyStore.step, StateOp.write?]⟩

/-- A copy that is not forgotten stays what it is. -/
theorem CopyStore.copy_kept {s : CopyStore} {op : StateOp} {n : Nat} (before : n < s.copies.length)
    (behind : n < (s.step op).2.copies.length) : (s.step op).2.copies[n]? = s.copies[n]? := by
  rcases s.step_cases op with ⟨c, same⟩ | ⟨_, more⟩ | ⟨m, id, c, _, _, _, fewer⟩
  · rw [same]
  · rw [more]
    exact List.getElem?_append_left before
  · rw [fewer] at behind ⊢
    rw [List.length_take] at behind
    exact List.getElem?_take_of_lt (by omega)

theorem Refines.copy_held {l : Ledger} {s : CopyStore} (h : Refines l s) {n : Nat}
    {ops : List StateOp} (held : l.HoldsOpen n ops) : (s.after ops).copies[n]? = s.copies[n]? := by
  induction ops generalizing l s with
  | nil => rfl
  | cons op rest ih =>
    have next := (h.step op).2
    rw [CopyStore.after, ih next held.2]
    exact CopyStore.copy_kept (h.size ▸ held.1) (next.size ▸ held.2.now)

/-- The copy of a snapshot that stays open is still there. -/
theorem Refines.copy_of_snapshot {l : Ledger} {s : CopyStore} (h : Refines l s)
    {later : List StateOp} (held : (l.step .snapshot).2.HoldsOpen l.openSnapshots later) :
    ((s.step .snapshot).2.after later).copies[l.openSnapshots]? = some s.contents := by
  rw [(h.step .snapshot).2.copy_held held, CopyStore.step, CopyStore.take, Ledger.openSnapshots,
    h.size, List.getElem?_concat_length]

/-- Reverting to an open snapshot brings back the contents that were copied for it. -/
theorem Refines.step_revert {l : Ledger} {s : CopyStore} (h : Refines l s) {n : Nat} {c : Contents}
    (copy : s.copies[n]? = some c) :
    ∃ l', l.step (.revert (.ofNat n)) = (.ok .null, l') ∧ l'.contents.Same c ∧
      l'.openSnapshots = n ∧ Refines l' { s with contents := c, copies := s.copies.take n } := by
  obtain ⟨hlt, hget⟩ := List.getElem?_eq_some_iff.mp copy
  have put : s.step (.revert (.ofNat n)) =
      (.ok .null, { s with contents := c, copies := s.copies.take n }) := by
    simp only [CopyStore.step, CopyStore.openId_eq, openPlace_ofNat hlt, bind, Except.bind,
      CopyStore.putBack, List.getD_eq_getElem _ _ hlt, hget]
    rfl
  obtain ⟨answer, next⟩ := h.step (.revert (.ofNat n))
  rw [put] at answer next
  refine ⟨_, Prod.ext answer rfl, next.contents, ?_, next⟩
  rw [Ledger.openSnapshots, next.size, List.length_take]
  omega

/-- Discarding an open snapshot changes no contents. -/
theorem Refines.step_discard {l : Ledger} {s : CopyStore} (h : Refines l s) {n : Nat}
    (open_ : n < s.copies.length) :
    l.step (.discard (.ofNat n)) = (.ok .null, l.dropMarks n) ∧
      Refines (l.dropMarks n) (s.forget n) := by
  refine ⟨?_, h.discard (h.size ▸ open_)⟩
  simp only [Ledger.step, h.openId, CopyStore.openId_eq, openPlace_ofNat open_]
  rfl

/-! ### Every run -/

/-- A ledger answers every run as the store of copies does, with the same snapshots open behind each
step and contents that read the same. A snapshot that stays open can be reverted to, whatever was
done in between, and brings back the contents that it was taken of. -/
theorem journal_refines_copies (txHash : Bytes) (ops : List StateOp) :
    (Ledger.start txHash).trace ops = (CopyStore.start txHash).trace ops ∧
    ((Ledger.start txHash).after ops).contents.Same ((CopyStore.start txHash).after ops).contents ∧
    ∀ earlier later, ops = earlier ++ .snapshot :: later →
      let taken := (Ledger.start txHash).after earlier
      (taken.step .snapshot).2.HoldsOpen taken.openSnapshots later →
      ∃ reverted,
        ((Ledger.start txHash).after ops).step (.revert (.ofNat taken.openSnapshots)) =
          (.ok .null, reverted) ∧
        reverted.contents.Same taken.contents ∧ reverted.openSnapshots = taken.openSnapshots := by
  refine ⟨(Refines.start txHash).trace ops, (refines_after txHash ops).contents, ?_⟩
  intro earlier later split taken held
  have h := refines_after txHash earlier
  have copy := h.copy_of_snapshot held
  obtain ⟨reverted, step, same, size, _⟩ := ((h.step .snapshot).2.after later).step_revert copy
  refine ⟨reverted, ?_, same.trans h.contents.symm, size⟩
  rw [split, Ledger.after_append]
  exact step

/-- A snapshot under a nested one, a released one and a refused write. -/
theorem journal_refines_copies_nested :
    let account := Datum.ofBytes (Bytes.numeral addressSize 1)
    let word := fun n => Datum.ofBytes (Bytes.numeral wordSize n)
    let earlier := [StateOp.setNonce account (.int 1), .setState account (word 0) (word 7)]
    let later := [StateOp.setState account (word 0) (word 8), .snapshot,
      .addBalance account (.int 5), .discard (.int 1), .setPredicates account .null,
      .addLog account (.list [word 3]) (word 4) (.int 9)]
    let taken := (Ledger.start zeroWord).after earlier
    (taken.step .snapshot).2.HoldsOpen taken.openSnapshots later ∧
    ∃ reverted,
      ((Ledger.start zeroWord).after (earlier ++ .snapshot :: later)).step
          (.revert (.ofNat taken.openSnapshots)) = (.ok .null, reverted) ∧
        reverted.contents.Same taken.contents ∧ reverted.openSnapshots = taken.openSnapshots := by
  intro account word earlier later taken
  have held : (taken.step .snapshot).2.HoldsOpen taken.openSnapshots later := by decide +kernel
  exact ⟨held, (journal_refines_copies zeroWord _).2.2 earlier later rfl held⟩

end SeededDraws
