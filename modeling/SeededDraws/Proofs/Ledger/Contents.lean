import SeededDraws.Proofs.Table
import SeededDraws.Store.Ledger
/-!
# Contents and undo records

Undoing a write may leave a slot table behind that was not there before, an empty one. So contents
are compared by what can be read of them, and the order `Covers` keeps track of the tables that an
undo record relies on.
-/

namespace SeededDraws.Contents

/-- Contents that no read tells apart. -/
structure Same (c d : Contents) : Prop where
  accounts : c.accounts = d.accounts
  slots : ∀ address, c.slots address = d.slots address
  logs : c.logs = d.logs
  predicates : c.predicates = d.predicates

namespace Same

theorem refl (c : Contents) : c.Same c := ⟨rfl, fun _ => rfl, rfl, rfl⟩

theorem symm {c d : Contents} (h : c.Same d) : d.Same c :=
  ⟨h.accounts.symm, fun a => (h.slots a).symm, h.logs.symm, h.predicates.symm⟩

theorem trans {c d e : Contents} (h : c.Same d) (k : d.Same e) : c.Same e :=
  ⟨h.accounts.trans k.accounts, fun a => (h.slots a).trans (k.slots a), h.logs.trans k.logs,
    h.predicates.trans k.predicates⟩

theorem word {c d : Contents} (h : c.Same d) (address key : Bytes) :
    c.word address key = d.word address key := by
  rw [Contents.word, Contents.word, h.slots]

theorem account {c d : Contents} (h : c.Same d) (address : Bytes) :
    c.account address = d.account address := by
  rw [Contents.account, Contents.account, h.accounts]

end Same

/-! ### Slot tables -/

theorem slots_insert (c : Contents) (address other : Bytes) (slots : Table Bytes) :
    ({ c with storage := c.storage.insert address slots } : Contents).slots other =
      if other = address then slots else c.slots other := by
  simp only [Contents.slots, Table.find?_insert]
  split <;> rfl

theorem slots_of_find? {c : Contents} {address : Bytes} {slots : Table Bytes}
    (h : c.storage.find? address = some slots) : c.slots address = slots := by
  rw [Contents.slots, h, Option.getD_some]

/-! ### Writes on contents that read the same -/

namespace Same

variable {c d : Contents}

theorem putSlot (h : c.Same d) (address key value : Bytes) :
    (c.putSlot address key value).Same (d.putSlot address key value) where
  accounts := h.accounts
  slots other := by
    simp only [Contents.putSlot]
    rw [slots_insert, slots_insert, h.slots, h.slots]
  logs := h.logs
  predicates := h.predicates

theorem putAccount (h : c.Same d) (address : Bytes) (a : Account) :
    (c.putAccount address a).Same (d.putAccount address a) where
  accounts := by
    simp only [Contents.putAccount]
    rw [h.accounts]
  slots := h.slots
  logs := h.logs
  predicates := h.predicates

theorem appendLog (h : c.Same d) (entry : LogEntry) :
    ({ c with logs := c.logs ++ [entry] } : Contents).Same
      { d with logs := d.logs ++ [entry] } where
  accounts := h.accounts
  slots := h.slots
  logs := by rw [h.logs]
  predicates := h.predicates

theorem putPredicates (h : c.Same d) (address : Bytes) (predicates : List Bytes) :
    (c.putPredicates address predicates).Same (d.putPredicates address predicates) where
  accounts := h.accounts
  slots := h.slots
  logs := h.logs
  predicates := by
    simp only [Contents.putPredicates]
    rw [h.predicates]

end Same

/-! ### Undoing -/

/-- `d` reads as `c` does and has at least its slot tables. -/
structure Covers (d c : Contents) : Prop extends Same d c where
  tables : ∀ address, (c.storage.find? address).isSome → (d.storage.find? address).isSome

theorem Covers.refl (c : Contents) : c.Covers c := ⟨.refl c, fun _ h => h⟩

theorem undo_slot {c : Contents} {address : Bytes} {slots : Table Bytes}
    (h : c.storage.find? address = some slots) (key : Bytes) (before : Option Bytes) :
    c.undo (.slot address key before) =
      .ok { c with storage := c.storage.insert address (slots.restore key before) } := by
  rw [Contents.undo, h]
  cases before <;> rfl

theorem undo_account (c : Contents) (address : Bytes) (before : Option Account) :
    c.undo (.account address before) =
      .ok { c with accounts := c.accounts.restore address before } := by
  cases before <;> rfl

theorem undo_predicates (c : Contents) (address : Bytes) (before : Option (List Bytes)) :
    c.undo (.predicates address before) =
      .ok { c with predicates := c.predicates.restore address before } := by
  cases before <;> rfl

/-- A record that can be undone can be undone on contents that cover the given ones. -/
theorem undo_covers {c c' d : Contents} {u : Undo} (covers : d.Covers c)
    (undone : c.undo u = .ok c') : ∃ d', d.undo u = .ok d' ∧ d'.Covers c' := by
  cases u with
  | slot address key before =>
    cases hc : c.storage.find? address with
    | none =>
      rw [Contents.undo, hc] at undone
      cases undone
    | some slots =>
      rw [undo_slot hc] at undone
      cases undone
      obtain ⟨others, hd⟩ := Option.isSome_iff_exists.mp (covers.tables address (by rw [hc]; rfl))
      have hslots : others = slots := by
        rw [← slots_of_find? hd, ← slots_of_find? hc]
        exact covers.slots address
      refine ⟨_, undo_slot hd key before, ⟨covers.accounts, ?_, covers.logs, covers.predicates⟩, ?_⟩
      · intro other
        rw [slots_insert, slots_insert, hslots, covers.slots]
      · intro other present
        simp only [Table.find?_insert] at present ⊢
        split
        · rfl
        · next hne =>
          rw [if_neg hne] at present
          exact covers.tables other present
  | account address before =>
    rw [undo_account] at undone
    cases undone
    refine ⟨_, undo_account d address before, ⟨?_, covers.slots, covers.logs, covers.predicates⟩,
      covers.tables⟩
    simp only [covers.accounts]
  | log =>
    cases hl : c.logs.isEmpty with
    | true =>
      rw [Contents.undo, if_pos hl] at undone
      cases undone
    | false =>
      rw [Contents.undo, if_neg (by simp [hl])] at undone
      cases undone
      refine ⟨{ d with logs := d.logs.dropLast }, ?_,
        ⟨covers.accounts, covers.slots, ?_, covers.predicates⟩, covers.tables⟩
      · rw [Contents.undo, covers.logs, if_neg (by simp [hl])]
      · simp only [covers.logs]
  | predicates address before =>
    rw [undo_predicates] at undone
    cases undone
    refine ⟨_, undo_predicates d address before, ⟨covers.accounts, covers.slots, covers.logs, ?_⟩,
      covers.tables⟩
    simp only [covers.predicates]

theorem undoAll_cons (c : Contents) (u : Undo) (records : List Undo) :
    c.undoAll (u :: records) = (c.undo u).bind fun d => d.undoAll records := by
  rw [undoAll, List.foldlM_cons]
  rfl

theorem undoAll_append (c : Contents) (newer older : List Undo) :
    c.undoAll (newer ++ older) = (c.undoAll newer).bind fun d => d.undoAll older := by
  rw [undoAll, List.foldlM_append]
  rfl

theorem undoAll_covers {c c' d : Contents} {records : List Undo} (covers : d.Covers c)
    (undone : c.undoAll records = .ok c') : ∃ d', d.undoAll records = .ok d' ∧ d'.Covers c' := by
  induction records generalizing c d with
  | nil =>
    cases undone
    exact ⟨d, rfl, covers⟩
  | cons u rest ih =>
    rw [undoAll_cons] at undone
    cases hu : c.undo u with
    | error fault =>
      rw [hu] at undone
      cases undone
    | ok after =>
      rw [hu] at undone
      obtain ⟨after', hd, covers'⟩ := undo_covers covers hu
      obtain ⟨d', hrest, covers''⟩ := ih covers' undone
      refine ⟨d', ?_, covers''⟩
      rw [undoAll_cons, hd]
      exact hrest

/-! ### What a record takes back -/

/-- The record takes `after` back to contents that cover `before`. -/
def TakesBack (u : Undo) (after before : Contents) : Prop :=
  ∃ d, after.undo u = .ok d ∧ d.Covers before

theorem takesBack_putSlot (c : Contents) (address key value : Bytes) :
    TakesBack (.slot address key ((c.slots address).find? key)) (c.putSlot address key value)
      c := by
  have held : (c.putSlot address key value).storage.find? address =
      some ((c.slots address).insert key value) := Table.find?_insert_self ..
  refine ⟨_, undo_slot held key _, ⟨rfl, ?_, rfl, rfl⟩, ?_⟩
  · intro other
    rw [slots_insert, Table.restore_insert, putSlot, slots_insert]
    split
    · next h => rw [h]
    · rfl
  · intro other present
    simp only [putSlot, Table.find?_insert]
    split
    · rfl
    · exact present

theorem takesBack_putAccount (c : Contents) (address : Bytes) (a : Account) :
    TakesBack (.account address (c.accounts.find? address)) (c.putAccount address a) c := by
  refine ⟨_, undo_account .., ⟨?_, fun _ => rfl, rfl, rfl⟩, fun _ h => h⟩
  exact Table.restore_insert ..

theorem takesBack_log (c : Contents) (entry : LogEntry) :
    TakesBack .log { c with logs := c.logs ++ [entry] } c := by
  refine ⟨c, ?_, .refl c⟩
  rw [undo, if_neg (by simp), List.dropLast_concat]

theorem takesBack_putPredicates (c : Contents) (address : Bytes) (predicates : List Bytes) :
    TakesBack (.predicates address (c.predicates.find? address))
      (c.putPredicates address predicates) c := by
  refine ⟨_, undo_predicates .., ⟨rfl, fun _ => rfl, rfl, ?_⟩, fun _ h => h⟩
  exact Table.restore_insert ..

/-- The record of a list that was not put does no harm. -/
theorem takesBack_refused (c : Contents) (address : Bytes) :
    TakesBack (.predicates address (c.predicates.find? address)) c c := by
  refine ⟨_, undo_predicates .., ⟨rfl, fun _ => rfl, rfl, ?_⟩, fun _ h => h⟩
  exact Table.restore_find? ..

end SeededDraws.Contents
