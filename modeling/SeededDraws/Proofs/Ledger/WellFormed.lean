import SeededDraws.Proofs.Fault
import SeededDraws.Proofs.Ledger.Refinement
/-!
# Well-formed ledgers

Whatever is done to a ledger, its keys and words have their sizes and its numbers stay within their
ranges. An undo record holds what stood in the contents when it was made, so the bounds are carried
along the journal, and a revert finds nothing there that would break them.
-/

namespace SeededDraws

namespace Table

variable {α : Type} {t : Table α} {p : Bytes → α → Prop} {key : Bytes}

/-- What holds of every entry. -/
def Forall (t : Table α) (p : Bytes → α → Prop) : Prop := ∀ key x, t.find? key = some x → p key x

theorem forall_empty (p : Bytes → α → Prop) : (empty : Table α).Forall p := by
  intro key x found
  cases found

theorem Forall.restore (all : t.Forall p) {before : Option α}
    (good : ∀ x, before = some x → p key x) : (t.restore key before).Forall p := by
  intro other x found
  rw [find?_restore] at found
  split at found
  · next same => exact same ▸ good x found
  · exact all other x found

theorem Forall.insert (all : t.Forall p) {x : α} (good : p key x) :
    (t.insert key x).Forall p := by
  have put : (t.restore key (some x)).Forall p :=
    all.restore fun _ same => Option.some.inj same ▸ good
  exact put

end Table

/-! ### What is read of arguments -/

/-- The datum is an integer, or a truth value, that fits eight bytes. -/
def Datum.IsNonce (d : Datum) : Prop := ∃ k : Nat, d.integer? = some (k : Int) ∧ k ≤ maxUint64

theorem isNonce_of_checkNonce {d nonce : Datum} (checked : Ledger.checkNonce d = .ok nonce) :
    nonce.IsNonce := by
  rw [Ledger.checkNonce] at checked
  cases named : d.integer? with
  | none =>
    rw [named] at checked
    cases checked
  | some n =>
    simp only [named] at checked
    by_cases range : 0 ≤ n ∧ n ≤ (maxUint64 : Int)
    · rw [if_pos range] at checked
      cases checked
      refine ⟨n.toNat, ?_, by omega⟩
      rw [named, Int.toNat_of_nonneg range.1]
    · rw [if_neg range] at checked
      cases checked

theorem Datum.exactBytes_eq_ok {name : String} {size : Nat} {d : Datum} {b : Bytes} :
    d.exactBytes name size = .ok b ↔ d.bytes? = some b ∧ b.length = size := by
  rw [exactBytes, someBytes, bytesOr]
  cases d.bytes? with
  | none => simp [bind, Except.bind]
  | some held =>
    simp only [bind, Except.bind]
    constructor
    · intro read
      split at read
      · next sized =>
        cases read
        exact ⟨rfl, sized⟩
      · cases read
    · rintro ⟨same, sized⟩
      cases same
      rw [if_pos sized]

theorem Ledger.length_addressOf {d : Datum} {address : Bytes}
    (read : addressOf d = .ok address) : address.length = addressSize :=
  (Datum.exactBytes_eq_ok.mp read).2

theorem Ledger.length_wordOf {name : String} {d : Datum} {word : Bytes}
    (read : wordOf name d = .ok word) : word.length = wordSize :=
  (Datum.exactBytes_eq_ok.mp read).2

/-! ### Contents -/

def Account.Fits (a : Account) : Prop := a.nonce.IsNonce ∧ a.balance ≤ maxUint256

theorem Account.fits_fresh : fresh.Fits := ⟨⟨0, rfl, Nat.zero_le _⟩, Nat.zero_le _⟩

def LogEntry.Fits (e : LogEntry) : Prop :=
  e.address.length = addressSize ∧ ∀ topic ∈ e.topics, topic.length = wordSize

theorem Ledger.fits_logEntryOf {address topics data block : Datum} {entry : LogEntry}
    (read : logEntryOf address topics data block = .ok entry) : entry.Fits := by
  obtain ⟨a, address, read⟩ := Outcome.bind_eq_ok.mp read
  obtain ⟨items, _, read⟩ := Outcome.bind_eq_ok.mp read
  obtain ⟨t, words, read⟩ := Outcome.bind_eq_ok.mp read
  obtain ⟨d, _, read⟩ := Outcome.bind_eq_ok.mp read
  obtain ⟨b, _, read⟩ := Outcome.bind_eq_ok.mp read
  cases read
  exact ⟨length_addressOf address, Outcome.forall_of_mapM words fun _ _ => length_wordOf⟩

/-- Keys and values are words. -/
def Table.OfWords (slots : Table Bytes) : Prop :=
  slots.Forall fun key value => key.length = wordSize ∧ value.length = wordSize

structure Contents.WellFormed (c : Contents) : Prop where
  accounts : c.accounts.Forall fun address a => address.length = addressSize ∧ a.Fits
  storage : c.storage.Forall fun address slots => address.length = addressSize ∧ slots.OfWords
  logs : ∀ e ∈ c.logs, e.Fits
  predicates : c.predicates.Forall fun address _ => address.length = addressSize

/-- What the record puts back is within the bounds. -/
def Undo.WellFormed : Undo → Prop
  | .slot address key before => address.length = addressSize ∧ key.length = wordSize ∧
    ∀ value, before = some value → value.length = wordSize
  | .account address before => address.length = addressSize ∧ ∀ a, before = some a → a.Fits
  | .log => True
  | .predicates address _ => address.length = addressSize

namespace Contents

theorem wellFormed_empty : empty.WellFormed :=
  ⟨Table.forall_empty _, Table.forall_empty _, List.forall_mem_nil _, Table.forall_empty _⟩

namespace WellFormed

variable {c d : Contents} {address key : Bytes}

theorem account (wf : c.WellFormed) (address : Bytes) : (c.account address).Fits := by
  rw [Contents.account]
  cases found : c.accounts.find? address with
  | none => exact Account.fits_fresh
  | some a => exact (wf.accounts address a found).2

theorem slots (wf : c.WellFormed) (address : Bytes) : (c.slots address).OfWords := by
  rw [Contents.slots]
  cases found : c.storage.find? address with
  | none => exact Table.forall_empty _
  | some slots => exact (wf.storage address slots found).2

theorem length_word (wf : c.WellFormed) (address key : Bytes) :
    (c.word address key).length = wordSize := by
  rw [Contents.word]
  cases found : (c.slots address).find? key with
  | none => exact Bytes.length_zeros wordSize
  | some value => exact (wf.slots address key value found).2

theorem putSlot (wf : c.WellFormed) {value : Bytes} (sized : address.length = addressSize)
    (word : key.length = wordSize ∧ value.length = wordSize) :
    (c.putSlot address key value).WellFormed :=
  { wf with storage := wf.storage.insert ⟨sized, (wf.slots address).insert word⟩ }

theorem putAccount (wf : c.WellFormed) (sized : address.length = addressSize) {a : Account}
    (fits : a.Fits) : (c.putAccount address a).WellFormed :=
  { wf with accounts := wf.accounts.insert ⟨sized, fits⟩ }

theorem appendLog (wf : c.WellFormed) {entry : LogEntry} (fits : entry.Fits) :
    ({ c with logs := c.logs ++ [entry] } : Contents).WellFormed :=
  { wf with logs := List.forall_mem_append.mpr ⟨wf.logs, List.forall_mem_singleton.mpr fits⟩ }

theorem putPredicates (wf : c.WellFormed) (sized : address.length = addressSize)
    (list : List Bytes) : (c.putPredicates address list).WellFormed :=
  { wf with predicates := wf.predicates.insert sized }

theorem undo (wf : c.WellFormed) {u : Undo} (good : u.WellFormed) (undone : c.undo u = .ok d) :
    d.WellFormed := by
  cases u with
  | slot address key before =>
    obtain ⟨sized, word, value⟩ := good
    cases found : c.storage.find? address with
    | none =>
      rw [Contents.undo, found] at undone
      cases undone
    | some slots =>
      rw [undo_slot found] at undone
      cases undone
      have words := (wf.storage address slots found).2
      have back : (slots.restore key before).OfWords :=
        words.restore fun v was => ⟨word, value v was⟩
      exact { wf with storage := wf.storage.insert ⟨sized, back⟩ }
  | account address before =>
    rw [undo_account] at undone
    cases undone
    exact { wf with accounts := wf.accounts.restore fun a was => ⟨good.1, good.2 a was⟩ }
  | log =>
    rw [Contents.undo] at undone
    split at undone
    · cases undone
    · cases undone
      exact { wf with logs := fun e held => wf.logs e ((List.dropLast_sublist _).subset held) }
  | predicates address before =>
    rw [undo_predicates] at undone
    cases undone
    exact { wf with predicates := wf.predicates.restore fun _ _ => good }

theorem undoAll (wf : c.WellFormed) {records : List Undo} (good : ∀ u ∈ records, u.WellFormed)
    (undone : c.undoAll records = .ok d) : d.WellFormed := by
  induction records generalizing c with
  | nil =>
    cases undone
    exact wf
  | cons u rest ih =>
    obtain ⟨first, later⟩ := List.forall_mem_cons.mp good
    rw [undoAll_cons] at undone
    obtain ⟨after, undone_u, undone⟩ := Outcome.bind_eq_ok.mp undone
    exact ih (wf.undo first undone_u) later undone

end WellFormed

end Contents

/-! ### Ledgers -/

namespace Ledger

structure WellFormed (l : Ledger) : Prop where
  contents : l.contents.WellFormed
  journal : ∀ u ∈ l.journal, u.WellFormed

namespace WellFormed

variable {l : Ledger} {address key : Bytes}

theorem start (txHash : Bytes) : (Ledger.start txHash).WellFormed :=
  ⟨Contents.wellFormed_empty, List.forall_mem_nil _⟩

theorem record (wf : l.WellFormed) {u : Undo} (good : u.WellFormed) : (l.record u).WellFormed := by
  rw [Ledger.record]
  split
  · exact wf
  · exact ⟨wf.contents, List.forall_mem_cons.mpr ⟨good, wf.journal⟩⟩

theorem undo_slot (wf : l.WellFormed) (sized : address.length = addressSize)
    (word : key.length = wordSize) :
    (Undo.slot address key ((l.contents.slots address).find? key)).WellFormed :=
  ⟨sized, word, fun value was => (wf.contents.slots address key value was).2⟩

theorem undo_account (wf : l.WellFormed) (sized : address.length = addressSize) :
    (Undo.account address (l.contents.accounts.find? address)).WellFormed :=
  ⟨sized, fun a was => (wf.contents.accounts address a was).2⟩

theorem putSlot (wf : l.WellFormed) {value : Bytes} (sized : address.length = addressSize)
    (word : key.length = wordSize ∧ value.length = wordSize) :
    (l.putSlot address key value).WellFormed := by
  rw [Ledger.putSlot]
  simp only [Recorded.contents_record]
  exact ⟨wf.contents.putSlot sized word, (wf.record (wf.undo_slot sized word.1)).journal⟩

theorem putAccount (wf : l.WellFormed) (sized : address.length = addressSize) {a : Account}
    (fits : a.Fits) : (l.putAccount address a).WellFormed := by
  rw [Ledger.putAccount]
  simp only [Recorded.contents_record]
  exact ⟨wf.contents.putAccount sized fits, (wf.record (wf.undo_account sized)).journal⟩

theorem appendLog (wf : l.WellFormed) {entry : LogEntry} (fits : entry.Fits) :
    (l.appendLog entry).WellFormed := by
  rw [Ledger.appendLog]
  simp only [Recorded.contents_record]
  exact ⟨wf.contents.appendLog fits, (wf.record (u := .log) trivial).journal⟩

theorem dropMarks (wf : l.WellFormed) (id : Nat) : (l.dropMarks id).WellFormed := by
  refine ⟨wf.contents, ?_⟩
  rw [Ledger.dropMarks]
  simp only []
  split
  · exact List.forall_mem_nil _
  · exact wf.journal

theorem revertTo (wf : l.WellFormed) {id : Nat} {after : Ledger}
    (reverted : l.revertTo id = .ok after) : after.WellFormed := by
  obtain ⟨contents, undone, reverted⟩ := Outcome.bind_eq_ok.mp reverted
  cases reverted
  apply dropMarks
  constructor
  · exact wf.contents.undoAll (fun u held => wf.journal u (List.mem_of_mem_take held)) undone
  · exact fun u held => wf.journal u (List.mem_of_mem_drop held)

theorem write (wf : l.WellFormed) {outcome : Outcome Ledger}
    (good : ∀ after, outcome = .ok after → after.WellFormed) :
    (l.write outcome).2.WellFormed := by
  cases outcome with
  | error fault => exact wf
  | ok after => exact good after rfl

theorem step (wf : l.WellFormed) (op : StateOp) : (l.step op).2.WellFormed := by
  cases op with
  | setState address key value =>
    apply wf.write
    intro after made
    obtain ⟨a, address, made⟩ := Outcome.bind_eq_ok.mp made
    obtain ⟨k, key, made⟩ := Outcome.bind_eq_ok.mp made
    obtain ⟨v, value, made⟩ := Outcome.bind_eq_ok.mp made
    cases made
    exact wf.putSlot (length_addressOf address) ⟨length_wordOf key, length_wordOf value⟩
  | setNonce address nonce =>
    apply wf.write
    intro after made
    obtain ⟨n, checked, made⟩ := Outcome.bind_eq_ok.mp made
    obtain ⟨a, address, made⟩ := Outcome.bind_eq_ok.mp made
    cases made
    have fits := wf.contents.account a
    exact wf.putAccount (length_addressOf address) ⟨isNonce_of_checkNonce checked, fits.2⟩
  | addBalance address amount =>
    apply wf.write
    intro after made
    obtain ⟨n, _, made⟩ := Outcome.bind_eq_ok.mp made
    obtain ⟨a, address, made⟩ := Outcome.bind_eq_ok.mp made
    simp only [] at made
    split at made
    · cases made
    · next within =>
      cases made
      have fits := wf.contents.account a
      exact wf.putAccount (length_addressOf address) ⟨fits.1, Nat.not_lt.mp within⟩
  | createAccount address =>
    apply wf.write
    intro after made
    obtain ⟨a, address, made⟩ := Outcome.bind_eq_ok.mp made
    cases made
    split
    · exact wf
    · exact wf.putAccount (length_addressOf address) Account.fits_fresh
  | addLog address topics data block =>
    apply wf.write
    intro after made
    obtain ⟨entry, read, made⟩ := Outcome.bind_eq_ok.mp made
    cases made
    exact wf.appendLog (fits_logEntryOf read)
  | setPredicates address predicates =>
    simp only [Ledger.step]
    cases read : addressOf address with
    | error fault => exact wf
    | ok a =>
      have sized := length_addressOf read
      -- the record stands whether or not the list is put
      have noted := wf.record (u := .predicates a (l.contents.predicates.find? a)) sized
      apply noted.write
      intro after made
      obtain ⟨items, _, made⟩ := Outcome.bind_eq_ok.mp made
      obtain ⟨list, _, made⟩ := Outcome.bind_eq_ok.mp made
      cases made
      exact ⟨noted.contents.putPredicates sized list, noted.journal⟩
  | snapshot => exact ⟨wf.contents, wf.journal⟩
  | revert id =>
    apply wf.write
    intro after made
    obtain ⟨n, _, reverted⟩ := Outcome.bind_eq_ok.mp made
    exact wf.revertTo reverted
  | discard id =>
    apply wf.write
    intro after made
    obtain ⟨n, _, made⟩ := Outcome.bind_eq_ok.mp made
    cases made
    exact wf.dropMarks n
  | _ => exact wf

theorem after (wf : l.WellFormed) (ops : List StateOp) : (l.after ops).WellFormed := by
  induction ops generalizing l with
  | nil => exact wf
  | cons op rest ih => exact ih (wf.step op)

end WellFormed

/-- Every ledger is well formed, whatever was done to it. -/
theorem wellFormed (txHash : Bytes) (history : List StateOp) :
    ((start txHash).after history).WellFormed :=
  (WellFormed.start txHash).after history

end Ledger

end SeededDraws
