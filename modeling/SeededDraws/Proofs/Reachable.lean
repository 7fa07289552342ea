import SeededDraws.Proofs.Contract.Trail
import SeededDraws.Proofs.Overlay
/-!
# Reachable states

Uses of the state, views of it and calls, with whatever their bodies do, lead from a fresh ledger to
ledgers that operations alone lead to. So all that holds of every ledger holds of every state on the
way, those in the middle of a call included.
-/

namespace SeededDraws

/-- The nonce can be encoded, and values are drawn with it. -/
def Datum.Encodes (nonce : Datum) : Prop :=
  ∃ k, readUint64 "nonce" nonce = .ok k ∧ ∀ (seed : Seed) (n : Nat),
    generateValues (.ofBytes seed.server) (.ofBytes seed.user) nonce (.ofNat n) = seed.draw k n

theorem Datum.IsNonce.encodes {nonce : Datum} (good : nonce.IsNonce) : nonce.Encodes := by
  obtain ⟨k, named, fits⟩ := good
  refine ⟨k, readUint64_of_integer? named fits, ?_⟩
  intro seed n
  exact generateValues_ofBytes seed n named fits

namespace Store

variable {s : Store} {l : Ledger} {txHash address : Bytes} {target : Datum}

/-! ### Reads -/

theorem getState_answer (on : s.base = .ledger l true) (handle : Handle)
    (read : Ledger.addressOf target = .ok address) {key : Datum} {k : Bytes}
    (word : Ledger.wordOf "key" key = .ok k) :
    (s.step handle (.getState target key)).1 = .ok (.ofBytes (l.contents.word address k)) := by
  rw [step_isRead on ⟨rfl, by simp, by simp⟩]
  simp only [Ledger.step, Ledger.reply, read, word]
  rfl

theorem exist_answer (on : s.base = .ledger l true) (handle : Handle)
    (read : Ledger.addressOf target = .ok address) :
    (s.step handle (.exist target)).1 = .ok (.bool (l.contents.accounts.contains address)) := by
  rw [step_isRead on ⟨rfl, by simp, by simp⟩]
  simp only [Ledger.step, Ledger.reply, read]
  rfl

theorem getNonce_answer (on : s.base = .ledger l true) (handle : Handle)
    (read : Ledger.addressOf target = .ok address) :
    (s.step handle (.getNonce target)).1 = .ok (l.contents.account address).nonce := by
  rw [step_isRead on (StateOp.isRead_getNonce target)]
  simp only [Ledger.step, Ledger.reply, read]
  rfl

/-! ### Grown stores -/

/-- The store stands on a ledger that operations alone lead to. -/
def Grown (txHash : Bytes) (s : Store) : Prop :=
  ∃ ops, s.base = .ledger ((Ledger.start txHash).after ops) true

namespace Grown

theorem start (txHash : Bytes) : (ofLedger (.start txHash)).Grown txHash := ⟨[], rfl⟩

theorem move (grown : s.Grown txHash) (m : Move) : (s.move m).Grown txHash := by
  obtain ⟨ops, on⟩ := grown
  cases m with
  | look => exact ⟨ops, (s.base_guard .base true).trans on⟩
  | use handle op =>
    rcases s.step_ledger on handle op with same | carried
    · exact ⟨ops, same⟩
    · refine ⟨ops ++ [op], ?_⟩
      rw [Ledger.after_append]
      exact carried

theorem past (grown : s.Grown txHash) (moves : List Move) (t : Nat) :
    (s.past moves t).Grown txHash :=
  keeps_afterMoves (fun _ m grown => grown.move m) s _ grown

theorem wellFormed (grown : s.Grown txHash) (on : s.base = .ledger l true) :
    l.contents.WellFormed := by
  obtain ⟨ops, same⟩ := grown
  rw [on] at same
  cases same
  exact (Ledger.wellFormed txHash ops).contents

/-- Whatever a store answers when it is asked for a nonce can be encoded. -/
theorem encodes (grown : s.Grown txHash) {handle : Handle} {nonce : Datum}
    (answer : (s.step handle (.getNonce target)).1 = .ok nonce) : nonce.Encodes := by
  obtain ⟨ops, on⟩ := id grown
  cases read : Ledger.addressOf target with
  | ok address =>
    rw [getNonce_answer on handle read] at answer
    cases answer
    exact ((grown.wellFormed on).account address).1.encodes
  | error fault =>
    rw [step_isRead on (StateOp.isRead_getNonce target)] at answer
    simp only [Ledger.step, Ledger.reply, read] at answer
    cases answer

end Grown

end Store

/-! ### Every state -/

/-- In every state on the way from a fresh ledger, inside of calls as well, all keys and words have
their sizes and all numbers are within their ranges. An account exists exactly if some move made it
that has not been undone. A word that is read has its size, and every nonce that is read can be
encoded, by whatever body. -/
theorem ledger_well_formed (txHash : Bytes) (metrics : Metrics) (notes : List Datum)
    (history : List Happening) :
    let fresh : World := ⟨.ofLedger (.start txHash), metrics, notes⟩
    let moves := fresh.trail history
    (fresh.behind history).store = fresh.store.past moves moves.length ∧
    ∀ t, let s := fresh.store.past moves t
      ∃ l, s.base = .ledger l true ∧ l.contents.WellFormed ∧
        (∀ address, l.contents.accounts.contains address = true ↔
          fresh.store.Stands moves address t) ∧
        (∀ (handle : Handle) (target : Datum) (address : Bytes),
          target.bytes? = some address → address.length = addressSize →
            (s.step handle (.exist target)).1 =
                .ok (.bool (l.contents.accounts.contains address)) ∧
              (∀ key k, key.bytes? = some k → k.length = wordSize → ∃ word,
                (s.step handle (.getState target key)).1 = .ok (.ofBytes word) ∧
                  word.length = wordSize) ∧
              ∃ nonce, (s.step handle (.getNonce target)).1 = .ok nonce ∧ nonce.Encodes) ∧
        ∀ (w : World) (r : Registry) (depth : Nat) (contract : Contract) (setting : Setting)
          (address caller input gas readOnly : Datum) (via : Access) (target nonce : Datum),
          w.store = s →
          .state via (.getNonce target) (.ok nonce) ∈
            contract.acts (r.enter setting depth) setting w address caller input gas readOnly →
          nonce.Encodes := by
  intro fresh moves
  refine ⟨?_, ?_⟩
  · rw [Store.past, List.take_length]
    exact fresh.store_behind history
  intro t s
  have grown : s.Grown txHash := (Store.Grown.start txHash).past moves t
  obtain ⟨ops, on⟩ := id grown
  have wf := grown.wellFormed on
  refine ⟨_, on, wf, ?_, ?_, ?_⟩
  · intro address
    obtain ⟨l, same, stands⟩ := Store.exists_iff_stands txHash moves address t
    rw [show s.base = .ledger l true from same] at on
    cases on
    exact stands
  · intro handle target address held sized
    have read : Ledger.addressOf target = .ok address :=
      Datum.exactBytes_eq_ok.mpr ⟨held, sized⟩
    refine ⟨Store.exist_answer on handle read, ?_, ?_⟩
    · intro key k given long
      have word : Ledger.wordOf "key" key = .ok k := Datum.exactBytes_eq_ok.mpr ⟨given, long⟩
      exact ⟨_, Store.getState_answer on handle read word, wf.length_word address k⟩
    · exact ⟨_, Store.getNonce_answer on handle read, (wf.account address).1.encodes⟩
  · intro w r depth contract setting address caller input gas readOnly via target nonce here held
    have start : w.store.Grown txHash := here ▸ grown
    obtain ⟨met, handle, grownThen, answer⟩ := contract.answered (r.leaves_enter setting depth)
      (fun _ m grown => grown.move m) setting w start held
    exact grownThen.encodes answer

/-- A call that makes an account and then fails: the account is there inside of the call only. -/
theorem ledger_well_formed_failing :
    let kept := Bytes.numeral addressSize 1
    let undone := Bytes.numeral addressSize 2
    let failing : Contract := ⟨[], some fun _ =>
      .state .guarded (.createAccount (.ofBytes undone)) fun _ => .fail (.bare .value)⟩
    let history := [Happening.move (.use .base (.createAccount (.ofBytes kept))),
      .call .empty 0 failing ⟨.base, none⟩ (.ofBytes kept) (.ofBytes kept) (.ofBytes []) (.int 9)
        (.bool false)]
    let fresh : World := ⟨.ofLedger (.start zeroWord), .fresh, []⟩
    let moves := fresh.trail history
    moves.length = 4 ∧ fresh.store.Stands moves kept 4 ∧ fresh.store.Stands moves undone 3 ∧
      ¬fresh.store.Stands moves undone 4 := by
  intro kept undone failing history fresh moves
  have every := (ledger_well_formed zeroWord .fresh [] history).2
  have stands : ∀ (address : Bytes) (t : Nat) (there : Bool), address.length = addressSize →
      ((fresh.store.past moves t).step .base (.exist (.ofBytes address))).1 = .ok (.bool there) →
      (there = true ↔ fresh.store.Stands moves address t) := by
    intro address t there sized answer
    obtain ⟨l, _, _, iff, reads, _⟩ := every t
    have same := (reads .base (.ofBytes address) address rfl sized).1.symm.trans answer
    cases same
    exact iff address
  refine ⟨by rfl, ?_, ?_, ?_⟩
  · exact (stands kept 4 true rfl rfl).mp rfl
  · exact (stands undone 3 true rfl rfl).mp rfl
  · exact fun there => Bool.noConfusion ((stands undone 4 false rfl rfl).mpr there)

end SeededDraws
