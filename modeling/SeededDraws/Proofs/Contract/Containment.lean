import SeededDraws.Proofs.Contract.Closing
import SeededDraws.Proofs.Contract.Transaction
import SeededDraws.Proofs.Host
import SeededDraws.Proofs.Ownership
/-!
# Failures and the calls they end

A call hands the failure of its body back as a result. Before that it reverts to the snapshot that
it took, on a state that the body could use as well. Whether a failure is contained is therefore a
matter of what that state answers last, and each kind of state has its own reasons to refuse. Bodies
that call other contracts are left out.
-/

namespace SeededDraws

/-! ### Ledgers and their views -/

namespace Store

/-- What goes through the handle may release the snapshot `n`: a view has to remember it. -/
def Trusts (s : Store) (n : Int) : Handle → Prop
  | .base => True
  | .view v => n ∈ s.viewAt v

variable {s : Store} {handle : Handle} {op : StateOp} {n : Nat}

theorem Sound.releases (sound : s.Sound) (handle : Handle) : s.releases handle = true := by
  obtain ⟨l, c, on, _⟩ := sound
  cases handle with
  | base =>
    rw [Store.releases, on]
    rfl
  | view v => rfl

/-- A ledger carries the release of a snapshot out if it is open. -/
theorem Sound.onBase_release (sound : s.Sound)
    (release : op = .revert (.ofNat n) ∨ op = .discard (.ofNat n)) :
    (s.onBase op).1 =
      if n < s.openSnapshots then .ok .null else .error (.value (.snapshot (.ofNat n))) := by
  obtain ⟨l, c, on, refines⟩ := sound
  have count : s.openSnapshots = c.copies.length := by
    rw [openSnapshots, on]
    exact refines.size
  have place : c.openId (.ofNat n) =
      if n < c.copies.length then .ok n else .error (.value (.snapshot (.ofNat n))) := by
    rw [CopyStore.openId_eq]
    split
    · next open_ => exact openPlace_ofNat open_
    · next closed =>
      have outside : placeAmong c.copies.length (.ofNat n) = .ok none := by
        rw [placeAmong_of_integer? (n := n) rfl, if_neg (by omega)]
      rw [openPlace, outside]
      rfl
  rw [onBase_ledger on, (refines.step op).1, count]
  rcases release with rfl | rfl
  · rw [CopyStore.step, place]
    split <;> rfl
  · rw [CopyStore.step, place]
    split <;> rfl

/-- A view passes on what names a snapshot that it remembers. -/
theorem Sound.step_trusted (sound : s.Sound) (trusted : s.Trusts n handle)
    (release : op = .revert (.ofNat n) ∨ op = .discard (.ofNat n)) :
    (s.step handle op).1 = (s.onBase op).1 := by
  obtain ⟨l, c, on, _⟩ := sound
  cases handle with
  | base => rfl
  | view v =>
    have own : (s.viewAt v).any (Datum.ofNat n).equalInt? = true :=
      List.any_eq_true.mpr ⟨n, trusted, (Datum.equalInt?_iff rfl).mpr rfl⟩
    rw [step, onView_release on v release, View.release_eq _ _ _ rfl, if_pos own,
      onBase_ledger on]

theorem Sound.step_distrusted (sound : s.Sound) (distrusted : ¬s.Trusts n handle)
    (release : op = .revert (.ofNat n) ∨ op = .discard (.ofNat n)) :
    s.step handle op = s.refuse op := by
  cases handle with
  | base => exact absurd trivial distrusted
  | view v =>
    refine (refused_iff sound release).mpr ⟨rfl, ?_⟩
    refine Bool.eq_false_iff.mpr fun own => distrusted ?_
    obtain ⟨m, held, equal⟩ := List.any_eq_true.mp own
    rw [← (Datum.equalInt?_iff rfl).mp equal] at held
    exact held

/-- A ledger has no failures. They come from views alone. -/
theorem Sound.release_plain_iff (sound : s.Sound)
    (release : op = .revert (.ofNat n) ∨ op = .discard (.ofNat n)) :
    (s.step handle op).1.Plain ↔ s.Trusts n handle := by
  by_cases trusted : s.Trusts n handle
  · refine iff_of_true ?_ trusted
    rw [sound.step_trusted trusted release, sound.onBase_release release]
    split
    · exact Outcome.plain_ok _
    · exact Outcome.plain_error.mpr (by simp)
  · refine iff_of_false ?_ trusted
    rw [sound.step_distrusted trusted release]
    exact fun plain => plain _ rfl

theorem Sound.release_eq_ok_iff (sound : s.Sound)
    (release : op = .revert (.ofNat n) ∨ op = .discard (.ofNat n)) :
    (∃ answer, (s.step handle op).1 = .ok answer) ↔
      s.Trusts n handle ∧ n < s.openSnapshots := by
  by_cases trusted : s.Trusts n handle
  · rw [sound.step_trusted trusted release, sound.onBase_release release]
    split
    · next open_ => exact iff_of_true ⟨_, rfl⟩ ⟨trusted, open_⟩
    · next closed =>
      refine iff_of_false ?_ fun both => closed both.2
      rintro ⟨answer, failed⟩
      cases failed
  · refine iff_of_false ?_ fun both => trusted both.1
    rw [sound.step_distrusted trusted release]
    rintro ⟨answer, failed⟩
    cases failed

end Store

namespace Contract

/-- On a ledger, with a snapshot that was open when the call began. -/
theorem finish_ledger {ended : Outcome Datum × Frame} {handle : Handle} {n : Nat}
    (sound : ended.2.world.store.Sound) :
    ((finish handle (.ofNat n) ended).1.Plain ↔ ended.2.world.store.Trusts n handle) ∧
      ∀ cause, ended.1 = .error (.failure cause) →
        (Reported (finish handle (.ofNat n) ended).1 cause ↔
          ended.2.world.store.Trusts n handle ∧ n < ended.2.world.store.openSnapshots ∧
            ended.2.Counts cause) := by
  have release := closing_release (.ofNat n) ended.1
  refine ⟨(finish_plain_iff (sound.releases handle)).trans (sound.release_plain_iff release), ?_⟩
  intro cause failed
  obtain ⟨outcome, f⟩ := ended
  cases failed
  refine reject_reported_iff.trans ?_
  rw [← and_assoc]
  exact and_congr_left' (sound.release_eq_ok_iff (.inl rfl))

end Contract

/-! ### Hosts -/

/-- On a host, with the id that it gave out for the snapshot. -/
theorem Contract.finish_host {ended : Outcome Datum × Frame} {host : HostState} {n : Int}
    (on : ended.2.world.store.base = .host host) :
    ((finish .base (.int n) ended).1.Plain ↔
        ∀ cause, ¬host.Raises (closing (.int n) ended.1) cause) ∧
      ∀ cause, ended.1 = .error (.failure cause) →
        (Reported (finish .base (.int n) ended).1 cause ↔
          (∃ answer, (host.step (.revert (.int n))).1 = .ok answer) ∧ ended.2.Counts cause) := by
  have last : ∀ op, (ended.2.world.step .base op).1 = (host.step op).1 := by
    intro op
    rw [World.step, Store.step, Store.onBase_host on]
  refine ⟨?_, ?_⟩
  · have releases : ended.2.world.store.releases .base = true := by
      rw [Store.releases, on]
      rfl
    refine (finish_plain_iff releases).trans ?_
    rw [last]
    refine forall_congr' fun cause => not_congr ?_
    exact HostState.release_eq_failure (closing_release (.int n) ended.1)
  · intro cause failed
    obtain ⟨outcome, f⟩ := ended
    cases failed
    refine reject_reported_iff.trans ?_
    rw [last]

/-! ### Whole calls -/

theorem Store.Sound.guard {s : Store} (sound : s.Sound) (handle : Handle) (readOnly : Bool) :
    (s.guard handle readOnly).2.Sound := by
  obtain ⟨l, c, on, refines⟩ := sound
  exact ⟨l, c, (s.base_guard handle readOnly).trans on, refines⟩

namespace Contract

variable {c : Contract} {callee : Callee} {setting : Setting} {context : CallContext} {f : Frame}

theorem execute_sound (uses : c.Uses (fun _ _ => True) setting context f)
    (sound : f.world.store.Sound) : (c.execute callee setting context f).2.world.store.Sound := by
  have keeps := @execute_keeps (fun _ _ => True) Store.Sound
  refine keeps ?_ ?_ c callee setting context f uses sound
  · intro s handle readOnly sound
    exact sound.guard handle readOnly
  · intro s handle op _ sound
    exact sound.move (.use handle op)

theorem execute_host (uses : c.Uses (fun _ _ => True) setting context f)
    (on : ∃ host, f.world.store.base = .host host) :
    ∃ host, (c.execute callee setting context f).2.world.store.base = .host host := by
  have keeps := @execute_keeps (fun _ _ => True) fun s => ∃ host, s.base = .host host
  refine keeps ?_ ?_ c callee setting context f uses on
  · intro s handle readOnly on
    rw [s.base_guard handle readOnly]
    exact on
  · intro s handle op _ on
    exact Store.step_host on handle op

theorem limit_execute (c : Contract) (callee : Callee) (setting : Setting) (context : CallContext)
    (f : Frame) : (c.execute callee setting context f).2.meter.limit = f.meter.limit := by
  rw [execute]
  split
  · rfl
  · exact Body.limit_run _ f

end Contract

/-- The snapshot of a call is the newest one, through whatever handle it is taken. -/
theorem World.step_snapshot_ledger (l : Ledger) (views : List View) (metrics : Metrics)
    (notes : List Datum) (handle : Handle) :
    ((⟨⟨.ledger l true, views⟩, metrics, notes⟩ : World).step handle .snapshot).1 =
      .ok (.ofNat l.openSnapshots) := by
  cases handle <;> rfl

/-- What becomes of a failure depends on how the state lets the call close. On a ledger none leaves
the call, and that of the body is handed back if the snapshot of the call is still open and the
failure can be counted. Through a view the same holds if the view still remembers the snapshot, or
else its write protection leaves the call. A host may raise failures of its own, and these leave the
call if they come from its first or its last step. -/
theorem failures_contained_iff (c : Contract) (callee : Callee) (block : Option BlockEnv)
    (views : List View) (metrics : Metrics) (notes : List Datum)
    (address caller input gas readOnly : Datum) (context : CallContext)
    (made : CallContext.make caller address input gas readOnly = .ok context) :
    (∀ (txHash : Bytes) (history : List StateOp) (handle : Handle),
      let before := (Ledger.start txHash).after history
      let w : World := ⟨⟨.ledger before true, views⟩, metrics, notes⟩
      let start := Contract.entry ⟨handle, block⟩ context w
      let body := c.execute callee ⟨handle, block⟩ context start
      let call := c.run callee ⟨handle, block⟩ w address caller input gas readOnly
      c.Uses (fun _ _ => True) ⟨handle, block⟩ context start →
      (call.1.Plain ↔ body.2.world.store.Trusts before.openSnapshots handle) ∧
        ∀ cause, body.1 = .error (.failure cause) →
          (Reported call.1 cause ↔
            body.2.world.store.Trusts before.openSnapshots handle ∧
              before.openSnapshots < body.2.world.store.openSnapshots ∧ body.2.Counts cause)) ∧
    ∀ host : HostState,
      let w : World := ⟨⟨.host host, views⟩, metrics, notes⟩
      let start := Contract.entry ⟨.base, block⟩ context w
      let body := c.execute callee ⟨.base, block⟩ context start
      let call := c.run callee ⟨.base, block⟩ w address caller input gas readOnly
      (∀ fault, (host.step .snapshot).1 = .error fault →
        call.1 = .error fault ∧ ∀ cause, fault = .failure cause → host.Raises .snapshot cause) ∧
      ∀ id, (host.step .snapshot).1 = .ok id →
        c.Uses (fun _ _ => True) ⟨.base, block⟩ context start →
        ∃ last, body.2.world.store.base = .host last ∧
          (call.1.Plain ↔ ∀ cause, ¬last.Raises (Contract.closing id body.1) cause) ∧
          ∀ cause, body.1 = .error (.failure cause) →
            (Reported call.1 cause ↔
              (∃ answer, (last.step (.revert id)).1 = .ok answer) ∧ body.2.Counts cause) := by
  refine ⟨?_, ?_⟩
  · intro txHash history handle before w start body call uses
    have sound : w.store.Sound := ⟨before, _, rfl, refines_after txHash history⟩
    have begun : start.world.store.Sound := sound.move (.use handle .snapshot)
    have ended : body.2.world.store.Sound := Contract.execute_sound uses begun
    have taken := World.step_snapshot_ledger before views metrics notes handle
    have finished : call = Contract.finish handle _ body := c.run_eq callee _ w made taken
    rw [finished]
    exact Contract.finish_ledger ended
  · intro host w start body call
    have snapshot : (w.step .base .snapshot).1 = (host.step .snapshot).1 := rfl
    refine ⟨?_, ?_⟩
    · intro fault refused
      -- without a snapshot no body is run
      refine ⟨?_, ?_⟩
      · rw [← snapshot] at refused
        simp only [call, Contract.run, made, Contract.runIn, refused]
      · intro cause same
        rw [same] at refused
        exact HostState.snapshot_eq_failure.mp refused
    · intro id answered uses
      have begun : ∃ host, start.world.store.base = .host host := ⟨_, rfl⟩
      obtain ⟨last, on⟩ : ∃ last, body.2.world.store.base = .host last :=
        Contract.execute_host uses begun
      refine ⟨last, on, ?_⟩
      obtain ⟨n, rfl⟩ := HostState.int_of_snapshot answered
      have finished : call = Contract.finish .base _ body :=
        c.run_eq callee _ w made (snapshot.trans answered)
      rw [finished]
      exact Contract.finish_host on

namespace Viewing

def boom : Failure := .general (.text "boom") (.text "PRECOMPILE_ERROR") .null

/-- Takes a snapshot of its own, releases what it is told to and fails. -/
def body (id : Int) : Body :=
  .state .guarded .snapshot fun _ =>
  .state .guarded (.discard (.int id)) fun _ => .fail (.failure boom)

def contract (id : Int) : Contract := ⟨[], some fun _ => body id⟩

/-- Knows every method and answers each with the same number. -/
def host : HostState := .start ⟨fun _ => some .method, fun _ _ => .ok (.int 7)⟩

def ledger : Base := .ledger (.start zeroWord) true

def world (base : Base) : World := ⟨⟨base, [[]]⟩, .fresh, []⟩

def ended (base : Base) (handle : Handle) (id : Int) : Outcome Datum × Frame :=
  (contract id).execute Leaking.alone ⟨handle, none⟩ Leaking.context
    (Contract.entry ⟨handle, none⟩ Leaking.context (world base))

def call (base : Base) (handle : Handle) (id : Int) : Outcome CallResult × World :=
  (contract id).run Leaking.alone ⟨handle, none⟩ (world base) Leaking.account Leaking.account
    (.ofBytes []) (.int 10) (.bool false)

theorem uses (setting : Setting) (f : Frame) :
    (contract 1).Uses (fun _ _ => True) setting Leaking.context f := by
  intro body args routed
  cases routed
  exact ⟨trivial, trivial, trivial⟩

theorem counts (base : Base) (handle : Handle) : (ended base handle 1).2.Counts boom := by
  have limit : (ended base handle 1).2.meter.limit = 10 := Contract.limit_execute ..
  exact Frame.counts_text rfl (limit ▸ (by decide : 10 < Nat.pow 2 4)) (by decide)

end Viewing

open Viewing in
/-- A view whose body releases a snapshot of its own, and a host. -/
theorem failures_contained_iff_viewing :
    (call ledger (.view 0) 1).1.Plain ∧
      Reported (call ledger (.view 0) 1).1 boom ∧
      Reported (call (.host host) .base 1).1 boom := by
  have contained := failures_contained_iff (contract 1) Leaking.alone none [[]] .fresh []
    Leaking.account Leaking.account (.ofBytes []) (.int 10) (.bool false) Leaking.context rfl
  have trusts : (0 : Int) ∈ (ended ledger (.view 0) 1).2.world.store.viewAt 0 := by
    decide +kernel
  have open_ : 0 < (ended ledger (.view 0) 1).2.world.store.openSnapshots := by
    decide +kernel
  obtain ⟨plain, reported⟩ := contained.1 zeroWord [] (.view 0) (uses _ _)
  refine ⟨plain.mpr trusts, (reported boom rfl).mpr ⟨trusts, open_, counts _ _⟩, ?_⟩
  obtain ⟨last, on, _, reported⟩ := (contained.2 host).2 (.int 7) rfl (uses _ _)
  refine (reported boom rfl).mpr ⟨⟨.null, ?_⟩, counts _ _⟩
  cases on
  rfl

open Viewing in
/-- The body releases the snapshot of its own call, and the view has no right to revert to it. -/
theorem failure_escapes_through_view :
    (ended ledger (.view 0) 0).1 = .error (.failure boom) ∧
      ¬Reported (call ledger (.view 0) 0).1 boom ∧
      ¬(call ledger (.view 0) 0).1.Plain := by
  have escaped : (call ledger (.view 0) 0).1 =
      .error (.failure (.writeProtection (.text "revert_to_snapshot"))) := by
    rfl
  rw [escaped]
  refine ⟨rfl, ?_, ?_⟩
  · rintro ⟨result, answered, _⟩
    cases answered
  · intro plain
    exact plain _ rfl

/-- A body that leaves the snapshot of its call alone has its failure handed back. -/
theorem failure_reported_of_spares (txHash : Bytes) (history : List StateOp) (c : Contract)
    (callee : Callee) (block : Option BlockEnv) (views : List View) (metrics : Metrics)
    (notes : List Datum) {address caller input gas readOnly : Datum} {context : CallContext}
    (made : CallContext.make caller address input gas readOnly = .ok context) {k : Nat}
    (small : context.suppliedGas < Nat.pow 2 k) (range : k ≤ 1023) {cause : Failure} {code : Text}
    (named : cause.code = .text code) :
    let before := (Ledger.start txHash).after history
    let w : World := ⟨⟨.ledger before true, views⟩, metrics, notes⟩
    let start := Contract.entry ⟨.base, block⟩ context w
    c.Uses (fun _ op => op.Spares before.openSnapshots) ⟨.base, block⟩ context start →
    (c.execute callee ⟨.base, block⟩ context start).1 = .error (.failure cause) →
    Reported (c.run callee ⟨.base, block⟩ w address caller input gas readOnly).1 cause := by
  intro before w start uses failed
  have h := refines_after txHash history
  have snapshot := World.step_snapshot (w := w) h rfl
  have held : (c.execute callee ⟨.base, block⟩ context start).2.world.store.Holds
      ((CopyStore.start txHash).after history) :=
    Contract.execute_keeps (fun _ handle readOnly held => held.guard handle readOnly)
      (fun _ handle op spares held => held.step handle (h.size ▸ spares))
      c callee _ context start uses (.of_mark h snapshot.2)
  obtain ⟨l, r, on, refines, _, copies⟩ := held
  have open_ : before.openSnapshots <
      (c.execute callee ⟨.base, block⟩ context start).2.world.store.openSnapshots := by
    have copy := Store.Holds.copy_of_contents copies
    have size : before.openSnapshots = _ := h.size
    rw [Store.openSnapshots, on, size]
    exact refines.place_lt copy
  have limit : (c.execute callee ⟨.base, block⟩ context start).2.meter.limit < Nat.pow 2 k := by
    rw [Contract.limit_execute]
    exact small
  have taken := World.step_snapshot_ledger before views metrics notes .base
  rw [c.run_eq callee ⟨.base, block⟩ w made taken]
  exact ((Contract.finish_ledger ⟨l, r, on, refines⟩).2 cause failed).mpr
    ⟨trivial, open_, Frame.counts_text named limit range⟩

end SeededDraws
