import SeededDraws.Proofs.Binary64
import SeededDraws.Proofs.Host.Calls
import SeededDraws.Proofs.Ownership
/-!
# What a host is asked through views

Every operation reaches the host as itself or not at all. A view lets no write through, and of the
releases only those that name a snapshot it took itself and has not let go of.
-/

namespace SeededDraws

theorem Datum.toInteger_of_equalInt? {id : Datum} {n : Int} (equal : id.equalInt? n = true) :
    id.toInteger = .ok n := by
  have ordered : id.compareInt? n = some (some .eq) := eq_of_beq equal
  cases id with
  | int m => exact congrArg _ (Int.compare_eq_eq.mp (Option.some.inj (Option.some.inj ordered)))
  | bool b => exact congrArg _ (Int.compare_eq_eq.mp (Option.some.inj (Option.some.inj ordered)))
  | float x =>
    have value := Binary64.toInt?_of_compareInt (Option.some.inj ordered)
    cases x with
    | nan => cases value
    | infinite negative => cases value
    | finite negative m e => simp only [toInteger, value]
  | _ => cases ordered

namespace View

theorem mem_of_add {own : View} {answer : Outcome Datum} {x : Int} (mem : x ∈ own.add answer) :
    answer = .ok (.int x) ∨ x ∈ own := by
  rw [add.eq_def] at mem
  split at mem
  · next n =>
    rcases mem_add.mp (by rw [add]; exact mem) with rfl | held
    · exact .inl rfl
    · exact .inr held
  · exact .inr mem

theorem release_eq_ok {own left : View} {id : Datum} {operation : String}
    (released : own.release id operation = .ok left) :
    (∃ n ∈ own, id.equalInt? n = true) ∧
      ∀ x ∈ left, x ∈ own ∧ id.compareInt? x = some (some .gt) := by
  rw [release] at released
  split at released
  · cases released
  · split at released
    · next owned =>
      cases released
      refine ⟨List.any_eq_true.mp owned, fun x mem => ?_⟩
      rw [List.mem_filter, beq_iff_eq] at mem
      exact mem
    · cases released

theorem release_eq_error {own : View} {id : Datum} {operation : String} {fault : Fault}
    (refused : own.release id operation = .error fault) :
    id.isHashable = false ∨ fault = .failure (.writeProtection (.text operation)) := by
  rw [release] at refused
  split at refused
  · next unhashable => exact .inl (by simpa using unhashable)
  · split at refused
    · cases refused
    · cases refused
      exact .inr rfl

end View

namespace Store

/-- What can become of an operation at a view, and of what the view remembers. -/
inductive AtView (s : Store) (v : Nat) : StateOp → Outcome Datum × Store → Prop
  | refused (op : StateOp) : AtView s v op (s.refuse op)
  | unhashable {op : StateOp} {id : Datum} (release : op = .revert id ∨ op = .discard id)
    (broken : id.isHashable = false) (fault : Fault) : AtView s v op (.error fault, s)
  | opened (answer : Outcome Datum) (base : Base) :
    AtView s v .snapshot (answer, ⟨base, s.views.set v ((s.viewAt v).add answer)⟩)
  | released {op : StateOp} {id : Datum} {left : View}
    (release : op = .revert id ∨ op = .discard id)
    (own : (s.viewAt v).release id op.name = .ok left) (answer : Outcome Datum) (base : Base) :
    AtView s v op (answer, ⟨base, s.views.set v left⟩)
  | read {op : StateOp} (harmless : op.mutates = false)
    (noRelease : ¬∃ id, op = .revert id ∨ op = .discard id) (answer : Outcome Datum)
    (base : Base) : AtView s v op (answer, ⟨base, s.views⟩)

theorem atView (s : Store) (v : Nat) (op : StateOp) : s.AtView v op (s.step (.view v) op) := by
  by_cases writes : op.mutates = true
  · rw [s.step_mutating v writes]
    exact .refused op
  · rw [step, onView.eq_def, if_neg writes]
    cases op with
    | snapshot => exact .opened _ _
    | revert id =>
      simp only []
      cases own : (s.viewAt v).release id (StateOp.revert id).name with
      | error fault =>
        rcases View.release_eq_error own with broken | rfl
        · exact .unhashable (.inl rfl) broken fault
        · exact .refused _
      | ok left => exact .released (.inl rfl) own _ _
    | discard id =>
      simp only []
      cases own : (s.viewAt v).release id (StateOp.discard id).name with
      | error fault =>
        rcases View.release_eq_error own with broken | rfl
        · exact .unhashable (.inr rfl) broken fault
        · exact .refused _
      | ok left =>
        simp only []
        split
        · exact .released (.inr rfl) own _ _
        · exact .released (.inr rfl) own _ _
    | _ => exact .read (by simpa using writes) (by simp) _ _

variable {s : Store} {v : Nat} {x : Int}

theorem viewAt_elsewhere {handle : Handle} (other : handle ≠ .view v) (op : StateOp) :
    (s.step handle op).2.viewAt v = s.viewAt v := by
  cases handle with
  | base => rfl
  | view w =>
    have apart : ∀ own base, (⟨base, s.views.set w own⟩ : Store).viewAt v = s.viewAt v := by
      intro own base
      rw [viewAt_set, if_neg fun (same : w = v ∧ _) => other (same.1 ▸ rfl)]
      rfl
    have become := s.atView w op
    generalize s.step (.view w) op = after at become
    cases become with
    | opened answer base => exact apart _ base
    | released release own answer base => exact apart _ base
    | _ => rfl

/-- Whatever a view remembers it took just now, or remembered before and did not let go of. -/
theorem mem_viewAt_of_step {op : StateOp} (mem : x ∈ (s.step (.view v) op).2.viewAt v) :
    (op = .snapshot ∧ s.Takes v x) ∨ (x ∈ s.viewAt v ∧ ¬s.LetsGo v x (.use (.view v) op)) := by
  have become := s.atView v op
  rw [Takes]
  generalize result : s.step (.view v) op = after at become mem
  cases become with
  | refused op =>
    refine .inr ⟨mem, ?_⟩
    rintro ⟨_, _, _, _, carried, _⟩
    exact carried result
  | unhashable release broken fault =>
    rw [letsGo_iff release, broken]
    refine .inr ⟨mem, ?_⟩
    rintro ⟨hashable, _⟩
    cases hashable
  | opened answer base =>
    have kept : ¬s.LetsGo v x (.use (.view v) .snapshot) := by
      rintro ⟨_, id, named | named, _⟩ <;> cases named
    rw [viewAt_set] at mem
    split at mem
    · next there =>
      rcases View.mem_of_add mem with taken | held
      · exact .inl ⟨rfl, there.2, by rw [result]; exact taken⟩
      · exact .inr ⟨held, kept⟩
    · exact .inr ⟨mem, kept⟩
  | released release own answer base =>
    rw [letsGo_iff release]
    rw [viewAt_set] at mem
    split at mem
    · have left := (View.release_eq_ok own).2 x mem
      refine .inr ⟨left.1, ?_⟩
      rintro ⟨_, _, notAbove⟩
      exact notAbove left.2
    · next away => exact absurd ⟨rfl, lt_of_mem_viewAt mem⟩ away
  | read harmless noRelease answer base =>
    refine .inr ⟨mem, ?_⟩
    rintro ⟨_, id, named, _⟩
    exact noRelease ⟨id, named⟩

theorem mem_viewAt_of_move {m : Move} (mem : x ∈ (s.move m).viewAt v) :
    (m = .use (.view v) .snapshot ∧ s.Takes v x) ∨ (x ∈ s.viewAt v ∧ ¬s.LetsGo v x m) := by
  cases m with
  | look =>
    rw [viewAt_look] at mem
    exact .inr ⟨mem, id⟩
  | use handle op =>
    by_cases through : handle = .view v
    · subst through
      rcases mem_viewAt_of_step mem with ⟨rfl, takes⟩ | held
      · exact .inl ⟨rfl, takes⟩
      · exact .inr held
    · rw [move, viewAt_elsewhere through op] at mem
      exact .inr ⟨mem, fun letsGo => through letsGo.1⟩

/-- Starting without views, a view remembers only what it took and has not let go of. -/
theorem kept_of_mem_viewAt (blank : s.views = []) {moves : List Move}
    (mem : x ∈ (s.afterMoves moves).viewAt v) : s.Kept moves v x := by
  induction moves using List.reverseRecOn with
  | nil =>
    rw [afterMoves, List.foldl_nil, viewAt, blank] at mem
    cases mem
  | append_singleton moves m ih =>
    rw [afterMoves_concat] at mem
    rw [kept_concat]
    rcases mem_viewAt_of_move mem with took | ⟨held, keeps⟩
    · exact .inl took
    · exact .inr ⟨ih held, keeps⟩

/-! ### Calls through views -/

/-- What a view lets through is no write, and if it is a release the view remembers the id. -/
theorem step_view_base (s : Store) (v : Nat) (op : StateOp) :
    (s.step (.view v) op).2.base = s.base ∨
      ((s.step (.view v) op).2.base = (s.base.step op).2 ∧ op.mutates = false ∧
        ∀ id, op = .revert id ∨ op = .discard id → ∃ n ∈ s.viewAt v, id.equalInt? n = true) := by
  rcases s.step_base (.view v) op with carried | same
  · have become := s.atView v op
    generalize s.step (.view v) op = after at carried become ⊢
    cases become with
    | refused op => exact .inl rfl
    | unhashable release broken fault => exact .inl rfl
    | opened answer base =>
      refine .inr ⟨carried, rfl, ?_⟩
      rintro id (named | named) <;> cases named
    | released release own answer base =>
      refine .inr ⟨carried, ?_, fun id named => ?_⟩
      · rcases release with rfl | rfl <;> rfl
      · have owned := (View.release_eq_ok own).1
        rcases release with rfl | rfl <;> rcases named with named | named <;> cases named
        · exact owned
        · exact owned
    | read harmless noRelease answer base =>
      exact .inr ⟨carried, harmless, fun id named => absurd ⟨id, named⟩ noRelease⟩
  · exact .inl same

theorem step_view_calls {host : HostState} (on : s.base = .host host) (v : Nat) (op : StateOp) :
    ∃ new, (s.step (.view v) op).2.base = .host { host with calls := host.calls ++ new } ∧
      ∀ call ∈ new, ¬call.Writes ∧
        (call.Releases → ∃ n, call.args = [.int n] ∧ n ∈ s.viewAt v) := by
  rcases s.step_view_base v op with same | ⟨carried, harmless, owned⟩
  · refine ⟨[], ?_, by simp⟩
    rw [same, on, List.append_nil]
  · obtain ⟨new, asked, from_op⟩ := host.step_calls op
    refine ⟨new, ?_, fun call mem => ?_⟩
    · rw [carried, on]
      exact congrArg Base.host asked
    · obtain ⟨named, given⟩ := from_op call mem
      constructor
      · exact StateOp.not_writes named harmless
      · intro releases
        obtain ⟨id, release⟩ := StateOp.mem_hostReleasers named releases
        obtain ⟨n, held, equal⟩ := owned id release
        refine ⟨n, ?_, held⟩
        have args : op.hostArgs = .ok [.int n] := by
          rcases release with rfl | rfl
          · rw [StateOp.hostArgs, Datum.toInteger_of_equalInt? equal]; rfl
          · rw [StateOp.hostArgs, Datum.toInteger_of_equalInt? equal]; rfl
        exact Except.ok.inj (given.symm.trans args)

theorem afterMoves_host {s : Store} (on : ∃ host, s.base = .host host) (moves : List Move) :
    ∃ host, (s.afterMoves moves).base = .host host := by
  induction moves generalizing s with
  | nil => exact on
  | cons m rest ih =>
    refine ih ?_
    cases m with
    | look => exact on
    | use handle op => exact step_host on handle op

end Store

/-- Nothing is done but through views. -/
def Move.ThroughView : Move → Prop
  | .look => True
  | .use handle _ => handle ≠ .base

theorem Store.afterMoves_calls {s : Store} {host : HostState} (on : s.base = .host host)
    {moves : List Move} (views : ∀ m ∈ moves, m.ThroughView) :
    ∃ new, (s.afterMoves moves).base = .host { host with calls := host.calls ++ new } ∧
      ∀ call ∈ new, ¬call.Writes := by
  induction moves generalizing s host with
  | nil => exact ⟨[], by rw [List.append_nil]; exact on, by simp⟩
  | cons m rest ih =>
    have later : ∀ m ∈ rest, m.ThroughView := fun m mem => views m (.tail _ mem)
    have through := views m (.head _)
    cases m with
    | look => exact ih on later
    | use handle op =>
      cases handle with
      | base => exact absurd rfl through
      | view v =>
        obtain ⟨first, reached, harmless⟩ := step_view_calls on v op
        obtain ⟨more, ended, others⟩ := ih reached later
        refine ⟨first ++ more, ?_, fun call mem => ?_⟩
        · rw [← List.append_assoc]
          exact ended
        · rcases List.mem_append.mp mem with now | then_
          · exact (harmless call now).1
          · exact others call then_

/-- An operation on a host is one call of the first method it has, in the order of the listing, with
the operation's own arguments; without a method there is no call, and only reads and releases have
an answer. Views add that no write reaches the host, and no release but of an own snapshot. -/
theorem host_calls_faithful (host : HostState) :
    (∀ (op : StateOp) (args : List Datum) (names : List String), (op.name, names) ∈ hostMethods →
      op.Passes args →
        (∀ before method after, names = before ++ method :: after →
          (∀ name ∈ before, host.host.hasMethod name = false) →
          host.host.hasMethod method = true →
          host.step op = (host.host.reply host.calls ⟨method, args⟩ >>= HostReply.read op,
            { host with calls := host.calls ++ [⟨method, args⟩] })) ∧
        ((∀ name ∈ names, host.host.hasMethod name = false) →
          host.step op =
            (match op.fallback? with
            | some answer => .ok answer
            | none => .error (.unsupported names), host))) ∧
    ∀ moves, let start : Store := ⟨.host host, []⟩
      let s := start.afterMoves moves
      ∃ last, s.base = .host last ∧
        (∀ v op, ∃ new,
          (s.step (.view v) op).2.base = .host { last with calls := last.calls ++ new } ∧
          ∀ call ∈ new, ¬call.Writes ∧
            (call.Releases → ∃ n, call.args = [.int n] ∧ start.Kept moves v n)) ∧
        ∀ later : List Move, (∀ m ∈ later, m.ThroughView) → ∃ new,
          (s.afterMoves later).base = .host { last with calls := last.calls ++ new } ∧
          ∀ call ∈ new, ¬call.Writes := by
  constructor
  · intro op args names listed passes
    have given := passes.hostArgs
    obtain rfl := StateOp.candidates_of_listed listed
    constructor
    · intro before method after split others present
      refine HostState.step_present given ?_
      rw [split]
      exact Host.first?_append others present
    · intro missing
      have unmet : host.host.first? op.candidates = none := by
        refine List.find?_eq_none.mpr fun name mem => ?_
        rw [missing name mem]
        exact Bool.false_ne_true
      have other : op ≠ .getTxHash := by
        rintro rfl
        cases passes
      exact (HostState.step_absent given unmet).trans
        (congrArg (Prod.mk · host) (HostReply.absent_eq host.host other))
  · intro moves start s
    obtain ⟨last, on⟩ := Store.afterMoves_host (s := start) ⟨host, rfl⟩ moves
    refine ⟨last, on, fun v op => ?_, fun later views => Store.afterMoves_calls on views⟩
    obtain ⟨new, reached, harmless⟩ := Store.step_view_calls on v op
    refine ⟨new, reached, fun call mem => ⟨(harmless call mem).1, fun releases => ?_⟩⟩
    obtain ⟨n, args, held⟩ := (harmless call mem).2 releases
    exact ⟨n, args, Store.kept_of_mem_viewAt rfl held⟩

/-- A host that has lost the first name for writing a word, and for taking and undoing snapshots. It
answers whatever it is asked with 7. -/
def spareHost : HostState :=
  .start ⟨fun name => if name ∈ ["set_storage", "write_storage", "checkpoint", "rollback_to"]
    then some .method else none, fun _ _ => .ok (.int 7)⟩

theorem host_calls_faithful_spare :
    let address := Datum.ofBytes (Bytes.numeral addressSize 1)
    let word := Datum.ofBytes zeroWord
    let opened := (⟨.host spareHost, []⟩ : Store).afterMoves [.look, .use (.view 0) .snapshot]
    spareHost.step (.setState address word word) =
        (.ok .null, { spareHost with calls := [⟨"set_storage", [address, word, word]⟩] }) ∧
      spareHost.step (.setNonce address (.int 3)) =
        (.error (.unsupported ["set_nonce"]), spareHost) ∧
      ∃ new, (opened.afterMoves [.use (.view 0) (.revert (.int 7))]).base =
          .host { spareHost with calls := [⟨"checkpoint", []⟩] ++ new } ∧
        ∀ call ∈ new, ¬call.Writes := by
  intro address word opened
  obtain ⟨operations, moved⟩ := host_calls_faithful spareHost
  refine ⟨?_, ?_, ?_⟩
  · exact (operations (.setState address word word) [address, word, word]
      ["set_state", "set_storage", "write_storage"] (by decide) (.setState address word word)).1
      ["set_state"] "set_storage" ["write_storage"] rfl (by decide) (by decide)
  · exact (operations (.setNonce address (.int 3)) [address, .int 3] ["set_nonce"] (by decide)
      (.setNonce address rfl)).2 (by decide)
  · obtain ⟨last, on, _, later⟩ := moved [.look, .use (.view 0) .snapshot]
    obtain rfl : last = { spareHost with calls := [⟨"checkpoint", []⟩] } :=
      Base.host.inj (on.symm.trans rfl)
    obtain ⟨new, ended, harmless⟩ := later [.use (.view 0) (.revert (.int 7))] (by
      intro m mem
      obtain rfl := List.mem_singleton.mp mem
      exact fun same => by cases same)
    exact ⟨new, ended, harmless⟩

end SeededDraws
