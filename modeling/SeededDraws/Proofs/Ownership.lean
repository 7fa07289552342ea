import Mathlib.Data.List.Induction
import SeededDraws.Proofs.Ledger.Refinement
import SeededDraws.Proofs.Store
/-!
# Who may release a snapshot through a view

A view remembers the ids that its own snapshots were answered with. Ids are places, so they are used
again, and nobody tells a view when somebody else releases one of its snapshots. What a view
remembers and what it owns are therefore two things, and a release through it is protected exactly
where the first implies the second.
-/

namespace SeededDraws

/-- A new view is opened, or an operation is carried out through a handle. -/
inductive Move where
  | look
  | use (handle : Handle) (op : StateOp)

namespace Store

def move (s : Store) : Move → Store
  | .look => (s.guard .base true).2
  | .use handle op => (s.step handle op).2

def afterMoves (s : Store) (moves : List Move) : Store := moves.foldl move s

def openSnapshots (s : Store) : Nat :=
  match s.base with
  | .ledger l _ => l.openSnapshots
  | .host _ => 0

/-- The snapshot at place `n` is open before and behind every move. -/
def HoldsOpen (n : Int) (s : Store) : List Move → Prop
  | [] => n < s.openSnapshots
  | m :: rest => n < s.openSnapshots ∧ (s.move m).HoldsOpen n rest

/-- A snapshot through the view would be answered with `n`. -/
def Takes (s : Store) (v : Nat) (n : Int) : Prop :=
  v < s.views.length ∧ (s.step (.view v) .snapshot).1 = .ok (.int n)

/-- The move is a release of place `n` or an older one through the view, and is not refused. -/
def LetsGo (s : Store) (v : Nat) (n : Int) : Move → Prop
  | .look => False
  | .use handle op => handle = .view v ∧ ∃ id, (op = .revert id ∨ op = .discard id) ∧
    id.isHashable = true ∧ s.step handle op ≠ s.refuse op ∧ id.compareInt? n ≠ some (some .gt)

def Keeps (v : Nat) (n : Int) (s : Store) : List Move → Prop
  | [] => True
  | m :: rest => ¬s.LetsGo v n m ∧ (s.move m).Keeps v n rest

/-- The view took a snapshot that was answered with `n`, and that has been open ever since. -/
def StillOpen (s : Store) (moves : List Move) (v : Nat) (n : Int) : Prop :=
  ∃ before later, moves = before ++ .use (.view v) .snapshot :: later ∧
    (s.afterMoves before).Takes v n ∧
    ((s.afterMoves before).move (.use (.view v) .snapshot)).HoldsOpen n later

/-- The view took a snapshot that was answered with `n`, and has not let go of it itself. -/
def Kept (s : Store) (moves : List Move) (v : Nat) (n : Int) : Prop :=
  ∃ before later, moves = before ++ .use (.view v) .snapshot :: later ∧
    (s.afterMoves before).Takes v n ∧
    ((s.afterMoves before).move (.use (.view v) .snapshot)).Keeps v n later

/-- The id names an open snapshot of this very view. -/
def Owns (s : Store) (moves : List Move) (v : Nat) (id : Datum) : Prop :=
  ∃ n, id.equalInt? n = true ∧ s.StillOpen moves v n

/-- The id names a snapshot that the view takes for its own. -/
def Remembers (s : Store) (moves : List Move) (v : Nat) (id : Datum) : Prop :=
  ∃ n, id.equalInt? n = true ∧ s.Kept moves v n

/-! ### Stores on ledgers -/

/-- The store stands on a ledger that answers as a store of copies does. -/
def Sound (s : Store) : Prop := ∃ l c, s.base = .ledger l true ∧ Refines l c

namespace Sound

variable {s : Store}

theorem move (sound : s.Sound) (m : Move) : (s.move m).Sound := by
  obtain ⟨l, c, on, refines⟩ := sound
  cases m with
  | look => exact ⟨l, c, (s.base_guard .base true).trans on, refines⟩
  | use handle op =>
    rcases step_ledger on handle op with same | carried
    · exact ⟨l, c, same, refines⟩
    · exact ⟨_, _, carried, (refines.step op).2⟩

theorem afterMoves (sound : s.Sound) (moves : List Move) : (s.afterMoves moves).Sound := by
  induction moves generalizing s with
  | nil => exact sound
  | cons m rest ih => exact ih (sound.move m)

end Sound

end Store

theorem placeAmong_ne_failure (count : Nat) (d : Datum) (cause : Failure) :
    placeAmong count d ≠ .error (.failure cause) := by
  intro failed
  cases hn : d.integer? with
  | some n =>
    rw [placeAmong_of_integer? hn] at failed
    cases failed
  | none =>
    rcases placeAmong_of_no_integer hn count with outside | typed
    · rw [outside] at failed
      cases failed
    · rw [typed] at failed
      cases failed

/-- Write protection is not among the faults of a store of copies. -/
theorem CopyStore.release_ne_failure (c : CopyStore) {op : StateOp} {id : Datum}
    (release : op = .revert id ∨ op = .discard id) (cause : Failure) :
    (c.step op).1 ≠ .error (.failure cause) := by
  have answer : (c.step op).1 = (c.openId id).map fun _ => .null := by
    rcases release with rfl | rfl
    · rw [step]
      cases c.openId id <;> rfl
    · rw [step]
      cases c.openId id <;> rfl
  rw [answer, openId]
  cases hp : placeAmong c.copies.length id with
  | error fault =>
    intro failed
    cases failed
    exact placeAmong_ne_failure _ _ cause hp
  | ok place => cases place <;> exact fun failed => by cases failed

/-! ### One move -/

theorem Datum.isHashable_of_equalInt? {id : Datum} {n : Int} (equal : id.equalInt? n = true) :
    id.isHashable = true := by
  cases id with
  | int n => rfl
  | bool b => rfl
  | float x => rfl
  | _ => cases equal

namespace Store

variable {s : Store} {v : Nat} {op : StateOp} {id : Datum}

/-- A release is refused where the view does not remember the id. -/
theorem refused_iff (sound : s.Sound) (release : op = .revert id ∨ op = .discard id) :
    s.step (.view v) op = s.refuse op ↔
      id.isHashable = true ∧ (s.viewAt v).any id.equalInt? = false := by
  obtain ⟨l, c, on, refines⟩ := sound
  rw [step, onView_release on v release]
  cases hashable : id.isHashable with
  | false =>
    rw [View.release, hashable]
    constructor
    · intro same
      cases congrArg Prod.fst same
    · rintro ⟨_, _⟩
      contradiction
  | true =>
    rw [View.release_eq _ _ _ hashable]
    cases own : (s.viewAt v).any id.equalInt? with
    | false => simp [refuse]
    | true =>
      simp only [if_true]
      constructor
      · intro same
        have failed : (l.step op).1 = .error (.failure (.writeProtection (.text op.name))) :=
          congrArg Prod.fst same
        rw [(refines.step op).1] at failed
        exact absurd failed (c.release_ne_failure release _)
      · rintro ⟨_, _⟩
        contradiction

theorem viewAt_look (s : Store) (w : Nat) : (s.move .look).viewAt w = s.viewAt w :=
  s.viewAt_guard .base true w

/-- Only snapshots and releases through a view change what it remembers. -/
theorem views_step_other (sound : s.Sound) (handle : Handle) (noSnapshot : op ≠ .snapshot)
    (noRelease : ¬∃ id, op = .revert id ∨ op = .discard id) :
    (s.step handle op).2.views = s.views := by
  obtain ⟨l, c, on, _⟩ := sound
  cases handle with
  | base =>
    rw [step, onBase_ledger on]
  | view v =>
    rw [step, onView.eq_def]
    split
    · rfl
    · split
      · exact absurd rfl noSnapshot
      · exact absurd ⟨_, .inl rfl⟩ noRelease
      · exact absurd ⟨_, .inr rfl⟩ noRelease
      · rw [onBase_ledger on]

/-- What goes on through other handles is not seen by a view. -/
theorem viewAt_step_ne (sound : s.Sound) {handle : Handle} (other : handle ≠ .view v)
    (op : StateOp) : (s.step handle op).2.viewAt v = s.viewAt v := by
  obtain ⟨l, c, on, _⟩ := id sound
  cases handle with
  | base => rw [step, onBase_ledger on]; rfl
  | view w =>
    have apart : w ≠ v := fun same => other (same ▸ rfl)
    have set : ∀ base own, (⟨base, s.views.set w own⟩ : Store).viewAt v = s.viewAt v := by
      intro base own
      rw [viewAt_set, if_neg fun h => apart h.1]
      rfl
    by_cases release : ∃ id, op = .revert id ∨ op = .discard id
    · obtain ⟨id, release⟩ := release
      rw [step, onView_release on w release]
      cases (s.viewAt w).release id op.name with
      | error fault => rfl
      | ok left => exact set _ _
    · by_cases snapshot : op = .snapshot
      · rw [snapshot, step, onView_snapshot on w]
        exact set _ _
      · rw [viewAt, views_step_other sound _ snapshot release]
        rfl

theorem letsGo_iff (release : op = .revert id ∨ op = .discard id) (x : Int) :
    s.LetsGo v x (.use (.view v) op) ↔ id.isHashable = true ∧
      s.step (.view v) op ≠ s.refuse op ∧ id.compareInt? x ≠ some (some .gt) := by
  constructor
  · rintro ⟨_, other, named, rest⟩
    have same : other = id := by
      rcases release with rfl | rfl <;> rcases named with named | named <;> cases named <;> rfl
    exact same ▸ rest
  · intro rest
    exact ⟨rfl, id, release, rest⟩

theorem lt_of_mem_viewAt {x : Int} (held : x ∈ s.viewAt v) : v < s.views.length := by
  refine Nat.lt_of_not_le fun beyond => ?_
  rw [viewAt_of_le beyond] at held
  cases held

theorem mem_viewAt_snapshot (sound : s.Sound) (v : Nat) (x : Int) :
    x ∈ (s.step (.view v) .snapshot).2.viewAt v ↔ s.Takes v x ∨ x ∈ s.viewAt v := by
  obtain ⟨l, c, on, _⟩ := sound
  rw [Takes, step, onView_snapshot on v, viewAt_set]
  by_cases there : v < s.views.length
  · rw [if_pos ⟨rfl, there⟩, Datum.ofNat, View.mem_add]
    simp [there, eq_comm]
  · rw [if_neg fun h => there h.2]
    simp [there, viewAt]

theorem mem_viewAt_release (sound : s.Sound) (release : op = .revert id ∨ op = .discard id)
    (x : Int) :
    x ∈ (s.step (.view v) op).2.viewAt v ↔
      x ∈ s.viewAt v ∧ ¬s.LetsGo v x (.use (.view v) op) := by
  rw [letsGo_iff release, Ne, refused_iff sound release]
  obtain ⟨l, c, on, _⟩ := sound
  rw [step, onView_release on v release]
  cases hashable : id.isHashable with
  | false =>
    rw [View.release, hashable]
    simp
  | true =>
    rw [View.release_eq _ _ _ hashable]
    cases own : (s.viewAt v).any id.equalInt? with
    | false => simp
    | true =>
      have there : v < s.views.length := by
        obtain ⟨x, held, _⟩ := List.any_eq_true.mp own
        exact lt_of_mem_viewAt held
      simp [viewAt_set, there, List.mem_filter]

theorem mem_viewAt_move (sound : s.Sound) (m : Move) (v : Nat) (x : Int) :
    x ∈ (s.move m).viewAt v ↔
      (m = .use (.view v) .snapshot ∧ s.Takes v x) ∨ (x ∈ s.viewAt v ∧ ¬s.LetsGo v x m) := by
  cases m with
  | look =>
    rw [viewAt_look]
    simp [LetsGo]
  | use handle op =>
    show x ∈ (s.step handle op).2.viewAt v ↔ _
    by_cases through : handle = .view v
    · subst through
      by_cases release : ∃ id, op = .revert id ∨ op = .discard id
      · obtain ⟨id, release⟩ := release
        rw [mem_viewAt_release sound release]
        rcases release with rfl | rfl <;> simp
      · have keeps : ¬s.LetsGo v x (.use (.view v) op) := by
          rintro ⟨_, id, named, _⟩
          exact release ⟨id, named⟩
        by_cases snapshot : op = .snapshot
        · subst snapshot
          rw [mem_viewAt_snapshot sound]
          simp [keeps]
        · rw [viewAt, views_step_other sound _ snapshot release]
          simp [keeps, snapshot, viewAt]
    · have keeps : ¬s.LetsGo v x (.use handle op) := by
        rintro ⟨same, _⟩
        exact through same
      rw [viewAt_step_ne sound through]
      simp [keeps, through]

/-! ### All moves -/

theorem afterMoves_concat (s : Store) (moves : List Move) (m : Move) :
    s.afterMoves (moves ++ [m]) = (s.afterMoves moves).move m := by
  rw [afterMoves, List.foldl_append]
  rfl

theorem keeps_concat (s : Store) (v : Nat) (n : Int) (later : List Move) (m : Move) :
    s.Keeps v n (later ++ [m]) ↔ s.Keeps v n later ∧ ¬(s.afterMoves later).LetsGo v n m := by
  induction later generalizing s with
  | nil => simp [Keeps, afterMoves]
  | cons k rest ih =>
    rw [List.cons_append, Keeps, Keeps, ih, and_assoc]
    rfl

theorem kept_concat (s : Store) (moves : List Move) (m : Move) (v : Nat) (n : Int) :
    s.Kept (moves ++ [m]) v n ↔
      (m = .use (.view v) .snapshot ∧ (s.afterMoves moves).Takes v n) ∨
        (s.Kept moves v n ∧ ¬(s.afterMoves moves).LetsGo v n m) := by
  constructor
  · rintro ⟨before, later, split, takes, keeps⟩
    rcases List.eq_nil_or_concat later with rfl | ⟨rest, last, rfl⟩
    · obtain ⟨rfl, same⟩ := List.append_inj' split rfl
      cases same
      exact .inl ⟨rfl, takes⟩
    · rw [List.concat_eq_append] at split keeps
      rw [← List.cons_append, ← List.append_assoc] at split
      obtain ⟨rfl, same⟩ := List.append_inj' split rfl
      cases same
      rw [keeps_concat] at keeps
      refine .inr ⟨⟨before, rest, rfl, takes, keeps.1⟩, ?_⟩
      rw [afterMoves, List.foldl_append]
      exact keeps.2
  · rintro (⟨rfl, takes⟩ | ⟨⟨before, later, rfl, takes, keeps⟩, holds⟩)
    · exact ⟨moves, [], rfl, takes, trivial⟩
    · refine ⟨before, later ++ [m], by simp, takes, ?_⟩
      rw [keeps_concat]
      refine ⟨keeps, ?_⟩
      rw [afterMoves, List.foldl_append] at holds
      exact holds

/-- What a view that is new remembers is what it took and did not let go of. -/
theorem mem_viewAt_iff {s : Store} {v : Nat} (sound : s.Sound) (blank : s.viewAt v = [])
    (moves : List Move) (n : Int) : n ∈ (s.afterMoves moves).viewAt v ↔ s.Kept moves v n := by
  induction moves using List.reverseRecOn with
  | nil =>
    constructor
    · intro held
      rw [afterMoves, List.foldl_nil, blank] at held
      cases held
    · rintro ⟨before, later, split, _⟩
      simp at split
  | append_singleton moves m ih =>
    rw [afterMoves_concat, mem_viewAt_move (sound.afterMoves moves), kept_concat, ih]

end Store

/-- A release through a view is protected, so that it is refused wherever the view does not own the
snapshot, exactly if the view owns whatever it remembers under that id. -/
theorem view_release_protected_iff (txHash : Bytes) (moves : List Move) (v : Nat) {op : StateOp}
    {id : Datum} (release : op = .revert id ∨ op = .discard id) :
    let start := Store.ofLedger (.start txHash)
    let s := start.afterMoves moves
    (start.Owns moves v id ∨ s.step (.view v) op = s.refuse op) ↔
      id.isHashable = true ∧ (start.Remembers moves v id → start.Owns moves v id) := by
  intro start s
  have sound : start.Sound := ⟨_, _, rfl, .start txHash⟩
  have remembered : (s.viewAt v).any id.equalInt? = true ↔ start.Remembers moves v id := by
    rw [Store.Remembers, List.any_eq_true]
    simp only [s, Store.mem_viewAt_iff sound rfl, and_comm]
  rw [Store.refused_iff (sound.afterMoves moves) release, ← remembered]
  constructor
  · rintro (owned | ⟨hashable, forgotten⟩)
    · have hashable : id.isHashable = true :=
        let ⟨_, equal, _⟩ := owned
        Datum.isHashable_of_equalInt? equal
      exact ⟨hashable, fun _ => owned⟩
    · refine ⟨hashable, fun known => ?_⟩
      rw [forgotten] at known
      cases known
  · rintro ⟨hashable, owns⟩
    cases known : (s.viewAt v).any id.equalInt? with
    | true => exact .inl (owns known)
    | false => exact .inr ⟨hashable, rfl⟩

/-- An own snapshot below one of the base. -/
theorem view_release_protected_iff_own :
    let moves := [Move.look, .use (.view 0) .snapshot, .use .base .snapshot]
    let s := Store.fresh.afterMoves moves
    (Store.fresh.Owns moves 0 (.int 0) ∨
        s.step (.view 0) (.discard (.int 0)) = s.refuse (.discard (.int 0))) ↔
      (Datum.int 0).isHashable = true ∧
        (Store.fresh.Remembers moves 0 (.int 0) → Store.fresh.Owns moves 0 (.int 0)) :=
  view_release_protected_iff zeroWord _ 0 (.inr rfl)

/-- The view's snapshot is released through the base, which then takes one of its own under the same
id. The view can undo what was written since. -/
def foreignSnapshot : List Move :=
  [.look, .use (.view 0) .snapshot, .use .base (.discard (.int 0)), .use .base .snapshot,
    .use .base (.setNonce (.ofBytes (Bytes.numeral addressSize 1)) (.int 9))]

theorem view_reverts_foreign_snapshot :
    let s := Store.fresh.afterMoves foreignSnapshot
    ¬(Store.fresh.Owns foreignSnapshot 0 (.int 0) ∨
      s.step (.view 0) (.revert (.int 0)) = s.refuse (.revert (.int 0))) := by
  intro s
  rintro (⟨n, equal, before, later, split, takes, open_⟩ | refused)
  · have first : before = [.look] ∧ later = foreignSnapshot.drop 2 := by
      simpa [foreignSnapshot, List.cons_eq_append_iff] using split
    obtain ⟨rfl, rfl⟩ := first
    have zero : 0 = n := by simpa [Datum.equalInt?, Datum.compareInt?, Datum.integer?] using equal
    have released : (((Store.fresh.afterMoves [.look]).move (.use (.view 0) .snapshot)).move
        (.use .base (.discard (.int 0)))).openSnapshots = 0 := by decide +kernel
    have still := open_.2.1
    rw [released] at still
    omega
  · have answered : (s.step (.view 0) (.revert (.int 0))).1.toOption.isSome = true := by
      decide +kernel
    rw [refused] at answered
    cases answered

end SeededDraws
