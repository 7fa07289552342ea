import SeededDraws.Proofs.Contract.Static
import SeededDraws.Proofs.Views
/-!
# Snapshots of a static call

In a static call every access to the state is a view of its own, and it is the view that remembers
which snapshots were taken through it. So a body can release a snapshot of its own exactly through
a view that took one under the same id and has not let go of it since, which is the view that took
the snapshot if the body kept it.
-/

namespace SeededDraws

/-! ### The moves of a body -/

/-- The view that is opened for an access, if any. -/
def Handle.looks (handle : Handle) (readOnly : Bool) : List Move :=
  match handle, readOnly with
  | .base, true => [.look]
  | _, _ => []

theorem Handle.above_looks (handle : Handle) (readOnly : Bool) (floor : Nat) :
    ∀ m ∈ handle.looks readOnly, m.Above floor := by
  cases handle with
  | view v => exact List.forall_mem_nil _
  | base =>
    cases readOnly with
    | false => exact List.forall_mem_nil _
    | true => exact List.forall_mem_singleton.mpr trivial

def Frame.looks (f : Frame) (handle : Handle) (readOnly : Bool) : Access → List Move
  | .guarded => handle.looks readOnly
  | .kept index =>
    match f.kept[index]? with
    | some _ => []
    | none => handle.looks readOnly
  | .direct => []
  | .observing => handle.looks true

/-- What a body does to the state by itself: the views that it opens and the operations that it
carries out, each with the handle that it goes through. -/
def Body.moves (callee : Callee) (handle : Handle) (context : CallContext) :
    Body → Frame → List Move
  | .done _, _ => []
  | .fail _, _ => []
  | .charge amount next, f =>
    let (left, meter) := f.meter.consume amount
    (next left).moves callee handle context { f with meter := meter }
  | .keep next, f =>
    handle.looks context.readOnly ++
      next.moves callee handle context (f.keep handle context.readOnly)
  | .state via op next, f =>
    let reached := f.reach handle context.readOnly via
    let stepped := reached.2.step reached.1 op
    f.looks handle context.readOnly via ++
      .use reached.1 op :: (next stepped.1).moves callee handle context stepped.2
  | .call address input gas readOnly next, f =>
    let (result, world) := callee f.world address (.ofBytes context.address) input gas readOnly
    (next result).moves callee handle context { f with world := world }
  | .observe count next, f =>
    match f.observe count with
    | (.error _, _) => []
    | (.ok _, f) => next.moves callee handle context f
  | .note remark next, f => next.moves callee handle context (f.note remark)

namespace Contract

def movesIn (c : Contract) (callee : Callee) (setting : Setting) (context : CallContext)
    (f : Frame) : List Move :=
  match c.route context.input with
  | .error _ => []
  | .ok (body, args) => (body ⟨context, args, setting.block⟩).moves callee setting.handle context f

/-- The moves of a call between its own snapshot and the release of it. -/
def moves (c : Contract) (callee : Callee) (setting : Setting) (w : World)
    (address caller input gas readOnly : Datum) : List Move :=
  match CallContext.make caller address input gas readOnly, w.step setting.handle .snapshot with
  | .ok context, (.ok _, w) =>
    c.movesIn callee setting context ⟨w, GasMeter.start context.suppliedGas, []⟩
  | _, _ => []

end Contract

namespace Store

variable {s : Store}

/-- What comes back to whoever makes the moves. -/
def answers (s : Store) : List Move → List (Outcome Datum)
  | [] => []
  | .look :: rest => (s.move .look).answers rest
  | .use handle op :: rest => (s.step handle op).1 :: (s.move (.use handle op)).answers rest

theorem afterMoves_append (s : Store) (first rest : List Move) :
    s.afterMoves (first ++ rest) = (s.afterMoves first).afterMoves rest := List.foldl_append

theorem answers_append (s : Store) (first rest : List Move) :
    s.answers (first ++ rest) = s.answers first ++ (s.afterMoves first).answers rest := by
  induction first generalizing s with
  | nil => rfl
  | cons m first ih =>
    cases m with
    | look => exact ih (s.move .look)
    | use handle op => exact congrArg (_ :: ·) (ih (s.move (.use handle op)))

theorem answers_looks (s : Store) (handle : Handle) (readOnly : Bool) :
    s.answers (handle.looks readOnly) = [] := by
  cases handle <;> cases readOnly <;> rfl

theorem afterMoves_looks (s : Store) (handle : Handle) (readOnly : Bool) :
    s.afterMoves (handle.looks readOnly) = (s.guard handle readOnly).2 := by
  cases handle <;> cases readOnly <;> rfl

theorem HoldsOpen.now {n : Int} {moves : List Move} (held : s.HoldsOpen n moves) :
    n < s.openSnapshots := by
  cases moves with
  | nil => exact held
  | cons m rest => exact held.1

theorem HoldsOpen.behind {n : Int} {moves : List Move} (held : s.HoldsOpen n moves) :
    n < (s.afterMoves moves).openSnapshots := by
  induction moves generalizing s with
  | nil => exact held
  | cons m rest ih => exact ih held.2

end Store

namespace Frame

/-- Either a view is opened, or the frame stays as it is. -/
theorem reach_cases (f : Frame) (handle : Handle) (readOnly : Bool) (via : Access) :
    (∃ only, f.looks handle readOnly via = handle.looks only ∧
        (f.reach handle readOnly via).2 = (f.guard handle only).2) ∨
      (f.looks handle readOnly via = [] ∧ (f.reach handle readOnly via).2 = f) := by
  cases via with
  | guarded => exact .inl ⟨readOnly, rfl, rfl⟩
  | direct => exact .inr ⟨rfl, rfl⟩
  | observing => exact .inl ⟨true, rfl, rfl⟩
  | kept index =>
    rw [looks, reach]
    cases f.kept[index]? with
    | some kept => exact .inr ⟨rfl, rfl⟩
    | none => exact .inl ⟨readOnly, rfl, rfl⟩

theorem store_reach (f : Frame) (handle : Handle) (readOnly : Bool) (via : Access) :
    (f.reach handle readOnly via).2.world.store =
      f.world.store.afterMoves (f.looks handle readOnly via) := by
  rcases f.reach_cases handle readOnly via with ⟨only, looked, reached⟩ | ⟨looked, reached⟩
  · rw [looked, reached, Store.afterMoves_looks]
    rfl
  · rw [looked, reached]
    rfl

theorem answers_looks (f : Frame) (handle : Handle) (readOnly : Bool) (via : Access) :
    f.world.store.answers (f.looks handle readOnly via) = [] := by
  rcases f.reach_cases handle readOnly via with ⟨only, looked, _⟩ | ⟨looked, _⟩
  · rw [looked, Store.answers_looks]
  · rw [looked]
    rfl

/-- Before an operation there are new views, if anything. -/
theorem above_looks (f : Frame) (handle : Handle) (readOnly : Bool) (via : Access) (floor : Nat) :
    ∀ m ∈ f.looks handle readOnly via, m.Above floor := by
  rcases f.reach_cases handle readOnly via with ⟨only, looked, _⟩ | ⟨looked, _⟩
  · rw [looked]
    exact handle.above_looks only floor
  · rw [looked]
    exact List.forall_mem_nil _

end Frame

/-- What a use of the state is answered. -/
def Act.answer? : Act → Option (Outcome Datum)
  | .state _ _ answer => some answer
  | _ => none

/-- A body that calls no other contract gets its answers from its moves. -/
theorem Body.answers_moves {callee : Callee} {handle : Handle} {context : CallContext} (body : Body)
    (f : Frame) (guarded : ∀ act ∈ body.acts callee handle context f, act.isGuarded = true) :
    (body.acts callee handle context f).filterMap Act.answer? =
      f.world.store.answers (body.moves callee handle context f) := by
  induction body generalizing f with
  | done output => rfl
  | fail fault => rfl
  | charge amount next ih => exact ih _ _ fun act held => guarded act (.tail _ held)
  | keep next ih =>
    rw [moves, Store.answers_append, Store.answers_looks, Store.afterMoves_looks, List.nil_append]
    exact ih _ guarded
  | state via op next ih =>
    have rest := ih _ _ fun act held => guarded act (.tail _ held)
    rw [moves, Store.answers_append, f.answers_looks, ← f.store_reach, List.nil_append]
    exact congrArg (_ :: ·) rest
  | call address input gas readOnly next ih =>
    cases guarded _ List.mem_cons_self
  | observe count next ih =>
    have same := f.store_observe count
    rw [acts] at guarded ⊢
    rw [moves]
    cases seen : f.observe count with
    | mk answer after =>
      rw [seen] at same guarded
      cases answer with
      | error fault => rfl
      | ok _ =>
        rw [← same]
        exact ih after guarded
  | note remark next ih => exact ih _ guarded

/-! ### Bodies of static calls -/

/-- The body of a static call goes through views that are new in the call. -/
theorem Body.above_moves {callee : Callee} {context : CallContext} {before : Ledger} {floor : Nat}
    (static : context.readOnly = true) (body : Body) (f : Frame) (start : f.Static before floor)
    (guarded : ∀ act ∈ body.acts callee .base context f, act.isGuarded = true) :
    ∀ m ∈ body.moves callee .base context f, m.Above floor := by
  have inv := Frame.Static.invariant before floor static
  induction body generalizing f with
  | done output => exact List.forall_mem_nil _
  | fail fault => exact List.forall_mem_nil _
  | charge amount next ih =>
    have after := inv.blind f { f with meter := (f.meter.consume amount).2 } rfl rfl start
    exact ih _ _ after fun act held => guarded act (.tail _ held)
  | keep next ih =>
    have rest := ih _ (inv.keep f start) guarded
    exact List.forall_mem_append.mpr ⟨Handle.above_looks .base _ floor, rest⟩
  | state via op next ih =>
    have allowed := guarded _ List.mem_cons_self
    have indirect : via ≠ .direct := by
      rintro rfl
      cases allowed
    have target := (start.reach indirect).1
    rw [← static] at target
    have after := (inv.state f via op start allowed).1
    have rest := ih _ _ after fun act held => guarded act (.tail _ held)
    have looked := f.above_looks .base context.readOnly via floor
    exact List.forall_mem_append.mpr ⟨looked, List.forall_mem_cons.mpr ⟨target, rest⟩⟩
  | call address input gas readOnly next ih =>
    cases guarded _ List.mem_cons_self
  | observe count next ih =>
    have same := f.store_observe count
    have kept := f.kept_observe count
    rw [acts] at guarded
    rw [moves]
    cases seen : f.observe count with
    | mk answer after =>
      rw [seen] at same kept guarded
      cases answer with
      | error fault => exact List.forall_mem_nil _
      | ok _ => exact ih after (inv.blind f after same.symm kept.symm start) guarded
  | note remark next ih =>
    exact ih _ (inv.blind f (f.note remark) rfl rfl start) guarded

/-! ### Releases of own snapshots -/

/-- Floats may be equal to an id, but they are no places. -/
def Move.NamesNoFloat : Move → Prop
  | .use _ (.revert (.float _)) => False
  | .use _ (.discard (.float _)) => False
  | _ => True

namespace Store

variable {s : Store} {before : Ledger} {floor v : Nat} {op : StateOp} {id : Datum} {n : Int}

/-- A view that remembers an open snapshot can release it, and all later ones with it. -/
theorem Overlaid.release_held (h : s.Overlaid before floor)
    (idle : before.marks = [] → before.journal = []) (high : floor ≤ v)
    (release : op = .revert id ∨ op = .discard id) (named : id.integer? = some n)
    (held : n ∈ s.viewAt v) (open_ : n < s.openSnapshots) :
    (s.step (.view v) op).1 = .ok .null ∧ (s.step (.view v) op).2.openSnapshots = n := by
  obtain ⟨more, on⟩ := h.base
  have count : s.openSnapshots = before.openSnapshots + more := by
    rw [openSnapshots, on]
    exact Ledger.openSnapshots_marked
  have reached := h.above v high n held
  obtain ⟨k, rfl⟩ := Int.eq_ofNat_of_zero_le (Int.le_trans (Int.natCast_nonneg _) reached)
  have equal : id.equalInt? k = true := (Datum.equalInt?_iff named).mpr rfl
  have own : (s.viewAt v).any id.equalInt? = true := List.any_eq_true.mpr ⟨k, held, equal⟩
  have found : (before.marked more).openId id = .ok k := by
    rw [Ledger.openId_eq, Ledger.openSnapshots_marked, openPlace, placeAmong_of_integer? named,
      if_pos ⟨by omega, by omega⟩]
    rfl
  rw [Store.step, onView_release on v release,
    View.release_eq _ _ _ (Datum.isHashable_of_equalInt? equal), if_pos own]
  have released := Ledger.step_release_open (k := more) idle release found (by omega) (by omega)
  simp only [released]
  refine ⟨trivial, ?_⟩
  show ((before.marked (k - before.openSnapshots)).openSnapshots : Int) = k
  rw [Ledger.openSnapshots_marked]
  omega

/-- A view does not let go of a snapshot that stays open, unless it is given a float. -/
theorem Overlaid.keeps_of_holdsOpen (h : s.Overlaid before floor)
    (idle : before.marks = [] → before.journal = []) (sound : s.Sound) (high : floor ≤ v)
    {moves : List Move} (above : ∀ m ∈ moves, m.Above floor) (held : s.HoldsOpen n moves)
    (noFloat : ∀ m ∈ moves, m.NamesNoFloat) : s.Keeps v n moves := by
  induction moves generalizing s with
  | nil => trivial
  | cons m rest ih =>
    have first := h.move idle (above m List.mem_cons_self)
    refine ⟨?_, ih first (sound.move m) (fun m mem => above m (.tail _ mem)) held.2
      fun m mem => noFloat m (.tail _ mem)⟩
    cases m with
    | look => exact not_false
    | use handle op =>
      rintro ⟨rfl, id, release, hashable, carried, notAbove⟩
      -- the release is carried out, so the view remembers an id that is equal to the one given
      have known : (s.viewAt v).any id.equalInt? = true := by
        refine Bool.of_not_eq_false fun unknown => carried ?_
        exact (refused_iff sound release).mpr ⟨hashable, unknown⟩
      obtain ⟨x, mem, equal⟩ := List.any_eq_true.mp known
      have whole : ∃ y, id.integer? = some y := by
        cases id with
        | int y => exact ⟨y, rfl⟩
        | bool b => exact ⟨_, rfl⟩
        | float y =>
          have none := noFloat _ List.mem_cons_self
          rcases release with rfl | rfl
          · exact none.elim
          · exact none.elim
        | _ => cases equal
      obtain ⟨y, named⟩ := whole
      obtain rfl := (Datum.equalInt?_iff named).mp equal
      have below : y ≤ n := by
        rw [Datum.compareInt?_of_integer? named] at notAbove
        refine Int.not_lt.mp fun more => notAbove ?_
        rw [Int.compare_eq_gt.mpr more]
      have now : n < s.openSnapshots := held.1
      -- and it takes the snapshot at `n` away with it
      obtain ⟨_, left⟩ := h.release_held idle high release named mem (by omega)
      have after : n < (s.step (.view v) op).2.openSnapshots := held.2.now
      omega

theorem StillOpen.now {moves : List Move} (open_ : s.StillOpen moves v n) :
    n < (s.afterMoves moves).openSnapshots := by
  obtain ⟨first, later, rfl, _, held⟩ := open_
  rw [afterMoves_append]
  exact held.behind

variable {u : Nat} {moves : List Move}

/-- The view that took a snapshot has it for its own as long as it is open. -/
theorem Overlaid.kept_of_stillOpen (h : s.Overlaid before floor)
    (idle : before.marks = [] → before.journal = []) (sound : s.Sound) (high : floor ≤ v)
    (above : ∀ m ∈ moves, m.Above floor) (open_ : s.StillOpen moves v n)
    (noFloat : ∀ m ∈ moves, m.NamesNoFloat) : s.Kept moves v n := by
  obtain ⟨first, later, rfl, takes, held⟩ := open_
  obtain ⟨aboveFirst, aboveRest⟩ := List.forall_mem_append.mp above
  obtain ⟨aboveTaken, aboveLater⟩ := List.forall_mem_cons.mp aboveRest
  have taken := (h.afterMoves idle aboveFirst).move idle aboveTaken
  refine ⟨first, later, rfl, takes, ?_⟩
  refine taken.keeps_of_holdsOpen idle ((sound.afterMoves first).move _) high aboveLater held ?_
  intro m mem
  exact noFloat m (List.mem_append_right _ (.tail _ mem))

/-- Through a new view an open snapshot can be released exactly if the view has it for its own. -/
theorem Overlaid.released_iff_kept (h : s.Overlaid before floor)
    (idle : before.marks = [] → before.journal = []) (sound : s.Sound) (high : floor ≤ v)
    (blank : s.viewAt v = []) (above : ∀ m ∈ moves, m.Above floor) (open_ : s.StillOpen moves u n)
    (release : op = .revert (.int n) ∨ op = .discard (.int n)) :
    let met := s.afterMoves moves
    (s.Kept moves v n ↔
      (met.step (.view v) op).1 = .ok .null ∧ (met.step (.view v) op).2.openSnapshots = n) ∧
    (¬s.Kept moves v n → met.step (.view v) op = met.refuse op) := by
  intro met
  have carried : s.Kept moves v n →
      (met.step (.view v) op).1 = .ok .null ∧ (met.step (.view v) op).2.openSnapshots = n := by
    intro kept
    have held := (mem_viewAt_iff sound blank moves n).mpr kept
    exact (h.afterMoves idle above).release_held idle high release rfl held open_.now
  have refused : ¬s.Kept moves v n → met.step (.view v) op = met.refuse op := by
    intro lost
    refine (refused_iff (sound.afterMoves moves) release).mpr ⟨rfl, ?_⟩
    refine Bool.eq_false_iff.mpr fun known => ?_
    obtain ⟨x, held, equal⟩ := List.any_eq_true.mp known
    obtain rfl := (Datum.equalInt?_iff (d := .int n) rfl).mp equal
    exact lost ((mem_viewAt_iff sound blank moves n).mp held)
  refine ⟨⟨carried, ?_⟩, refused⟩
  rintro ⟨answer, _⟩
  by_contra lost
  rw [refused lost] at answer
  cases answer

end Store

/-! ### Whole calls -/

/-- A release through a view that is new with it is refused. -/
def Act.Unowned : Act → Prop
  | .state .guarded op answer => ∀ id, op = .revert id ∨ op = .discard id → id.isHashable = true →
    answer = .error (.failure (.writeProtection (.text op.name)))
  | _ => True

namespace Store

theorem step_new_view {s : Store} {l : Ledger} (on : s.base = .ledger l true) {op : StateOp}
    {id : Datum} (release : op = .revert id ∨ op = .discard id) (hashable : id.isHashable = true) :
    (s.guard .base true).2.step (.view s.views.length) op = (s.guard .base true).2.refuse op := by
  have blank : (s.guard .base true).2.viewAt s.views.length = [] := by
    rw [viewAt_guard, viewAt_of_le (Nat.le_refl _)]
  rw [step, onView_release ((s.base_guard .base true).trans on) _ release, blank,
    View.release_eq _ _ _ hashable]
  rfl

end Store

theorem Frame.Static.unowned (before : Ledger) (floor : Nat) {context : CallContext}
    (static : context.readOnly = true) :
    Body.Invariant .base context (fun act => act.isGuarded = true) Act.Unowned
      (fun f => f.Static before floor) where
  blind := (invariant before floor static).blind
  alone := (invariant before floor static).alone
  charge amount answer := trivial
  keep := (invariant before floor static).keep
  state f via op start := by
    intro reached stepped allowed
    refine ⟨((invariant before floor static).state f via op start allowed).1, ?_⟩
    cases via with
    | guarded =>
      intro id release hashable
      obtain ⟨more, on⟩ := start.1.base
      have opened : reached = f.guard .base true := static ▸ rfl
      have refused := Store.step_new_view on release hashable
      simp only [stepped, opened]
      exact congrArg Prod.fst refused
    | _ => trivial

namespace Contract

variable {before : Ledger} {floor : Nat} {context : CallContext}

/-- What the body of a static call is answered, what it goes through and what it cannot do. -/
theorem movesIn_static (static : context.readOnly = true) (c : Contract) (callee : Callee)
    (block : Option BlockEnv) {f : Frame} (start : f.Static before floor)
    (guarded : ∀ act ∈ c.actsIn callee ⟨.base, block⟩ context f, act.isGuarded = true) :
    let acts := c.actsIn callee ⟨.base, block⟩ context f
    let moves := c.movesIn callee ⟨.base, block⟩ context f
    acts.filterMap Act.answer? = f.world.store.answers moves ∧ (∀ m ∈ moves, m.Above floor) ∧
      ∀ act ∈ acts, act.Unowned := by
  simp only [actsIn, movesIn] at guarded ⊢
  cases routed : c.route context.input with
  | error fault => exact ⟨rfl, List.forall_mem_nil _, List.forall_mem_nil _⟩
  | ok found =>
    rw [routed] at guarded
    refine ⟨Body.answers_moves _ f guarded, Body.above_moves static _ f start guarded, ?_⟩
    exact ((Frame.Static.unowned before floor static).run _ f guarded start).2

end Contract

/-- In a static call a snapshot that was taken in the call and is open can be released through a
view, with all later ones, exactly if the view took a snapshot under the same id and has not let go
of it; otherwise the release is refused. The view that took the snapshot has it for its own as long
as no float is given for an id, and a view that is new with the release never has. -/
theorem own_snapshot_released_iff (txHash : Bytes) (history : List StateOp) (c : Contract)
    (callee : Callee) (block : Option BlockEnv) (views : List View) (metrics : Metrics)
    (notes : List Datum) (address caller input gas readOnly : Datum)
    (static : readOnly.truthy = true) :
    let before := (Ledger.start txHash).after history
    let w : World := ⟨⟨.ledger before true, views⟩, metrics, notes⟩
    let acts := c.acts callee ⟨.base, block⟩ w address caller input gas readOnly
    let moves := c.moves callee ⟨.base, block⟩ w address caller input gas readOnly
    let entry := w.store.move (.use .base .snapshot)
    (∀ act ∈ acts, act.isGuarded = true) →
    acts.filterMap Act.answer? = entry.answers moves ∧ (∀ act ∈ acts, act.Unowned) ∧
    ∀ past v op later n, moves = past ++ .use (.view v) op :: later →
      op = .revert (.int n) ∨ op = .discard (.int n) → (∃ u, entry.StillOpen past u n) →
      let met := entry.afterMoves past
      (entry.Kept past v n ↔
        (met.step (.view v) op).1 = .ok .null ∧ (met.step (.view v) op).2.openSnapshots = n) ∧
      (¬entry.Kept past v n → met.step (.view v) op = met.refuse op) ∧
      (entry.StillOpen past v n → (∀ m ∈ past, m.NamesNoFloat) → entry.Kept past v n) := by
  intro before w acts moves entry guarded
  have facts : acts.filterMap Act.answer? = entry.answers moves ∧
      (∀ m ∈ moves, m.Above views.length) ∧ ∀ act ∈ acts, act.Unowned := by
    cases made : CallContext.make caller address input gas readOnly with
    | error fault =>
      have idle : acts = [] := by
        simp only [acts, Contract.acts, made]
      have still : moves = [] := by
        simp only [moves, Contract.moves, made]
      rw [idle, still]
      exact ⟨rfl, List.forall_mem_nil _, List.forall_mem_nil _⟩
    | ok context =>
      have inert : context.readOnly = true := (CallContext.readOnly_of_make made).trans static
      have start := Frame.Static.entry before views metrics notes block context
      have inside : acts =
          c.actsIn callee ⟨.base, block⟩ context (Contract.entry ⟨.base, block⟩ context w) := by
        simp only [acts, Contract.acts, made]
        rfl
      have within : moves =
          c.movesIn callee ⟨.base, block⟩ context (Contract.entry ⟨.base, block⟩ context w) := by
        simp only [moves, Contract.moves, made]
        rfl
      rw [inside] at guarded ⊢
      rw [within]
      exact Contract.movesIn_static inert c callee block start guarded
  obtain ⟨answered, above, unowned⟩ := facts
  refine ⟨answered, unowned, ?_⟩
  intro past v op later n split release taken met
  have refines := refines_after txHash history
  have sound : entry.Sound := ⟨before.mark, _, rfl, (refines.step .snapshot).2⟩
  have overlaid : entry.Overlaid before.mark views.length := .start before.mark views
  have idle := Ledger.idle_mark (l := before)
  rw [split] at above
  obtain ⟨past_above, rest_above⟩ := List.forall_mem_append.mp above
  obtain ⟨w, same, high⟩ := (List.forall_mem_cons.mp rest_above).1
  cases same
  obtain ⟨u, open_⟩ := taken
  have blank : entry.viewAt v = [] := Store.viewAt_of_le high
  obtain ⟨released, refused⟩ :=
    overlaid.released_iff_kept idle sound high blank past_above open_ release
  exact ⟨released, refused, overlaid.kept_of_stillOpen idle sound high past_above⟩

namespace Nesting

/-- Takes two snapshots, one in the other, and reverts to the outer one. -/
def body (via : Access) : Body :=
  .keep <|
  .state via .snapshot fun _ =>
  .state via .snapshot fun _ =>
  .state via (.revert (.int 2)) fun answer =>
    match answer with
    | .ok output => .done output
    | .error fault => .fail fault

def contract (via : Access) : Contract := ⟨[], some fun _ => body via⟩

def acts (via : Access) : List Act :=
  (contract via).acts Leaking.alone ⟨.base, none⟩ Leaking.world Leaking.account Leaking.account
    (.ofBytes []) (.int 10) (.bool true)

def moves (via : Access) : List Move :=
  (contract via).moves Leaking.alone ⟨.base, none⟩ Leaking.world Leaking.account Leaking.account
    (.ofBytes []) (.int 10) (.bool true)

def entry : Store := Leaking.world.store.move (.use .base .snapshot)

end Nesting

open Nesting in
/-- Through a view that the body keeps, on top of one snapshot of before and the call's own. -/
theorem own_snapshot_released_iff_nested :
    let past := [Move.look, .use (.view 0) .snapshot, .use (.view 0) .snapshot]
    let met := entry.afterMoves past
    moves (.kept 0) = past ++ [.use (.view 0) (.revert (.int 2))] ∧ entry.StillOpen past 0 2 ∧
      (met.step (.view 0) (.revert (.int 2))).1 = .ok .null ∧
      (met.step (.view 0) (.revert (.int 2))).2.openSnapshots = 2 := by
  intro past met
  have split : moves (.kept 0) = past ++ [.use (.view 0) (.revert (.int 2))] := rfl
  have guarded : (acts (.kept 0)).all Act.isGuarded = true := by decide +kernel
  have open_ : entry.StillOpen past 0 2 := by
    refine ⟨[.look], [.use (.view 0) .snapshot], rfl, ⟨by decide +kernel, rfl⟩, ?_, ?_⟩
    · decide +kernel
    · show (2 : Int) < Store.openSnapshots _
      decide +kernel
  obtain ⟨_, _, released⟩ := own_snapshot_released_iff zeroWord Leaking.history
    (contract (.kept 0)) Leaking.alone none [] .fresh [] Leaking.account Leaking.account
    (.ofBytes []) (.int 10) (.bool true) rfl (List.all_eq_true.mp guarded)
  obtain ⟨iff, _, own⟩ := released past 0 (.revert (.int 2)) [] 2 split (.inl rfl) ⟨0, open_⟩
  have kept := own open_ (by simp [past, Move.NamesNoFloat])
  obtain ⟨answer, left⟩ := iff.mp kept
  exact ⟨split, open_, answer, Int.ofNat.inj left⟩

open Nesting in
/-- The same body is refused if it asks for the state anew each time. -/
theorem own_snapshot_refused_anew :
    let past := [Move.look, .look, .use (.view 1) .snapshot, .look, .use (.view 2) .snapshot, .look]
    moves .guarded = past ++ [.use (.view 3) (.revert (.int 2))] ∧ entry.StillOpen past 1 2 ∧
      (acts .guarded).filterMap Act.answer? = [.ok (.int 2), .ok (.int 3),
        .error (.failure (.writeProtection (.text "revert_to_snapshot")))] := by
  intro past
  refine ⟨rfl, ?_, rfl⟩
  refine ⟨[.look, .look], [.look, .use (.view 2) .snapshot, .look], rfl,
    ⟨by decide +kernel, rfl⟩, ?_, ?_, ?_, ?_⟩
  · decide +kernel
  · decide +kernel
  · decide +kernel
  · show (2 : Int) < Store.openSnapshots _
    decide +kernel

end SeededDraws
