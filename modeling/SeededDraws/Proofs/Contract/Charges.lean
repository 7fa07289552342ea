import SeededDraws.Proofs.Abi.Words
import SeededDraws.Proofs.Context
import SeededDraws.Proofs.Contract.Acts
import SeededDraws.Proofs.Contract.Transaction
import SeededDraws.Proofs.Fault
import SeededDraws.Proofs.Gas
/-!
# What a call charges

The meter of a call has used what its accepted charges add up to, and nothing else moves it. The
body may catch a refusal and go on, or fail for lack of gas without a charge. So what a result has
left is read from the acts of the body and from the failure that it carries.
-/

namespace SeededDraws

/-- What an act takes from the meter; only accepted charges do. -/
def Act.cost : Act → Nat
  | .charge (.int n) (.ok _) => n.toNat
  | _ => 0

def total {α : Type} (amount : α → Nat) : List α → Nat
  | [] => 0
  | x :: rest => amount x + total amount rest

theorem total_append {α : Type} (amount : α → Nat) (xs ys : List α) :
    total amount (xs ++ ys) = total amount xs + total amount ys := by
  induction xs with
  | nil => exact (Nat.zero_add _).symm
  | cons x rest ih => rw [List.cons_append, total, total, ih, Nat.add_assoc]

theorem total_concat {α : Type} (amount : α → Nat) (xs : List α) (x : α) :
    total amount (xs ++ [x]) = total amount xs + amount x := total_append amount xs [x]

theorem total_replicate {α : Type} (amount : α → Nat) (n : Nat) (x : α) :
    total amount (List.replicate n x) = n * amount x := by
  induction n with
  | zero => exact (Nat.zero_mul _).symm
  | succ n ih => rw [List.replicate_succ, total, ih, Nat.add_comm, Nat.succ_mul]

/-- The accepted charges among some acts. -/
def spent (acts : List Act) : Nat := total Act.cost acts

theorem spent_cons (act : Act) (acts : List Act) : spent (act :: acts) = act.cost + spent acts :=
  rfl

theorem spent_concat (acts : List Act) (act : Act) :
    spent (acts ++ [act]) = spent acts + act.cost := total_concat Act.cost acts act

theorem GasMeter.consume_cost {m : GasMeter} (within : m.used ≤ m.limit) (amount : Datum) :
    let act := Act.charge amount (m.consume amount).1
    (m.consume amount).2 = ⟨m.limit, m.used + act.cost⟩ ∧ m.used + act.cost ≤ m.limit := by
  rcases m.consume_cases within amount with ⟨n, rfl, enough, paid⟩ | ⟨_, fault, refused⟩
  · rw [paid]
    refine ⟨rfl, ?_⟩
    rw [remaining] at enough
    simp only [Act.cost, Int.toNat_natCast]
    omega
  · rw [refused]
    cases amount <;> exact ⟨rfl, within⟩

/-! ### Runs -/

/-- An operation by way of an access. -/
def Frame.use (f : Frame) (handle : Handle) (readOnly : Bool) (via : Access) (op : StateOp) :
    Outcome Datum × Frame :=
  (f.reach handle readOnly via).2.step (f.reach handle readOnly via).1 op

theorem Frame.meter_use (f : Frame) (handle : Handle) (readOnly : Bool) (via : Access)
    (op : StateOp) : (f.use handle readOnly via op).2.meter = f.meter :=
  f.meter_reach handle readOnly via

namespace Body

variable {callee : Callee} {handle : Handle} {context : CallContext}

theorem acts_charge (amount : Datum) (next : Outcome Nat → Body) (f : Frame) :
    (charge amount next).acts callee handle context f =
      .charge amount (f.meter.consume amount).1 ::
        (next (f.meter.consume amount).1).acts callee handle context
          { f with meter := (f.meter.consume amount).2 } := rfl

theorem acts_state (via : Access) (op : StateOp) (next : Outcome Datum → Body) (f : Frame) :
    (state via op next).acts callee handle context f =
      .state via op (f.use handle context.readOnly via op).1 ::
        (next (f.use handle context.readOnly via op).1).acts callee handle context
          (f.use handle context.readOnly via op).2 := rfl

theorem acts_call (address input gas readOnly : Datum) (next : Outcome CallResult → Body)
    (f : Frame) :
    (call address input gas readOnly next).acts callee handle context f =
      let called := callee f.world address (.ofBytes context.address) input gas readOnly
      .call called.1 :: (next called.1).acts callee handle context { f with world := called.2 } :=
  rfl

/-- Behind a run the meter has used what was used before, and what the run spent. -/
theorem meter_run (body : Body) (f : Frame) (within : f.meter.used ≤ f.meter.limit) :
    (body.run callee handle context f).2.meter =
        ⟨f.meter.limit, f.meter.used + spent (body.acts callee handle context f)⟩ ∧
      f.meter.used + spent (body.acts callee handle context f) ≤ f.meter.limit := by
  induction body generalizing f with
  | done output => exact ⟨rfl, within⟩
  | fail fault => exact ⟨rfl, within⟩
  | charge amount next ih =>
    obtain ⟨meter, bound⟩ := GasMeter.consume_cost within amount
    have rest := ih (f.meter.consume amount).1 { f with meter := (f.meter.consume amount).2 }
    simp only [meter] at rest
    simp only [run_charge, acts_charge, meter, spent_cons, ← Nat.add_assoc]
    exact rest bound
  | keep next ih => exact ih _ within
  | state via op next ih =>
    have same := f.meter_use handle context.readOnly via op
    have rest := ih (f.use handle context.readOnly via op).1
      (f.use handle context.readOnly via op).2 (same ▸ within)
    rw [same] at rest
    simp only [acts_state, spent_cons, Act.cost, Nat.zero_add]
    exact rest
  | call address input gas readOnly next ih =>
    simp only [acts_call, spent_cons, Act.cost, Nat.zero_add]
    exact ih _ _ within
  | observe count next ih =>
    have same := f.meter_observe count
    rw [run, acts]
    cases seen : f.observe count with
    | mk answer after =>
      rw [seen] at same
      simp only [] at same
      cases answer with
      | error fault =>
        rw [← same] at within ⊢
        exact ⟨rfl, within⟩
      | ok _ =>
        rw [← same] at within ⊢
        exact ih after within
  | note remark next ih => exact ih _ within

/-- Each charge of a run meets a meter that has used what was spent until then. -/
theorem charge_of_acts (body : Body) (f : Frame) (within : f.meter.used ≤ f.meter.limit)
    {earlier later : List Act} {amount : Datum} {answer : Outcome Nat}
    (split : body.acts callee handle context f = earlier ++ .charge amount answer :: later) :
    f.meter.used + spent earlier ≤ f.meter.limit ∧
      answer = ((⟨f.meter.limit, f.meter.used + spent earlier⟩ : GasMeter).consume amount).1 := by
  induction body generalizing f earlier with
  | done output => simp [acts] at split
  | fail fault => simp [acts] at split
  | charge taken next ih =>
    rw [acts_charge] at split
    rcases List.cons_eq_append_iff.mp split with ⟨rfl, same⟩ | ⟨rest, rfl, behind⟩
    · cases same
      exact ⟨within, rfl⟩
    · obtain ⟨meter, bound⟩ := GasMeter.consume_cost within taken
      have tail := ih (f.meter.consume taken).1 { f with meter := (f.meter.consume taken).2 }
      simp only [meter] at tail behind
      simp only [spent_cons, ← Nat.add_assoc]
      exact tail bound behind
  | keep next ih => exact ih (f.keep handle context.readOnly) within split
  | state via op next ih =>
    have same := f.meter_use handle context.readOnly via op
    rw [acts_state] at split
    rcases List.cons_eq_append_iff.mp split with ⟨rfl, first⟩ | ⟨rest, rfl, behind⟩
    · cases first
    · have tail := ih _ _ (same ▸ within) behind
      rw [same] at tail
      simp only [spent_cons, Act.cost, Nat.zero_add]
      exact tail
  | call address input gas readOnly next ih =>
    rw [acts_call] at split
    rcases List.cons_eq_append_iff.mp split with ⟨rfl, first⟩ | ⟨rest, rfl, behind⟩
    · cases first
    · simp only [spent_cons, Act.cost, Nat.zero_add]
      exact ih _ { f with
        world := (callee f.world address (.ofBytes context.address) input gas readOnly).2 }
        within behind
  | observe count next ih =>
    have same := f.meter_observe count
    rw [acts] at split
    cases seen : f.observe count with
    | mk counted after =>
      rw [seen] at same split
      simp only [] at same split
      cases counted with
      | error fault => simp at split
      | ok _ =>
        rw [← same] at within ⊢
        exact ih after within split
  | note remark next ih => exact ih (f.note remark) within split

end Body

/-! ### Calls -/

namespace Contract

variable {f : Frame} {result : CallResult}

/-- A result carries the output of the body or the failure that ended it. -/
theorem result_of_finish {handle : Handle} {snapshot : Datum} {ended : Outcome Datum × Frame}
    (answered : (finish handle snapshot ended).1 = .ok result) :
    (∃ output, ended.1 = .ok output ∧ result = ⟨output, ended.2.meter.remaining, none⟩) ∨
      ∃ cause, ended.1 = .error (.failure cause) ∧
        result = ⟨.ofBytes [], gasAfter cause ended.2.meter, some cause⟩ := by
  obtain ⟨outcome, f⟩ := ended
  cases outcome with
  | ok output =>
    rw [finish, commit] at answered
    simp only [] at answered
    split at answered
    · cases answered
    · obtain ⟨counted, held, measured⟩ := Outcome.bind_eq_ok.mp answered
      cases length : output.length with
      | error fault =>
        rw [length] at measured
        cases measured
      | ok n =>
        rw [length] at measured
        cases measured
        exact .inl ⟨output, rfl, error_of_countResult held⟩
  | error fault =>
    by_cases failed : ∃ cause, fault = .failure cause
    · obtain ⟨cause, rfl⟩ := failed
      rw [finish, reject] at answered
      simp only [] at answered
      split at answered
      · cases answered
      · exact .inr ⟨cause, rfl, error_of_countResult answered⟩
    · have abandoned : finish handle snapshot (.error fault, f) =
          abandon handle snapshot fault f := by
        cases fault with
        | failure cause => exact absurd ⟨cause, rfl⟩ failed
        | _ => rfl
      rw [abandoned, abandon] at answered
      simp only [] at answered
      split at answered <;> cases answered

/-- The meter of a call has used what its body spent. -/
theorem meter_execute (c : Contract) (callee : Callee) (setting : Setting) (context : CallContext)
    (f : Frame) (within : f.meter.used ≤ f.meter.limit) :
    (c.execute callee setting context f).2.meter =
        ⟨f.meter.limit, f.meter.used + spent (c.actsIn callee setting context f)⟩ ∧
      f.meter.used + spent (c.actsIn callee setting context f) ≤ f.meter.limit := by
  rw [execute, actsIn]
  cases c.route context.input with
  | error fault => exact ⟨rfl, within⟩
  | ok routed => exact Body.meter_run _ f within

theorem charge_of_actsIn (c : Contract) (callee : Callee) (setting : Setting)
    (context : CallContext) (f : Frame) (within : f.meter.used ≤ f.meter.limit)
    {earlier later : List Act} {amount : Datum} {answer : Outcome Nat}
    (split : c.actsIn callee setting context f = earlier ++ .charge amount answer :: later) :
    f.meter.used + spent earlier ≤ f.meter.limit ∧
      answer = ((⟨f.meter.limit, f.meter.used + spent earlier⟩ : GasMeter).consume amount).1 := by
  rw [actsIn] at split
  cases routed : c.route context.input with
  | error fault =>
    rw [routed] at split
    simp at split
  | ok target =>
    rw [routed] at split
    exact Body.charge_of_acts _ f within split

theorem gasAfter_cases (cause : Failure) (m : GasMeter) :
    (∃ had asked, cause = .outOfGas had asked ∧ gasAfter cause m = 0) ∨
      ((∀ had asked, cause ≠ .outOfGas had asked) ∧ gasAfter cause m = m.remaining) := by
  cases cause with
  | outOfGas had asked => exact .inl ⟨had, asked, rfl, rfl⟩
  | _ =>
    refine .inr ⟨?_, rfl⟩
    intro had asked same
    cases same

/-- What has no body for its input fails before anything is charged. -/
theorem fault_of_route {c : Contract} {input : Bytes} {fault : Fault}
    (unrouted : c.route input = .error fault) :
    fault = .failure (.missingSelector (.ofNat input.length)) ∨
      fault = .failure (.ofSelector (input.take selectorSize)) := by
  rw [route] at unrouted
  split at unrouted
  · cases unrouted
  · rw [Words.splitSelector_ofBytes] at unrouted
    by_cases short : input.length < selectorSize
    · rw [if_pos short] at unrouted
      cases unrouted
      exact .inl rfl
    · rw [if_neg short] at unrouted
      simp only [bind, Except.bind] at unrouted
      split at unrouted
      · cases unrouted
      · cases unrouted
        exact .inr rfl

/-- Either a body is looked for behind a new snapshot, or the call ends without an act. -/
theorem run_cases (c : Contract) (callee : Callee) (setting : Setting) (w : World)
    (address caller input gas readOnly : Datum) :
    (∃ context id, CallContext.make caller address input gas readOnly = .ok context ∧
      c.acts callee setting w address caller input gas readOnly =
        c.actsIn callee setting context (entry setting context w) ∧
      c.run callee setting w address caller input gas readOnly = finish setting.handle id
        (c.execute callee setting context (entry setting context w))) ∨
    (c.acts callee setting w address caller input gas readOnly = [] ∧
      ∃ fault, (c.run callee setting w address caller input gas readOnly).1 = .error fault) := by
  cases made : CallContext.make caller address input gas readOnly with
  | error fault =>
    refine .inr ⟨?_, fault, ?_⟩
    · simp only [acts, made]
    · simp only [run, made]
  | ok context =>
    cases taken : w.step setting.handle .snapshot with
    | mk snapshot behind =>
      cases snapshot with
      | error fault =>
        refine .inr ⟨?_, fault, ?_⟩
        · simp only [acts, made, taken]
        · simp only [run, made, runIn, taken]
      | ok id =>
        refine .inl ⟨context, id, rfl, ?_, ?_⟩
        · simp only [acts, made, taken, entry]
        · exact run_eq c callee setting w made (congrArg Prod.fst taken)

end Contract

theorem CallContext.suppliedGas_of_make {caller address input readOnly : Datum} {supplied : Nat}
    {context : CallContext}
    (made : make caller address input (.ofNat supplied) readOnly = .ok context) :
    context.suppliedGas = supplied ∧ ByteText.read input = .ok context.input := by
  obtain ⟨_, _, read, gas, _⟩ := make_eq_ok.mp made
  have same := Int.ofNat.inj (Datum.int.inj gas)
  exact ⟨same.symm, read⟩

namespace Contract

variable {c : Contract} {callee : Callee} {setting : Setting} {w : World}
  {address caller input readOnly : Datum} {supplied : Nat} {result : CallResult}

theorem charge_of_acts {earlier later : List Act} {amount : Datum} {answer : Outcome Nat}
    (split : c.acts callee setting w address caller input (.ofNat supplied) readOnly =
      earlier ++ .charge amount answer :: later) :
    spent earlier ≤ supplied ∧
      answer = ((⟨supplied, spent earlier⟩ : GasMeter).consume amount).1 := by
  rcases c.run_cases callee setting w address caller input (.ofNat supplied) readOnly with
    ⟨context, id, made, inside, _⟩ | ⟨idle, _⟩
  · obtain rfl := (CallContext.suppliedGas_of_make made).1
    have charged := c.charge_of_actsIn callee setting context (entry setting context w)
      (Nat.zero_le _) (inside.symm.trans split)
    simpa [entry, GasMeter.start] using charged
  · exact absurd (idle.symm.trans split) (by simp)

/-- A result is read from the acts and from the failure that it carries. -/
theorem result_cases
    (answered :
      (c.run callee setting w address caller input (.ofNat supplied) readOnly).1 = .ok result) :
    let acts := c.acts callee setting w address caller input (.ofNat supplied) readOnly
    spent acts ≤ supplied ∧
      ((∃ output, result = ⟨output, supplied - spent acts, none⟩) ∨
        ∃ cause, result = ⟨.ofBytes [], gasAfter cause ⟨supplied, spent acts⟩, some cause⟩) := by
  intro acts
  rcases c.run_cases callee setting w address caller input (.ofNat supplied) readOnly with
    ⟨context, id, made, inside, finished⟩ | ⟨_, fault, refused⟩
  · obtain rfl := (CallContext.suppliedGas_of_make made).1
    rw [finished] at answered
    obtain ⟨meter, bound⟩ :=
      c.meter_execute callee setting context (entry setting context w) (Nat.zero_le _)
    have fresh : (entry setting context w).meter = ⟨context.suppliedGas, 0⟩ := rfl
    rw [fresh, ← inside, Nat.zero_add] at meter bound
    refine ⟨bound, ?_⟩
    rcases result_of_finish answered with ⟨output, _, rfl⟩ | ⟨cause, _, rfl⟩
    · rw [meter]
      exact .inl ⟨output, rfl⟩
    · rw [meter]
      exact .inr ⟨cause, rfl⟩
  · rw [refused] at answered
    cases answered

/-- Without a body for the input nothing is charged. -/
theorem result_unrouted
    (answered :
      (c.run callee setting w address caller input (.ofNat supplied) readOnly).1 = .ok result)
    {bytes : Bytes} {fault : Fault} (read : ByteText.read input = .ok bytes)
    (unrouted : c.route bytes = .error fault) : result.remainingGas = supplied := by
  rcases c.run_cases callee setting w address caller input (.ofNat supplied) readOnly with
    ⟨context, id, made, _, finished⟩ | ⟨_, other, refused⟩
  · obtain ⟨rfl, given⟩ := CallContext.suppliedGas_of_make made
    rw [read] at given
    cases given
    rw [finished, execute, unrouted] at answered
    rcases result_of_finish answered with ⟨output, ended, _⟩ | ⟨cause, ended, rfl⟩
    · cases ended
    · cases ended
      rcases fault_of_route unrouted with missing | unknown
      · cases missing
        rfl
      · cases unknown
        rfl
  · rw [refused] at answered
    cases answered

end Contract

/-- The account of a call. An attempt to charge is accepted exactly if its amount is an integer that
is not negative and not above what the accepted ones before it have left; else it changes nothing.
A result has left what they have left in the end, nothing if it is out of gas, and everything if
there was no body to run. No error has an output. -/
theorem gas_accounted (c : Contract) (callee : Callee) (setting : Setting) (w : World)
    (address caller input : Datum) (supplied : Nat) (readOnly : Datum) :
    let acts := c.acts callee setting w address caller input (.ofNat supplied) readOnly
    (∀ earlier amount answer later, acts = earlier ++ .charge amount answer :: later →
      let meter : GasMeter := ⟨supplied, spent earlier⟩
      answer = (meter.consume amount).1 ∧
        ((∃ left, answer = .ok left) ↔ ∃ n : Nat, amount = .int n ∧ n + spent earlier ≤ supplied) ∧
        (∀ left, answer = .ok left →
          left + spent (earlier ++ [.charge amount answer]) = supplied) ∧
        ∀ fault, answer = .error fault → (meter.consume amount).2 = meter) ∧
    ∀ result,
      (c.run callee setting w address caller input (.ofNat supplied) readOnly).1 = .ok result →
      result.remainingGas ≤ supplied ∧
        ((∀ had asked, result.error ≠ some (.outOfGas had asked)) →
          result.remainingGas + spent acts = supplied) ∧
        (∀ had asked, result.error = some (.outOfGas had asked) → result.remainingGas = 0) ∧
        (∀ bytes fault, ByteText.read input = .ok bytes → c.route bytes = .error fault →
          result.remainingGas = supplied) ∧
        (result.error ≠ none → result.output = .ofBytes []) := by
  intro acts
  constructor
  · intro earlier amount answer later split meter
    obtain ⟨bound, rfl⟩ := Contract.charge_of_acts split
    have within : meter.used ≤ meter.limit := bound
    refine ⟨rfl, meter.accepted_iff within, ?_, fun _ => meter.same_of_refused within⟩
    intro left accepted
    obtain ⟨n, rfl, whole⟩ := meter.whole_of_accepted within accepted
    rw [accepted, spent_concat, Act.cost, Int.toNat_natCast]
    exact whole
  · intro result answered
    have unrouted : ∀ bytes fault, ByteText.read input = .ok bytes →
        c.route bytes = .error fault → result.remainingGas = supplied :=
      fun _ _ read => Contract.result_unrouted answered read
    obtain ⟨bound, ⟨output, rfl⟩ | ⟨cause, rfl⟩⟩ := Contract.result_cases answered
    · refine ⟨Nat.sub_le .., ?_, ?_, unrouted, ?_⟩
      · intro _
        exact Nat.sub_add_cancel bound
      · rintro had asked ⟨⟩
      · intro failed
        exact absurd rfl failed
    · rcases Contract.gasAfter_cases cause ⟨supplied, spent acts⟩ with
        ⟨had, asked, rfl, none⟩ | ⟨other, rest⟩
      · refine ⟨Nat.zero_le _, ?_, ?_, unrouted, fun _ => rfl⟩
        · intro paid
          exact absurd rfl (paid had asked)
        · intro _ _ _
          exact none
      · have left : Contract.gasAfter cause ⟨supplied, spent acts⟩ = supplied - spent acts := rest
        refine ⟨?_, ?_, ?_, unrouted, fun _ => rfl⟩
        · rw [left]
          exact Nat.sub_le ..
        · intro _
          rw [left]
          exact Nat.sub_add_cancel bound
        · rintro had asked ⟨⟩
          exact absurd rfl (other had asked)

namespace Paying

def boom : Failure := .general (.text "boom") (.text "PRECOMPILE_ERROR") .null

/-- Pays three, catches three refusals, pays two and fails. -/
def body (cause : Failure) : Body :=
  .charge (.int 3) fun _ =>
  .charge (.int (-1)) fun _ =>
  .charge (.bool true) fun _ =>
  .charge (.int 8) fun _ =>
  .charge (.int 2) fun _ => .fail (.failure cause)

def contract (cause : Failure) : Contract := ⟨[], some fun _ => body cause⟩

def acts : List Act :=
  (contract boom).acts Leaking.alone ⟨.base, none⟩ Leaking.world Leaking.account Leaking.account
    (.ofBytes []) (.ofNat 10) (.bool false)

def call (cause : Failure) : Outcome CallResult × World :=
  (contract cause).run Leaking.alone ⟨.base, none⟩ Leaking.world Leaking.account Leaking.account
    (.ofBytes []) (.ofNat 10) (.bool false)

end Paying

open Paying in
/-- Five of ten units are charged in two parts, with refusals in between. -/
theorem gas_accounted_paying :
    (∃ earlier later left, acts = earlier ++ .charge (.int 2) (.ok left) :: later ∧
      left + (spent earlier + 2) = 10) ∧
    (∃ result, (call boom).1 = .ok result ∧ result.remainingGas = 5) ∧
    ∃ result, (call (.outOfGas .null .null)).1 = .ok result ∧ result.remainingGas = 0 := by
  have account := fun cause => gas_accounted (contract cause) Leaking.alone ⟨.base, none⟩
    Leaking.world Leaking.account Leaking.account (.ofBytes []) 10 (.bool false)
  refine ⟨?_, ?_, ?_⟩
  · obtain ⟨earlier, left, split⟩ : ∃ earlier left,
        acts = earlier ++ [.charge (.int 2) (.ok left)] := ⟨[_, _, _, _], _, rfl⟩
    obtain ⟨_, _, total, _⟩ := (account boom).1 earlier (.int 2) (.ok left) [] split
    have whole := total left rfl
    rw [spent_concat] at whole
    exact ⟨earlier, [], left, split, whole⟩
  · obtain ⟨result, answered, failed⟩ :
        ∃ result, (call boom).1 = .ok result ∧ result.error = some boom := ⟨_, rfl, rfl⟩
    obtain ⟨_, left, _⟩ := (account boom).2 result answered
    have other : ∀ had asked, result.error ≠ some (.outOfGas had asked) := by
      intro had asked
      rw [failed]
      rintro ⟨⟩
    have total : result.remainingGas + 5 = 10 := left other
    exact ⟨result, answered, by omega⟩
  · obtain ⟨result, answered, failed⟩ : ∃ result, (call (.outOfGas .null .null)).1 = .ok result ∧
        result.error = some (.outOfGas .null .null) := ⟨_, rfl, rfl⟩
    obtain ⟨_, _, none, _⟩ := (account (.outOfGas .null .null)).2 result answered
    exact ⟨result, answered, none _ _ failed⟩

end SeededDraws
