import SeededDraws.Proofs.Contract.Charges
import SeededDraws.Registry
/-!
# Routing by selector

A contract made of functions with distinct selectors runs the one function that the first four
bytes of an input name. The order in which the functions were given is not seen by any call, not
even by one that comes back to the same contract through the registry.
-/

namespace SeededDraws

namespace Contract

/-- Functions with byte strings for selectors, as they are given to the constructor. -/
def given (functions : List (Bytes × (Invocation → Body))) : List (Datum × (Invocation → Body)) :=
  functions.map fun f => (.ofBytes f.1, f.2)

def tabled (functions : List (Bytes × (Invocation → Body))) : List ContractFunction :=
  functions.map fun f => ⟨.ofBytes f.1, f.2⟩

/-! ### Construction -/

theorem tabled_uses (functions : List (Bytes × (Invocation → Body))) (selector : Bytes) :
    ((tabled functions).any fun g => g.selector.sameMember (.ofBytes selector)) = true ↔
      selector ∈ functions.map (·.1) := by
  have told : ∀ known : Bytes,
      (Datum.ofBytes known).sameMember (.ofBytes selector) = (known == selector) := fun _ => rfl
  simp only [tabled, List.any_map, Function.comp_def, told, List.any_eq_true, beq_iff_eq,
    List.mem_map]

theorem addFunction_ofBytes (table : List ContractFunction) (f : Bytes × (Invocation → Body)) :
    addFunction table (.ofBytes f.1, f.2) =
      if table.any fun g => g.selector.sameMember (.ofBytes f.1) then
        .error (.value (.duplicateSelector f.1))
      else .ok (table ++ [⟨.ofBytes f.1, f.2⟩]) := rfl

/-- The functions are taken one by one, as long as no selector comes back. -/
theorem foldlM_addFunction (taken rest : List (Bytes × (Invocation → Body))) :
    (rest.map (·.1)).Nodup ∧ (∀ f ∈ rest, f.1 ∉ taken.map (·.1)) ∧
        (given rest).foldlM addFunction (tabled taken) = .ok (tabled (taken ++ rest)) ∨
      ¬((rest.map (·.1)).Nodup ∧ ∀ f ∈ rest, f.1 ∉ taken.map (·.1)) ∧
        ∃ f ∈ rest, (given rest).foldlM addFunction (tabled taken) =
          .error (.value (.duplicateSelector f.1)) := by
  induction rest generalizing taken with
  | nil =>
    refine .inl ⟨.nil, ?_, ?_⟩
    · rintro f ⟨⟩
    · rw [List.append_nil]
      rfl
  | cons f rest ih =>
    have step : (given (f :: rest)).foldlM addFunction (tabled taken) =
        addFunction (tabled taken) (.ofBytes f.1, f.2) >>=
          fun table => (given rest).foldlM addFunction table := List.foldlM_cons
    rw [step, addFunction_ofBytes]
    by_cases used : f.1 ∈ taken.map (·.1)
    · refine .inr ⟨?_, f, List.mem_cons_self, ?_⟩
      · rintro ⟨_, fresh⟩
        exact fresh f List.mem_cons_self used
      · rw [if_pos ((tabled_uses ..).mpr used)]
        rfl
    · have grown : tabled taken ++ [⟨.ofBytes f.1, f.2⟩] = tabled (taken ++ [f]) := by
        simp [tabled]
      rw [if_neg (used ∘ (tabled_uses ..).mp), grown]
      have apart : (∀ g ∈ rest, g.1 ∉ (taken ++ [f]).map (·.1)) ↔
          f.1 ∉ rest.map (·.1) ∧ ∀ g ∈ rest, g.1 ∉ taken.map (·.1) := by
        simp only [List.map_append, List.map_cons, List.map_nil, List.mem_append,
          List.mem_singleton, not_or, List.mem_map, not_exists, not_and]
        constructor
        · intro fresh
          exact ⟨fun g mem => (fresh g mem).2, fun g mem => (fresh g mem).1⟩
        · rintro ⟨other, fresh⟩ g mem
          exact ⟨fresh g mem, other g mem⟩
      rcases ih (taken ++ [f]) with ⟨distinct, fresh, ended⟩ | ⟨repeated, g, mem, ended⟩
      · obtain ⟨other, fresh⟩ := apart.mp fresh
        refine .inl ⟨List.nodup_cons.mpr ⟨other, distinct⟩, ?_, ?_⟩
        · rintro g mem
          rcases List.mem_cons.mp mem with rfl | mem
          · exact used
          · exact fresh g mem
        · rw [List.append_assoc] at ended
          exact ended
      · refine .inr ⟨?_, g, List.mem_cons_of_mem f mem, ended⟩
        rintro ⟨distinct, fresh⟩
        obtain ⟨other, distinct⟩ := List.nodup_cons.mp distinct
        apply repeated
        exact ⟨distinct, apart.mpr ⟨other, fun g mem => fresh g (List.mem_cons_of_mem f mem)⟩⟩

variable {functions : List (Bytes × (Invocation → Body))} {fallback : Option (Invocation → Body)}

theorem forM_checkLength (four : ∀ f ∈ functions, f.1.length = selectorSize) :
    (given functions).forM (fun f => checkLength f.1) = .ok () := by
  induction functions with
  | nil => rfl
  | cons f rest ih =>
    have first : checkLength (.ofBytes f.1) = .ok () := by
      have sized := four f List.mem_cons_self
      simp only [checkLength, Datum.ofBytes, Datum.length, bind, Except.bind]
      rw [if_neg (not_not_intro sized)]
      rfl
    have step : (given (f :: rest)).forM (fun f => checkLength f.1) =
        checkLength (.ofBytes f.1) >>= fun _ => (given rest).forM fun f => checkLength f.1 :=
      List.forM_cons
    rw [step, first]
    exact ih fun g mem => four g (List.mem_cons_of_mem f mem)

/-- Distinct selectors and something to run make a contract; what else is given is refused. -/
theorem make_given (four : ∀ f ∈ functions, f.1.length = selectorSize)
    (fallback : Option (Invocation → Body)) :
    (functions.map (·.1)).Nodup ∧ (functions ≠ [] ∨ fallback ≠ none) ∧
        make (given functions) fallback = .ok ⟨tabled functions, fallback⟩ ∨
      ¬((functions.map (·.1)).Nodup ∧ (functions ≠ [] ∨ fallback ≠ none)) ∧
        ∃ cause, make (given functions) fallback = .error (.value cause) := by
  rw [make, forM_checkLength four]
  rcases foldlM_addFunction [] functions with ⟨distinct, _, ended⟩ | ⟨repeated, f, _, ended⟩
  · have ended : (given functions).foldlM addFunction [] = .ok (tabled functions) := ended
    simp only [bind, Except.bind, ended]
    cases functions with
    | nil =>
      cases fallback with
      | none =>
        refine .inr ⟨?_, _, rfl⟩
        rintro ⟨_, some | some⟩ <;> exact some rfl
      | some body => exact .inl ⟨distinct, .inr nofun, rfl⟩
    | cons f rest => exact .inl ⟨distinct, .inl nofun, rfl⟩
  · have ended : (given functions).foldlM addFunction [] = _ := ended
    simp only [bind, Except.bind, ended]
    refine .inr ⟨?_, _, rfl⟩
    rintro ⟨distinct, _⟩
    apply repeated
    exact ⟨distinct, nofun⟩

/-! ### Looking for a function -/

theorem find?_tabled (functions : List (Bytes × (Invocation → Body)))
    (fallback : Option (Invocation → Body)) (selector : Bytes) :
    (⟨tabled functions, fallback⟩ : Contract).find? selector = functions.lookup selector := by
  rw [find?]
  induction functions with
  | nil => rfl
  | cons f rest ih =>
    have told : ((Datum.ofBytes f.1).bytes? == some selector) = (selector == f.1) := by
      rw [Datum.ofBytes, Datum.bytes?, Option.some_beq_some, Bool.beq_comm]
    rw [List.lookup_cons]
    simp only [tabled, List.map_cons, List.find?_cons, told]
    cases selector == f.1 with
    | true => rfl
    | false => exact ih

/-- With distinct selectors the one function is found that has the selector. -/
theorem lookup_eq_some_iff (distinct : (functions.map (·.1)).Nodup) (selector : Bytes)
    (body : Invocation → Body) :
    functions.lookup selector = some body ↔ (selector, body) ∈ functions := by
  induction functions with
  | nil => simp
  | cons f rest ih =>
    obtain ⟨known, first⟩ := f
    obtain ⟨other, distinct⟩ := List.nodup_cons.mp distinct
    rw [List.lookup_cons, List.mem_cons, Prod.mk.injEq]
    by_cases same : selector = known
    · subst same
      have absent : (selector, body) ∉ rest := fun mem =>
        other (List.mem_map.mpr ⟨_, mem, rfl⟩)
      rw [beq_self_eq_true]
      constructor
      · rintro ⟨⟩
        exact .inl ⟨rfl, rfl⟩
      · rintro (⟨_, rfl⟩ | mem)
        · rfl
        · exact absurd mem absent
    · rw [beq_false_of_ne same]
      refine (ih distinct).trans ⟨.inr, ?_⟩
      rintro (⟨equal, _⟩ | mem)
      · exact absurd equal same
      · exact mem

theorem lookup_eq_none_iff (selector : Bytes) :
    functions.lookup selector = none ↔ ∀ f ∈ functions, f.1 ≠ selector := by
  rw [List.lookup_eq_none_iff]
  constructor
  · intro differs f mem
    exact (bne_iff_ne.mp (differs f mem)).symm
  · intro differs f mem
    exact bne_iff_ne.mpr (differs f mem).symm

/-- How the order of the functions is lost. -/
theorem lookup_perm {others : List (Bytes × (Invocation → Body))}
    (distinct : (functions.map (·.1)).Nodup) (order : others.Perm functions) (selector : Bytes) :
    others.lookup selector = functions.lookup selector := by
  have distinct' : (others.map (·.1)).Nodup := (order.map _).nodup_iff.mpr distinct
  apply Option.ext
  intro body
  rw [lookup_eq_some_iff distinct', lookup_eq_some_iff distinct]
  exact order.mem_iff

/-! ### Routes -/

/-- Why no function is found for an input. -/
def refusal (input : Bytes) : Failure :=
  if input.length < selectorSize then .missingSelector (.ofNat input.length)
  else .ofSelector (input.take selectorSize)

/-- Any function puts the fallback out of use. -/
theorem route_tabled (some : functions ≠ []) (four : ∀ f ∈ functions, f.1.length = selectorSize)
    (fallback : Option (Invocation → Body)) (input : Bytes) :
    (⟨tabled functions, fallback⟩ : Contract).route input =
      match functions.lookup (input.take selectorSize) with
      | .some body => .ok (body, input.drop selectorSize)
      | .none => .error (.failure (refusal input)) := by
  have strict : ∀ selector args, Words.splitSelector input = .ok (selector, args) →
      (⟨tabled functions, fallback⟩ : Contract).route input =
        match functions.lookup selector with
        | .some body => .ok (body, args)
        | .none => .error (.failure (.ofSelector selector)) := by
    intro selector args split
    have found := find?_tabled functions fallback selector
    obtain ⟨f, rest, rfl⟩ := List.exists_cons_of_ne_nil some
    simp only [tabled, List.map_cons] at found
    simp only [route, tabled, List.map_cons, split, bind, Except.bind, found]
    rfl
  rw [refusal]
  by_cases short : input.length < selectorSize
  · have absent : functions.lookup (input.take selectorSize) = none := by
      apply (lookup_eq_none_iff _).mpr
      intro f mem same
      have sized := four f mem
      rw [same, List.length_take] at sized
      omega
    rw [absent, if_pos short]
    obtain ⟨f, rest, rfl⟩ := List.exists_cons_of_ne_nil some
    simp only [route, tabled, List.map_cons, Words.splitSelector_ofBytes, if_pos short, bind,
      Except.bind]
  · rw [if_neg short]
    apply strict
    rw [Words.splitSelector_ofBytes, if_neg short]

theorem route_untabled (body : Invocation → Body) (input : Bytes) :
    (⟨tabled [], some body⟩ : Contract).route input = .ok (body, input) := rfl

theorem run_congr {c d : Contract} (same : ∀ input, c.route input = d.route input) :
    c.run = d.run := by
  have execute : c.execute = d.execute := by
    funext callee setting context f
    rw [Contract.execute, Contract.execute, same]
  funext callee setting w address caller input gas readOnly
  simp only [run, runIn, execute]

end Contract

/-- Two registries with contracts that run alike at the same addresses. -/
theorem Registry.enter_congr {r s : Registry}
    (alike : ∀ a, (r.find? a).map (fun d => d.contract.run) =
      (s.find? a).map fun d => d.contract.run) (setting : Setting) (depth : Nat) :
    r.enter setting depth = s.enter setting depth := by
  induction depth with
  | zero => rfl
  | succ depth ih =>
    funext w address caller input gas readOnly
    rw [enter, enter, lookUp, lookUp]
    cases read : Address.read address with
    | error fault => rfl
    | ok a =>
      have here := alike a
      simp only [bind, Except.bind]
      cases left : r.find? a with
      | none =>
        cases right : s.find? a with
        | none => rfl
        | some e =>
          rw [left, right] at here
          cases here
      | some d =>
        cases right : s.find? a with
        | none =>
          rw [left, right] at here
          cases here
        | some e =>
          rw [left, right] at here
          have run : d.contract.run = e.contract.run := Option.some.inj here
          show d.contract.run (r.enter setting depth) .. = e.contract.run (s.enter setting depth) ..
          rw [run, ih]

namespace Contract

variable {functions : List (Bytes × (Invocation → Body))} {fallback : Option (Invocation → Body)}
  {c : Contract} {callee : Callee} {setting : Setting} {w : World}
  {address caller input gas readOnly id : Datum} {context : CallContext}

/-- A call with a route is the run of one body, and the end that the call makes of it. -/
theorem run_routed (made : CallContext.make caller address input gas readOnly = .ok context)
    (taken : (w.step setting.handle .snapshot).1 = .ok id) {body : Invocation → Body} {args : Bytes}
    (routed : c.route context.input = .ok (body, args)) :
    let start := entry setting context w
    let routed := body ⟨context, args, setting.block⟩
    c.run callee setting w address caller input gas readOnly =
        finish setting.handle id (routed.run callee setting.handle context start) ∧
      c.acts callee setting w address caller input gas readOnly =
        routed.acts callee setting.handle context start := by
  constructor
  · rw [run_eq c callee setting w made taken, execute, routed]
  · cases step : w.step setting.handle .snapshot with
    | mk snapshot behind =>
      rw [step] at taken
      cases taken
      simp only [acts, made, step, actsIn, routed, entry]

theorem run_unrouted (made : CallContext.make caller address input gas readOnly = .ok context)
    (taken : (w.step setting.handle .snapshot).1 = .ok id) {fault : Fault}
    (unrouted : c.route context.input = .error fault) :
    c.run callee setting w address caller input gas readOnly =
        finish setting.handle id (.error fault, entry setting context w) ∧
      c.acts callee setting w address caller input gas readOnly = [] := by
  constructor
  · rw [run_eq c callee setting w made taken, execute, unrouted]
  · cases step : w.step setting.handle .snapshot with
    | mk snapshot behind =>
      rw [step] at taken
      cases taken
      simp only [acts, made, step, actsIn, unrouted]

end Contract

/-- A call runs the function that its input names, once and on the rest of the input, or no body at
all. Only a contract without functions hands the whole input to its fallback. -/
theorem routing_exact (functions : List (Bytes × (Invocation → Body)))
    (fallback : Option (Invocation → Body)) (four : ∀ f ∈ functions, f.1.length = selectorSize) :
    ((∃ c, Contract.make (Contract.given functions) fallback = .ok c) ↔
      (functions.map (·.1)).Nodup ∧ (functions ≠ [] ∨ fallback ≠ none)) ∧
    ∀ c, Contract.make (Contract.given functions) fallback = .ok c →
      (∀ (callee : Callee) (setting : Setting) (w : World)
        (address caller input gas readOnly id : Datum) (context : CallContext),
        CallContext.make caller address input gas readOnly = .ok context →
        (w.step setting.handle .snapshot).1 = .ok id →
        let start := Contract.entry setting context w
        let call := c.run callee setting w address caller input gas readOnly
        let acts := c.acts callee setting w address caller input gas readOnly
        (∀ f ∈ functions, f.1 = context.input.take selectorSize →
          let body := f.2 ⟨context, context.input.drop selectorSize, setting.block⟩
          call = Contract.finish setting.handle id
              (body.run callee setting.handle context start) ∧
            acts = body.acts callee setting.handle context start) ∧
        (functions ≠ [] → (∀ f ∈ functions, f.1 ≠ context.input.take selectorSize) →
          call = Contract.finish setting.handle id
              (.error (.failure (Contract.refusal context.input)), start) ∧
            acts = []) ∧
        (functions = [] → ∃ whole, fallback = some whole ∧
          let body := whole ⟨context, context.input, setting.block⟩
          call = Contract.finish setting.handle id
              (body.run callee setting.handle context start) ∧
            acts = body.acts callee setting.handle context start)) ∧
      (functions ≠ [] → ∀ others otherFallback, others.Perm functions →
        ∃ d, Contract.make (Contract.given others) otherFallback = .ok d ∧ d.run = c.run ∧
          ∀ (r : Registry) (a : Bytes) (serial : Nat) (setting : Setting),
            Registry.call (r.insert a ⟨serial, d⟩) setting =
              Registry.call (r.insert a ⟨serial, c⟩) setting) := by
  rcases Contract.make_given four fallback with ⟨distinct, some, made⟩ | ⟨refused, cause, made⟩
  · refine ⟨⟨fun _ => ⟨distinct, some⟩, fun _ => ⟨_, made⟩⟩, ?_⟩
    intro c accepted
    rw [made] at accepted
    cases accepted
    refine ⟨?_, ?_⟩
    · intro callee setting w address caller input gas readOnly id context good taken start call acts
      refine ⟨?_, ?_, ?_⟩
      · intro f mem named
        have found := (Contract.lookup_eq_some_iff distinct f.1 f.2).mpr mem
        apply Contract.run_routed good taken
        rw [Contract.route_tabled (List.ne_nil_of_mem mem) four, ← named, found]
      · intro some unnamed
        have absent := (Contract.lookup_eq_none_iff _).mpr unnamed
        apply Contract.run_unrouted good taken
        rw [Contract.route_tabled some four, absent]
      · rintro rfl
        obtain ⟨whole, rfl⟩ : ∃ whole, fallback = .some whole := by
          cases fallback with
          | none => exact absurd rfl (some.resolve_left (not_not_intro rfl))
          | some whole => exact ⟨whole, rfl⟩
        exact ⟨whole, rfl, Contract.run_routed good taken (Contract.route_untabled whole _)⟩
    · intro some others otherFallback order
      have four' : ∀ f ∈ others, f.1.length = selectorSize := fun f mem =>
        four f (order.mem_iff.mp mem)
      have some' : others ≠ [] := fun none => some (List.perm_nil.mp (none ▸ order).symm)
      have distinct' : (others.map (·.1)).Nodup := (order.map _).nodup_iff.mpr distinct
      have run : (⟨Contract.tabled others, otherFallback⟩ : Contract).run =
          (⟨Contract.tabled functions, fallback⟩ : Contract).run := by
        apply Contract.run_congr
        intro input
        rw [Contract.route_tabled some' four', Contract.route_tabled some four,
          Contract.lookup_perm distinct order]
      refine ⟨⟨Contract.tabled others, otherFallback⟩, ?_, run, ?_⟩
      · rcases Contract.make_given four' otherFallback with ⟨_, _, made⟩ | ⟨refused, _⟩
        · exact made
        · exact absurd ⟨distinct', .inl some'⟩ refused
      · intro r a serial setting
        apply Registry.enter_congr
        intro b
        rw [Table.find?_insert, Table.find?_insert]
        by_cases here : b = a
        · rw [if_pos here, if_pos here]
          exact congrArg Option.some run
        · rw [if_neg here, if_neg here]
  · refine ⟨⟨?_, fun good => absurd good refused⟩, ?_⟩
    · rintro ⟨c, accepted⟩
      rw [made] at accepted
      cases accepted
    · intro c accepted
      rw [made] at accepted
      cases accepted

namespace Swapped

def rest (call : Invocation) : Body := .done (.ofBytes call.args)

def whole (call : Invocation) : Body := .done (.ofBytes call.context.input)

def functions : List (Bytes × (Invocation → Body)) := [([1, 2, 3, 4], rest), ([5, 6, 7, 8], whole)]

def world : World := ⟨.fresh, .fresh, []⟩

def context : CallContext :=
  ⟨Bytes.numeral addressSize 1, Bytes.numeral addressSize 1, [5, 6, 7, 8, 9], 10, false⟩

end Swapped

open Swapped Leaking in
/-- The second function is called, wherever it stands. -/
theorem routing_exact_swapped :
    ∃ c d, Contract.make (Contract.given functions) none = .ok c ∧
      Contract.make (Contract.given functions.reverse) (some rest) = .ok d ∧
      (d.run alone ⟨.base, none⟩ Swapped.world account account (.ofBytes [5, 6, 7, 8, 9]) (.int 10)
        (.bool false)).1 = .ok ⟨.ofBytes [5, 6, 7, 8, 9], 10, none⟩ := by
  obtain ⟨accepted, exact⟩ := routing_exact functions none (by simp [functions, selectorSize])
  obtain ⟨c, made⟩ := accepted.mpr ⟨by decide, .inl (by simp [functions])⟩
  obtain ⟨runs, ordered⟩ := exact c made
  obtain ⟨d, made', run, _⟩ := ordered (by simp [functions]) functions.reverse (some rest)
    (List.reverse_perm functions)
  refine ⟨c, d, made, made', ?_⟩
  obtain ⟨named, _, _⟩ := runs alone ⟨.base, none⟩ Swapped.world account account
    (.ofBytes [5, 6, 7, 8, 9]) (.int 10) (.bool false) (.ofNat 0) Swapped.context rfl rfl
  obtain ⟨ended, _⟩ := named ([5, 6, 7, 8], whole) (by simp [functions]) rfl
  rw [run, ended]
  rfl

end SeededDraws
