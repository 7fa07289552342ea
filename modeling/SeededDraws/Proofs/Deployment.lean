import SeededDraws.Deployment
import SeededDraws.Proofs.Environment
/-!
# What a deployment remembers

Variables are changed, the memory is cleared, and the configuration is loaded, in any order. The
loads that answer between two clears answer with one object; all other loads read the variables as
they are by then, and a load that fails leaves nothing behind.
-/

namespace SeededDraws

/-- What happens to a deployment. A change may be refused. -/
inductive DeploymentEvent where
  | change (name : Text) (value : Option Text)
  | clear
  | load
deriving DecidableEq

/-- The variables behind an event; only a change that is accepted matters. -/
def DeploymentEvent.alters (e : Environment) : DeploymentEvent → Environment
  | .change name value =>
    match e.change name value with
    | .ok changed => changed
    | .error _ => e
  | _ => e

namespace Deployment

def happen (d : Deployment) : DeploymentEvent → Deployment
  | .change name value =>
    match d.setVariable name value with
    | .ok changed => changed
    | .error _ => d
  | .clear => d.forget
  | .load => d.load.2

/-- The deployment after some events, the first of them on one that remembers nothing. -/
def after (e : Environment) (events : List DeploymentEvent) : Deployment :=
  events.foldl happen ⟨e, none, 0⟩

/-- One of the loads answered with this object. -/
def Answered (e : Environment) (events : List DeploymentEvent) (l : Loaded) : Prop :=
  ∃ before since, events = before ++ .load :: since ∧ (after e before).load.1 = .ok l

/-- One of the loads since the last clear answered with this object. -/
def Kept (e : Environment) (events : List DeploymentEvent) (l : Loaded) : Prop :=
  ∃ before since, events = before ++ .load :: since ∧ .clear ∉ since ∧
    (after e before).load.1 = .ok l

/-! ### One event -/

variable {d : Deployment} {l : Loaded}

theorem load_of_some (held : d.remembered = some l) : d.load = (.ok l, d) := by
  rw [load, held]

theorem load_of_error {fault : Fault} (held : d.remembered = none)
    (failed : Config.ofEnvironment d.environment = .error fault) : d.load = (.error fault, d) := by
  rw [load, held, failed]

theorem load_of_ok {c : Config} (held : d.remembered = none)
    (made : Config.ofEnvironment d.environment = .ok c) :
    d.load =
      (.ok ⟨d.evaluations, c⟩, ⟨d.environment, some ⟨d.evaluations, c⟩, d.evaluations + 1⟩) := by
  rw [load, held, made]

theorem load_cases (d : Deployment) :
    (∃ l, d.remembered = some l ∧ d.load = (.ok l, d)) ∨
      (∃ fault, d.remembered = none ∧ d.load = (.error fault, d)) ∨
      ∃ c, d.remembered = none ∧
        d.load = (.ok ⟨d.evaluations, c⟩,
          ⟨d.environment, some ⟨d.evaluations, c⟩, d.evaluations + 1⟩) := by
  cases held : d.remembered with
  | some l => exact .inl ⟨l, rfl, load_of_some held⟩
  | none =>
    cases made : Config.ofEnvironment d.environment with
    | error fault => exact .inr (.inl ⟨fault, rfl, load_of_error held made⟩)
    | ok c => exact .inr (.inr ⟨c, rfl, load_of_ok held made⟩)

/-- What is remembered behind a load is what it answered with. -/
theorem remembered_load : d.load.2.remembered = some l ↔ d.load.1 = .ok l := by
  rcases d.load_cases with ⟨l', held, loaded⟩ | ⟨fault, held, loaded⟩ | ⟨c, held, loaded⟩
  · rw [loaded]
    simp [held]
  · rw [loaded]
    simp [held]
  · rw [loaded]
    simp

theorem change_cases (d : Deployment) (name : Text) (value : Option Text) :
    d.happen (.change name value) =
      { d with environment := DeploymentEvent.alters d.environment (.change name value) } := by
  rw [happen, setVariable, DeploymentEvent.alters]
  cases d.environment.change name value with
  | ok changed => rfl
  | error fault => rfl

theorem environment_happen (d : Deployment) (event : DeploymentEvent) :
    (d.happen event).environment = event.alters d.environment := by
  cases event with
  | change name value => rw [change_cases]
  | clear => rfl
  | load =>
    show d.load.2.environment = d.environment
    rcases d.load_cases with ⟨l, _, loaded⟩ | ⟨fault, _, loaded⟩ | ⟨c, _, loaded⟩
    all_goals rw [loaded]

/-- Evaluations are counted, and what is remembered has a number that was counted before. -/
def Numbered (d : Deployment) : Prop := ∀ l, d.remembered = some l → l.serial < d.evaluations

theorem Numbered.happen (numbered : d.Numbered) (event : DeploymentEvent) :
    (d.happen event).Numbered ∧ d.evaluations ≤ (d.happen event).evaluations := by
  cases event with
  | change name value =>
    rw [change_cases]
    exact ⟨numbered, Nat.le_refl _⟩
  | clear => exact ⟨nofun, Nat.le_refl _⟩
  | load =>
    show d.load.2.Numbered ∧ d.evaluations ≤ d.load.2.evaluations
    rcases d.load_cases with ⟨l, _, loaded⟩ | ⟨fault, _, loaded⟩ | ⟨c, _, loaded⟩
    · rw [loaded]
      exact ⟨numbered, Nat.le_refl _⟩
    · rw [loaded]
      exact ⟨numbered, Nat.le_refl _⟩
    · rw [loaded]
      refine ⟨?_, Nat.le_succ _⟩
      rintro _ ⟨⟩
      exact Nat.lt_succ_self _

/-! ### All events -/

section
variable {e : Environment} {events : List DeploymentEvent}

theorem after_append (e : Environment) (events : List DeploymentEvent) (event : DeploymentEvent) :
    after e (events ++ [event]) = (after e events).happen event := by
  rw [after, List.foldl_append]
  rfl

theorem environment_after (e : Environment) (events : List DeploymentEvent) :
    (after e events).environment = events.foldl DeploymentEvent.alters e := by
  induction events using List.reverseRecOn with
  | nil => rfl
  | append_singleton events event ih =>
    rw [after_append, environment_happen, ih, List.foldl_append]
    rfl

theorem numbered_after (e : Environment) (events : List DeploymentEvent) :
    (after e events).Numbered := by
  induction events using List.reverseRecOn with
  | nil => exact nofun
  | append_singleton events event ih =>
    rw [after_append]
    exact (ih.happen event).1

/-- A load among some events is the last of them, or it was among the others. -/
theorem append_eq_load {before since : List DeploymentEvent} {event : DeploymentEvent} :
    events ++ [event] = before ++ .load :: since ↔
      (event = .load ∧ before = events ∧ since = []) ∨
        ∃ later, since = later ++ [event] ∧ events = before ++ .load :: later := by
  constructor
  · intro same
    rcases List.eq_nil_or_concat since with rfl | ⟨later, last, rfl⟩
    · obtain ⟨rfl, single⟩ := List.append_inj' same rfl
      exact .inl ⟨(List.cons.inj single).1, rfl, rfl⟩
    · rw [List.concat_eq_append, ← List.cons_append, ← List.append_assoc] at same
      obtain ⟨rfl, single⟩ := List.append_inj' same rfl
      cases single
      exact .inr ⟨later, List.concat_eq_append, rfl⟩
  · rintro (⟨rfl, rfl, rfl⟩ | ⟨later, rfl, rfl⟩)
    · rfl
    · rw [List.append_assoc, List.cons_append]

theorem answered_append {event : DeploymentEvent} :
    Answered e (events ++ [event]) l ↔
      (event = .load ∧ (after e events).load.1 = .ok l) ∨ Answered e events l := by
  constructor
  · rintro ⟨before, since, same, answered⟩
    rcases append_eq_load.mp same with ⟨last, rfl, rfl⟩ | ⟨later, rfl, earlier⟩
    · exact .inl ⟨last, answered⟩
    · exact .inr ⟨before, later, earlier, answered⟩
  · rintro (⟨rfl, answered⟩ | ⟨before, since, rfl, answered⟩)
    · exact ⟨events, [], rfl, answered⟩
    · exact ⟨before, since ++ [event], by simp, answered⟩

theorem kept_append {event : DeploymentEvent} :
    Kept e (events ++ [event]) l ↔
      (event = .load ∧ (after e events).load.1 = .ok l) ∨ (event ≠ .clear ∧ Kept e events l) := by
  constructor
  · rintro ⟨before, since, same, uncleared, answered⟩
    rcases append_eq_load.mp same with ⟨last, rfl, rfl⟩ | ⟨later, rfl, earlier⟩
    · exact .inl ⟨last, answered⟩
    · rw [List.mem_append, List.mem_singleton, not_or] at uncleared
      exact .inr ⟨Ne.symm uncleared.2, before, later, earlier, uncleared.1, answered⟩
  · rintro (⟨rfl, answered⟩ | ⟨other, before, since, rfl, uncleared, answered⟩)
    · exact ⟨events, [], rfl, nofun, answered⟩
    · refine ⟨before, since ++ [event], by simp, ?_, answered⟩
      rw [List.mem_append, List.mem_singleton, not_or]
      exact ⟨uncleared, Ne.symm other⟩

/-- What is remembered is what was answered since the last clear. -/
theorem remembered_after : (after e events).remembered = some l ↔ Kept e events l := by
  induction events using List.reverseRecOn generalizing l with
  | nil =>
    refine iff_of_false nofun ?_
    rintro ⟨before, since, same, _⟩
    exact absurd same.symm (by simp)
  | append_singleton events event ih =>
    rw [after_append, kept_append]
    cases event with
    | change name value =>
      rw [change_cases]
      simp [ih]
    | clear => exact iff_of_false nofun (by simp)
    | load =>
      refine remembered_load.trans ⟨fun answered => .inl ⟨rfl, answered⟩, ?_⟩
      rintro (⟨_, answered⟩ | ⟨_, kept⟩)
      · exact answered
      · rw [load_of_some (ih.mpr kept)]

theorem serial_lt_of_answered (answered : Answered e events l) :
    l.serial < (after e events).evaluations := by
  induction events using List.reverseRecOn with
  | nil =>
    obtain ⟨before, since, same, _⟩ := answered
    exact absurd same.symm (by simp)
  | append_singleton events event ih =>
    have numbered := (numbered_after e events).happen event
    rw [after_append]
    rcases answered_append.mp answered with ⟨rfl, now⟩ | earlier
    · exact numbered.1 l (remembered_load.mpr now)
    · exact Nat.lt_of_lt_of_le (ih earlier) numbered.2

end

end Deployment

open Deployment in
/-- A load answers with what the loads since the last clear answered with, whatever was changed
since; if none of them did, it evaluates the variables as they are, makes a new object of them and
remembers that, or fails and remembers nothing. What is made is what the variables say, and what
fails is a fault of the configuration; a registry of a configuration that was made refuses it
exactly if its address is outside the reserved range. -/
theorem environment_configures (e : Environment) (events : List DeploymentEvent) :
    let d := after e events
    let current := events.foldl DeploymentEvent.alters e
    (∀ l, Kept e events l → d.load = (.ok l, d)) ∧
    ((∀ l, ¬Kept e events l) →
      (∀ fault, Config.ofEnvironment current = .error fault → d.load = (.error fault, d)) ∧
      ∀ c, Config.ofEnvironment current = .ok c →
        ∃ l, d.load.1 = .ok l ∧ l.config = c ∧
          ∀ earlier, Answered e events earlier → earlier.serial ≠ l.serial) ∧
    ∀ now : Environment,
      (∀ c, Config.ofEnvironment now = .ok c ↔ Config.Configured now c) ∧
      (∀ fault, Config.ofEnvironment now = .error fault → ∃ cause, fault = .config cause) ∧
      ∀ c, Config.ofEnvironment now = .ok c →
        c.address.length = addressSize ∧
        (∃ base perWord ceiling : Int, c.Checked base perWord ceiling ∧
          base ≤ 10000000 ∧ perWord ≤ 1000000 ∧ ceiling ≤ 1048576) ∧
        ∀ entropy serial,
          (Address.Reserved c.address ∧ ∃ r, Registry.standard c entropy serial [] = .ok r) ∨
          (¬Address.Reserved c.address ∧ Registry.standard c entropy serial [] =
            .error (.registry (.outsideRange c.address))) := by
  intro d current
  have same : d.environment = current := environment_after e events
  refine ⟨fun l kept => load_of_some (remembered_after.mpr kept), fun unkept => ?_, fun now => ?_⟩
  · have forgotten : d.remembered = none := by
      rw [Option.eq_none_iff_forall_ne_some]
      exact fun l held => unkept l (remembered_after.mp held)
    rw [← same]
    constructor
    · exact fun fault failed => load_of_error forgotten failed
    · intro c made
      rw [load_of_ok forgotten made]
      exact ⟨_, rfl, rfl, fun earlier answered => Nat.ne_of_lt (serial_lt_of_answered answered)⟩
  · refine ⟨fun c => Config.ofEnvironment_eq_ok, Config.strict_ofEnvironment now, fun c made => ?_⟩
    have configured := Config.ofEnvironment_eq_ok.mp made
    have sized := configured.address.length
    obtain ⟨base, perWord, ceiling, checked, bounds⟩ := configured.checked
    exact ⟨sized, ⟨base, perWord, ceiling, checked, bounds⟩,
      Registry.standard_of_checked checked sized⟩

namespace Switched

/-- The ceiling is far too high, and an amount with a zero in front is none. -/
def environment : Environment :=
  (Environment.empty.put "PRNG_PRECOMPILE_MAX_COUNT" (some " +1_000_000_000")).put
    "PRNG_PRECOMPILE_BASE_GAS" (some "007")

def events : List DeploymentEvent :=
  [.load, .change "PRNG_PRECOMPILE_LAYOUT" (some " RAW ")]

def config (layout : Layout) (source : NonceSource) : Config :=
  { Config.standard with layout := layout, nonceSource := source, maxCount := .int 1048576 }

end Switched

open Switched Deployment in
/-- The layout was changed behind a load, and it takes a clear until a load sees it. -/
theorem environment_configures_switched :
    (after environment events).load =
        (.ok ⟨0, config .typed .state⟩, after environment events) ∧
      ∃ l, (after environment (events ++ [.clear])).load.1 = .ok l ∧
        l.config = config .raw .payload ∧ l.serial ≠ 0 ∧
        ∃ r, Registry.standard l.config .none 0 [] = .ok r := by
  obtain ⟨kept, _, _⟩ := environment_configures environment events
  obtain ⟨_, fresh, evaluated⟩ := environment_configures environment (events ++ [.clear])
  have answered : (after environment []).load.1 = .ok ⟨0, config .typed .state⟩ := by rfl
  have made : Config.ofEnvironment
      ((events ++ [DeploymentEvent.clear]).foldl DeploymentEvent.alters environment) =
      .ok (config .raw .payload) := by rfl
  have cleared : ∀ l, ¬Kept environment (events ++ [.clear]) l := by
    intro l kept
    rcases kept_append.mp kept with ⟨⟨⟩, _⟩ | ⟨uncleared, _⟩
    exact uncleared rfl
  obtain ⟨l, loaded, configured, new⟩ := (fresh cleared).2 _ made
  refine ⟨kept _ ⟨[], events.tail, rfl, by decide, answered⟩, l, loaded, configured, ?_, ?_⟩
  · exact Ne.symm (new _ ⟨[], events.tail ++ [.clear], rfl, answered⟩)
  · rw [configured]
    obtain ⟨_, _, registered⟩ := (evaluated _).2.2 _ made
    rcases registered .none 0 with ⟨_, built⟩ | ⟨outside, _⟩
    · exact built
    · exact absurd (by decide +kernel) outside

end SeededDraws
