import SeededDraws.Proofs.Address
import SeededDraws.Proofs.Fault
import SeededDraws.Proofs.Table
import SeededDraws.Registry
/-!
# The registry as a map

Whatever was done to a registry, it is a map on the reserved addresses. It does not matter how an
address is spelled, neither for what is registered there nor for a call of it.
-/

namespace SeededDraws

/-- A use of a registry. What is given for an address need not be one, and no contract stands for
anything else that is given instead. -/
inductive RegistryUse where
  | register (address : Datum) (contract : Option Deployed)
  | unregister (address : Datum)
  | get (address : Datum)
  | isRegistered (address : Datum)
  | addresses
  | call (address caller input gas readOnly : Datum)

inductive RegistryAnswer where
  | done
  | contract (found : Option Deployed)
  | flag (known : Bool)
  | addresses (all : List Bytes)
  | result (r : CallResult)

namespace Registry

/-- A use that is refused leaves the registry alone. -/
def keepOr (r : Registry) : Outcome Registry → Outcome RegistryAnswer × Registry
  | .ok changed => (.ok .done, changed)
  | .error fault => (.error fault, r)

def serve (setting : Setting) (r : Registry) (w : World) :
    RegistryUse → Outcome RegistryAnswer × Registry × World
  | .register address contract =>
    let (answer, r) := r.keepOr (r.register address contract)
    (answer, r, w)
  | .unregister address =>
    let (answer, r) := r.keepOr (r.unregister address)
    (answer, r, w)
  | .get address => ((r.get address).map .contract, r, w)
  | .isRegistered address => ((r.isRegistered address).map .flag, r, w)
  | .addresses => (.ok (.addresses r.addresses), r, w)
  | .call address caller input gas readOnly =>
    let (result, w) := r.call setting w address caller input gas readOnly
    (result.map .result, r, w)

/-- The registry after some uses, the first of them on an empty one. -/
def after (setting : Setting) (w : World) (uses : List RegistryUse) : Registry × World :=
  uses.foldl (fun s use => (serve setting s.1 s.2 use).2) (.empty, w)

end Registry

/-! ### The map -/

instance (d : Datum) (a : Bytes) : Decidable (Address.Spells d a) :=
  decidable_of_iff ((Address.read d).toOption = some a) <| by
    rw [← Address.read_eq_ok_iff]
    cases Address.read d with
    | ok b => simp [Except.toOption]
    | error fault => simp [Except.toOption]

instance (a : Bytes) : Decidable (Address.Reserved a) := inferInstanceAs (Decidable (_ ∧ _))

/-- What stands at an address behind a use, where there was `held` before. -/
def RegistryUse.leaves (a : Bytes) (held : Option Deployed) : RegistryUse → Option Deployed
  | .register d contract =>
    if Address.Spells d a ∧ Address.Reserved a ∧ held.isNone then contract else held
  | .unregister d => if Address.Spells d a then none else held
  | _ => held

/-- The contract at an address after some uses. -/
def RegistryUse.standing (uses : List RegistryUse) (a : Bytes) : Option Deployed :=
  uses.foldl (fun held use => use.leaves a held) none

namespace Table

variable {α : Type}

theorem mem_keys_iff (t : Table α) (key : Bytes) : key ∈ t.keys ↔ t.find? key ≠ none := by
  obtain ⟨entries, ascending⟩ := t
  simp only [keys, find?]
  clear ascending
  induction entries with
  | nil => simp
  | cons e rest ih =>
    rw [List.map_cons, List.mem_cons, List.lookup_cons]
    by_cases same : key = e.1
    · simp [same]
    · rw [beq_false_of_ne same, ih]
      simp [same]

theorem keys_ascending (t : Table α) : t.keys.Pairwise (· < ·) :=
  List.pairwise_map.mpr t.ascending

end Table

theorem Address.Spells.iff_eq {d : Datum} {a b : Bytes} (spells : Spells d b) :
    Spells d a ↔ a = b := by
  constructor
  · exact fun other => other.unique spells
  · rintro rfl
    exact spells

/-- A call does not depend on how its address is spelled. -/
theorem Contract.run_spelled {d : Datum} {a : Bytes} (spells : Address.Spells d a) (c : Contract)
    (callee : Callee) (setting : Setting) (w : World) (caller input gas readOnly : Datum) :
    c.run callee setting w d caller input gas readOnly =
      c.run callee setting w (.ofBytes a) caller input gas readOnly := by
  have same : CallContext.make caller d input gas readOnly =
      CallContext.make caller (.ofBytes a) input gas readOnly := by
    rw [CallContext.make, CallContext.make, Address.read_of_spells spells,
      Address.read_of_spells (Address.spells_ofBytes spells.length)]
  rw [run, run, same]

namespace Registry

variable {r : Registry} {d : Datum} {a : Bytes}

theorem register_spelled (spells : Address.Spells d a) (contract : Option Deployed) :
    r.register d contract =
      if Address.Reserved a then
        match contract with
        | none => .error (.type .notContract)
        | some deployed =>
          if (r.find? a).isSome then .error (.registry (.occupied a))
          else .ok (r.insert a deployed)
      else .error (.registry (.outsideRange a)) := by
  have reserved := Address.isReserved_iff spells.length
  rw [register, Address.read_of_spells spells]
  simp only [bind, Except.bind]
  by_cases inside : Address.Reserved a
  · rw [if_pos inside, reserved.mpr inside]
    cases contract with
    | none => rfl
    | some deployed => rfl
  · rw [if_neg inside, Bool.eq_false_iff.mpr (inside ∘ reserved.mp)]
    rfl

theorem register_succeeds_iff (spells : Address.Spells d a) (contract : Option Deployed) :
    (∃ changed, r.register d contract = .ok changed) ↔
      Address.Reserved a ∧ r.find? a = none ∧ contract ≠ none := by
  rw [register_spelled spells]
  by_cases inside : Address.Reserved a
  · rw [if_pos inside]
    cases contract with
    | none => simp
    | some deployed => cases held : r.find? a <;> simp [inside]
  · simp [inside]

theorem unregister_spelled (spells : Address.Spells d a) : r.unregister d = .ok (r.erase a) := by
  rw [unregister, Address.read_of_spells spells]
  rfl

theorem get_spelled (spells : Address.Spells d a) : r.get d = .ok (r.find? a) := by
  rw [get, Address.read_of_spells spells]
  rfl

theorem isRegistered_spelled (spells : Address.Spells d a) :
    r.isRegistered d = .ok (r.find? a).isSome := by
  rw [isRegistered, Address.read_of_spells spells]
  rfl

/-- A call goes to what is registered, at the address itself. -/
theorem call_spelled (spells : Address.Spells d a) (setting : Setting) (w : World)
    (caller input gas readOnly : Datum) :
    r.call setting w d caller input gas readOnly =
      match r.find? a with
      | some deployed =>
        r.run deployed.contract setting w (.ofBytes a) caller input gas readOnly
      | none => (.error (.registry (.vacant a)), w) := by
  rw [call, enter, lookUp, Address.read_of_spells spells]
  simp only [bind, Except.bind]
  cases r.find? a with
  | none => rfl
  | some deployed => exact deployed.contract.run_spelled spells ..

theorem read_unspelled (unspelled : ∀ a, ¬Address.Spells d a) :
    ∃ fault, Address.read d = .error fault := by
  cases known : Address.read d with
  | error fault => exact ⟨fault, rfl⟩
  | ok a => exact absurd (Address.spells_of_read known) (unspelled a)

/-- What is no address is refused by every use, which then does nothing. -/
theorem refused_unspelled (unspelled : ∀ a, ¬Address.Spells d a) :
    ∃ fault, (∀ contract, r.register d contract = .error fault) ∧ r.unregister d = .error fault ∧
      r.get d = .error fault ∧ r.isRegistered d = .error fault ∧
      ∀ setting w caller input gas readOnly,
        r.call setting w d caller input gas readOnly = (.error fault, w) := by
  obtain ⟨fault, refused⟩ := read_unspelled unspelled
  refine ⟨fault, fun contract => ?_, ?_, ?_, ?_, fun setting w caller input gas readOnly => ?_⟩
  · rw [register, refused]; rfl
  · rw [unregister, refused]; rfl
  · rw [get, refused]; rfl
  · rw [isRegistered, refused]; rfl
  · rw [call, enter, lookUp, refused]; rfl

theorem find?_register (r : Registry) (d : Datum) (contract : Option Deployed) (a : Bytes) :
    (r.keepOr (r.register d contract)).2.find? a =
      if Address.Spells d a ∧ Address.Reserved a ∧ (r.find? a).isNone then contract
      else r.find? a := by
  by_cases spelled : ∃ b, Address.Spells d b
  · obtain ⟨b, spells⟩ := spelled
    simp only [register_spelled spells, spells.iff_eq]
    by_cases inside : Address.Reserved b
    · rw [if_pos inside]
      cases held : r.find? b with
      | some other =>
        have kept : ¬(a = b ∧ Address.Reserved a ∧ (r.find? a).isNone = true) := by
          rintro ⟨rfl, _, free⟩
          rw [held] at free
          cases free
        rw [if_neg kept]
        cases contract <;> rfl
      | none =>
        cases contract with
        | none =>
          show r.find? a = if _ then none else r.find? a
          split
          · next taken => exact taken.1 ▸ held
          · rfl
        | some deployed =>
          show (r.insert b deployed).find? a = _
          rw [Table.find?_insert]
          by_cases same : a = b
          · subst same
            rw [if_pos rfl, if_pos ⟨rfl, inside, by rw [held]; rfl⟩]
          · rw [if_neg same, if_neg fun taken => same taken.1]
    · rw [if_neg inside, if_neg]
      · rfl
      · rintro ⟨rfl, reserved, _⟩
        exact inside reserved
  · have unspelled : ∀ b, ¬Address.Spells d b := fun b spells => spelled ⟨b, spells⟩
    obtain ⟨fault, refused, _⟩ := r.refused_unspelled unspelled
    rw [refused, if_neg fun held => unspelled a held.1]
    rfl

theorem find?_unregister (r : Registry) (d : Datum) (a : Bytes) :
    (r.keepOr (r.unregister d)).2.find? a =
      if Address.Spells d a then none else r.find? a := by
  by_cases spelled : ∃ b, Address.Spells d b
  · obtain ⟨b, spells⟩ := spelled
    simp only [unregister_spelled spells, spells.iff_eq]
    exact Table.find?_erase r b a
  · have unspelled : ∀ b, ¬Address.Spells d b := fun b spells => spelled ⟨b, spells⟩
    obtain ⟨fault, _, refused, _⟩ := r.refused_unspelled unspelled
    rw [refused, if_neg (unspelled a)]
    rfl

/-- One use changes the registry as it changes the map. -/
theorem find?_serve (setting : Setting) (r : Registry) (w : World) (use : RegistryUse)
    (a : Bytes) : (r.serve setting w use).2.1.find? a = use.leaves a (r.find? a) := by
  cases use with
  | register d contract => exact r.find?_register d contract a
  | unregister d => exact r.find?_unregister d a
  | _ => rfl

theorem find?_after (setting : Setting) (w : World) (uses : List RegistryUse) (a : Bytes) :
    (after setting w uses).1.find? a = RegistryUse.standing uses a := by
  induction uses using List.reverseRecOn with
  | nil => rfl
  | append_singleton uses use ih =>
    rw [after, RegistryUse.standing, List.foldl_append, List.foldl_append]
    exact (find?_serve setting _ _ use a).trans (congrArg (use.leaves a) ih)

end Registry

theorem RegistryUse.reserved_of_leaves {use : RegistryUse} {a : Bytes} {held : Option Deployed}
    (left : use.leaves a held ≠ none) :
    held ≠ none ∨ (a.length = addressSize ∧ Address.Reserved a) := by
  cases use with
  | register d contract =>
    rw [leaves] at left
    split at left
    · next taken => exact .inr ⟨taken.1.length, taken.2.1⟩
    · exact .inl left
  | unregister d =>
    rw [leaves] at left
    split at left
    · exact absurd rfl left
    · exact .inl left
  | _ => exact .inl left

theorem RegistryUse.reserved_of_standing {uses : List RegistryUse} {a : Bytes}
    (stands : standing uses a ≠ none) : a.length = addressSize ∧ Address.Reserved a := by
  induction uses using List.reverseRecOn with
  | nil => exact absurd rfl stands
  | append_singleton uses use ih =>
    rw [standing, List.foldl_append] at stands
    rcases reserved_of_leaves stands with before | now
    · exact ih before
    · exact now

/-- A refused use leaves every entry as it is. -/
theorem Registry.serve_error {setting : Setting} {r : Registry} {w : World} {use : RegistryUse}
    {fault : Fault} (refused : (r.serve setting w use).1 = .error fault) :
    (r.serve setting w use).2.1 = r := by
  have kept : ∀ changed : Outcome Registry, (r.keepOr changed).1 = .error fault →
      (r.keepOr changed).2 = r := by
    intro changed failed
    cases changed with
    | ok _ => cases failed
    | error _ => rfl
  cases use with
  | register d contract => exact kept _ refused
  | unregister d => exact kept _ refused
  | _ => rfl

/-- After any uses the registry is a map on reserved addresses: what it answers depends on the
address that is meant and on what was registered there last, and on nothing else. -/
theorem registry_is_map (setting : Setting) (start : World) (uses : List RegistryUse) :
    let r := (Registry.after setting start uses).1
    let m := RegistryUse.standing uses
    (∀ a, m a ≠ none → a.length = addressSize ∧ Address.Reserved a) ∧
      (r.addresses.Pairwise (· < ·) ∧ ∀ a, a ∈ r.addresses ↔ m a ≠ none) ∧
      (∀ use w fault, (r.serve setting w use).1 = .error fault →
        (r.serve setting w use).2.1 = r) ∧
      (∀ d a, Address.Spells d a →
        (∀ contract, (∃ changed, r.register d contract = .ok changed) ↔
          a.take 16 = Bytes.zeros 16 ∧ a ≠ Bytes.zeros addressSize ∧ m a = none ∧
            contract ≠ none) ∧
        (∃ changed, r.unregister d = .ok changed) ∧
        r.get d = .ok (m a) ∧ r.isRegistered d = .ok (m a).isSome ∧
        ∀ w caller input gas readOnly, r.call setting w d caller input gas readOnly =
          match m a with
          | some deployed =>
            r.run deployed.contract setting w (.ofBytes a) caller input gas readOnly
          | none => (.error (.registry (.vacant a)), w)) ∧
      ∀ d, (∀ a, ¬Address.Spells d a) →
        ∃ fault, (∀ contract, r.register d contract = .error fault) ∧
          r.unregister d = .error fault ∧ r.get d = .error fault ∧
          r.isRegistered d = .error fault ∧
          ∀ w caller input gas readOnly,
            r.call setting w d caller input gas readOnly = (.error fault, w) := by
  intro r m
  have mirrors : ∀ a, r.find? a = m a := Registry.find?_after setting start uses
  refine ⟨fun a => RegistryUse.reserved_of_standing, ⟨Table.keys_ascending r, fun a => ?_⟩,
    fun use w fault => Registry.serve_error, fun d a spells => ?_, fun d unspelled => ?_⟩
  · rw [← mirrors a]
    exact r.mem_keys_iff a
  · rw [← mirrors a]
    refine ⟨fun contract => ?_, ⟨_, Registry.unregister_spelled spells⟩,
      Registry.get_spelled spells, Registry.isRegistered_spelled spells, ?_⟩
    · rw [← and_assoc]
      exact Registry.register_succeeds_iff spells contract
    · exact fun w => Registry.call_spelled spells setting w
  · obtain ⟨fault, registered, unregistered, got, known, called⟩ :=
      r.refused_unspelled unspelled
    exact ⟨fault, registered, unregistered, got, known, called setting⟩

/-- The second registration is refused, for it means the same address. -/
theorem registry_is_map_twice :
    let plain : Contract := ⟨[], some fun call => .done (.ofBytes call.args)⟩
    let deployed : Deployed := ⟨0, plain⟩
    let a := Bytes.numeral addressSize 0x0100
    let setting : Setting := ⟨.base, none⟩
    let w : World := ⟨.fresh, .fresh, []⟩
    let r := (Registry.after setting w
      [.register (.text "0x0100") (some deployed), .register (.text " 0X100") (some ⟨1, plain⟩)]).1
    r.get (.text "100") = .ok (some deployed) ∧
      r.call setting w (.text "100") (.ofBytes a) (.text "") (.int 5) (.bool false) =
        r.run plain setting w (.ofBytes a) (.ofBytes a) (.text "") (.int 5) (.bool false) := by
  intro plain deployed a setting w r
  obtain ⟨_, _, _, spelled, _⟩ := registry_is_map setting w
    [.register (.text "0x0100") (some deployed), .register (.text " 0X100") (some ⟨1, plain⟩)]
  obtain ⟨_, _, got, _, called⟩ := spelled (.text "100") a (Address.spells_of_read (by rfl))
  have ran := called w (.ofBytes a) (.text "") (.int 5) (.bool false)
  exact ⟨got.trans (by rfl), ran.trans (by rfl)⟩

end SeededDraws
