import SeededDraws.Deployment
import SeededDraws.Proofs.Address.Grammar
import SeededDraws.Proofs.Environment
/-!
# The two readers of addresses

A configuration and a call read their addresses on their own. They agree on everything but the texts
that are too long for an address and come down to one where the white space between the pairs of
digits is passed over: a configuration takes these, and no call does.
-/

namespace SeededDraws

namespace Address

/-- A text with more than forty characters behind its mark, which are the pairs of digits of an
address and white space between them. -/
def Spaced (d : Datum) (a : Bytes) : Prop :=
  ∃ t, d = .text t ∧ 2 * addressSize < (ByteText.digits t).length ∧
    Hex.Pairs (ByteText.digits t).faces a ∧ a.length = addressSize

/-- Both readers find the same address, or each refuses the value with a fault of its own kind. -/
def ReadAlike (d : Datum) : Prop :=
  (∃ a, Config.readAddress d = .ok a ∧ read d = .ok a) ∨
    (∃ cause, Config.readAddress d = .error (.config cause)) ∧
      ∃ cause, read d = .error (.context cause)

variable {d : Datum} {a : Bytes}

theorem read_spaced (spaced : Spaced d a) :
    ∃ t, d = .text t ∧ read d = .error (.context (.addressTooLong t)) := by
  obtain ⟨t, rfl, long, _⟩ := spaced
  refine ⟨t, rfl, ?_⟩
  rw [read]
  simp only [if_pos long]

theorem not_spaced_of_spells {b : Bytes} (spells : Spells d a) : ¬Spaced d b := by
  intro spaced
  obtain ⟨t, _, refused⟩ := read_spaced spaced
  rw [read_of_spells spells] at refused
  cases refused

end Address

theorem Text.padZeros_of_long {width : Nat} {t : Text} (long : width < t.length) :
    t.padZeros width = t := by
  have none : width - t.length = 0 := by omega
  rw [padZeros, List.leftpad, none, List.replicate_zero, List.nil_append]

namespace Config

open Address

/-- What a configuration takes is what a call takes, and the spaced texts. -/
theorem spells_iff {d : Datum} {a : Bytes} :
    Config.Spells d a ↔ Address.Spells d a ∨ Spaced d a := by
  constructor
  · intro spells
    cases spells with
    | bytes kind sized => exact .inl (.bytes kind sized)
    | @text t _ pairs sized =>
      by_cases long : 2 * addressSize < (ByteText.digits t).length
      · rw [Text.padZeros_of_long long] at pairs
        exact .inr ⟨t, rfl, long, pairs, sized⟩
      · exact .inl (spells_of_padded (Nat.le_of_not_lt long) (Hex.read_eq_some_iff.mpr pairs) sized)
  · rintro (spells | ⟨t, rfl, long, pairs, sized⟩)
    · cases spells with
      | bytes kind sized => exact .bytes kind sized
      | @text before after mark digits _ around marked all short sized value =>
        refine .text ?_ sized
        rw [ByteText.digits_framed around marked all, padZeros_ofChars, Text.faces_ofChars]
        exact Hex.read_eq_some_iff.mp (read_padded all short sized value)
    · exact .text (by rwa [Text.padZeros_of_long long]) sized

end Config

namespace Address

theorem readAlike_iff {d : Datum} : ReadAlike d ↔ ¬∃ a, Spaced d a := by
  constructor
  · rintro (⟨a, _, known⟩ | ⟨⟨cause, refused⟩, _⟩) ⟨b, spaced⟩
    · exact not_spaced_of_spells (spells_of_read known) spaced
    · rw [Config.readAddress_eq_ok.mpr (Config.spells_iff.mpr (.inr spaced))] at refused
      cases refused
  · intro plain
    cases configured : Config.readAddress d with
    | ok a =>
      rcases Config.spells_iff.mp (Config.readAddress_eq_ok.mp configured) with spells | spaced
      · exact .inl ⟨a, configured, read_of_spells spells⟩
      · exact absurd ⟨a, spaced⟩ plain
    | error fault =>
      obtain ⟨cause, rfl⟩ := Config.strict_readAddress d fault configured
      refine .inr ⟨⟨cause, configured⟩, ?_⟩
      cases called : read d with
      | ok a =>
        have taken := Config.spells_iff.mpr (.inl (spells_of_read called))
        rw [Config.readAddress_eq_ok.mpr taken] at configured
        cases configured
      | error fault =>
        obtain ⟨cause, rfl⟩ := read_error called
        exact ⟨cause, rfl⟩

end Address

/-! ### Calls by the address of a configuration -/

/-- A call through the configuration does not depend on how its address is spelled. -/
theorem Deployment.callOn_spelled {c : Config} {d : Datum} (spells : Address.Spells d c.address)
    (ledger : Ledger) (caller input gas readOnly : Datum) :
    callOn c ledger d caller input gas readOnly =
      callOn c ledger (.ofBytes c.address) caller input gas readOnly := by
  have own := Address.spells_ofBytes spells.length
  have meant : ∀ d, Address.Spells d c.address →
      Address.Spells (callAddress c d) c.address := by
    intro d spells
    rw [callAddress]
    split
    · exact spells
    · exact own
  simp only [callOn, Registry.call_spelled (meant d spells), Registry.call_spelled (meant _ own)]

/-- What no call reads is refused, whether or not there is a contract to call. -/
theorem Deployment.callOn_unread {c : Config} {d : Datum} {fault : Fault} (some : d.truthy = true)
    (refused : Address.read d = .error fault) (ledger : Ledger)
    (caller input gas readOnly : Datum) :
    ∃ fault', callOn c ledger d caller input gas readOnly = .error fault' := by
  rw [callOn]
  cases Registry.standard c .none 0 [] with
  | error other => exact ⟨other, rfl⟩
  | ok registry =>
    refine ⟨fault, ?_⟩
    simp only [bind, Except.bind, callAddress, if_pos some, Registry.call, Registry.enter,
      Registry.lookUp, refused]

/-- The two readers of addresses agree on every value but the spaced texts. A configuration that was
given its address in any other way can be called by what it was given, and whatever a call reads can
be given to a configuration. A spaced text makes a configuration that is not reached by it. -/
theorem address_readers_agree_iff (d : Datum) :
    (Address.ReadAlike d ↔ ¬∃ a, Address.Spaced d a) ∧
    (∀ a, Address.Spaced d a → Config.readAddress d = .ok a ∧
      ∃ t, d = .text t ∧ Address.read d = .error (.context (.addressTooLong t))) ∧
    (∀ a, Address.read d = .ok a → ∀ f c, Config.ofFields f = .ok c →
      Config.ofFields { f with address := d } = .ok { c with address := a }) ∧
    ∀ f c, f.address = d → Config.ofFields f = .ok c →
      ((¬∃ a, Address.Spaced d a) →
        (∀ (r : Registry) setting w caller input gas readOnly,
          r.call setting w d caller input gas readOnly =
            r.call setting w (.ofBytes c.address) caller input gas readOnly) ∧
        ∀ (deployment : Deployment) ledger caller input gas readOnly,
          deployment.runCall (some c) ledger d caller input gas readOnly =
            deployment.runCall (some c) ledger (.ofBytes c.address) caller input gas readOnly) ∧
      ((∃ a, Address.Spaced d a) →
        ∀ (deployment : Deployment) ledger caller input gas readOnly, ∃ fault,
          (deployment.runCall (some c) ledger d caller input gas readOnly).1 = .error fault) := by
  refine ⟨Address.readAlike_iff, fun a spaced => ?_, fun a known f c made => ?_,
    fun f c given made => ⟨fun plain => ?_, fun ⟨a, spaced⟩ => ?_⟩⟩
  · exact ⟨Config.readAddress_eq_ok.mpr (Config.spells_iff.mpr (.inr spaced)),
      Address.read_spaced spaced⟩
  · obtain ⟨parts, sound⟩ := Config.ofFields_eq_ok.mp made
    have spells := Address.spells_of_read known
    exact Config.ofFields_eq_ok.mpr
      ⟨{ parts with address := Config.spells_iff.mpr (.inl spells) },
        { sound with address := spells.length }⟩
  · have taken := (Config.ofFields_eq_ok.mp made).1.address
    rw [given] at taken
    have spells : Address.Spells d c.address := by
      rcases Config.spells_iff.mp taken with spells | spaced
      · exact spells
      · exact absurd ⟨_, spaced⟩ plain
    have own := Address.spells_ofBytes spells.length
    refine ⟨fun r setting w caller input gas readOnly => ?_, fun deployment ledger _ _ _ _ => ?_⟩
    · rw [Registry.call_spelled spells, Registry.call_spelled own]
    · rw [Deployment.runCall, Deployment.runCall]
      simp only [Deployment.callOn_spelled spells]
  · intro deployment ledger caller input gas readOnly
    obtain ⟨t, rfl, refused⟩ := Address.read_spaced spaced
    have some : (Datum.text t).truthy = true := by
      obtain ⟨u, same, long, _⟩ := spaced
      cases same
      cases t with
      | nil => exact absurd long (by decide)
      | cons g t => rfl
    exact Deployment.callOn_unread some refused ledger caller input gas readOnly

/-- A short text with white space around it reaches the configuration that was made with it. -/
theorem address_readers_agree_iff_short :
    let d := Datum.text " 0X69420"
    Config.ofFields { ConfigFields.standard with address := d } = .ok Config.standard ∧
      Address.ReadAlike d ∧
      ∀ (deployment : Deployment) ledger caller input gas readOnly,
        deployment.runCall (some .standard) ledger d caller input gas readOnly =
          deployment.runCall (some .standard) ledger (.ofBytes Config.standard.address) caller input
            gas readOnly := by
  intro d
  obtain ⟨alike, _, configured, called⟩ := address_readers_agree_iff d
  have known : Address.read d = .ok Config.standard.address := by rfl
  have made : Config.ofFields ConfigFields.standard = .ok Config.standard := by rfl
  have plain : ¬∃ a, Address.Spaced d a :=
    fun ⟨_, spaced⟩ => Address.not_spaced_of_spells (Address.spells_of_read known) spaced
  have taken := configured _ known _ _ made
  exact ⟨taken, alike.mpr plain, ((called _ _ rfl taken).1 plain).2⟩

/-- With a space between its pairs of digits the usual address is taken by a configuration, and a
call by the same text is refused. -/
theorem address_readers_split :
    let t : Text := "0x00 00 00 00 00 00 00 00 00 00 00 00 00 00 00 00 00 06 94 20"
    Config.ofFields { ConfigFields.standard with address := .text t } = .ok Config.standard ∧
      Config.readAddress (.text t) = .ok Config.standard.address ∧
      Address.read (.text t) = .error (.context (.addressTooLong t)) ∧
      ¬Address.ReadAlike (.text t) ∧
      ∀ (deployment : Deployment) ledger caller input gas readOnly, ∃ fault,
        (deployment.runCall (some .standard) ledger (.text t) caller input gas readOnly).1 =
          .error fault := by
  intro t
  have refused : Address.read (.text t) = .error (.context (.addressTooLong t)) := by rfl
  refine ⟨by rfl, by rfl, refused, ?_, ?_⟩
  · rintro (⟨a, _, known⟩ | ⟨⟨cause, other⟩, _⟩)
    · rw [refused] at known
      cases known
    · cases other
  · exact fun deployment => Deployment.callOn_unread rfl refused

end SeededDraws
