import SeededDraws.Config
import SeededDraws.Proofs.Address
/-!
# Configurations made anew

A configuration is made from six fields, and from its printed form with some fields changed it is
made in the same way as by the change itself. The printed form spells the address that the
configuration holds as bytes; both are read as one address.
-/

namespace SeededDraws

/-! ### Dictionaries -/

namespace Datum

/-- A known name keeps its place, a new one comes last. -/
def putEntry (entries : List (Text × Datum)) (e : Text × Datum) : List (Text × Datum) :=
  if e.1 ∈ entries.map Prod.fst then entries.map fun old => if old.1 = e.1 then e else old
  else entries ++ [e]

/-- The entries of both dictionaries; those of the second one win. -/
def merge : Datum → Datum → Datum
  | .dict entries, .dict changes => .dict (changes.foldl putEntry entries)
  | d, _ => d

theorem mem_keys_putEntry {entries : List (Text × Datum)} {e : Text × Datum} {key : Text} :
    key ∈ (putEntry entries e).map Prod.fst ↔ key = e.1 ∨ key ∈ entries.map Prod.fst := by
  rw [putEntry]
  split
  · next known =>
    have same : (entries.map fun old => if old.1 = e.1 then e else old).map Prod.fst =
        entries.map Prod.fst := by
      rw [List.map_map]
      refine List.map_congr_left fun old _ => ?_
      show (if old.1 = e.1 then e else old).1 = old.1
      split
      · next named => exact named.symm
      · rfl
    rw [same]
    constructor
    · exact .inr
    · rintro (rfl | held)
      · exact known
      · exact held
  · rw [List.map_append, List.mem_append, or_comm]
    exact or_congr List.mem_singleton Iff.rfl

theorem mem_keys_foldl {entries : List (Text × Datum)} (changes : List (Text × Datum)) {key : Text}
    (held : key ∈ entries.map Prod.fst) : key ∈ (changes.foldl putEntry entries).map Prod.fst := by
  induction changes generalizing entries with
  | nil => exact held
  | cons e rest ih => exact ih (mem_keys_putEntry.mpr (.inr held))

end Datum

/-! ### Fields by name -/

theorem Text.eq_ofString_of_string? {t : Text} {s : String} (named : t.string? = some s) :
    t = Text.ofString s := by
  obtain ⟨cs, chars, rfl⟩ := Option.map_eq_some_iff.mp named
  rw [ofString, String.toList_ofList]
  clear named
  induction t generalizing cs with
  | nil =>
    cases chars
    rfl
  | cons g t ih =>
    rw [List.mapM_cons] at chars
    obtain ⟨c, first, chars⟩ := Option.bind_eq_some_iff.mp chars
    obtain ⟨rest, later, chars⟩ := Option.bind_eq_some_iff.mp chars
    cases chars
    cases g with
    | char d =>
      cases first
      exact congrArg (Glyph.char c :: ·) (ih rest later)
    | half n => cases first

namespace ConfigFields

/-- The fields under their names. -/
def entries (f : ConfigFields) : List (Text × Datum) :=
  [("layout", f.layout), ("nonce_source", f.nonceSource), ("address", f.address),
    ("base_gas", f.baseGas), ("gas_per_word", f.gasPerWord), ("max_count", f.maxCount)]

def names : List Text :=
  ["layout", "nonce_source", "address", "base_gas", "gas_per_word", "max_count"]

variable {f g : ConfigFields} {key : Text}

/-- A change of a field is a change of its entry. -/
theorem set_known (known : key ∈ names) (f : ConfigFields) (d : Datum) :
    ∃ g, f.set (key, d) = .ok g ∧ Datum.putEntry f.entries (key, d) = g.entries := by
  simp only [names, List.mem_cons, List.not_mem_nil, or_false] at known
  rcases known with rfl | rfl | rfl | rfl | rfl | rfl
  all_goals exact ⟨_, rfl, rfl⟩

theorem set_unknown (unknown : key ∉ names) (f : ConfigFields) (d : Datum) :
    f.set (key, d) = .error (.bare .type) := by
  have other : ∀ s : String, Text.ofString s ∈ names → key.string? ≠ some s := by
    intro s known named
    rw [Text.eq_ofString_of_string? named] at unknown
    exact unknown known
  rw [set]
  split
  case h_7 => rfl
  all_goals
    next named => exact absurd named (other _ (by decide))

/-- All six fields replace whatever was there before. -/
theorem foldlM_entries (f g : ConfigFields) : g.entries.foldlM set f = .ok g := rfl

/-- One unknown name is enough, wherever it stands. -/
theorem foldlM_unknown {entries : List (Text × Datum)} (unknown : key ∉ names)
    (held : key ∈ entries.map Prod.fst) (f : ConfigFields) :
    entries.foldlM set f = .error (.bare .type) := by
  induction entries generalizing f with
  | nil => cases held
  | cons e rest ih =>
    obtain ⟨name, d⟩ := e
    rw [List.foldlM_cons]
    by_cases known : name ∈ names
    · obtain ⟨g, changed, _⟩ := set_known known f d
      rw [changed]
      refine ih ?_ g
      rcases List.mem_cons.mp held with rfl | later
      · exact absurd known unknown
      · exact later
    · rw [set_unknown known]
      rfl

/-- Changing fields one by one comes to the same as reading the changed entries. -/
theorem foldlM_merged (start f : ConfigFields) (changes : List (Text × Datum)) :
    (changes.foldl Datum.putEntry f.entries).foldlM set start = changes.foldlM set f := by
  induction changes generalizing f with
  | nil => exact foldlM_entries start f
  | cons e rest ih =>
    obtain ⟨name, d⟩ := e
    rw [List.foldl_cons, List.foldlM_cons]
    by_cases known : name ∈ names
    · obtain ⟨g, changed, put⟩ := set_known known f d
      rw [changed, put]
      exact ih g
    · have put : name ∈ (Datum.putEntry f.entries (name, d)).map Prod.fst :=
        Datum.mem_keys_putEntry.mpr (.inl rfl)
      rw [set_unknown known, foldlM_unknown known (Datum.mem_keys_foldl rest put)]
      rfl

/-- The same fields, but for two spellings of one address. -/
structure Alike (f g : ConfigFields) : Prop where
  others : { f with address := g.address } = g
  address : Config.readAddress f.address = Config.readAddress g.address

theorem Alike.ofFields (alike : f.Alike g) : Config.ofFields f = Config.ofFields g := by
  rw [← alike.others, Config.ofFields, Config.ofFields]
  simp only [alike.address]

theorem Alike.set (alike : f.Alike g) (name : Text) (d : Datum) :
    (∃ f' g', f.set (name, d) = .ok f' ∧ g.set (name, d) = .ok g' ∧ f'.Alike g') ∨
      (f.set (name, d) = .error (.bare .type) ∧ g.set (name, d) = .error (.bare .type)) := by
  by_cases known : name ∈ names
  · obtain ⟨others, address⟩ := alike
    rw [← others] at address ⊢
    simp only [names, List.mem_cons, List.not_mem_nil, or_false] at known
    rcases known with rfl | rfl | rfl | rfl | rfl | rfl
    · exact .inl ⟨_, _, rfl, rfl, rfl, address⟩
    · exact .inl ⟨_, _, rfl, rfl, rfl, address⟩
    · exact .inl ⟨_, _, rfl, rfl, rfl, rfl⟩
    · exact .inl ⟨_, _, rfl, rfl, rfl, address⟩
    · exact .inl ⟨_, _, rfl, rfl, rfl, address⟩
    · exact .inl ⟨_, _, rfl, rfl, rfl, address⟩
  · exact .inr ⟨set_unknown known f d, set_unknown known g d⟩

/-- A run of changes does not tell the spellings apart. -/
theorem Alike.changed (alike : f.Alike g) (changes : List (Text × Datum)) :
    changes.foldlM ConfigFields.set f >>= Config.ofFields =
      changes.foldlM ConfigFields.set g >>= Config.ofFields := by
  induction changes generalizing f g with
  | nil => exact alike.ofFields
  | cons e rest ih =>
    obtain ⟨name, d⟩ := e
    rw [List.foldlM_cons, List.foldlM_cons]
    rcases alike.set name d with ⟨f', g', first, second, alike'⟩ | ⟨first, second⟩
    · rw [first, second]
      exact ih alike'
    · rw [first, second]

end ConfigFields

namespace Config

/-! ### Spelled addresses -/

/-- How a configuration may spell its address: as twenty bytes, or as a text whose digits, filled up
to forty characters, are twenty pairs with ASCII white space between them at most. -/
inductive Spells : Datum → Bytes → Prop
  | bytes (kind : ByteKind) {a : Bytes} (sized : a.length = addressSize) : Spells (.bytes kind a) a
  | text {t : Text} {a : Bytes}
    (pairs : Hex.Pairs ((ByteText.digits t).padZeros (2 * addressSize)).faces a)
    (sized : a.length = addressSize) : Spells (.text t) a

theorem addressOfText_eq_ok {t : Text} {a : Bytes} :
    addressOfText t = .ok a ↔
      Hex.Pairs ((ByteText.digits t).padZeros (2 * addressSize)).faces a := by
  rw [addressOfText, ← Hex.read_eq_some_iff]
  cases Hex.read ((ByteText.digits t).padZeros (2 * addressSize)).faces with
  | none => simp
  | some b => simp

theorem readAddress_text_eq_ok {t : Text} {a : Bytes} :
    readAddress (.text t) = .ok a ↔ addressOfText t = .ok a ∧ a.length = addressSize := by
  rw [readAddress]
  cases addressOfText t with
  | error fault => simp [bind, Except.bind]
  | ok b =>
    simp only [bind, Except.bind, Except.ok.injEq]
    split
    · next sized =>
      rw [Except.ok.injEq]
      exact ⟨fun same => ⟨same, same ▸ sized⟩, And.left⟩
    · next other =>
      refine iff_of_false nofun ?_
      rintro ⟨rfl, sized⟩
      exact other sized

theorem readAddress_eq_ok {d : Datum} {a : Bytes} : readAddress d = .ok a ↔ Spells d a := by
  cases d with
  | bytes kind b =>
    have read : readAddress (.bytes kind b) = if b.length = addressSize then .ok b
        else .error (.config (.addressLength b.length)) := rfl
    rw [read]
    constructor
    · intro known
      split at known
      · next sized =>
        cases known
        exact .bytes kind sized
      · cases known
    · rintro ⟨_, sized⟩
      exact if_pos sized
  | text t =>
    rw [readAddress_text_eq_ok, addressOfText_eq_ok]
    constructor
    · rintro ⟨pairs, sized⟩
      exact .text pairs sized
    · rintro ⟨pairs, sized⟩
      exact ⟨‹_›, ‹_›⟩
  | _ => exact iff_of_false nofun nofun

theorem Spells.length {d : Datum} {a : Bytes} (spells : Spells d a) : a.length = addressSize := by
  cases spells with
  | bytes kind sized => exact sized
  | text pairs sized => exact sized

/-- The digits of an address, behind a mark, are read as that address. -/
theorem readAddress_marked {a : Bytes} (sized : a.length = addressSize) :
    readAddress (.text a.marked) = .ok a := by
  have wide : 2 * addressSize - (Hex.write a).length = 0 := by
    rw [Hex.length_write, sized, Nat.sub_self]
  have read : addressOfText (Text.ofString a.marked) = .ok a := by
    rw [addressOfText, ByteText.digits_marked, Address.padZeros_ofChars, Text.faces_ofChars, wide,
      List.replicate_zero, List.nil_append, Hex.read_write]
  exact readAddress_text_eq_ok.mpr ⟨read, sized⟩

/-! ### What every configuration keeps to -/

/-- A pairing that is allowed, an address of twenty bytes, and no amount below zero. -/
structure Sound (c : Config) : Prop where
  paired : c.layout = .typed → c.nonceSource = .state
  address : c.address.length = addressSize
  baseGas : c.baseGas.isBelow 0 = .ok false
  gasPerWord : c.gasPerWord.isBelow 0 = .ok false
  maxCount : c.maxCount.isBelow 0 = .ok false

theorem refuseIf_eq_ok {fault : ConfigFault} {bad : Bool} {u : Unit}
    (passed : refuseIf fault bad = .ok u) : bad = false := by
  cases bad with
  | false => rfl
  | true => cases passed

theorem anyBelowZero_eq_false {base perWord : Datum}
    (looked : anyBelowZero base perWord = .ok false) :
    base.isBelow 0 = .ok false ∧ perWord.isBelow 0 = .ok false := by
  obtain ⟨below, first, looked⟩ := Outcome.bind_eq_ok.mp looked
  cases below with
  | true => cases looked
  | false => exact ⟨first, looked⟩

/-- The fields that a configuration was made from, each of them as it was checked. -/
structure MadeFrom (c : Config) (f : ConfigFields) : Prop where
  layout : readLayout f.layout = .ok c.layout
  nonceSource : readNonceSource f.nonceSource = .ok c.nonceSource
  address : Spells f.address c.address
  baseGas : c.baseGas = f.baseGas
  gasPerWord : c.gasPerWord = f.gasPerWord
  maxCount : c.maxCount = f.maxCount

theorem ofFields_eq_ok {f : ConfigFields} {c : Config} :
    ofFields f = .ok c ↔ c.MadeFrom f ∧ c.Sound := by
  constructor
  · intro made
    obtain ⟨layout, read, made⟩ := Outcome.bind_eq_ok.mp made
    obtain ⟨source, named, made⟩ := Outcome.bind_eq_ok.mp made
    obtain ⟨_, paired, made⟩ := Outcome.bind_eq_ok.mp made
    obtain ⟨address, known, made⟩ := Outcome.bind_eq_ok.mp made
    obtain ⟨prices, looked, made⟩ := Outcome.bind_eq_ok.mp made
    obtain ⟨_, gas, made⟩ := Outcome.bind_eq_ok.mp made
    obtain ⟨count, counted, made⟩ := Outcome.bind_eq_ok.mp made
    obtain ⟨_, enough, made⟩ := Outcome.bind_eq_ok.mp made
    cases made
    rw [refuseIf_eq_ok gas] at looked
    rw [refuseIf_eq_ok enough] at counted
    obtain ⟨baseGas, gasPerWord⟩ := anyBelowZero_eq_false looked
    have spelled := readAddress_eq_ok.mp known
    refine ⟨⟨read, named, spelled, rfl, rfl, rfl⟩,
      ⟨?_, spelled.length, baseGas, gasPerWord, counted⟩⟩
    intro typed
    have free := refuseIf_eq_ok paired
    cases source with
    | state => rfl
    | payload => simp_all
  · rintro ⟨made, sound⟩
    obtain ⟨layout, source, address, base, perWord, count⟩ := c
    obtain ⟨read, named, spelled, rfl, rfl, rfl⟩ := made
    obtain ⟨paired, _, baseGas, gasPerWord, maxCount⟩ := sound
    have apart : ¬(layout = .typed ∧ source = .payload) := by
      rintro ⟨typed, payload⟩
      cases (paired typed).symm.trans payload
    have prices : anyBelowZero f.baseGas f.gasPerWord = .ok false := by
      rw [anyBelowZero, baseGas]
      exact gasPerWord
    rw [ofFields, read, named, readAddress_eq_ok.mpr spelled, prices, maxCount]
    simp only [bind, Except.bind, decide_eq_false apart]
    rfl

theorem sound_of_ofFields {f : ConfigFields} {c : Config} (made : ofFields f = .ok c) : c.Sound :=
  (ofFields_eq_ok.mp made).2

theorem readLayout_name (layout : Layout) : readLayout (.text layout.name) = .ok layout := by
  cases layout <;> simp [readLayout, Layout.ofDatum?, Datum.string?, Layout.name]

theorem readNonceSource_name (source : NonceSource) :
    readNonceSource (.text source.name) = .ok source := by
  cases source <;> simp [readNonceSource, NonceSource.ofDatum?, Datum.string?, NonceSource.name]

/-! ### Printed configurations -/

/-- The fields in their printed form. -/
def printedFields (c : Config) : ConfigFields :=
  { c.toFields with address := .text c.address.marked }

theorem toDatum_eq (c : Config) : c.toDatum = .dict c.printedFields.entries := rfl

namespace Sound

variable {c : Config}

theorem alike (sound : c.Sound) : c.toFields.Alike c.printedFields :=
  have own : readAddress c.toFields.address = .ok c.address :=
    readAddress_eq_ok.mpr (.bytes .fixed sound.address)
  ⟨rfl, own.trans (readAddress_marked sound.address).symm⟩

/-- A configuration is what its own fields make. -/
theorem ofFields_toFields (sound : c.Sound) : ofFields c.toFields = .ok c :=
  ofFields_eq_ok.mpr ⟨⟨readLayout_name c.layout, readNonceSource_name c.nonceSource,
    .bytes .fixed sound.address, rfl, rfl, rfl⟩, sound⟩

/-- Fields can be changed in the configuration or in its printed form. -/
theorem withChanges_eq (sound : c.Sound) (changes : List (Text × Datum)) :
    c.withChanges (.dict changes) = ofDatum (c.toDatum.merge (.dict changes)) := by
  rw [toDatum_eq, Datum.merge, ofDatum, ConfigFields.update, ConfigFields.foldlM_merged]
  exact sound.alike.changed changes

theorem ofDatum_toDatum (sound : c.Sound) : ofDatum c.toDatum = .ok c := by
  have same := sound.withChanges_eq []
  exact same.symm.trans sound.ofFields_toFields

theorem of_withChanges {changes : Datum} {c' : Config}
    (changed : c.withChanges changes = .ok c') : c'.Sound := by
  obtain ⟨f, _, made⟩ := Outcome.bind_eq_ok.mp changed
  exact sound_of_ofFields made

/-- Whatever was changed on the way, the last configuration is as sound as the first one. -/
theorem chain (sound : c.Sound) {changes : List Datum} {c' : Config}
    (reached : changes.foldlM Config.withChanges c = .ok c') : c'.Sound := by
  induction changes generalizing c with
  | nil =>
    cases reached
    exact sound
  | cons first rest ih =>
    rw [List.foldlM_cons] at reached
    obtain ⟨next, changed, reached⟩ := Outcome.bind_eq_ok.mp reached
    exact ih (of_withChanges changed) reached

end Sound

end Config

/-- A configuration with some fields changed is the same, or refused for the same fault, whether the
change is made to it or to its printed form. Without a change it comes back from its printed form,
and after any chain of changes it still keeps to all rules. -/
theorem config_rebuilds {f : ConfigFields} {c : Config} (made : Config.ofFields f = .ok c) :
    (∀ changes, c.withChanges (.dict changes) =
      Config.ofDatum (c.toDatum.merge (.dict changes))) ∧
    Config.ofDatum c.toDatum = .ok c ∧
    ∀ (chain : List Datum) (c' : Config), chain.foldlM Config.withChanges c = .ok c' →
      (c'.layout, c'.nonceSource) ∈
        [(.typed, .state), (.raw, .state), (Layout.raw, NonceSource.payload)] ∧
      c'.address.length = addressSize ∧
      ∀ d ∈ [c'.baseGas, c'.gasPerWord, c'.maxCount], d.isBelow 0 = .ok false := by
  have sound := Config.sound_of_ofFields made
  refine ⟨sound.withChanges_eq, sound.ofDatum_toDatum, ?_⟩
  intro chain c' reached
  have sound' := sound.chain reached
  refine ⟨?_, sound'.address, ?_⟩
  · cases layout : c'.layout with
    | typed =>
      rw [sound'.paired layout]
      decide
    | raw => cases c'.nonceSource <;> decide
  · intro d mem
    simp only [List.mem_cons, List.not_mem_nil, or_false] at mem
    rcases mem with rfl | rfl | rfl
    · exact sound'.baseGas
    · exact sound'.gasPerWord
    · exact sound'.maxCount

/-- A raw layout with the nonce in its payload becomes a typed one only if the nonce source is
changed along with it. -/
theorem config_rebuilds_typed :
    let c : Config := ⟨.raw, .payload, Bytes.numeral addressSize 0x69420, .int 1, .int 0, .bool true⟩
    Config.ofDatum (c.toDatum.merge (.dict [("layout", .text "typed")])) =
        .error (.config .nonceWithoutPayload) ∧
      Config.ofDatum c.toDatum = .ok c ∧
      ∃ c', [.dict [("layout", .text "typed"), ("nonce_source", .text "state")],
          .dict [("address", .text "0x1")]].foldlM Config.withChanges c = .ok c' ∧
        c'.layout = .typed ∧ c'.address.length = addressSize := by
  obtain ⟨rebuilt, printed, reached⟩ := config_rebuilds
    (c := ⟨.raw, .payload, Bytes.numeral addressSize 0x69420, .int 1, .int 0, .bool true⟩)
    (f := ⟨.text "raw", .text "payload", .text " 0X69420", .int 1, .int 0, .bool true⟩) rfl
  have last : [.dict [("layout", .text "typed"), ("nonce_source", .text "state")],
      .dict [("address", .text "0x1")]].foldlM Config.withChanges
        ⟨.raw, .payload, Bytes.numeral addressSize 0x69420, .int 1, .int 0, .bool true⟩ =
      .ok ⟨.typed, .state, Bytes.numeral addressSize 1, .int 1, .int 0, .bool true⟩ := by rfl
  refine ⟨(rebuilt _).symm.trans ?_, printed, _, last, rfl, (reached _ _ last).2.1⟩
  rfl

end SeededDraws
