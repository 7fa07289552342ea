import SeededDraws.Abi.Function
import SeededDraws.Proofs.Config
import SeededDraws.Proofs.Fault
/-!
# Interface documents

A document is read as a whole or not at all. What an entry says is known from the function that it
makes, down to the number and order of its parameters, and of several functions with one name the
last one stands in the place of the first.
-/

namespace SeededDraws

/-! ### Entries -/

theorem Datum.isText_iff {d : Datum} {s : String} : d.isText s = true ↔ d = .text s := by
  rw [isText, beq_iff_eq]
  constructor
  · intro named
    cases d with
    | text t => exact congrArg Datum.text (Text.eq_ofString_of_string? named)
    | _ => cases named
  · rintro rfl
    exact Text.string?_ofString s

theorem AbiType.ofDatum?_eq_some {d : Datum} {t : AbiType} :
    ofDatum? d = some t ↔ d = .text t.name := by
  rw [← Datum.isText_iff, Datum.isText, beq_iff_eq, ofDatum?]
  constructor
  · intro known
    split at known <;> cases known <;> assumption
  · intro named
    rw [named]
    cases t <;> rfl

namespace Function

/-- The field of the entry lists parameters of these types, one for each and in their order; a field
that is not there lists none. -/
def Lists (entry : Datum) (field : String) (types : List AbiType) : Prop :=
  ∃ items, ((entry.field? field).getD (.list [])).items? = some items ∧
    List.Forall₂ (fun parameter (t : AbiType) => (∃ fields, parameter = .dict fields) ∧
      parameter.field? "type" = some (.text t.name)) items types

/-- The entry is the function in its written form. -/
structure Describes (entry : Datum) (f : Function) : Prop where
  fields : ∃ fields, entry = .dict fields
  kind : ∀ type, entry.field? "type" = some type → type = .text "function"
  name : entry.field? "name" = some (.text f.name)
  named : f.name ≠ []
  inputs : Lists entry "inputs" f.inputs
  outputs : Lists entry "outputs" f.outputs
  mutability : f.mutability = (entry.field? "stateMutability").getD (.text "nonpayable")

theorem readType_eq_ok {name : Text} {d : Datum} {t : AbiType} :
    readType name d = .ok t ↔ d = .text t.name := by
  rw [← AbiType.ofDatum?_eq_some, readType]
  cases AbiType.ofDatum? d with
  | none => exact iff_of_false nofun nofun
  | some u => rw [Except.ok.injEq, Option.some.injEq]

theorem mapM_readType {name : Text} {ds : List Datum} {types : List AbiType} :
    ds.mapM (readType name) = .ok types ↔ ds = types.map fun t => .text t.name := by
  rw [Outcome.mapM_eq_ok, ← List.forall₂_eq_eq_eq, List.forall₂_map_right_iff]
  simp only [readType_eq_ok]

theorem parameterType_eq_ok {parameter type : Datum} :
    parameterType parameter = .ok type ↔
      (∃ fields, parameter = .dict fields) ∧ parameter.field? "type" = some type := by
  cases parameter with
  | dict fields =>
    rw [parameterType]
    cases Datum.field? "type" (.dict fields) with
    | none => exact iff_of_false nofun nofun
    | some d =>
      rw [Except.ok.injEq, Option.some.injEq]
      exact ⟨fun same => ⟨⟨fields, rfl⟩, same⟩, And.right⟩
  | _ => exact iff_of_false nofun nofun

theorem parameterTypes_eq_ok {field : String} {entry : Datum} {types : List AbiType} :
    parameterTypes field entry = .ok (types.map fun t => .text t.name) ↔
      Lists entry field types := by
  rw [parameterTypes, Lists, Datum.items]
  cases ((entry.field? field).getD (.list [])).items? with
  | none => exact iff_of_false nofun nofun
  | some items =>
    simp only [bind, Except.bind, Option.some.injEq, exists_eq_left', Outcome.mapM_eq_ok,
      List.forall₂_map_right_iff, parameterType_eq_ok]

theorem make_eq_ok {name : Text} {ins outs : List Datum} {mutability : Datum} {f : Function} :
    make name ins outs mutability = .ok f ↔
      f.name = name ∧ ins = (f.inputs.map fun t => .text t.name) ∧
        outs = (f.outputs.map fun t => .text t.name) ∧ f.mutability = mutability := by
  simp only [make, Outcome.bind_eq_ok, mapM_readType]
  constructor
  · rintro ⟨inputs, read, outputs, read', made⟩
    cases made
    exact ⟨rfl, read, read', rfl⟩
  · rintro ⟨rfl, read, read', rfl⟩
    exact ⟨_, read, _, read', rfl⟩

/-- An entry makes the function that it describes, and no other entry makes one. -/
theorem ofEntry_eq_ok {entry : Datum} {f : Function} :
    ofEntry entry = .ok f ↔ Describes entry f := by
  constructor
  · intro made
    cases entry with
    | dict fields =>
      simp only [ofEntry] at made
      split at made
      · cases made
      · next function =>
        split at made
        · next name named =>
          split at made
          · cases made
          · next some =>
            obtain ⟨inputs, listed, made⟩ := Outcome.bind_eq_ok.mp made
            obtain ⟨outputs, listed', made⟩ := Outcome.bind_eq_ok.mp made
            obtain ⟨rfl, rfl, rfl, mutability⟩ := make_eq_ok.mp made
            refine ⟨⟨fields, rfl⟩, ?_, named, some ∘ List.isEmpty_iff.mpr,
              parameterTypes_eq_ok.mp listed, parameterTypes_eq_ok.mp listed', mutability⟩
            intro type given
            rw [given, Option.getD_some, Bool.not_eq_true', Bool.not_eq_false] at function
            exact Datum.isText_iff.mp function
        · cases made
    | _ => cases made
  · rintro ⟨⟨fields, rfl⟩, kind, name, named, inputs, outputs, mutability⟩
    have function : ((Datum.dict fields).field? "type").getD (.text "function") =
        .text "function" := by
      cases given : (Datum.dict fields).field? "type" with
      | none => rfl
      | some type => exact kind type given
    simp only [ofEntry, function, Datum.isText_iff.mpr, name, Bool.not_true, Bool.false_eq_true,
      if_false, List.isEmpty_iff, if_neg named, parameterTypes_eq_ok.mpr inputs,
      parameterTypes_eq_ok.mpr outputs]
    exact make_eq_ok.mpr ⟨rfl, rfl, rfl, mutability⟩

/-! ### The table of functions -/

theorem eraseDups_concat (names : List Text) (name : Text) :
    (names ++ [name]).eraseDups =
      if name ∈ names then names.eraseDups else names.eraseDups ++ [name] := by
  rw [List.eraseDups_append, List.removeAll, List.filter_singleton, List.elem_eq_mem]
  by_cases again : name ∈ names
  · rw [decide_eq_true again, if_pos again]
    exact List.append_nil _
  · rw [decide_eq_false again, if_neg again]
    rfl

theorem names_put (f : Function) (table : List Function) :
    (put f table).map name = if f.name ∈ table.map name then table.map name
      else table.map name ++ [f.name] := by
  induction table with
  | nil => rfl
  | cons g rest ih =>
    rw [put]
    by_cases same : g.name = f.name
    · rw [if_pos same, List.map_cons, List.map_cons, same, if_pos List.mem_cons_self]
    · have other : f.name ∈ (g :: rest).map name ↔ f.name ∈ rest.map name := by
        rw [List.map_cons, List.mem_cons, or_iff_right (Ne.symm same)]
      rw [if_neg same, List.map_cons, ih]
      simp only [other]
      split
      · rfl
      · rfl

theorem mem_put {f g : Function} {table : List Function} (distinct : (table.map name).Nodup)
    (held : g ∈ put f table) : g = f ∨ (g ∈ table ∧ g.name ≠ f.name) := by
  induction table with
  | nil => exact .inl (List.mem_singleton.mp held)
  | cons h rest ih =>
    obtain ⟨fresh, distinct⟩ := List.nodup_cons.mp distinct
    rw [put] at held
    split at held
    · next same =>
      rcases List.mem_cons.mp held with rfl | held
      · exact .inl rfl
      · refine .inr ⟨.tail _ held, fun again => fresh ?_⟩
        rw [same, ← again]
        exact List.mem_map_of_mem held
    · next other =>
      rcases List.mem_cons.mp held with rfl | held
      · exact .inr ⟨List.mem_cons_self, other⟩
      · rcases ih distinct held with rfl | ⟨held, other⟩
        · exact .inl rfl
        · exact .inr ⟨.tail _ held, other⟩

/-- The table of some functions: every name at the place where it first appears, with the function
that has it last. -/
structure Tabulates (made table : List Function) : Prop where
  names : table.map name = (made.map name).eraseDups
  distinct : (table.map name).Nodup
  last : ∀ f ∈ table, ∃ before after, made = before ++ f :: after ∧ ∀ g ∈ after, g.name ≠ f.name

theorem Tabulates.put {made table : List Function} (tabulates : Tabulates made table)
    (f : Function) : Tabulates (made ++ [f]) (put f table) := by
  obtain ⟨names, distinct, last⟩ := tabulates
  have known : f.name ∈ table.map name ↔ f.name ∈ made.map name := by
    rw [names, List.mem_eraseDups]
  refine ⟨?_, ?_, fun g held => ?_⟩
  · rw [names_put, List.map_append, List.map_singleton, eraseDups_concat, ← names]
    simp only [known]
  · rw [names_put]
    split
    · exact distinct
    · next fresh =>
      refine List.nodup_append.mpr ⟨distinct, List.pairwise_singleton _ _, ?_⟩
      rintro a held b single rfl
      exact fresh (List.mem_singleton.mp single ▸ held)
  · rcases mem_put distinct held with rfl | ⟨held, other⟩
    · exact ⟨made, [], rfl, List.forall_mem_nil _⟩
    · obtain ⟨before, after, rfl, later⟩ := last g held
      refine ⟨before, after ++ [f], by rw [List.append_assoc, List.cons_append], ?_⟩
      exact List.forall_mem_append.mpr ⟨later, List.forall_mem_singleton.mpr other.symm⟩

theorem tabulates_foldl (made : List Function) :
    Tabulates made (made.foldl (fun table f => put f table) []) := by
  induction made using List.reverseRecOn with
  | nil => exact ⟨rfl, List.nodup_nil, List.forall_mem_nil _⟩
  | append_singleton made f ih =>
    rw [List.foldl_append]
    exact ih.put f

theorem ofEntries_eq_ok {entries : List Datum} {table : List Function} :
    ofEntries entries = .ok table ↔
      ∃ made, List.Forall₂ (fun e f => ofEntry e = .ok f) entries made ∧
        table = made.foldl (fun table f => put f table) [] := by
  rw [ofEntries, Outcome.bind_eq_ok]
  simp only [Outcome.mapM_eq_ok]
  exact exists_congr fun made => and_congr_right fun _ =>
    ⟨fun same => (Except.ok.inj same).symm, fun same => same ▸ rfl⟩

theorem ofEntries_eq_error {entries : List Datum} {fault : Fault} :
    ofEntries entries = .error fault ↔ entries.mapM ofEntry = .error fault := by
  rw [ofEntries]
  cases entries.mapM ofEntry with
  | error other => exact Iff.rfl
  | ok made => exact iff_of_false nofun nofun

end Function

/-! ### Documents -/

namespace Function

/-- The text of a document, as it is given or in its bytes. -/
def documentText? : Datum → Option Text
  | .text t => some t
  | .bytes .view _ => none
  | .bytes _ b => Encoding.document? b
  | _ => none

theorem readDocument_list {d : Datum} {text : Text} {entries : List Datum}
    (textual : documentText? d = some text) (parsed : Json.parse text = .ok (.list entries)) :
    readDocument d = ofEntries entries := by
  have list : ofDocument text = ofEntries entries := by rw [ofDocument, parsed]
  cases d with
  | text t =>
    cases textual
    exact list
  | bytes kind b =>
    cases kind with
    | view => cases textual
    | fixed | growable =>
      simp only [documentText?] at textual
      simp only [readDocument, textual, list]
  | _ => cases textual

end Function

/-- A document that holds a list is read exactly if all its entries are functions, and otherwise for
the fault of its first bad entry. An entry is a function exactly if it has the form of one, with a
name that is not empty and the parameters of the function in their number and order. The table has
each name where it first appears, with the function of the last entry of that name. -/
theorem abi_document_table {d : Datum} {text : Text} {entries : List Datum}
    (textual : Function.documentText? d = some text)
    (parsed : Json.parse text = .ok (.list entries)) :
    ((∃ table, Function.readDocument d = .ok table) ↔
      ∀ e ∈ entries, ∃ f, Function.ofEntry e = .ok f) ∧
    (∀ fault, Function.readDocument d = .error fault ↔
      ∃ before e after, entries = before ++ e :: after ∧
        (∀ x ∈ before, ∃ f, Function.ofEntry x = .ok f) ∧ Function.ofEntry e = .error fault) ∧
    (∀ e f, Function.ofEntry e = .ok f ↔ Function.Describes e f) ∧
    ∀ table, Function.readDocument d = .ok table → ∃ made,
      List.Forall₂ (fun e f => Function.ofEntry e = .ok f) entries made ∧
      table.map Function.name = (made.map Function.name).eraseDups ∧
      ∀ f ∈ table, f.name ≠ [] ∧
        ∃ before after, made = before ++ f :: after ∧ ∀ g ∈ after, g.name ≠ f.name := by
  rw [Function.readDocument_list textual parsed]
  refine ⟨?_, fun fault => ?_, fun e f => Function.ofEntry_eq_ok, fun table read => ?_⟩
  · rw [← Outcome.mapM_succeeds_iff]
    simp only [Function.ofEntries_eq_ok, Outcome.mapM_eq_ok]
    exact ⟨fun ⟨_, made, each, _⟩ => ⟨made, each⟩, fun ⟨made, each⟩ => ⟨_, made, each, rfl⟩⟩
  · rw [Function.ofEntries_eq_error, Outcome.mapM_eq_error]
  · obtain ⟨made, each, rfl⟩ := Function.ofEntries_eq_ok.mp read
    obtain ⟨names, _, last⟩ := Function.tabulates_foldl made
    have named : ∀ f ∈ made, f.name ≠ [] :=
      Outcome.forall_of_mapM (Outcome.mapM_eq_ok.mpr each) fun _ _ entry =>
        (Function.ofEntry_eq_ok.mp entry).named
    refine ⟨made, each, names, fun f held => ⟨?_, last f held⟩⟩
    obtain ⟨before, after, rfl, _⟩ := last f held
    exact named f (List.mem_append_right _ List.mem_cons_self)

/-- Of the two functions with one name the second one is kept, in the place of the first. A bad
entry is not made good by a later one of its name. -/
theorem abi_document_table_repeated :
    (∃ t, Json.parse t = .ok (.list [.dict [("name", .text "f")], .dict [("name", .text "g")],
        .dict [("name", .text "f"), ("inputs", .list [.dict [("type", .text "address")]])]]) ∧
      ∃ table, Function.readDocument (.text t) = .ok table ∧ table.map Function.name = ["f", "g"] ∧
        ∀ f ∈ table, f.name = "f" → f.inputs = [.address]) ∧
    ∃ t, Json.parse t = .ok (.list [.dict [("name", .text "f"), ("type", .text "event")],
        .dict [("name", .text "f")]]) ∧
      Function.readDocument (.text t) = .error (.abi (.notFunction (.text "event"))) := by
  constructor
  · obtain ⟨t, parsed⟩ : ∃ t, Json.parse t = .ok (.list [.dict [("name", .text "f")],
        .dict [("name", .text "g")],
        .dict [("name", .text "f"), ("inputs", .list [.dict [("type", .text "address")]])]]) :=
      ⟨"[\x7b\"name\":\"f\"\x7d,\x7b\"name\":\"g\"\x7d,
        \x7b\"name\":\"f\",\"inputs\":[\x7b\"type\":\"address\"\x7d]\x7d]", by cbv⟩
    obtain ⟨succeeds, _, _, tabulated⟩ := abi_document_table (d := .text t) rfl parsed
    obtain ⟨table, read⟩ := succeeds.mpr <| by
      simp only [List.forall_mem_cons]
      exact ⟨⟨_, rfl⟩, ⟨_, rfl⟩, ⟨_, rfl⟩, List.forall_mem_nil _⟩
    obtain ⟨made, each, names, last⟩ := tabulated table read
    cases each with | cons first each =>
    cases each with | cons second each =>
    cases each with | cons third each =>
    cases each
    cases first
    cases second
    cases third
    refine ⟨t, parsed, table, read, names, fun h held named => ?_⟩
    obtain ⟨_, before, after, split, later⟩ := last h held
    rcases before with _ | ⟨_, _ | ⟨_, _ | ⟨_, before⟩⟩⟩
    · cases split
      exact (later _ (.tail _ List.mem_cons_self) rfl).elim
    · cases split
      cases named
    · cases split
      rfl
    · cases before <;> cases split
  · obtain ⟨t, parsed⟩ : ∃ t, Json.parse t = .ok (.list [
        .dict [("name", .text "f"), ("type", .text "event")], .dict [("name", .text "f")]]) :=
      ⟨"[\x7b\"name\":\"f\",\"type\":\"event\"\x7d,\x7b\"name\":\"f\"\x7d]", by cbv⟩
    obtain ⟨_, fails, _⟩ := abi_document_table (d := .text t) rfl parsed
    exact ⟨t, parsed, (fails _).mpr ⟨[], _, _, rfl, List.forall_mem_nil _, rfl⟩⟩

end SeededDraws
