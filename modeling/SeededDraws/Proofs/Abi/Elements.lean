import Mathlib.Data.List.Forall2
import SeededDraws.Proofs.Abi.Response
import SeededDraws.Proofs.Numeral
/-!
# Elements of a response

A response takes integers, and texts that spell them in hexadecimal. Whatever else is given is an
encoding failure, but for a text that has the mark of a hexadecimal numeral and is none: the fault
of the reader of numerals then leaves the codec as it is.
-/

namespace SeededDraws

namespace Text

/-- Behind white space the text starts with 0x. -/
def IsMarked (t : Text) : Prop :=
  ∃ before mark rest, t.faces = before ++ '0' :: mark :: rest ∧ (mark = 'x' ∨ mark = 'X') ∧
    ∀ c ∈ before, isBlank c = true

/-- A mark and digits of any script, with single underscores in front of digits and with white space
around. -/
def SpellsHex (t : Text) (n : Nat) : Prop :=
  ∃ before mark body after, t.faces = before ++ '0' :: mark :: body ++ after ∧
    (mark = 'x' ∨ mark = 'X') ∧ (∀ c ∈ before ++ after, isBlank c = true) ∧ Numeral.HexBody body n

theorem faces_strip (t : Text) : t.strip.faces = trimBy isBlank t.faces :=
  trimBy_map Glyph.face isBlank t

theorem hasMarker_iff {cs : List Char} :
    hasMarker cs = true ↔ ∃ mark rest, cs = '0' :: mark :: rest ∧ (mark = 'x' ∨ mark = 'X') := by
  constructor
  · intro has
    rw [hasMarker.eq_def] at has
    split at has
    · next rest => exact ⟨'x', rest, rfl, .inl rfl⟩
    · next rest => exact ⟨'X', rest, rfl, .inr rfl⟩
    · cases has
  · rintro ⟨mark, rest, rfl, rfl | rfl⟩ <;> rfl

theorem mark_not_blank {mark : Char} (marked : mark = 'x' ∨ mark = 'X') :
    ∀ c ∈ ['0', mark], isBlank c = false := by
  rcases marked with rfl | rfl <;> simp [isBlank]

theorem hasMarker_strip (t : Text) : hasMarker t.strip.faces = true ↔ t.IsMarked := by
  rw [hasMarker_iff, faces_strip]
  constructor
  · rintro ⟨mark, rest, trimmed, marked⟩
    obtain ⟨before, after, framed, first, _⟩ := trimBy_split isBlank t.faces
    refine ⟨before, mark, rest ++ after, ?_, marked, first⟩
    rw [trimmed, List.append_assoc] at framed
    exact framed
  · rintro ⟨before, mark, rest, faces, marked, first⟩
    have kept := mark_not_blank marked
    obtain ⟨rest', trimmed⟩ := trimBy_kept rest first (List.cons_ne_nil _ _) kept
    refine ⟨mark, rest', ?_, marked⟩
    rw [List.append_assoc] at trimmed
    rw [faces]
    exact trimmed

theorem spellsHex_iff {t : Text} {n : Nat} :
    t.SpellsHex n ↔ ∃ mark body, t.strip.faces = '0' :: mark :: body ∧
      (mark = 'x' ∨ mark = 'X') ∧ Numeral.HexBody body n := by
  rw [faces_strip]
  constructor
  · rintro ⟨before, mark, body, after, faces, marked, around, spelled⟩
    refine ⟨mark, body, ?_, marked, spelled⟩
    rw [faces]
    apply trimBy_framed
    · exact fun c held => around c (List.mem_append_left _ held)
    · intro c held
      rcases List.mem_cons.mp held with rfl | held
      · decide
      · rcases List.mem_cons.mp held with rfl | held
        · exact mark_not_blank marked _ (by simp)
        · exact (Numeral.hexBody_iff.mp spelled).not_blank c held
    · exact fun c held => around c (List.mem_append_right _ held)
  · rintro ⟨mark, body, trimmed, marked, spelled⟩
    obtain ⟨before, after, framed, first, last⟩ := trimBy_split isBlank t.faces
    rw [trimmed] at framed
    refine ⟨before, mark, body, after, framed, marked, ?_, spelled⟩
    intro c held
    rcases List.mem_append.mp held with front | back
    · exact first c front
    · exact last c back

end Text

namespace Numeral

/-- Behind the mark the reader takes the rest of a trimmed text, and nothing of it is dropped. -/
theorem read?_marked {t : Text} {mark : Char} {body : List Char}
    (trimmed : t.strip.faces = '0' :: mark :: body) (marked : mark = 'x' ∨ mark = 'X') :
    read? .hexadecimal t.strip.faces =
      (marked? 16 (body.map plain)).map fun n => (n : Int) := by
  have part : ∀ c, (isSpacing ∘ plain) c = true → isBlank c = true := fun c =>
    blank_of_plain_spacing
  have whole : trimBy isSpacing (t.strip.faces.map plain) = t.strip.faces.map plain := by
    rw [← trimBy_map, Text.faces_strip, trimBy_trimBy part]
  rw [read?, whole, trimmed, List.map_cons, List.map_cons]
  rcases marked with rfl | rfl <;> rfl

end Numeral

/-! ### One element -/

namespace Uint

/-- The integers that are written for an element, and the texts that spell one. -/
inductive Denotes : Datum → Int → Prop
  | int (n : Int) : Denotes (.int n) n
  | text {t : Text} {n : Nat} (spelled : t.SpellsHex n) : Denotes (.text t) n

theorem denotes_text {t : Text} {n : Int} (denotes : Denotes (.text t) n) :
    ∃ k : Nat, n = k ∧ t.SpellsHex k := by
  cases denotes with
  | text spelled => exact ⟨_, rfl, spelled⟩

/-- An integer in range, as itself or spelled. -/
def Fits (d : Datum) : Prop := ∃ n, Denotes d n ∧ 0 ≤ n ∧ n < Nat.pow 2 256

/-- A text with a mark that is no numeral. -/
def Stray (t : Text) : Prop := t.IsMarked ∧ ∀ n, ¬t.SpellsHex n

theorem ofText_cases (bits : Datum) (t : Text) :
    (∃ n : Nat, t.SpellsHex n ∧ ofText bits t = check bits n) ∨
      (¬t.IsMarked ∧ ofText bits t = .error (.misfit .unmarkedText)) ∨
      (Stray t ∧ ofText bits t = .error (.bare .value)) := by
  by_cases marked : t.IsMarked
  · have has := (Text.hasMarker_strip t).mpr marked
    obtain ⟨mark, body, trimmed, letter⟩ := Text.hasMarker_iff.mp has
    have read := Numeral.read?_marked trimmed letter
    rw [ofText, if_pos has, read]
    cases found : Numeral.marked? 16 (body.map Numeral.plain) with
    | some n =>
      have spelled : t.SpellsHex n :=
        Text.spellsHex_iff.mpr ⟨mark, body, trimmed, letter, Numeral.hexBody_iff_marked?.mpr found⟩
      exact .inl ⟨n, spelled, rfl⟩
    | none =>
      refine .inr (.inr ⟨⟨marked, ?_⟩, rfl⟩)
      intro n spelled
      obtain ⟨mark', body', trimmed', _, numeral⟩ := Text.spellsHex_iff.mp spelled
      rw [trimmed] at trimmed'
      cases trimmed'
      rw [Numeral.hexBody_iff_marked?.mp numeral] at found
      cases found
  · have unmarked : ¬hasMarker t.strip.faces = true := marked ∘ (Text.hasMarker_strip t).mp
    refine .inr (.inl ⟨marked, ?_⟩)
    rw [ofText, if_neg unmarked]

theorem isMarked_of_spellsHex {t : Text} {n : Nat} (spelled : t.SpellsHex n) : t.IsMarked := by
  obtain ⟨before, mark, body, after, faces, marked, around, _⟩ := spelled
  refine ⟨before, mark, body ++ after, ?_, marked, ?_⟩
  · rw [faces, List.append_assoc]
    rfl
  · exact fun c held => around c (List.mem_append_left _ held)

/-- A text spells one number at most. -/
theorem spellsHex_unique {t : Text} {n m : Nat} (spelled : t.SpellsHex n)
    (spelled' : t.SpellsHex m) : n = m := by
  obtain ⟨mark, body, trimmed, _, numeral⟩ := Text.spellsHex_iff.mp spelled
  obtain ⟨mark', body', trimmed', _, numeral'⟩ := Text.spellsHex_iff.mp spelled'
  rw [trimmed] at trimmed'
  cases trimmed'
  rw [Numeral.hexBody_iff_marked?] at numeral numeral'
  exact Option.some.inj (numeral.symm.trans numeral')

theorem not_fits_of_stray {t : Text} (stray : Stray t) : ¬Fits (.text t) := by
  rintro ⟨_, denotes, _⟩
  obtain ⟨n, _, spelled⟩ := denotes_text denotes
  exact stray.2 n spelled

end Uint

/-- An element is a word, a misfit or a stray text, and only one of the three. -/
theorem encodeUint256_cases (d : Datum) :
    (∃ n : Nat, Uint.Denotes d n ∧ n < Nat.pow 2 256 ∧
        encodeUint256 d = .ok (Bytes.numeral wordSize n)) ∨
      (¬Uint.Fits d ∧ (∀ t, d = .text t → ¬Uint.Stray t) ∧
        ∃ cause, encodeUint256 d = .error (.misfit cause)) ∨
      (¬Uint.Fits d ∧ (∃ t, d = .text t ∧ Uint.Stray t) ∧
        encodeUint256 d = .error (.bare .value)) := by
  cases d with
  | int n =>
    rw [encodeUint256_int]
    by_cases bounds : 0 ≤ n ∧ n.toNat < Nat.pow 2 256
    · rw [if_pos bounds]
      refine .inl ⟨n.toNat, ?_, bounds.2, rfl⟩
      rw [Int.toNat_of_nonneg bounds.1]
      exact .int n
    · rw [if_neg bounds]
      refine .inr (.inl ⟨?_, nofun, _, rfl⟩)
      rintro ⟨_, ⟨⟩, nonneg, small⟩
      apply bounds
      exact ⟨nonneg, by omega⟩
  | text t =>
    have unfold : encodeUint256 (.text t) = Uint.ofText (.ofNat 256) t >>= fun n =>
        .ok (Bytes.numeral wordSize n) := rfl
    rcases Uint.ofText_cases (.ofNat 256) t with
      ⟨n, spelled, read⟩ | ⟨unmarked, read⟩ | ⟨stray, read⟩
    · rw [unfold, read, Uint.check_ofNat]
      by_cases small : n < Nat.pow 2 256
      · rw [if_pos ⟨Int.natCast_nonneg n, small⟩]
        exact .inl ⟨n, .text spelled, small, rfl⟩
      · rw [if_neg fun bounds => small bounds.2]
        refine .inr (.inl ⟨?_, ?_, _, rfl⟩)
        · rintro ⟨_, denotes, _, below⟩
          obtain ⟨m, rfl, spelled'⟩ := Uint.denotes_text denotes
          rw [Uint.spellsHex_unique spelled spelled'] at small
          exact small (Int.ofNat_lt.mp below)
        · rintro _ ⟨⟩ stray
          exact stray.2 n spelled
    · rw [unfold, read]
      refine .inr (.inl ⟨?_, ?_, _, rfl⟩)
      · rintro ⟨_, denotes, _⟩
        obtain ⟨m, _, spelled⟩ := Uint.denotes_text denotes
        exact unmarked (Uint.isMarked_of_spellsHex spelled)
      · rintro _ ⟨⟩ stray
        exact unmarked stray.1
    · rw [unfold, read]
      exact .inr (.inr ⟨Uint.not_fits_of_stray stray, ⟨t, rfl, stray⟩, rfl⟩)
  | _ =>
    refine .inr (.inl ⟨?_, nofun, _, rfl⟩)
    rintro ⟨_, ⟨⟩, _⟩

/-! ### Whole responses -/

namespace Words

/-- The first element that is no word decides. -/
theorem mapM_encodeUint256_cases (items : List Datum) :
    (∃ values : List Nat, List.Forall₂ (fun d (n : Nat) => Uint.Denotes d n) items values ∧
        (∀ n ∈ values, n < Nat.pow 2 256) ∧
        items.mapM encodeUint256 = .ok (values.map (Bytes.numeral wordSize))) ∨
      ∃ good bad rest, items = good ++ bad :: rest ∧ (∀ d ∈ good, Uint.Fits d) ∧ ¬Uint.Fits bad ∧
        ((∀ t, bad = .text t → ¬Uint.Stray t) ∧
            (∃ cause, items.mapM encodeUint256 = .error (.misfit cause)) ∨
          (∃ t, bad = .text t ∧ Uint.Stray t) ∧
            items.mapM encodeUint256 = .error (.bare .value)) := by
  induction items with
  | nil => exact .inl ⟨[], .nil, nofun, rfl⟩
  | cons d rest ih =>
    rw [List.mapM_cons]
    rcases encodeUint256_cases d with
      ⟨n, denotes, small, first⟩ | ⟨unfit, sober, cause, first⟩ | ⟨unfit, stray, first⟩
    · have fits : Uint.Fits d := ⟨n, denotes, Int.natCast_nonneg n, Int.ofNat_lt.mpr small⟩
      rw [first]
      rcases ih with ⟨values, denoted, fit, later⟩ | ⟨good, bad, others, split, before, unfit, later⟩
      · refine .inl ⟨n :: values, .cons denotes denoted, List.forall_mem_cons.mpr ⟨small, fit⟩, ?_⟩
        rw [later]
        rfl
      · refine .inr ⟨d :: good, bad, others, congrArg (d :: ·) split, ?_, unfit, ?_⟩
        · exact List.forall_mem_cons.mpr ⟨fits, before⟩
        · rcases later with ⟨sober, cause, failed⟩ | ⟨stray, failed⟩
          · exact .inl ⟨sober, cause, by rw [failed]; rfl⟩
          · exact .inr ⟨stray, by rw [failed]; rfl⟩
    · exact .inr ⟨[], d, rest, rfl, nofun, unfit, .inl ⟨sober, cause, by rw [first]; rfl⟩⟩
    · exact .inr ⟨[], d, rest, rfl, nofun, unfit, .inr ⟨stray, by rw [first]; rfl⟩⟩

/-- Two elements that do not fit, each behind elements that do, are the same. -/
theorem first_unfit {α : Type} {fits : α → Prop} {good good' rest rest' : List α} {bad bad' : α}
    (same : good ++ bad :: rest = good' ++ bad' :: rest') (before : ∀ x ∈ good, fits x)
    (before' : ∀ x ∈ good', fits x) (unfit : ¬fits bad) (unfit' : ¬fits bad') : bad = bad' := by
  rcases List.append_eq_append_iff.mp same with ⟨more, rfl, tail⟩ | ⟨more, rfl, tail⟩
  · cases more with
    | nil => exact (List.cons.inj tail).1
    | cons x more =>
      have fits : fits x := before' x (by simp)
      rw [← (List.cons.inj tail).1] at fits
      exact absurd fits unfit
  · cases more with
    | nil => exact (List.cons.inj tail).1.symm
    | cons x more =>
      have fits : fits x := before x (by simp)
      rw [← (List.cons.inj tail).1] at fits
      exact absurd fits unfit'

end Words

theorem Uint.fits_of_denoted {items : List Datum} {values : List Nat}
    (denoted : List.Forall₂ (fun d (n : Nat) => Denotes d n) items values)
    (small : ∀ n ∈ values, n < Nat.pow 2 256) : ∀ d ∈ items, Fits d := by
  induction denoted with
  | nil => exact nofun
  | @cons d n items values denotes _ ih =>
    obtain ⟨first, later⟩ := List.forall_mem_cons.mp small
    exact List.forall_mem_cons.mpr
      ⟨⟨n, denotes, Int.natCast_nonneg n, Int.ofNat_lt.mpr first⟩, ih later⟩

/-- A list is written if all its elements fit, by value, and refused with an encoding failure
otherwise. There is one other fault, and it leaves the codec exactly if the first element that does
not fit is a text with a mark and without a numeral. -/
theorem response_refused_iff (layout : Layout) (items : List Datum) :
    let encoded := layout.encodeResponse (.list items)
    ((∃ output, encoded = .ok output) ↔
      items.length < Nat.pow 2 256 ∧ ∀ d ∈ items, Uint.Fits d) ∧
    (∀ output, encoded = .ok output → ∃ values : List Nat,
      List.Forall₂ (fun d (n : Nat) => Uint.Denotes d n) items values ∧
        (∀ n ∈ values, n < Nat.pow 2 256) ∧ output = layout.response values) ∧
    (∀ fault, encoded = .error fault →
      (∃ reason, fault = .failure (.encodingFailure (.text reason))) ∨ fault = .bare .value) ∧
    (encoded = .error (.bare .value) ↔
      items.length < Nat.pow 2 256 ∧ ∃ good t rest, items = good ++ .text t :: rest ∧
        (∀ d ∈ good, Uint.Fits d) ∧ Uint.Stray t) := by
  intro encoded
  by_cases short : items.length < Nat.pow 2 256
  · have written := layout.encodeResponse_list short
    rcases Words.mapM_encodeUint256_cases items with
      ⟨values, denoted, small, words⟩ | ⟨good, bad, rest, split, before, unfit, failed⟩
    · have count : items.length = values.length := denoted.length_eq
      have encoded_eq : encoded = .ok (layout.response values) := by
        rw [show encoded = _ from written, words]
        cases layout <;> simp only [Layout.response, Words.ofValues, count]
      have all := Uint.fits_of_denoted denoted small
      rw [encoded_eq]
      refine ⟨⟨fun _ => ⟨short, all⟩, fun _ => ⟨_, rfl⟩⟩, ?_, by simp, ⟨by simp, ?_⟩⟩
      · rintro output ⟨⟩
        exact ⟨values, denoted, small, rfl⟩
      · rintro ⟨_, good, t, rest, split, _, stray⟩
        exact absurd (all (.text t) (by rw [split]; simp)) (Uint.not_fits_of_stray stray)
    · have some : ¬∀ d ∈ items, Uint.Fits d := fun all => unfit (all bad (by rw [split]; simp))
      rcases failed with ⟨sober, cause, words⟩ | ⟨⟨t, text, stray⟩, words⟩
      · have encoded_eq : encoded = .error (.failure (.encodingFailure (.text cause.message))) := by
          rw [show encoded = _ from written, words]
        rw [encoded_eq]
        refine ⟨⟨by simp, fun fit => absurd fit.2 some⟩, by simp, ?_, ⟨by simp, ?_⟩⟩
        · rintro fault ⟨⟩
          exact .inl ⟨_, rfl⟩
        · rintro ⟨_, good', t, rest', split', before', stray⟩
          have same := Words.first_unfit (split.symm.trans split') before before' unfit
            (Uint.not_fits_of_stray stray)
          exact absurd stray (sober t same)
      · have encoded_eq : encoded = .error (.bare .value) := by
          rw [show encoded = _ from written, words]
        rw [encoded_eq]
        refine ⟨⟨by simp, fun fit => absurd fit.2 some⟩, by simp, ?_, ⟨fun _ => ?_, fun _ => rfl⟩⟩
        · rintro fault ⟨⟩
          exact .inr rfl
        · exact ⟨short, good, t, rest, text ▸ split, before, stray⟩
  · rw [show encoded = _ from layout.encodeResponse_long short]
    refine ⟨⟨by simp, fun fit => absurd fit.1 short⟩, by simp, ?_, ⟨by simp, fun stray => ?_⟩⟩
    · rintro fault ⟨⟩
      exact .inl ⟨_, rfl⟩
    · exact absurd stray.1 short

/-- A mark without a numeral is neither written nor an encoding failure. -/
theorem response_stray_text :
    let encoded := Layout.typed.encodeResponse (.list [.text "0xzz"])
    encoded = .error (.bare .value) ∧ (∀ output, encoded ≠ .ok output) ∧
      ∀ cause, encoded ≠ .error (.failure cause) := by
  intro encoded
  have escaped : encoded = .error (.bare .value) := by rfl
  rw [escaped]
  exact ⟨rfl, nofun, nofun⟩

end SeededDraws
