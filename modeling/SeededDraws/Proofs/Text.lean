import Mathlib.Data.List.TakeWhile
import SeededDraws.Proofs.Bytes
import SeededDraws.Text.Hex
/-!
# Trimmed texts and hexadecimal digits

Trimming splits a text into what is kept and what stands around it, and digits in pairs read as the
bytes of their number.
-/

namespace SeededDraws

section Trim

variable {α : Type} {drop : α → Bool}

theorem trimBy_split (drop : α → Bool) (items : List α) :
    ∃ before after, items = before ++ trimBy drop items ++ after ∧
      (∀ x ∈ before, drop x = true) ∧ ∀ x ∈ after, drop x = true := by
  have back : items.dropWhile drop =
      trimBy drop items ++ ((items.dropWhile drop).reverse.takeWhile drop).reverse := by
    rw [trimBy, ← List.reverse_append, List.takeWhile_append_dropWhile, List.reverse_reverse]
  refine ⟨items.takeWhile drop, ((items.dropWhile drop).reverse.takeWhile drop).reverse, ?_, ?_, ?_⟩
  · rw [List.append_assoc, ← back, List.takeWhile_append_dropWhile]
  · exact fun x mem => List.mem_takeWhile_imp mem
  · exact fun x mem => List.mem_takeWhile_imp (List.mem_reverse.mp mem)

theorem dropWhile_of_kept {items : List α} (keep : ∀ x ∈ items, drop x = false) :
    items.dropWhile drop = items := by
  refine List.dropWhile_eq_self_iff.mpr fun _ => ?_
  rw [keep _ (List.getElem_mem _)]
  exact Bool.false_ne_true

/-- What is kept comes back, whatever is dropped around it. -/
theorem trimBy_framed {before kept after : List α} (first : ∀ x ∈ before, drop x = true)
    (keep : ∀ x ∈ kept, drop x = false) (last : ∀ x ∈ after, drop x = true) :
    trimBy drop (before ++ kept ++ after) = kept := by
  have front : (before ++ kept ++ after).dropWhile drop = (kept ++ after).dropWhile drop := by
    rw [List.append_assoc, List.dropWhile_append_of_pos first]
  have back : (kept ++ after).reverse.dropWhile drop = kept.reverse := by
    rw [List.reverse_append, List.dropWhile_append_of_pos fun x mem => last x (by simpa using mem)]
    exact dropWhile_of_kept fun x mem => keep x (by simpa using mem)
  rw [trimBy, front]
  cases kept with
  | nil =>
    rw [List.nil_append, List.dropWhile_eq_nil_iff.mpr last]
    rfl
  | cons x kept =>
    have stays : (x :: kept ++ after).dropWhile drop = x :: kept ++ after := by
      rw [List.cons_append, List.dropWhile_cons_of_neg]
      rw [keep x List.mem_cons_self]
      exact Bool.false_ne_true
    rw [stays, back, List.reverse_reverse]

theorem trimBy_map {β : Type} (f : α → β) (drop : β → Bool) (items : List α) :
    (trimBy (drop ∘ f) items).map f = trimBy drop (items.map f) := by
  rw [trimBy, trimBy, List.dropWhile_map, ← List.map_reverse, List.dropWhile_map, List.map_reverse]

/-- Behind something that is kept only the end can be dropped. -/
theorem trimBy_kept {before kept : List α} (rest : List α) (first : ∀ x ∈ before, drop x = true)
    (some : kept ≠ []) (keep : ∀ x ∈ kept, drop x = false) :
    ∃ rest', trimBy drop (before ++ kept ++ rest) = kept ++ rest' := by
  have front : (before ++ kept ++ rest).dropWhile drop = kept ++ rest := by
    rw [List.append_assoc, List.dropWhile_append_of_pos first]
    obtain ⟨x, kept, rfl⟩ := List.exists_cons_of_ne_nil some
    rw [List.cons_append, List.dropWhile_cons_of_neg]
    rw [keep x List.mem_cons_self]
    exact Bool.false_ne_true
  have back : kept.reverse.dropWhile drop = kept.reverse :=
    dropWhile_of_kept fun x mem => keep x (by simpa using mem)
  rw [trimBy, front, List.reverse_append, List.dropWhile_append, back]
  split
  · exact ⟨[], by simp⟩
  · exact ⟨(rest.reverse.dropWhile drop).reverse, by simp⟩

/-- What was trimmed is not trimmed any further by a part of what was dropped. -/
theorem trimBy_trimBy {less : α → Bool} (part : ∀ x, less x = true → drop x = true)
    (items : List α) : trimBy less (trimBy drop items) = trimBy drop items := by
  have settled : ∀ l : List α, (l.dropWhile drop).dropWhile less = l.dropWhile drop := by
    intro l
    refine List.dropWhile_eq_self_iff.mpr fun some dropped => ?_
    have kept := List.dropWhile_get_zero_not drop l some
    exact kept (part _ dropped)
  have last : (trimBy drop items).reverse.dropWhile less = (trimBy drop items).reverse := by
    rw [trimBy, List.reverse_reverse]
    exact settled _
  have first : (trimBy drop items).dropWhile less = trimBy drop items := by
    cases trimmed : trimBy drop items with
    | nil => rfl
    | cons x kept =>
      obtain ⟨tail, front⟩ : ∃ tail, items.dropWhile drop = x :: tail := by
        refine ⟨kept ++ ((items.dropWhile drop).reverse.takeWhile drop).reverse, ?_⟩
        rw [← List.cons_append, ← trimmed, trimBy, ← List.reverse_append,
          List.takeWhile_append_dropWhile, List.reverse_reverse]
      have settled := settled items
      rw [front] at settled
      rw [List.dropWhile_cons] at settled ⊢
      split at settled
      · next dropped =>
        have shorter := congrArg List.length settled
        have sublist := (List.dropWhile_sublist (p := less) (l := tail)).length_le
        simp only [List.length_cons] at shorter
        omega
      · next kept => rw [if_neg kept]
  rw [trimBy, first, last, List.reverse_reverse]

end Trim

namespace Hex

theorem value?_eq_some {c : Char} {v : Nat} (digit : value? c = some v) :
    (48 ≤ c.toNat ∧ c.toNat ≤ 57 ∧ v = c.toNat - 48) ∨
      (97 ≤ c.toNat ∧ c.toNat ≤ 102 ∧ v = c.toNat - 87) ∨
      (65 ≤ c.toNat ∧ c.toNat ≤ 70 ∧ v = c.toNat - 55) := by
  rw [value?] at digit
  split at digit
  · next range =>
    cases digit
    exact .inl ⟨range.1, range.2, rfl⟩
  · split at digit
    · next range =>
      cases digit
      exact .inr (.inl ⟨range.1, range.2, rfl⟩)
    · split at digit
      · next range =>
        cases digit
        exact .inr (.inr ⟨range.1, range.2, rfl⟩)
      · cases digit

def IsDigit (c : Char) : Prop := ∃ v, value? c = some v

/-- The number that digits spell, the highest first. -/
def number (digits : List Char) : Nat :=
  digits.foldl (fun total c => total * 16 + (value? c).getD 0) 0

theorem value_lt {c : Char} {v : Nat} (digit : value? c = some v) : v < 16 := by
  have range := value?_eq_some digit
  omega

theorem IsDigit.not_blank {c : Char} (digit : IsDigit c) : isBlank c = false := by
  obtain ⟨v, digit⟩ := digit
  have range := value?_eq_some digit
  rw [Bool.eq_false_iff]
  simp only [isBlank, ne_eq, Bool.or_eq_true, Bool.and_eq_true, beq_iff_eq, decide_eq_true_eq]
  omega

theorem IsDigit.not_spacing {c : Char} (digit : IsDigit c) : isSpacing c = false := by
  rw [Bool.eq_false_iff]
  intro spacing
  have blank := isBlank_of_isSpacing spacing
  rw [digit.not_blank] at blank
  cases blank

theorem number_replicate (count : Nat) (digits : List Char) :
    number (List.replicate count '0' ++ digits) = number digits := by
  induction count with
  | zero => rfl
  | succ count ih => exact ih

theorem isDigit_padded {digits : List Char} (all : ∀ c ∈ digits, IsDigit c) (count : Nat) :
    ∀ c ∈ List.replicate count '0' ++ digits, IsDigit c := by
  intro c mem
  rcases List.mem_append.mp mem with zero | digit
  · rw [List.eq_of_mem_replicate zero]
    exact ⟨0, by decide⟩
  · exact all c digit

theorem length_padded {digits : List Char} {width : Nat} (short : digits.length ≤ width) :
    (List.replicate (width - digits.length) '0' ++ digits).length = width := by
  rw [List.length_append, List.length_replicate, Nat.sub_add_cancel short]

/-- An even number of digits reads as half as many bytes, of the same value. -/
theorem read_digits {digits : List Char} (all : ∀ c ∈ digits, IsDigit c)
    (even : digits.length % 2 = 0) :
    ∃ b, read digits = some b ∧ digits.length = 2 * b.length ∧ b.value = number digits := by
  have general : ∀ total, ∃ b, read digits = some b ∧ digits.length = 2 * b.length ∧
      b.foldl (fun total x => total * 256 + x.toNat) total =
        digits.foldl (fun total c => total * 16 + (value? c).getD 0) total := by
    intro total
    fun_induction read digits generalizing total with
    | case1 => exact ⟨[], rfl, rfl, rfl⟩
    | case2 c spacing => cases even
    | case3 c other => cases even
    | case4 c d rest spacing ih =>
      rw [(all c List.mem_cons_self).not_spacing] at spacing
      cases spacing
    | case5 c d rest other ih =>
      obtain ⟨high, high_eq⟩ := all c List.mem_cons_self
      obtain ⟨low, low_eq⟩ := all d (.tail _ List.mem_cons_self)
      have less := value_lt high_eq
      have less' := value_lt low_eq
      have byte : (UInt8.ofNat (high * 16 + low)).toNat = high * 16 + low := by
        rw [UInt8.toNat_ofNat']
        omega
      obtain ⟨b, read_rest, sized, same⟩ := ih (fun e mem => all e (.tail _ (.tail _ mem)))
        (by simp only [List.length_cons] at even; omega) ((total * 16 + high) * 16 + low)
      refine ⟨UInt8.ofNat (high * 16 + low) :: b, ?_, ?_, ?_⟩
      · simp [high_eq, low_eq, read_rest]
      · simp only [List.length_cons, sized]
        omega
      · simp only [List.foldl_cons, byte, high_eq, low_eq, Option.getD_some]
        rw [← same]
        congr 1
        omega
  exact general 0

theorem value?_digit {n : Nat} (small : n < 16) : value? (digit n) = some n := by
  have table : ∀ n < 16, value? (digit n) = some n := by decide
  exact table n small

theorem isDigit_write (b : Bytes) : ∀ c ∈ write b, IsDigit c := by
  intro c mem
  obtain ⟨x, _, held⟩ := List.mem_flatMap.mp mem
  have byte := x.toNat_lt
  simp only [ofByte, List.mem_cons, List.not_mem_nil, or_false] at held
  rcases held with rfl | rfl
  · exact ⟨_, value?_digit (by omega)⟩
  · exact ⟨_, value?_digit (by omega)⟩

/-- What is written is read back. -/
theorem read_write (b : Bytes) : read (write b) = some b := by
  induction b with
  | nil => rfl
  | cons x b ih =>
    have byte := x.toNat_lt
    have high : value? (digit (x.toNat / 16)) = some (x.toNat / 16) := value?_digit (by omega)
    have low : value? (digit (x.toNat % 16)) = some (x.toNat % 16) := value?_digit (by omega)
    have whole : UInt8.ofNat (x.toNat / 16 * 16 + x.toNat % 16) = x := by
      rw [Nat.div_add_mod']
      exact UInt8.ofNat_toNat
    have spelled : write (x :: b) = digit (x.toNat / 16) :: digit (x.toNat % 16) :: write b := rfl
    have plain : isSpacing (digit (x.toNat / 16)) = false := IsDigit.not_spacing ⟨_, high⟩
    rw [spelled, read, if_neg (by rw [plain]; exact Bool.false_ne_true), high, low, ih]
    simp only [Option.bind_eq_bind, Option.bind_some, whole, pure]

theorem toList_marked (cs : List Char) : ("0x" ++ String.ofList cs).toList = '0' :: 'x' :: cs := by
  have digits : (String.ofList cs).toList = cs := String.toList_ofList
  rw [String.toList_append, digits]
  rfl

/-- Pairs of digits, a byte each, with ASCII white space around them. -/
inductive Pairs : List Char → Bytes → Prop
  | done : Pairs [] []
  | space {c : Char} {cs : List Char} {b : Bytes} (spacing : isSpacing c = true)
    (rest : Pairs cs b) : Pairs (c :: cs) b
  | pair {c d : Char} {high low : Nat} {cs : List Char} {b : Bytes}
    (first : value? c = some high) (second : value? d = some low) (rest : Pairs cs b) :
    Pairs (c :: d :: cs) (UInt8.ofNat (high * 16 + low) :: b)

theorem read_eq_some_iff {cs : List Char} {b : Bytes} : read cs = some b ↔ Pairs cs b := by
  constructor
  · intro found
    fun_induction read cs generalizing b with
    | case1 =>
      cases found
      exact .done
    | case2 c spacing =>
      cases found
      exact .space spacing .done
    | case3 c other => cases found
    | case4 c d rest spacing ih => exact .space spacing (ih found)
    | case5 c d rest other ih =>
      obtain ⟨high, first, found⟩ := Option.bind_eq_some_iff.mp found
      obtain ⟨low, second, found⟩ := Option.bind_eq_some_iff.mp found
      obtain ⟨tail, behind, found⟩ := Option.bind_eq_some_iff.mp found
      cases found
      exact .pair first second (ih behind)
  · intro pairs
    induction pairs with
    | done => rfl
    | @space c cs b spacing rest ih =>
      cases cs with
      | nil =>
        cases rest
        rw [read, if_pos spacing]
      | cons d cs => rw [read, if_pos spacing, ih]
    | @pair c d high low cs b first second rest ih =>
      have digit : IsDigit c := ⟨high, first⟩
      rw [read, if_neg (by rw [digit.not_spacing]; exact Bool.false_ne_true), first, second, ih]
      rfl

/-- White space between the pairs takes room that no byte comes from. -/
theorem length_of_read {cs : List Char} {b : Bytes} (found : read cs = some b) :
    2 * b.length ≤ cs.length ∧ (2 * b.length = cs.length → ∀ c ∈ cs, IsDigit c) := by
  fun_induction read cs generalizing b with
  | case1 =>
    cases found
    exact ⟨Nat.le_refl _, fun _ c mem => by cases mem⟩
  | case2 c spacing =>
    cases found
    exact ⟨Nat.zero_le _, fun same => by cases same⟩
  | case3 c other => cases found
  | case4 c d rest spacing ih =>
    obtain ⟨fits, _⟩ := ih found
    refine ⟨Nat.le_succ_of_le fits, fun same => ?_⟩
    simp only [List.length_cons] at fits same
    omega
  | case5 c d rest other ih =>
    obtain ⟨high, high_eq, found⟩ := Option.bind_eq_some_iff.mp found
    obtain ⟨low, low_eq, found⟩ := Option.bind_eq_some_iff.mp found
    obtain ⟨tail, tail_eq, found⟩ := Option.bind_eq_some_iff.mp found
    cases found
    obtain ⟨fits, digits⟩ := ih tail_eq
    simp only [List.length_cons]
    refine ⟨by omega, fun same e mem => ?_⟩
    rcases List.mem_cons.mp mem with rfl | mem
    · exact ⟨high, high_eq⟩
    · rcases List.mem_cons.mp mem with rfl | mem
      · exact ⟨low, low_eq⟩
      · exact digits (by omega) e mem

end Hex

end SeededDraws
