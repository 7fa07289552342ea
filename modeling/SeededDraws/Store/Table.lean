import SeededDraws.Bytes
/-!
# Tables

Finite maps from byte strings, kept in ascending order of their keys. Insertion walks the entries
once and replaces an equal key, so the two lookup laws need no hypothesis on the order.
-/

namespace SeededDraws

variable {α : Type}

structure Table (α : Type) where
  entries : List (Bytes × α)
  ascending : entries.Pairwise fun e f => e.1 < f.1

namespace Table

def empty : Table α := ⟨[], .nil⟩

instance : Inhabited (Table α) := ⟨empty⟩

def find? (t : Table α) (key : Bytes) : Option α := t.entries.lookup key

def keys (t : Table α) : List Bytes := t.entries.map (·.1)

def contains (t : Table α) (key : Bytes) : Bool := (t.find? key).isSome

def put (key : Bytes) (x : α) : List (Bytes × α) → List (Bytes × α)
  | [] => [(key, x)]
  | e :: rest =>
    if key = e.1 then (key, x) :: rest
    else if key < e.1 then (key, x) :: e :: rest
    else e :: put key x rest

theorem mem_put {key : Bytes} {x : α} {e : Bytes × α} {l : List (Bytes × α)}
    (h : e ∈ put key x l) : e = (key, x) ∨ e ∈ l := by
  induction l with
  | nil => simpa [put] using h
  | cons f rest ih =>
    rw [put] at h
    split at h <;> try split at h
    all_goals grind

theorem lt_of_not_lt {a b : Bytes} (hne : a ≠ b) (h : ¬ a < b) : b < a :=
  (List.le_iff_lt_or_eq.mp (List.not_lt.mp h)).resolve_right fun e => hne e.symm

theorem put_ascending {key : Bytes} {x : α} {l : List (Bytes × α)}
    (h : l.Pairwise fun e f => e.1 < f.1) : (put key x l).Pairwise fun e f => e.1 < f.1 := by
  induction l with
  | nil => simp [put]
  | cons e rest ih =>
    obtain ⟨first, tail⟩ := List.pairwise_cons.mp h
    rw [put]
    split
    · next he => exact List.pairwise_cons.mpr ⟨fun f hf => he ▸ first f hf, tail⟩
    · next hne =>
      split
      · next hlt =>
        refine List.pairwise_cons.mpr ⟨fun f hf => ?_, h⟩
        rcases List.mem_cons.mp hf with rfl | hf
        · exact hlt
        · exact List.lt_trans hlt (first f hf)
      · next hlt =>
        refine List.pairwise_cons.mpr ⟨fun f hf => ?_, ih tail⟩
        rcases mem_put hf with rfl | hf
        · exact lt_of_not_lt hne hlt
        · exact first f hf

def insert (t : Table α) (key : Bytes) (x : α) : Table α :=
  ⟨put key x t.entries, put_ascending t.ascending⟩

def erase (t : Table α) (key : Bytes) : Table α :=
  ⟨t.entries.filter (·.1 ≠ key), t.ascending.filter _⟩

@[simp] theorem find?_empty (key : Bytes) : (empty : Table α).find? key = none := rfl

@[simp] theorem find?_insert_self (t : Table α) (key : Bytes) (x : α) :
    (t.insert key x).find? key = some x := by
  obtain ⟨l, _⟩ := t
  simp only [insert, find?]
  induction l with
  | nil => simp [put]
  | cons e rest ih => grind [put]

theorem find?_insert_of_ne (t : Table α) {key other : Bytes} (x : α) (h : other ≠ key) :
    (t.insert key x).find? other = t.find? other := by
  obtain ⟨l, _⟩ := t
  simp only [insert, find?]
  induction l with
  | nil => simp [put, List.lookup_cons, beq_false_of_ne h]
  | cons e rest ih => grind [put]

@[simp] theorem find?_erase_self (t : Table α) (key : Bytes) : (t.erase key).find? key = none := by
  obtain ⟨l, _⟩ := t
  simp only [erase, find?]
  induction l with
  | nil => rfl
  | cons e rest ih => grind

theorem find?_erase_of_ne (t : Table α) {key other : Bytes} (h : other ≠ key) :
    (t.erase key).find? other = t.find? other := by
  obtain ⟨l, _⟩ := t
  simp only [erase, find?]
  induction l with
  | nil => rfl
  | cons e rest ih => grind

end Table

end SeededDraws
