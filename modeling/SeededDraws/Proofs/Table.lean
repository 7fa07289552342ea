import SeededDraws.Store.Table
/-!
# Laws of tables

The entries of a table stand in order, so its look-ups settle it: two tables with the same look-ups
are equal. From this follow the laws by which a change of one key is taken back.
-/

namespace SeededDraws.Table

variable {α : Type}

theorem find?_insert (t : Table α) (key other : Bytes) (x : α) :
    (t.insert key x).find? other = if other = key then some x else t.find? other := by
  by_cases h : other = key
  · subst h
    simp
  · simp [h, find?_insert_of_ne t x h]

theorem find?_erase (t : Table α) (key other : Bytes) :
    (t.erase key).find? other = if other = key then none else t.find? other := by
  by_cases h : other = key
  · subst h
    simp
  · simp [h, find?_erase_of_ne t h]

theorem lookup_eq_none_of_below {l : List (Bytes × α)} {key : Bytes}
    (below : ∀ e ∈ l, key < e.1) : l.lookup key = none := by
  induction l with
  | nil => rfl
  | cons e rest ih =>
    have hne : key ≠ e.1 := fun h => List.lt_irrefl key (h ▸ below e List.mem_cons_self)
    rw [List.lookup_cons, beq_false_of_ne hne]
    exact ih fun f hf => below f (List.mem_cons_of_mem e hf)

/-- Behind a head that stands below all entries, no look-up finds the head's key again. -/
theorem lookup_tail {e : Bytes × α} {rest : List (Bytes × α)} (first : ∀ f ∈ rest, e.1 < f.1)
    (key : Bytes) :
    rest.lookup key = if key = e.1 then none else (e :: rest).lookup key := by
  by_cases h : key = e.1
  · rw [if_pos h, h]
    exact lookup_eq_none_of_below first
  · rw [if_neg h, List.lookup_cons, beq_false_of_ne h]

theorem entries_eq_of_lookup {l m : List (Bytes × α)} (hl : l.Pairwise fun e f => e.1 < f.1)
    (hm : m.Pairwise fun e f => e.1 < f.1) (same : ∀ key, l.lookup key = m.lookup key) :
    l = m := by
  induction l generalizing m with
  | nil =>
    cases m with
    | nil => rfl
    | cons f rest =>
      have found := same f.1
      rw [List.lookup_cons, beq_self_eq_true] at found
      cases found
  | cons e rest ih =>
    obtain ⟨first, tail⟩ := List.pairwise_cons.mp hl
    cases m with
    | nil =>
      have found := same e.1
      rw [List.lookup_cons, beq_self_eq_true] at found
      cases found
    | cons f others =>
      obtain ⟨first', tail'⟩ := List.pairwise_cons.mp hm
      -- neither head is missing in the other list, so neither can be the smaller one
      have hkey : e.1 = f.1 := by
        by_cases hne : e.1 = f.1
        · exact hne
        · have found := same e.1
          have found' := same f.1
          rw [List.lookup_cons, beq_self_eq_true, List.lookup_cons, beq_false_of_ne hne] at found
          rw [List.lookup_cons, beq_false_of_ne (Ne.symm hne), List.lookup_cons,
            beq_self_eq_true] at found'
          by_cases hlt : e.1 < f.1
          · have absent := lookup_eq_none_of_below fun g hg => List.lt_trans hlt (first' g hg)
            rw [absent] at found
            cases found
          · have hgt := lt_of_not_lt hne hlt
            have absent := lookup_eq_none_of_below fun g hg => List.lt_trans hgt (first g hg)
            rw [absent] at found'
            cases found'
      have hvalue : e.2 = f.2 := by
        have found := same e.1
        rw [List.lookup_cons, beq_self_eq_true, hkey, List.lookup_cons, beq_self_eq_true] at found
        exact Option.some.inj found
      have hrest : rest = others := by
        apply ih tail tail'
        intro key
        rw [lookup_tail first, lookup_tail first', same key, hkey]
      rw [Prod.ext hkey hvalue, hrest]

theorem ext_find? {t u : Table α} (same : ∀ key, t.find? key = u.find? key) : t = u := by
  obtain ⟨l, hl⟩ := t
  obtain ⟨m, hm⟩ := u
  have h : l = m := entries_eq_of_lookup hl hm same
  subst h
  rfl

/-- Puts back what stood under a key, be it nothing. -/
def restore (t : Table α) (key : Bytes) : Option α → Table α
  | none => t.erase key
  | some x => t.insert key x

theorem find?_restore (t : Table α) (key other : Bytes) (before : Option α) :
    (t.restore key before).find? other = if other = key then before else t.find? other := by
  cases before with
  | none => exact find?_erase t key other
  | some x => exact find?_insert t key other x

/-- Restoring what is there changes nothing. -/
theorem restore_find? (t : Table α) (key : Bytes) : t.restore key (t.find? key) = t := by
  apply ext_find?
  intro other
  rw [find?_restore]
  split
  · next h => rw [h]
  · rfl

/-- Restoring what an insertion replaced takes the insertion back. -/
theorem restore_insert (t : Table α) (key : Bytes) (x : α) :
    (t.insert key x).restore key (t.find? key) = t := by
  apply ext_find?
  intro other
  rw [find?_restore, find?_insert]
  split
  · next h => rw [h]
  · rfl

end SeededDraws.Table
