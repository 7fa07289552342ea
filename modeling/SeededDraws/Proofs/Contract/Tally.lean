import SeededDraws.Proofs.Contract.Counting
import SeededDraws.Proofs.Histogram
/-!
# Metrics as numbers

Each result is counted once, under a label, with the values of its output and the gas that it takes.
As long as doubles can hold all that there is to count, the metrics are the counts and sums of these
numbers, without rounding.
-/

namespace SeededDraws

/-! ### Labels -/

namespace Label

/-- A code that names a label in lower case is counted under it. -/
theorem ofText_of_lower {code : Text} {label : Label}
    (named : code.lower.string? = some label.name) : ofText code = label := by
  rw [ofText, named]
  cases label <;> rfl

/-- Only the label of errors takes codes that do not name it. -/
theorem ofText_eq_iff {code : Text} {label : Label} (other : label ≠ .error) :
    ofText code = label ↔ code.lower.string? = some label.name := by
  constructor
  · intro counted
    rw [ofText] at counted
    cases found : all.find? fun l => code.lower.string? == some l.name with
    | none =>
      rw [found] at counted
      exact absurd counted.symm other
    | some l =>
      rw [found] at counted
      obtain rfl : l = label := counted
      have named := List.find?_some found
      exact eq_of_beq named
  · exact ofText_of_lower

theorem mem_all (label : Label) : label ∈ all := by cases label <;> decide

theorem total_all_succ (amount : Label → Nat) (label : Label) :
    total (fun l => amount l + if label = l then 1 else 0) all = total amount all + 1 := by
  cases label <;> simp [total, all] <;> omega

end Label

/-! ### Results -/

/-- A result, with the layout of its contract and the gas that was supplied for it. -/
structure Completed where
  layout : Layout
  supplied : Nat
  result : CallResult

namespace Completed

def isOk (d : Completed) : Bool := d.result.error.isNone

/-- The code of the error in lower case. -/
def code (d : Completed) : Option String :=
  d.result.error.bind fun cause =>
    match cause.code with
    | .text t => t.lower.string?
    | _ => none

/-- How many values the output holds. -/
def values (d : Completed) : Nat :=
  match d.result.output with
  | .bytes _ b => d.layout.valuesIn b
  | _ => 0

def charge (d : Completed) : Nat := d.supplied - d.result.remainingGas

/-- The label that the call is counted under, if there is one. -/
def label? (d : Completed) : Option Label :=
  match d.result.error with
  | none => some .ok
  | some cause => (Label.read cause.code).toOption

variable {d : Completed} {label : Label}

theorem label?_good (ok : d.isOk = true) : d.label? = some .ok := by
  rw [isOk, Option.isNone_iff_eq_none] at ok
  rw [label?, ok]

theorem code_good (ok : d.isOk = true) : d.code = none := by
  rw [isOk, Option.isNone_iff_eq_none] at ok
  rw [code, ok]
  rfl

/-- Good results apart, a label other than that of errors is the code. -/
theorem label?_iff (failed : d.isOk = false) (other : label ≠ .error) :
    d.label? = some label ↔ d.code = some label.name := by
  cases error : d.result.error with
  | none => simp [isOk, error] at failed
  | some cause =>
    simp only [label?, code, error, Option.bind_some]
    cases cause.code with
    | text t => exact Option.some_inj.trans (Label.ofText_eq_iff other)
    | bytes kind b => cases kind <;> simp [Label.read, Except.toOption, other.symm]
    | _ => simp [Label.read, Except.toOption]

/-- A failure counts as good if its code says so. -/
theorem countP_ok (counted : List Completed) :
    (counted.countP fun d => d.label? = some .ok) =
      (counted.filter isOk).length + counted.countP fun d => d.code = some Label.ok.name := by
  induction counted with
  | nil => rfl
  | cons d rest ih =>
    rw [List.countP_cons, List.countP_cons, ih]
    cases ok : d.isOk with
    | true =>
      rw [List.filter_cons_of_pos ok, label?_good ok, code_good ok]
      simp [Nat.add_right_comm]
    | false =>
      rw [List.filter_cons_of_neg (by simp [ok])]
      simp [label?_iff ok (by decide : Label.ok ≠ .error), Nat.add_assoc]

theorem label?_named_iff (notOk : label ≠ .ok) (other : label ≠ .error) :
    d.label? = some label ↔ d.code = some label.name := by
  cases ok : d.isOk with
  | true => simp [label?_good ok, code_good ok, notOk.symm]
  | false => exact label?_iff ok other

/-- A failure that is counted counts as an error if its code is none of the other labels. -/
theorem label?_error_iff (counted : d.label?.isSome = true) :
    d.label? = some .error ↔
      d.isOk = false ∧ ∀ label ∈ Label.all, label ≠ .error → d.code ≠ some label.name := by
  constructor
  · intro failed
    have notOk : d.isOk = false := by
      cases ok : d.isOk with
      | true => exact absurd (failed.symm.trans (label?_good ok)) (by decide)
      | false => rfl
    refine ⟨notOk, ?_⟩
    intro label _ other named
    rw [← label?_iff notOk other, failed] at named
    exact other (Option.some.inj named).symm
  · rintro ⟨notOk, none⟩
    obtain ⟨label, named⟩ := Option.isSome_iff_exists.mp counted
    by_cases other : label = .error
    · rw [named, other]
    · exact absurd ((label?_iff notOk other).mp named) (none label label.mem_all other)

/-- Every call that is counted has exactly one label. -/
theorem total_labels {counted : List Completed}
    (labelled : ∀ d ∈ counted, d.label?.isSome = true) :
    total (fun label => counted.countP fun d => d.label? = some label) Label.all =
      counted.length := by
  induction counted with
  | nil => rfl
  | cons d rest ih =>
    obtain ⟨label, found⟩ := Option.isSome_iff_exists.mp (labelled d (List.mem_cons_self ..))
    have rest := ih fun e held => labelled e (List.mem_cons_of_mem d held)
    rw [List.length_cons, ← rest, ← Label.total_all_succ _ label]
    congr 1
    funext l
    rw [List.countP_cons, found]
    simp only [Option.some.injEq, decide_eq_true_eq]

end Completed

/-! ### Metrics as numbers -/

namespace Binary64

def sum {α : Type} (amount : α → Binary64) (xs : List α) : Binary64 :=
  xs.foldl (fun before x => before.add (amount x)) zero

/-- A sum of numbers is exact as long as it is within the bound. -/
theorem sum_ofNat {α : Type} {amount : α → Binary64} {number : α → Nat}
    (exact : ∀ x, amount x = ofNat (number x)) {xs : List α}
    (room : total number xs ≤ exactBound) : sum amount xs = ofNat (total number xs) := by
  induction xs using List.reverseRecOn with
  | nil => rfl
  | append_singleton xs x ih =>
    rw [total_concat] at room ⊢
    have before : xs.foldl (fun before x => before.add (amount x)) zero = ofNat (total number xs) :=
      ih (by omega)
    rw [sum, List.foldl_append, before, List.foldl_cons, exact]
    exact add_ofNat room

end Binary64

namespace Metrics

/-- One more call in the metrics, and with a good one the values of its output. -/
def tally (m : Metrics) (d : Completed) : Metrics :=
  let counted := (m.count (d.label?.getD .error)).charge d.charge
  if d.isOk then { counted with values := m.values.observe (.ofNat d.values) } else counted

theorem tally_good (m : Metrics) {d : Completed} (ok : d.isOk = true) :
    m.tally d =
      { (m.count .ok).charge d.charge with values := m.values.observe (.ofNat d.values) } := by
  rw [tally, Completed.label?_good ok, Option.getD_some, if_pos ok]

theorem tally_failed (m : Metrics) {d : Completed} {label : Label} (failed : d.isOk = false)
    (found : d.label? = some label) : m.tally d = (m.count label).charge d.charge := by
  rw [tally, found, Option.getD_some, failed, if_neg Bool.false_ne_true]

/-- The metrics agree with the calls that were counted, in their order. -/
structure Agrees (m : Metrics) (counted : List Completed) : Prop where
  calls : ∀ label, m.calls label = .ofNat (counted.countP fun d => d.label? = some label)
  buckets : m.values.buckets = Histogram.filled Histogram.standardBounds
    ((counted.filter Completed.isOk).map Completed.values)
  values : m.values.sum = .ofNat (total Completed.values (counted.filter Completed.isOk))
  gas : m.gas = .ofNat
    (total Completed.charge (counted.filter fun d => d.charge < Binary64.overflowBound))

/-- Doubles can hold all that there is to count. -/
structure Countable (counted : List Completed) : Prop where
  calls : counted.length ≤ Binary64.exactBound
  values : total Completed.values (counted.filter Completed.isOk) ≤ Binary64.exactBound
  gas : total Completed.charge (counted.filter fun d => d.charge < Binary64.overflowBound) ≤
    Binary64.exactBound

namespace Agrees

variable {m : Metrics} {counted : List Completed} {d : Completed}

theorem fresh : Metrics.fresh.Agrees [] where
  calls _ := rfl
  buckets := Histogram.filled_standard
  values := rfl
  gas := rfl

/-- One more call is counted under its label, and under no other. -/
theorem calls_count (agrees : m.Agrees counted) {label : Label} (found : d.label? = some label)
    (room : counted.length < Binary64.exactBound) (l : Label) :
    (m.count label).calls l = .ofNat ((counted ++ [d]).countP fun d => d.label? = some l) := by
  have before := agrees.calls l
  rw [List.countP_append, List.countP_singleton]
  simp only [count, before, found, decide_eq_true_eq, Option.some.injEq]
  by_cases same : l = label
  · have below : (counted.countP fun d => d.label? = some l) < Binary64.exactBound :=
      Nat.lt_of_le_of_lt List.countP_le_length room
    rw [if_pos same, if_pos same.symm, Binary64.next_ofNat below]
  · rw [if_neg same, if_neg (Ne.symm same)]
    rfl

/-- Gas that has a double is added exactly, and all other gas is left out. -/
theorem gas_charge (agrees : m.Agrees counted)
    (room : total Completed.charge
      ((counted ++ [d]).filter fun d => d.charge < Binary64.overflowBound) ≤ Binary64.exactBound) :
    (m.charge d.charge).gas = .ofNat (total Completed.charge
      ((counted ++ [d]).filter fun d => d.charge < Binary64.overflowBound)) := by
  have before := agrees.gas
  rw [List.filter_append, List.filter_singleton] at room ⊢
  rw [charge]
  by_cases fits : d.charge < Binary64.overflowBound
  · simp only [fits, decide_true, cond_true, total_concat, and_true] at room ⊢
    by_cases some : 0 < d.charge
    · rw [if_pos some]
      simp only [before]
      exact Binary64.add_ofNat room
    · rw [if_neg some, before, Nat.eq_zero_of_not_pos some]
      rfl
  · simp only [fits, decide_false, cond_false, List.append_nil, and_false, if_false, before]

theorem good (agrees : m.Agrees counted) (ok : d.isOk = true)
    (room : Countable (counted ++ [d])) : (m.tally d).Agrees (counted ++ [d]) := by
  have kept : (counted ++ [d]).filter Completed.isOk = counted.filter Completed.isOk ++ [d] := by
    rw [List.filter_append, List.filter_singleton, ok]
    rfl
  have values := room.values
  have calls := room.calls
  rw [kept, total_concat] at values
  rw [List.length_append, List.length_singleton] at calls
  have few :
      ((counted.filter Completed.isOk).map Completed.values).length < Binary64.exactBound := by
    rw [List.length_map]
    exact Nat.lt_of_le_of_lt (List.length_filter_le ..) calls
  rw [m.tally_good ok]
  constructor
  · intro l
    rw [← agrees.calls_count (Completed.label?_good ok) calls l]
    exact congrFun (calls_charge ..) l
  · rw [kept, List.map_append]
    refine Eq.trans ?_ (Histogram.place_filled (by decide) (by omega) few)
    rw [← agrees.buckets]
    rfl
  · rw [kept, total_concat, ← Binary64.add_ofNat values, ← agrees.values]
    rfl
  · rw [← agrees.gas_charge room.gas, ← gas_charge_count m .ok]

theorem failed (agrees : m.Agrees counted) (notOk : d.isOk = false) {label : Label}
    (found : d.label? = some label) (room : Countable (counted ++ [d])) :
    (m.tally d).Agrees (counted ++ [d]) := by
  have kept : (counted ++ [d]).filter Completed.isOk = counted.filter Completed.isOk := by
    rw [List.filter_append, List.filter_singleton, notOk]
    exact List.append_nil _
  have calls := room.calls
  rw [List.length_append, List.length_singleton] at calls
  rw [m.tally_failed notOk found]
  constructor
  · intro l
    rw [← agrees.calls_count found calls l, calls_charge]
  · rw [kept, values_charge]
    exact agrees.buckets
  · rw [kept, values_charge]
    exact agrees.values
  · rw [gas_charge_count]
    exact agrees.gas_charge room.gas

theorem sum_calls (agrees : m.Agrees counted) (labelled : ∀ d ∈ counted, d.label?.isSome = true)
    (room : counted.length ≤ Binary64.exactBound) :
    Binary64.sum m.calls Label.all = .ofNat counted.length := by
  have all := Completed.total_labels labelled
  rw [Binary64.sum_ofNat agrees.calls (by rwa [all]), all]

theorem calls_ok (agrees : m.Agrees counted) :
    m.calls .ok = .ofNat ((counted.filter Completed.isOk).length +
      counted.countP fun d => d.code = some Label.ok.name) := by
  rw [agrees.calls, Completed.countP_ok]

theorem calls_named (agrees : m.Agrees counted) {label : Label} (notOk : label ≠ .ok)
    (other : label ≠ .error) :
    m.calls label = .ofNat (counted.countP fun d => d.code = some label.name) := by
  rw [agrees.calls]
  simp only [Completed.label?_named_iff notOk other]

theorem calls_error (agrees : m.Agrees counted)
    (labelled : ∀ d ∈ counted, d.label?.isSome = true) :
    m.calls .error = .ofNat (counted.countP fun d => d.isOk = false ∧
      ∀ label ∈ Label.all, label ≠ .error → d.code ≠ some label.name) := by
  rw [agrees.calls]
  refine congrArg _ (List.countP_congr fun d held => ?_)
  simp only [decide_eq_true_eq, Completed.label?_error_iff (labelled d held)]

/-- There is room for the values of good results if there is room for all results. -/
theorem room_values (counted : List Completed) (room : counted.length ≤ Binary64.exactBound) :
    0 + ((counted.filter Completed.isOk).map Completed.values).length ≤ Binary64.exactBound := by
  rw [Nat.zero_add, List.length_map]
  exact Nat.le_trans (List.length_filter_le ..) room

theorem count_values (agrees : m.Agrees counted) (room : counted.length ≤ Binary64.exactBound) :
    m.values.count = .ofNat (counted.filter Completed.isOk).length := by
  rw [Histogram.count, agrees.buckets]
  refine (Histogram.count_filled (room_values counted room)).trans ?_
  rw [Nat.zero_add, List.length_map]

theorem cumulative_values (agrees : m.Agrees counted)
    (room : counted.length ≤ Binary64.exactBound) :
    Histogram.cumulative .zero m.values.buckets = Histogram.rows Histogram.standardBounds
      (fun bound => (counted.filter Completed.isOk).countP fun d => d.values ≤ bound)
      (counted.filter Completed.isOk).length := by
  have ascending : Histogram.standardBounds.Pairwise (· ≤ ·) := by decide
  rw [agrees.buckets]
  refine (Histogram.cumulative_filled ascending (room_values counted room)).trans ?_
  simp only [Nat.zero_add, List.countP_map, List.length_map]
  rfl

end Agrees

theorem Countable.of_concat {counted : List Completed} {d : Completed}
    (room : Countable (counted ++ [d])) : Countable counted where
  calls := by
    have calls := room.calls
    rw [List.length_append] at calls
    omega
  values := by
    have values := room.values
    rw [List.filter_append, total_append] at values
    omega
  gas := by
    have gas := room.gas
    rw [List.filter_append, total_append] at gas
    omega

/-- As long as doubles can hold all that there is to count, the metrics agree with it. -/
theorem agrees_tally {counted : List Completed} (labelled : ∀ d ∈ counted, d.label?.isSome = true)
    (room : Countable counted) : (counted.foldl tally .fresh).Agrees counted := by
  induction counted using List.reverseRecOn with
  | nil => exact .fresh
  | append_singleton counted d ih =>
    obtain ⟨label, found⟩ := Option.isSome_iff_exists.mp
      (labelled d (List.mem_append_right _ (List.mem_singleton_self d)))
    have before := ih (fun e held => labelled e (List.mem_append_left _ held)) room.of_concat
    rw [List.foldl_append]
    cases ok : d.isOk with
    | true => exact before.good ok room
    | false => exact before.failed ok found room

end Metrics

end SeededDraws
