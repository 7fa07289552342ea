import SeededDraws.Metrics
import SeededDraws.Proofs.Binary64
/-!
# What a histogram shows

Each amount goes to one bucket, the first that reaches it. If no bound is below the one before it,
the cumulative rows therefore show for each bound how many amounts were up to it, and the last row
shows how many there were. All of this holds as long as doubles can count the amounts.
-/

namespace SeededDraws

namespace Binary64

/-- Below the bound a count is exact. -/
theorem next_ofNat {n : Nat} (small : n < exactBound) : (ofNat n).next = ofNat (n + 1) :=
  add_ofNat small

/-- At the bound it stops. -/
theorem next_min (n : Nat) : (ofNat (min n exactBound)).next = ofNat (min (n + 1) exactBound) := by
  by_cases small : n < exactBound
  · rw [Nat.min_eq_left (Nat.le_of_lt small), Nat.min_eq_left small, next_ofNat small]
  · rw [Nat.min_eq_right (by omega), Nat.min_eq_right (by omega)]
    exact add_one_exactBound

end Binary64

namespace Histogram

variable {bounds amounts : List Nat} {below n : Nat}

/-- The buckets over these bounds, and one for all that is above them: each holds the amounts that
none before it took. -/
def filled : List Nat → List Nat → List Bucket
  | [], amounts => [⟨unbounded, .ofNat amounts.length⟩]
  | b :: bounds, amounts =>
    ⟨.ofNat b, .ofNat (amounts.countP (· ≤ b))⟩ :: filled bounds (amounts.filter (b < ·))

theorem filled_standard : standard.buckets = filled standardBounds [] := rfl

/-- One more amount goes where the closed form has it. -/
theorem place_filled (small : ∀ b ∈ bounds, b ≤ Binary64.exactBound)
    (exact : n ≤ Binary64.exactBound) (room : amounts.length < Binary64.exactBound) :
    place (.ofNat n) (filled bounds amounts) = filled bounds (amounts ++ [n]) := by
  have held := Binary64.holds_ofNat exact
  induction bounds generalizing amounts with
  | nil =>
    rw [filled, place, unbounded, if_pos held.lessEqual_infinite, Binary64.next_ofNat room, filled,
      List.length_append]
    rfl
  | cons b bounds ih =>
    obtain ⟨first, later⟩ := List.forall_mem_cons.mp small
    have order := held.lessEqual (Binary64.holds_ofNat first)
    rw [filled, place, order, filled, List.countP_append, List.countP_singleton,
      List.filter_append]
    by_cases reached : n ≤ b
    · have counted : amounts.countP (· ≤ b) < Binary64.exactBound :=
        Nat.lt_of_le_of_lt List.countP_le_length room
      have above : ¬b < n := Nat.not_lt.mpr reached
      simp [reached, above, Binary64.next_ofNat counted]
    · have fewer : (amounts.filter (b < ·)).length < Binary64.exactBound :=
        Nat.lt_of_le_of_lt (List.length_filter_le ..) room
      have above : b < n := Nat.lt_of_not_le reached
      simp [reached, above, ih later fewer]

/-- A row for each bound, and one behind them for all that there is. -/
def rows (bounds : List Nat) (upTo : Nat → Nat) (all : Nat) : List (Binary64 × Binary64) :=
  (bounds.map fun b => (Binary64.ofNat b, Binary64.ofNat (upTo b))) ++ [(unbounded, .ofNat all)]

/-- What is up to a bound is up to the one before it, or between the two. -/
theorem countP_between {b c : Nat} (order : b ≤ c) (amounts : List Nat) :
    amounts.countP (· ≤ b) + (amounts.filter (b < ·)).countP (· ≤ c) =
      amounts.countP (· ≤ c) := by
  induction amounts with
  | nil => rfl
  | cons x rest ih =>
    by_cases below : x ≤ b
    · have reached : x ≤ c := Nat.le_trans below order
      rw [List.countP_cons_of_pos (by simpa using below), List.countP_cons_of_pos (by simpa),
        List.filter_cons_of_neg (by simpa using below), ← ih]
      omega
    · rw [List.countP_cons_of_neg (by simpa using below),
        List.filter_cons_of_pos (by simpa using below), List.countP_cons, List.countP_cons, ← ih]
      omega

theorem length_filter_lt (amounts : List Nat) (b : Nat) :
    amounts.countP (· ≤ b) + (amounts.filter (b < ·)).length = amounts.length := by
  rw [List.length_eq_countP_add_countP (l := amounts) (· ≤ b), ← List.countP_eq_length_filter]
  simp only [decide_eq_true_eq, Nat.not_le]

theorem cumulative_filled (ascending : bounds.Pairwise (· ≤ ·))
    (room : below + amounts.length ≤ Binary64.exactBound) :
    cumulative (.ofNat below) (filled bounds amounts) =
      rows bounds (fun b => below + amounts.countP (· ≤ b)) (below + amounts.length) := by
  induction bounds generalizing below amounts with
  | nil => rw [filled, cumulative, Binary64.add_ofNat room, cumulative, rows, List.map_nil]; rfl
  | cons b bounds ih =>
    obtain ⟨least, ascending⟩ := List.pairwise_cons.mp ascending
    have split := length_filter_lt amounts b
    rw [filled, cumulative, Binary64.add_ofNat (by omega), ih ascending (by omega), rows, rows,
      List.map_cons, List.cons_append, Nat.add_assoc below, split]
    congr 2
    refine List.map_congr_left ?_
    intro c held
    rw [Nat.add_assoc, countP_between (least c held)]

theorem count_filled (room : below + amounts.length ≤ Binary64.exactBound) :
    (filled bounds amounts).foldl (fun below b => below.add b.count) (Binary64.ofNat below) =
      .ofNat (below + amounts.length) := by
  induction bounds generalizing below amounts with
  | nil => exact Binary64.add_ofNat room
  | cons b bounds ih =>
    have split := length_filter_lt amounts b
    rw [filled, List.foldl_cons, Binary64.add_ofNat (by omega), ih (by omega), Nat.add_assoc, split]

end Histogram

end SeededDraws
