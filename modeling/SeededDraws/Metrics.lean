import SeededDraws.Datum.Reading
import SeededDraws.Text.LowerCase
/-!
# Metrics

How calls ended, how many values they drew and how much gas they were charged. All counts and sums
are doubles, as the samples that are read from them are.
-/

namespace SeededDraws

/-- How a call ended. -/
inductive Label where
  | ok
  | missingSelector
  | unknownSelector
  | invalidInputLength
  | valueOverflow
  | requestTooLarge
  | outOfGas
  | writeProtection
  | encodingFailure
  | error
deriving DecidableEq

namespace Label

def all : List Label :=
  [.ok, .missingSelector, .unknownSelector, .invalidInputLength, .valueOverflow,
    .requestTooLarge, .outOfGas, .writeProtection, .encodingFailure, .error]

def name : Label → String
  | .ok => "ok"
  | .missingSelector => "missing_selector"
  | .unknownSelector => "unknown_selector"
  | .invalidInputLength => "invalid_input_length"
  | .valueOverflow => "value_overflow"
  | .requestTooLarge => "request_too_large"
  | .outOfGas => "out_of_gas"
  | .writeProtection => "write_protection"
  | .encodingFailure => "encoding_failure"
  | .error => "error"

/-- The label of a code in any letter case; an unknown code counts as an error. -/
def ofText (code : Text) : Label :=
  (all.find? fun label => code.lower.string? == some label.name).getD .error

/-- Texts have letters, and so do byte strings that can be written to or hashed. -/
def read (code : Datum) : Outcome Label :=
  match code with
  | .text t => .ok (ofText t)
  | .bytes .fixed _ => .ok .error
  | .bytes .growable _ => .ok .error
  | _ => .error (.bare .attribute)

end Label

/-- A sample is shown as an integer, its fraction dropped. -/
def sampleOf (sample : Binary64) : Datum :=
  match sample.toInt? with
  | some n => .int n
  | none => .float sample

/-- One more; from `2 ^ 53` on a count stays where it is. -/
def Binary64.next (count : Binary64) : Binary64 := count.add (.ofNat 1)

/-! ### The histogram of values -/

/-- The amounts up to a bound that no bucket before it took. -/
structure Bucket where
  bound : Binary64
  count : Binary64

structure Histogram where
  buckets : List Bucket
  sum : Binary64

namespace Histogram

def unbounded : Binary64 := .infinite false

def ofBounds (bounds : List Binary64) : Histogram := ⟨bounds.map (⟨·, .zero⟩), .zero⟩

/-- Zero and the powers of two up to the usual ceiling. -/
def standardBounds : List Nat := 0 :: (List.range 11).map (Nat.pow 2)

def standard : Histogram :=
  ofBounds ((standardBounds.filterMap fun (n : Nat) => Binary64.ofInt? n) ++ [unbounded])

def isSorted : List Binary64 → Bool
  | a :: b :: rest => !b.less a && isSorted (b :: rest)
  | _ => true

/-- No bound is below the one before it; the last one is infinite and is added where it lacks. -/
def make (bounds : Datum) : Outcome Histogram := do
  let given ← (← bounds.items).mapM Datum.toDouble
  let closed :=
    if given.isEmpty || given.getLast? == some unbounded then given else given ++ [unbounded]
  if isSorted given && 2 ≤ closed.length then .ok (ofBounds closed) else .error (.bare .value)

/-- The first bucket that reaches the amount takes it. -/
def place (x : Binary64) : List Bucket → List Bucket
  | [] => []
  | b :: rest =>
    if x.lessEqual b.bound then { b with count := b.count.next } :: rest else b :: place x rest

def observe (h : Histogram) (x : Binary64) : Histogram := ⟨place x h.buckets, h.sum.add x⟩

/-- Each bound with the number of amounts up to it, behind `below` amounts. -/
def cumulative (below : Binary64) : List Bucket → List (Binary64 × Binary64)
  | [] => []
  | b :: rest => (b.bound, below.add b.count) :: cumulative (below.add b.count) rest

/-- The number of all amounts, summed up in the order of the buckets. -/
def count (h : Histogram) : Binary64 := h.buckets.foldl (fun below b => below.add b.count) .zero

/-- The text of a bound; from a million on it has an exponent of two digits, the first one zero. -/
def boundText (x : Binary64) : String :=
  match x with
  | .infinite negative => if negative then "-Inf" else "+Inf"
  | .nan => "NaN"
  | .finite negative _ _ =>
    let text := x.text.toList
    let point := (text.takeWhile (· ≠ '.')).length
    if !negative && text.contains '.' && 6 < point then
      let digits := text.take 1 ++ '.' :: (text.drop 1).filter (· ≠ '.')
      let mantissa := (digits.reverse.dropWhile fun c => c == '0' || c == '.').reverse
      String.ofList mantissa ++ s!"e+0{point - 1}"
    else x.text

/-- A sum over amounts that may be negative is not shown. -/
def hasSum (h : Histogram) : Bool :=
  match h.buckets with
  | [] => true
  | b :: _ => Binary64.zero.lessEqual b.bound

def toDatum (h : Histogram) : Datum :=
  let rows := (cumulative .zero h.buckets).map fun p =>
    Datum.list [.text (boundText p.1), sampleOf p.2]
  let sum : List (Text × Datum) := if h.hasSum then [("sum", sampleOf h.sum)] else []
  .dict (sum ++ [(Text.ofString "count", sampleOf h.count), (Text.ofString "buckets", .list rows)])

end Histogram

/-! ### All instruments -/

structure Metrics where
  calls : Label → Binary64
  gas : Binary64
  values : Histogram

namespace Metrics

def start (values : Histogram) : Metrics := ⟨fun _ => .zero, .zero, values⟩

def fresh : Metrics := start .standard

def count (m : Metrics) (label : Label) : Metrics :=
  { m with calls := fun l => if l = label then (m.calls l).next else m.calls l }

def recordCall (m : Metrics) (code : Datum) : Outcome Metrics := return m.count (← Label.read code)

def observeValues (m : Metrics) (amount : Datum) : Outcome Metrics :=
  return { m with values := m.values.observe (← amount.toDouble) }

/-- Only positive amounts are added. -/
def addGas (m : Metrics) (amount : Datum) : Outcome Metrics := do
  match amount.compareInt? 0 with
  | none => .error (.bare .type)
  | some (some .gt) => return { m with gas := m.gas.add (← amount.toDouble) }
  | some _ => return m

/-- The labels that were seen, and the histogram. -/
def toDatum (m : Metrics) : Datum :=
  let seen := Label.all.filter fun label => !(m.calls label).isZero
  let calls := seen.map fun label => (Text.ofString label.name, sampleOf (m.calls label))
  .dict [("calls", .dict calls), ("gas", sampleOf m.gas), ("values", m.values.toDatum)]

end Metrics

end SeededDraws
