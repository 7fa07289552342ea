import SeededDraws.Abi.Function
/-!
# The selectors of the two functions

What the hash makes of the two signatures, as bytes.
-/

namespace SeededDraws

/-- The selectors of randomNCSPRNG(uint256) and of randomPRNG(). -/
def sequenceSelector : Bytes := [0x27, 0xce, 0x75, 0x72]
def singleSelector : Bytes := [0x89, 0x56, 0xca, 0x04]

theorem Outcome.eq_ok_of_toOption {α : Type} {x : Outcome α} {a : α} (found : x.toOption = some a) :
    x = .ok a := by
  cases x with
  | ok b =>
    cases found
    rfl
  | error fault => cases found

theorem selector_randomSequence : Function.randomSequence.selector = .ok sequenceSelector :=
  Outcome.eq_ok_of_toOption (by decide +kernel)

theorem selector_randomSingle : Function.randomSingle.selector = .ok singleSelector :=
  Outcome.eq_ok_of_toOption (by decide +kernel)

end SeededDraws
