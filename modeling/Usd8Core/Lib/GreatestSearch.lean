import Usd8Core.Lib.OracleCall
import Mathlib.Order.Bounds.Basic
import Mathlib.Order.Lattice

/-!
# The greatest number that passes a test

A binary search between a number that passes and a bound, where each test asks an
oracle and may fail.  It looks at the upper of two middles, so the lower bound rises
whenever a test passes.
-/

set_option autoImplicit false

namespace Usd8Core.Lib.GreatestSearch

open Usd8Core.Lib.OracleCall

variable {σ ε : Type}

/-- `low + (high - low).div_ceil(2)` -/
def upperMiddle (low high : Nat) : Nat := low + (high - low + 1) / 2

theorem upperMiddle_bounds {low high : Nat} (apart : low < high) :
    low < upperMiddle low high ∧ upperMiddle low high ≤ high := by
  unfold upperMiddle
  omega

def searchFrom (test : Nat → Asking σ ε Bool) (low high : Nat) : Asking σ ε Nat := do
  if apart : low < high then
    let middle := upperMiddle low high
    if ← test middle then searchFrom test middle high
    else searchFrom test low (middle - 1)
  else pure low
termination_by high - low
decreasing_by
  · have bounds := upperMiddle_bounds apart
    omega
  · have bounds := upperMiddle_bounds apart
    omega

/-- Where what passes is downward closed, the search ends with the greatest number of it. -/
theorem ends_searchFrom {holds : Nat → Prop} {failed : ε → Prop} {test : Nat → Asking σ ε Bool}
    {low high : Nat} (ordered : low ≤ high) (atLow : holds low)
    (downward : ∀ lower upper, lower ≤ upper → upper ≤ high → holds upper → holds lower)
    (each : ∀ middle, low < middle → middle ≤ high →
      Ends (fun passes => passes = true ↔ holds middle) failed (test middle)) :
    Ends (fun found => IsGreatest {number | number ≤ high ∧ holds number} found) failed
      (searchFrom test low high) := by
  induction gap : high - low using Nat.strong_induction_on generalizing low high with
  | _ gap ih =>
      rw [searchFrom]
      by_cases apart : low < high
      · have bounds := upperMiddle_bounds apart
        rw [dif_pos apart]
        refine (each _ bounds.1 bounds.2).bind fun passes isPass => ?_
        apply ends_ite
        · intro passed
          exact ih _ (by omega) bounds.2 (isPass.mp passed) downward
            (fun middle above below => each middle (bounds.1.trans above) below) rfl
        · intro refused
          have below : upperMiddle low high - 1 ≤ high := by omega
          have search := ih (upperMiddle low high - 1 - low) (by omega) (by omega) atLow
            (fun lower upper ordered within => downward lower upper ordered (within.trans below))
            (fun middle above within => each middle above (within.trans below)) rfl
          refine search.mono (fun found greatest => ?_) fun _ => id
          refine ⟨⟨greatest.1.1.trans below, greatest.1.2⟩, fun number inside => greatest.2 ⟨?_, inside.2⟩⟩
          -- What passes lies below the middle, which does not.
          have notAbove : ¬ upperMiddle low high ≤ number := fun above =>
            refused (isPass.mpr (downward _ number above inside.1 inside.2))
          omega
      · rw [dif_neg apart]
        have same : low = high := by omega
        exact ends_pure ⟨⟨ordered, atLow⟩, fun number inside => same ▸ inside.1⟩

end Usd8Core.Lib.GreatestSearch
