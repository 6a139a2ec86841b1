import Mathlib.Data.List.Basic

/-!
# Slices of a range

A half-open range of numbers cut into closed slices of a bounded length, in ascending
order: every number of the range is in exactly one of them.
-/

set_option autoImplicit false

namespace Usd8Core.Lib.RangeSlices

/-- The slices are the numbers above `lower` up to `upper`, at most `size` in each. -/
structure Partitions (lower upper size : Nat) (slices : List (Nat × Nat)) : Prop where
  nonempty : ∀ slice ∈ slices, slice.1 ≤ slice.2
  short : ∀ slice ∈ slices, slice.2 + 1 - slice.1 ≤ size
  ascending : slices.Pairwise fun earlier later => earlier.2 < later.1
  covers : ∀ number, (∃ slice ∈ slices, slice.1 ≤ number ∧ number ≤ slice.2) ↔
    lower < number ∧ number ≤ upper

variable {lower middle upper size : Nat} {slices : List (Nat × Nat)}

theorem partitions_nil : Partitions lower lower size [] where
  nonempty := by simp
  short := by simp
  ascending := .nil
  covers number := by
    simp only [List.not_mem_nil, false_and, exists_const, false_iff]
    omega

/-- A first slice before slices of what is left. -/
theorem Partitions.cons (rest : Partitions middle upper size slices) (advances : lower < middle)
    (within : middle ≤ upper) (short : middle ≤ lower + size) :
    Partitions lower upper size ((lower + 1, middle) :: slices) where
  nonempty slice member := by
    rcases List.mem_cons.mp member with rfl | later
    · exact advances
    · exact rest.nonempty slice later
  short slice member := by
    rcases List.mem_cons.mp member with rfl | later
    · change middle + 1 - (lower + 1) ≤ size
      omega
    · exact rest.short slice later
  ascending := by
    refine List.pairwise_cons.mpr ⟨fun later member => ?_, rest.ascending⟩
    exact ((rest.covers later.1).mp ⟨later, member, Nat.le_refl _, rest.nonempty later member⟩).1
  covers number := by
    simp only [List.mem_cons, exists_eq_or_imp, rest.covers number]
    omega

end Usd8Core.Lib.RangeSlices
