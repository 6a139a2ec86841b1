import Usd8Core.Lib.FloorShare

/-!
# A split whose last share is the rest

Every weight gets its share rounded down, except the last positive one: it gets what
the others left.  Weights of zero may stand anywhere and get nothing.
-/

set_option autoImplicit false

namespace Usd8Core.Lib.RemainderSplit

open Usd8Core.Lib.FloorShare

/-! ## The last positive weight -/

/-- The weights after `last` are zero, that of `last` is not. -/
structure LastWeight (weights before zeros : List Nat) (last : Nat) : Prop where
  split : weights = before ++ last :: zeros
  positive : last ≠ 0
  after : ∀ weight ∈ zeros, weight = 0

theorem LastWeight.cons {weights before zeros : List Nat} {last : Nat} (weight : Nat)
    (isLast : LastWeight weights before zeros last) :
    LastWeight (weight :: weights) (weight :: before) zeros last where
  split := by rw [isLast.split, List.cons_append]
  positive := isLast.positive
  after := isLast.after

/-- A list of weights is nothing but zeros or has a last positive one. -/
theorem zeros_or_lastWeight (weights : List Nat) :
    (∀ weight ∈ weights, weight = 0) ∨
      ∃ before last zeros, LastWeight weights before zeros last := by
  induction weights with
  | nil => simp
  | cons weight later ih =>
      rcases ih with zeros | ⟨before, last, zeros, isLast⟩
      · by_cases positive : weight = 0
        · left
          simpa [positive] using zeros
        · exact .inr ⟨[], weight, later, rfl, positive, zeros⟩
      · exact .inr ⟨_, last, zeros, isLast.cons weight⟩

/-! ## The shares -/

variable (revenue total last : Nat)

def floorShare (weight : Nat) : Nat := revenue * weight / total

/-- The shares of the weights from the index `i` on, when those before it got `paid`. -/
def shares : List Nat → Nat → Nat → List Nat
  | [], _, _ => []
  | weight :: later, i, paid =>
      let share := if weight = 0 then 0
        else if i = last then revenue - paid else floorShare revenue total weight
      share :: shares later (i + 1) (paid + share)

variable {revenue total last}

@[simp] theorem shares_length (weights : List Nat) (i paid : Nat) :
    (shares revenue total last weights i paid).length = weights.length := by
  induction weights generalizing i paid with
  | nil => rfl
  | cons weight later ih => simp [shares, ih]

@[simp] theorem floorShare_zero : floorShare revenue total 0 = 0 := by simp [floorShare]

theorem shares_zeros (zeros : List Nat) (none : ∀ weight ∈ zeros, weight = 0) (i paid : Nat) :
    shares revenue total last zeros i paid = zeros := by
  induction zeros generalizing i paid with
  | nil => rfl
  | cons weight later ih =>
      have head : weight = 0 := none weight (by simp)
      have rest := ih (fun other member => none other (by simp [member]))
      simp [shares, head, rest]

variable (revenue total) in
/-- The floors before the last positive weight, the rest for it, nothing after. -/
theorem shares_eq {weights before zeros : List Nat} {weight : Nat}
    (isLast : LastWeight weights before zeros weight) (i paid : Nat) :
    shares revenue total (i + before.length) weights i paid =
      before.map (floorShare revenue total) ++
        (revenue - (paid + (before.map (floorShare revenue total)).sum)) :: zeros := by
  rw [isLast.split]
  induction before generalizing i paid weights with
  | nil => simp [shares, isLast.positive, shares_zeros zeros isLast.after]
  | cons first later ih =>
      have tail : LastWeight (later ++ weight :: zeros) later zeros weight :=
        ⟨rfl, isLast.positive, isLast.after⟩
      have rest := ih tail (i + 1) (paid + floorShare revenue total first)
      have index : i + (later.length + 1) = i + 1 + later.length := by omega
      have share : (if first = 0 then 0 else floorShare revenue total first) =
          floorShare revenue total first := by
        split
        next none => simp [none]
        next => rfl
      have early : i ≠ i + (later.length + 1) := by omega
      simp only [List.cons_append, shares, List.length_cons, if_neg early, share, List.map_cons,
        List.sum_cons]
      rw [index, rest, Nat.add_assoc]

/-! ## What the shares add up to -/

variable (revenue) in
/-- The floors of all weights stay within the revenue. -/
theorem sum_floorShares_le (weights : List Nat) :
    (weights.map (floorShare revenue weights.sum)).sum ≤ revenue := by
  have bounded := sum_share_le weights id revenue
  rw [List.map_id] at bounded
  exact bounded

section Rest

variable {weights before zeros : List Nat} {weight : Nat}

variable (revenue) in
/-- The last positive weight gets its floor at least. -/
theorem LastWeight.floor_le_rest (isLast : LastWeight weights before zeros weight) :
    (before.map (floorShare revenue weights.sum)).sum + floorShare revenue weights.sum weight ≤
      revenue := by
  have all := sum_floorShares_le revenue weights
  have parts : (weights.map (floorShare revenue weights.sum)).sum =
      (before.map (floorShare revenue weights.sum)).sum + (floorShare revenue weights.sum weight +
        (zeros.map (floorShare revenue weights.sum)).sum) := by
    generalize floorShare revenue weights.sum = floor
    rw [isLast.split, List.map_append, List.sum_append, List.map_cons, List.sum_cons]
  omega

theorem LastWeight.sum_zeros (isLast : LastWeight weights before zeros weight) :
    zeros.sum = 0 := List.sum_eq_zero isLast.after

/-- Nothing of the revenue strands. -/
theorem sum_shares (isLast : LastWeight weights before zeros weight) :
    (shares revenue weights.sum before.length weights 0 0).sum = revenue := by
  have exact := shares_eq revenue weights.sum isLast 0 0
  have floors := isLast.floor_le_rest revenue
  rw [Nat.zero_add] at exact
  rw [exact, List.sum_append, List.sum_cons, isLast.sum_zeros]
  omega

/-! ## Who gets the rest -/

/-- The entry at `index` has a weight, and none after it has. -/
def IsLast (weights : List Nat) (index : Nat) : Prop :=
  (∃ weight, weights[index]? = some weight ∧ weight ≠ 0) ∧
    ∀ (later weight : Nat), index < later → weights[later]? = some weight → weight = 0

theorem LastWeight.getElem?_after (isLast : LastWeight weights before zeros weight)
    {index other : Nat} (beyond : before.length < index) (found : weights[index]? = some other) :
    other = 0 := by
  obtain ⟨rest, rfl⟩ := Nat.exists_eq_add_of_lt beyond
  rw [isLast.split, List.getElem?_append_right (by omega)] at found
  have offset : before.length + rest + 1 - before.length = rest + 1 := by omega
  rw [offset, List.getElem?_cons_succ] at found
  exact isLast.after other (List.mem_of_getElem? found)

theorem LastWeight.isLast_iff (isLast : LastWeight weights before zeros weight) (index : Nat) :
    IsLast weights index ↔ index = before.length := by
  have found : weights[before.length]? = some weight := by simp [isLast.split]
  constructor
  · rintro ⟨⟨own, ownFound, ownPositive⟩, none⟩
    rcases Nat.lt_trichotomy index before.length with early | here | beyond
    · exact absurd (none _ _ early found) isLast.positive
    · exact here
    · exact absurd (isLast.getElem?_after beyond ownFound) ownPositive
  · rintro rfl
    exact ⟨⟨weight, found, isLast.positive⟩, fun later other => isLast.getElem?_after⟩

/-- Every share but that of the last positive weight is a floor. -/
theorem LastWeight.share_exact (isLast : LastWeight weights before zeros weight)
    {index own share : Nat} (found : weights[index]? = some own)
    (got : (shares revenue total before.length weights 0 0)[index]? = some share)
    (other : index ≠ before.length) : share = floorShare revenue total own := by
  have exact := shares_eq revenue total isLast 0 0
  rw [Nat.zero_add] at exact
  rw [exact] at got
  rcases Nat.lt_or_gt_of_ne other with early | beyond
  · rw [List.getElem?_append_left (by simpa using early), List.getElem?_map] at got
    rw [isLast.split, List.getElem?_append_left early] at found
    simpa [found] using got.symm
  · have none := isLast.getElem?_after beyond found
    obtain ⟨rest, rfl⟩ := Nat.exists_eq_add_of_lt beyond
    have offset : before.length + rest + 1 - before.length = rest + 1 := by omega
    rw [List.getElem?_append_right (by simp; omega), List.length_map, offset,
      List.getElem?_cons_succ] at got
    rw [none, floorShare_zero]
    exact isLast.after share (List.mem_of_getElem? got)

/-- The share of the last positive weight is no less than its floor. -/
theorem LastWeight.share_last (isLast : LastWeight weights before zeros weight) {share : Nat}
    (got : (shares revenue weights.sum before.length weights 0 0)[before.length]? = some share) :
    floorShare revenue weights.sum weight ≤ share := by
  have exact := shares_eq revenue weights.sum isLast 0 0
  have floors := isLast.floor_le_rest revenue
  rw [Nat.zero_add] at exact
  rw [exact, List.getElem?_append_right (by simp)] at got
  simp only [List.length_map, Nat.sub_self, List.getElem?_cons_zero, Option.some.injEq] at got
  omega

end Rest

end Usd8Core.Lib.RemainderSplit
