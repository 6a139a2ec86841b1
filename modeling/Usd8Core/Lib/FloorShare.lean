import Mathlib.Algebra.BigOperators.Group.List.Basic
import Mathlib.Algebra.Order.BigOperators.Group.List
import Mathlib.Algebra.Order.Field.Rat
import Mathlib.Data.Nat.Cast.Order.Field
import Mathlib.Data.Rat.Cast.Defs
import Mathlib.Tactic.Linarith
import Mathlib.Tactic.Positivity
import Mathlib.Tactic.Ring

/-!
# Shares rounded down

A total split over weights with floor division never gives out more than the
total, and floors commute with sums in one direction only: the sum of the floors
is at most the floor of the sum.
-/

set_option autoImplicit false

namespace Usd8Core.Lib.FloorShare

theorem foldl_add_eq_sum {α : Type} (items : List α) (f : α → Nat) (start : Nat) :
    items.foldl (fun sum item => sum + f item) start = start + (items.map f).sum := by
  induction items generalizing start with
  | nil => rw [List.foldl_nil, List.map_nil, List.sum_nil, Nat.add_zero]
  | cons item rest ih =>
      rw [List.foldl_cons, ih, List.map_cons, List.sum_cons]
      ring

/-- Scaling every item and rounding down loses against scaling the sum. -/
theorem sum_floor_le {α : Type} (items : List α) (f : α → Nat) (factor denominator : Nat) :
    (items.map fun item => f item * factor / denominator).sum ≤
      (items.map f).sum * factor / denominator := by
  induction items with
  | nil => simp
  | cons item rest ih =>
      simp only [List.map_cons, List.sum_cons]
      calc f item * factor / denominator +
            (rest.map fun item => f item * factor / denominator).sum
          ≤ f item * factor / denominator + (rest.map f).sum * factor / denominator :=
            Nat.add_le_add_left ih _
        _ ≤ (f item * factor + (rest.map f).sum * factor) / denominator :=
            Nat.div_add_div_le_add_div
        _ = (f item + (rest.map f).sum) * factor / denominator := by rw [Nat.add_mul]

/-- The pro-rata shares of a total stay within it. -/
theorem sum_share_le {α : Type} (items : List α) (weight : α → Nat) (total : Nat) :
    (items.map fun item => total * weight item / (items.map weight).sum).sum ≤ total := by
  have commuted : (items.map fun item => total * weight item / (items.map weight).sum) =
      items.map fun item => weight item * total / (items.map weight).sum := by
    apply List.map_congr_left
    intro item _
    rw [Nat.mul_comm]
  rw [commuted]
  calc (items.map fun item => weight item * total / (items.map weight).sum).sum
      ≤ (items.map weight).sum * total / (items.map weight).sum :=
        sum_floor_le items weight total _
    _ ≤ total := by
        rcases Nat.eq_zero_or_pos (items.map weight).sum with zero | positive
        · simp [zero]
        · rw [Nat.mul_div_cancel_left total positive]

/-- A capped total that is netted by a fee, split by weight and grossed up again
stays within the cap of each weight: every division rounds down, the denominator
`total` cancels, and so does the fee. -/
theorem gross_of_net_share_le (total cap unit net weight : Nat) (totalPos : 0 < total)
    (unitPos : 0 < unit) (netPos : 0 < net) :
    total * cap / unit * net / unit * weight / total * unit / net ≤ weight * cap / unit := by
  have gross := Nat.div_mul_le_self (total * cap) unit
  have netted := Nat.div_mul_le_self (total * cap / unit * net) unit
  have share := Nat.div_mul_le_self (total * cap / unit * net / unit * weight) total
  have grossed :=
    Nat.div_mul_le_self (total * cap / unit * net / unit * weight / total * unit) net
  generalize total * cap / unit = capped at *
  generalize capped * net / unit = netTotal at *
  generalize netTotal * weight / total = netShare at *
  generalize netShare * unit / net = grossShare at *
  rw [Nat.le_div_iff_mul_le unitPos]
  have scaled : grossShare * unit * (net * total) ≤ weight * cap * (net * total) := by
    calc grossShare * unit * (net * total)
        = grossShare * net * (unit * total) := by ring
      _ ≤ netShare * unit * (unit * total) := Nat.mul_le_mul_right _ grossed
      _ = netShare * total * (unit * unit) := by ring
      _ ≤ netTotal * weight * (unit * unit) := Nat.mul_le_mul_right _ share
      _ = netTotal * unit * (weight * unit) := by ring
      _ ≤ capped * net * (weight * unit) := Nat.mul_le_mul_right _ netted
      _ = capped * unit * (net * weight) := by ring
      _ ≤ total * cap * (net * weight) := Nat.mul_le_mul_right _ gross
      _ = weight * cap * (net * total) := by ring
  exact Nat.le_of_mul_le_mul_right scaled (Nat.mul_pos netPos totalPos)

/-- Quotients compare as their cross products do. -/
theorem div_le_div_of_cross {a b c d : Nat} (bPos : 0 < b) (dPos : 0 < d)
    (cross : a * d ≤ c * b) : a / b ≤ c / d := by
  rw [Nat.le_div_iff_mul_le dPos]
  have floored : a / b * b ≤ a := Nat.div_mul_le_self a b
  have scaled : a / b * d * b ≤ c * b := by
    calc a / b * d * b = a / b * b * d := by ring
      _ ≤ a * d := Nat.mul_le_mul_right d floored
      _ ≤ c * b := cross
  exact Nat.le_of_mul_le_mul_right scaled bPos

/-- A share of a total grows with its own weight, also when the total grows by as much. -/
theorem own_share_le (total others weight weight' : Nat) (grows : weight ≤ weight')
    (positive : 0 < others + weight) :
    total * weight / (others + weight) ≤ total * weight' / (others + weight') := by
  apply div_le_div_of_cross positive (by omega)
  have cross : weight * (others + weight') ≤ weight' * (others + weight) := by
    rw [Nat.mul_add, Nat.mul_add, Nat.mul_comm weight weight']
    exact Nat.add_le_add_right (Nat.mul_le_mul_right others grows) _
  calc total * weight * (others + weight')
      = total * (weight * (others + weight')) := Nat.mul_assoc _ _ _
    _ ≤ total * (weight' * (others + weight)) := Nat.mul_le_mul_left total cross
    _ = total * weight' * (others + weight) := (Nat.mul_assoc _ _ _).symm

/-! ## Values of floored shares -/

section Values

variable {α : Type} (items : List α) (weight price unit : α → Nat)

/-- The exact value of the weights at the prices. -/
def exactValue : ℚ :=
  (items.map fun item => (weight item * price item : ℚ) / unit item).sum

/-- Rounding every value down loses less than one for each item. -/
theorem exactValue_le_floor (unitPos : ∀ item, 0 < unit item) :
    exactValue items weight price unit ≤
      (items.map fun item => weight item * price item / unit item).sum + items.length := by
  unfold exactValue
  induction items with
  | nil => simp
  | cons item rest ih =>
      have one : (weight item * price item : ℚ) / unit item ≤
          (weight item * price item / unit item : Nat) + 1 := by
        have below := Nat.lt_div_mul_add (a := weight item * price item) (unitPos item)
        rw [div_le_iff₀ (by exact_mod_cast unitPos item)]
        have exact : weight item * price item ≤
            (weight item * price item / unit item + 1) * unit item := by
          rw [Nat.add_mul, Nat.one_mul]
          exact below.le
        exact_mod_cast exact
      simp only [List.map_cons, List.sum_cons, List.length_cons]
      push_cast at ih one ⊢
      linarith

/-- Shares of a payout by weight are worth at most the payout's part of the whole value. -/
theorem shares_value_le (share total : Nat) :
    (total : ℚ) * exactValue items (fun item => share * weight item / total) price unit ≤
      share * exactValue items weight price unit := by
  unfold exactValue
  induction items with
  | nil => simp
  | cons item rest ih =>
      have one : (total : ℚ) * (((share * weight item / total : Nat) : ℚ) * price item /
          unit item) ≤ share * (weight item * price item / unit item) := by
        have floored : total * (share * weight item / total) ≤ share * weight item :=
          Nat.mul_div_le _ _
        have cast : (total : ℚ) * ((share * weight item / total : Nat) : ℚ) ≤
            share * weight item := by exact_mod_cast floored
        calc (total : ℚ) * (((share * weight item / total : Nat) : ℚ) * price item / unit item)
            = (total * ((share * weight item / total : Nat) : ℚ)) *
                (price item / unit item) := by ring
          _ ≤ (share * weight item) * (price item / unit item) :=
              mul_le_mul_of_nonneg_right cast (by positivity)
          _ = share * (weight item * price item / unit item) := by ring
      simp only [List.map_cons, List.sum_cons, mul_add]
      exact add_le_add one ih

end Values

end Usd8Core.Lib.FloorShare
