import Usd8Core.Lib.CheckedCall
import Mathlib.Algebra.BigOperators.Group.List.Basic
import Mathlib.Tactic.Ring
import Mathlib.Tactic.Linarith

/-!
# Redemptions at par or pro rata

A supply is redeemable against a reserve whose unit is worth `scale` units of the
supply.  A redeemer gets par while the reserve covers the supply and his share of
the reserve otherwise, rounded down twice.  Rounding leaves the rest better off, so
redeeming in parts never beats redeeming at once.
-/

set_option autoImplicit false

namespace Usd8Core.Lib.ProRata

variable {scale reserve supply amount : Nat}

/-- What `amount` of the supply is redeemed for. -/
def payout (scale reserve supply amount : Nat) : Nat :=
  amount * min (reserve * scale) supply / supply / scale

/-- The payouts of redemptions made one after another. -/
def payouts (scale : Nat) : Nat → Nat → List Nat → List Nat
  | _, _, [] => []
  | reserve, supply, amount :: later =>
      payout scale reserve supply amount ::
        payouts scale (reserve - payout scale reserve supply amount) (supply - amount) later

theorem payout_mul_scale_le (effective : Nat) (capped : effective ≤ supply) :
    amount * effective / supply / scale * scale ≤ amount := by
  calc amount * effective / supply / scale * scale
      ≤ amount * effective / supply := Nat.div_mul_le_self _ _
    _ ≤ amount * supply / supply := Nat.div_le_div_right (Nat.mul_le_mul_left _ capped)
    _ ≤ amount := by
        rcases Nat.eq_zero_or_pos supply with rfl | positive
        · simp
        · rw [Nat.mul_div_cancel _ positive]

/-- A redeemer never gets more than par. -/
theorem payout_le_par : payout scale reserve supply amount * scale ≤ amount :=
  payout_mul_scale_le _ (Nat.min_le_right _ _)

/-- A redeemer never gets more than his share. -/
theorem payout_le_share (scalePos : 0 < scale) :
    payout scale reserve supply amount * supply ≤ amount * reserve := by
  have rounded : payout scale reserve supply amount * scale * supply ≤
      amount * reserve * scale := by
    calc payout scale reserve supply amount * scale * supply
        ≤ amount * min (reserve * scale) supply / supply * supply :=
          Nat.mul_le_mul_right _ (Nat.div_mul_le_self _ _)
      _ ≤ amount * min (reserve * scale) supply := Nat.div_mul_le_self _ _
      _ ≤ amount * (reserve * scale) := Nat.mul_le_mul_left _ (Nat.min_le_left _ _)
      _ = amount * reserve * scale := by ring
  apply Nat.le_of_mul_le_mul_right _ scalePos
  calc payout scale reserve supply amount * supply * scale
      = payout scale reserve supply amount * scale * supply := by ring
    _ ≤ amount * reserve * scale := rounded

theorem payout_le_reserve (scalePos : 0 < scale) (inside : amount ≤ supply) :
    payout scale reserve supply amount ≤ reserve := by
  rcases Nat.eq_zero_or_pos supply with rfl | positive
  · simp [payout]
  · apply Nat.le_of_mul_le_mul_right _ positive
    calc payout scale reserve supply amount * supply
        ≤ amount * reserve := payout_le_share scalePos
      _ ≤ reserve * supply := by
          rw [Nat.mul_comm]
          exact Nat.mul_le_mul_left _ inside

/-! ## What a redemption leaves behind -/

/-- A covered supply stays covered. -/
theorem covered_after (covered : supply ≤ reserve * scale) :
    supply - amount ≤ (reserve - payout scale reserve supply amount) * scale := by
  have par : payout scale reserve supply amount * scale ≤ amount := payout_le_par
  rw [Nat.sub_mul]
  omega

/-- The reserve per unit of supply never falls. -/
theorem ratio_after (scalePos : 0 < scale) :
    reserve * (supply - amount) ≤
      (reserve - payout scale reserve supply amount) * supply := by
  have share : payout scale reserve supply amount * supply ≤ amount * reserve :=
    payout_le_share scalePos
  rw [Nat.mul_sub, Nat.sub_mul, Nat.mul_comm reserve amount]
  omega

/-- New supply issued at par does not dilute a reserve below par. -/
theorem ratio_issued (deposit : Nat) (short : reserve * scale ≤ supply) :
    reserve * (supply + deposit * scale) ≤ (reserve + deposit) * supply := by
  calc reserve * (supply + deposit * scale)
      = reserve * supply + deposit * (reserve * scale) := by ring
    _ ≤ reserve * supply + deposit * supply :=
        Nat.add_le_add_left (Nat.mul_le_mul_left _ short) _
    _ = (reserve + deposit) * supply := by ring

/-! ## Splitting a redemption -/

theorem payout_covered (supplyPos : 0 < supply) (covered : supply ≤ reserve * scale) :
    payout scale reserve supply amount = amount / scale := by
  rw [payout, Nat.min_eq_right covered, Nat.mul_div_cancel _ supplyPos]

theorem payout_short (scalePos : 0 < scale) (short : reserve * scale ≤ supply) :
    payout scale reserve supply amount = amount * reserve / supply := by
  rw [payout, Nat.min_eq_left short, Nat.div_div_eq_div_mul, ← Nat.mul_assoc,
    Nat.mul_div_mul_right _ _ scalePos]

/-- Two redemptions below par, the second one at most at the new share. -/
theorem split_below_par (first second paid next : Nat) (inside : first + second ≤ supply)
    (firstShare : paid * supply ≤ first * reserve) (within : paid ≤ reserve)
    (secondShare : next * (supply - first) ≤ second * (reserve - paid)) :
    (paid + next) * supply ≤ (first + second) * reserve ∨ supply = first := by
  obtain ⟨left, supplyEq⟩ := Nat.exists_eq_add_of_le (le_of_add_le_left inside)
  obtain ⟨rest, reserveEq⟩ := Nat.exists_eq_add_of_le within
  subst supplyEq reserveEq
  rcases Nat.eq_zero_or_pos left with none | positive
  · right
    omega
  · left
    have secondInside : second ≤ left := by omega
    rw [Nat.add_sub_cancel_left, Nat.add_sub_cancel_left] at secondShare
    obtain ⟨others, leftEq⟩ := Nat.exists_eq_add_of_le secondInside
    apply Nat.le_of_mul_le_mul_right _ positive
    calc (paid + next) * (first + left) * left
        = paid * (first + left) * left + next * left * (first + left) := by ring
      _ ≤ paid * (first + left) * left + second * rest * (first + left) :=
          Nat.add_le_add_left (Nat.mul_le_mul_right _ secondShare) _
      _ = paid * (first + left) * others + second * (paid + rest) * (first + left) := by
          rw [leftEq]
          ring
      _ ≤ first * (paid + rest) * others + second * (paid + rest) * (first + left) :=
          Nat.add_le_add_right (Nat.mul_le_mul_right _ firstShare) _
      _ = (first + second) * (paid + rest) * left := by
          rw [leftEq]
          ring

/-- Two redemptions pay at most what one of their sum pays. -/
theorem payout_split (scalePos : 0 < scale) (first second : Nat)
    (inside : first + second ≤ supply) :
    payout scale reserve supply first +
        payout scale (reserve - payout scale reserve supply first) (supply - first) second ≤
      payout scale reserve supply (first + second) := by
  rcases Nat.eq_or_lt_of_le (le_of_add_le_left inside) with all | more
  · have none : second = 0 := by omega
    subst none
    simp [payout]
  have supplyPos : 0 < supply := by omega
  rcases Nat.le_total supply (reserve * scale) with covered | short
  · rw [payout_covered supplyPos covered, payout_covered supplyPos covered, payout_covered]
    · exact Nat.div_add_div_le_add_div
    · omega
    · have after : supply - first ≤ (reserve - payout scale reserve supply first) * scale :=
        covered_after covered
      rwa [payout_covered supplyPos covered] at after
  · have total : payout scale reserve supply (first + second) =
        (first + second) * reserve / supply := payout_short scalePos short
    rw [total, Nat.le_div_iff_mul_le supplyPos]
    have firstShare : payout scale reserve supply first * supply ≤ first * reserve :=
      payout_le_share scalePos
    have split := split_below_par first second _ _ inside firstShare
      (payout_le_reserve scalePos (le_of_add_le_left inside)) (payout_le_share scalePos)
    exact split.resolve_right (Nat.ne_of_gt more)

/-- Any number of redemptions pays at most what one of their sum pays. -/
theorem sum_payouts_le (scalePos : 0 < scale) (amounts : List Nat)
    (inside : amounts.sum ≤ supply) :
    (payouts scale reserve supply amounts).sum ≤ payout scale reserve supply amounts.sum := by
  induction amounts generalizing reserve supply with
  | nil => simp [payouts]
  | cons amount later ih =>
      rw [List.sum_cons] at inside
      have laterInside : later.sum ≤ supply - amount := by omega
      rw [payouts, List.sum_cons, List.sum_cons]
      calc payout scale reserve supply amount +
            (payouts scale (reserve - payout scale reserve supply amount) (supply - amount)
              later).sum
          ≤ payout scale reserve supply amount +
            payout scale (reserve - payout scale reserve supply amount) (supply - amount)
              later.sum := Nat.add_le_add_left (ih laterInside) _
        _ ≤ payout scale reserve supply (amount + later.sum) :=
            payout_split scalePos amount later.sum inside

theorem payouts_append (scale reserve supply : Nat) (amounts : List Nat) (last : Nat) :
    payouts scale reserve supply (amounts ++ [last]) =
      payouts scale reserve supply amounts ++
        [payout scale (reserve - (payouts scale reserve supply amounts).sum)
          (supply - amounts.sum) last] := by
  induction amounts generalizing reserve supply with
  | nil => rfl
  | cons amount later ih =>
      rw [List.cons_append, payouts, ih, payouts, List.sum_cons, List.sum_cons,
        ← Nat.sub_sub, ← Nat.sub_sub]
      rfl

end Usd8Core.Lib.ProRata
