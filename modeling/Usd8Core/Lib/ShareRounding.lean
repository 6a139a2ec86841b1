import Mathlib.Algebra.Order.Floor.Div
import Mathlib.Data.Nat.Basic
import Mathlib.Tactic.Common
import Mathlib.Tactic.Ring

/-!
# Rounding at a share price

A vault prices `shares` shares at `assets` assets.  It rounds what it gives down and what
it takes up, so a deposit loses its maker less than one share and one unit of assets, and
the shares a withdrawal takes are worth what was asked for.
-/

set_option autoImplicit false

namespace Usd8Core.Lib.ShareRounding

/-- What all shares are worth, virtual amounts included. -/
structure Price where
  assets : Nat
  shares : Nat

variable (price : Price)

def toShares (amount : Nat) : Nat := amount * price.shares / price.assets

def toAssets (amount : Nat) : Nat := amount * price.assets / price.shares

def toSharesUp (amount : Nat) : Nat := (amount * price.shares) ⌈/⌉ price.assets

/-- The price once `amount` was deposited. -/
def deposited (amount : Nat) : Price where
  assets := price.assets + amount
  shares := price.shares + toShares price amount

variable {price}

/-! ## Within one unit -/

theorem toShares_le (amount : Nat) : toShares price amount * price.assets ≤ amount * price.shares :=
  Nat.div_mul_le_self _ _

theorem lt_toShares_succ (assetsPos : 0 < price.assets) (amount : Nat) :
    amount * price.shares < (toShares price amount + 1) * price.assets := by
  rw [Nat.mul_comm (toShares price amount + 1)]
  exact Nat.lt_mul_div_succ _ assetsPos

theorem toAssets_le (amount : Nat) : toAssets price amount * price.shares ≤ amount * price.assets :=
  Nat.div_mul_le_self _ _

theorem lt_toAssets_succ (sharesPos : 0 < price.shares) (amount : Nat) :
    amount * price.assets < (toAssets price amount + 1) * price.shares := by
  rw [Nat.mul_comm (toAssets price amount + 1)]
  exact Nat.lt_mul_div_succ _ sharesPos

theorem le_toSharesUp (assetsPos : 0 < price.assets) (amount : Nat) :
    amount * price.shares ≤ toSharesUp price amount * price.assets := by
  rw [Nat.mul_comm (toSharesUp price amount)]
  exact (ceilDiv_le_iff_le_mul assetsPos).mp le_rfl

/-! ## Deposits -/

/-- A deposit does not lower the price. -/
theorem deposited_not_diluted (amount : Nat) :
    price.assets * (deposited price amount).shares ≤
      (deposited price amount).assets * price.shares := by
  have bought : toShares price amount * price.assets ≤ amount * price.shares := toShares_le amount
  calc price.assets * (price.shares + toShares price amount)
      = price.assets * price.shares + toShares price amount * price.assets := by ring
    _ ≤ price.assets * price.shares + amount * price.shares := Nat.add_le_add_left bought _
    _ = (price.assets + amount) * price.shares := by ring

/-- What a depositor holds is worth no less than before. -/
theorem toAssets_le_deposited (sharesPos : 0 < price.shares) (held amount : Nat) :
    toAssets price held ≤
      toAssets (deposited price amount) (held + toShares price amount) := by
  have afterPos : 0 < (deposited price amount).shares := Nat.add_pos_left sharesPos _
  rw [toAssets.eq_def (deposited price amount), Nat.le_div_iff_mul_le afterPos]
  apply Nat.le_of_mul_le_mul_right _ sharesPos
  calc toAssets price held * (deposited price amount).shares * price.shares
      = toAssets price held * price.shares * (deposited price amount).shares := by ring
    _ ≤ held * price.assets * (deposited price amount).shares :=
        Nat.mul_le_mul_right _ (toAssets_le held)
    _ = held * (price.assets * (deposited price amount).shares) := by ring
    _ ≤ held * ((deposited price amount).assets * price.shares) :=
        Nat.mul_le_mul_left _ (deposited_not_diluted amount)
    _ ≤ (held + toShares price amount) * (deposited price amount).assets * price.shares := by
        rw [Nat.mul_assoc]
        exact Nat.mul_le_mul_right _ (Nat.le_add_right _ _)

/-- A deposit is short by the value of one share and one unit at most: the shares bought
round down once, the values before and after once each in opposite directions. -/
theorem deposit_loss (assetsPos : 0 < price.assets) (sharesPos : 0 < price.shares)
    (held amount : Nat) :
    amount + toAssets price held ≤
      toAssets (deposited price amount) (held + toShares price amount) +
        (toAssets (deposited price amount) 1 + 1) := by
  have afterPos : 0 < (deposited price amount).shares := Nat.add_pos_left sharesPos _
  have worth := lt_toAssets_succ afterPos (held + toShares price amount)
  have unit := lt_toAssets_succ afterPos 1
  have before : toAssets price held * price.shares ≤ held * price.assets := toAssets_le held
  have bought := (lt_toShares_succ assetsPos amount).le
  have rises : price.assets * (deposited price amount).shares ≤
      (deposited price amount).assets * price.shares := deposited_not_diluted amount
  generalize toAssets (deposited price amount) (held + toShares price amount) = valueAfter at *
  generalize toAssets (deposited price amount) 1 = unitValue at *
  generalize toAssets price held = valueBefore at *
  generalize toShares price amount = minted at *
  apply Nat.le_of_lt_succ
  apply Nat.lt_of_mul_lt_mul_right (a := (deposited price amount).shares * price.shares)
  have received : (held + minted + 1) * (deposited price amount).assets <
      (valueAfter + unitValue + 2) * (deposited price amount).shares := by
    calc (held + minted + 1) * (deposited price amount).assets
        = (held + minted) * (deposited price amount).assets +
          1 * (deposited price amount).assets := by ring
      _ < (valueAfter + 1) * (deposited price amount).shares +
          (unitValue + 1) * (deposited price amount).shares := Nat.add_lt_add worth unit
      _ = (valueAfter + unitValue + 2) * (deposited price amount).shares := by ring
  calc (amount + valueBefore) * ((deposited price amount).shares * price.shares)
      = (amount * price.shares + valueBefore * price.shares) *
          (deposited price amount).shares := by ring
    _ ≤ ((minted + 1) * price.assets + held * price.assets) * (deposited price amount).shares :=
        Nat.mul_le_mul_right _ (Nat.add_le_add bought before)
    _ = (held + minted + 1) * (price.assets * (deposited price amount).shares) := by ring
    _ ≤ (held + minted + 1) * ((deposited price amount).assets * price.shares) :=
        Nat.mul_le_mul_left _ rises
    _ = (held + minted + 1) * (deposited price amount).assets * price.shares := by ring
    _ < (valueAfter + unitValue + 2) * (deposited price amount).shares * price.shares :=
        Nat.mul_lt_mul_of_pos_right received sharesPos
    _ = (valueAfter + (unitValue + 1) + 1) *
          ((deposited price amount).shares * price.shares) := by ring

/-! ## Withdrawals -/

/-- A withdrawal within the value of a holding takes no more than it. -/
theorem toSharesUp_le_of_le (assetsPos : 0 < price.assets) {held amount : Nat}
    (within : amount ≤ toAssets price held) : toSharesUp price amount ≤ held := by
  rw [toSharesUp, ceilDiv_le_iff_le_mul assetsPos]
  calc amount * price.shares ≤ toAssets price held * price.shares :=
        Nat.mul_le_mul_right _ within
    _ ≤ held * price.assets := toAssets_le held
    _ = price.assets * held := Nat.mul_comm _ _

/-- The shares a withdrawal takes pay for it. -/
theorem le_toAssets_toSharesUp (assetsPos : 0 < price.assets) (sharesPos : 0 < price.shares)
    (amount : Nat) : amount ≤ toAssets price (toSharesUp price amount) := by
  rw [toAssets, Nat.le_div_iff_mul_le sharesPos]
  exact le_toSharesUp assetsPos amount

/-- The worth of some of the shares, when at most one unit of the assets is virtual. -/
theorem toAssets_covered {assets shares virtualAssets virtualShares held : Nat}
    (solvent : virtualAssets = 0 ∨ virtualAssets = 1 ∧ 0 < virtualShares)
    (held_le : held ≤ shares) :
    toAssets ⟨assets + virtualAssets, shares + virtualShares⟩ held ≤ assets := by
  rcases solvent with rfl | ⟨rfl, virtualPos⟩
  · apply Nat.div_le_of_le_mul
    exact Nat.mul_le_mul_right _ (held_le.trans (Nat.le_add_right _ _))
  · apply Nat.le_of_lt_succ
    apply Nat.div_lt_of_lt_mul
    have fewer : held < shares + virtualShares := by omega
    exact Nat.mul_lt_mul_of_pos_right fewer (Nat.succ_pos _)

end Usd8Core.Lib.ShareRounding
