import Mathlib.Data.Nat.Basic
import Mathlib.Tactic.Common
import Mathlib.Tactic.Ring

/-!
# Vaults with virtual assets and shares

A vault issues shares against assets at the price
`(assets + virtual assets) / (shares + virtual shares)`.  Every conversion that
rounds in favour of the vault keeps that price from falling, and a limit that was
translated by one conversion is safe for the other.
-/

set_option autoImplicit false

namespace Usd8Core.Lib.VirtualShares

/-- The two totals a vault prices its shares by. -/
@[ext] structure Vault where
  assets : Nat
  shares : Nat

/-- What is added to the totals in every conversion. -/
structure Offset where
  assets : Nat
  shares : Nat
  assetsPos : 0 < assets
  sharesPos : 0 < shares

section Conversions

variable (offset : Offset) (vault : Vault)

def toSharesDown (amount : Nat) : Nat :=
  amount * (vault.shares + offset.shares) / (vault.assets + offset.assets)

def toAssetsDown (amount : Nat) : Nat :=
  amount * (vault.assets + offset.assets) / (vault.shares + offset.shares)

def toAssetsUp (amount : Nat) : Nat :=
  toAssetsDown offset vault amount +
    if amount * (vault.assets + offset.assets) % (vault.shares + offset.shares) > 0 then 1 else 0

variable {offset vault}

theorem assets_pos : 0 < vault.assets + offset.assets :=
  Nat.add_pos_right _ offset.assetsPos

theorem shares_pos : 0 < vault.shares + offset.shares :=
  Nat.add_pos_right _ offset.sharesPos

theorem toSharesDown_le (amount : Nat) :
    toSharesDown offset vault amount * (vault.assets + offset.assets) ≤
      amount * (vault.shares + offset.shares) := Nat.div_mul_le_self _ _

theorem toAssetsDown_le (amount : Nat) :
    toAssetsDown offset vault amount * (vault.shares + offset.shares) ≤
      amount * (vault.assets + offset.assets) := Nat.div_mul_le_self _ _

theorem le_toAssetsUp (amount : Nat) :
    amount * (vault.assets + offset.assets) ≤
      toAssetsUp offset vault amount * (vault.shares + offset.shares) := by
  unfold toAssetsUp toAssetsDown
  have positive : 0 < vault.shares + offset.shares := shares_pos
  generalize amount * (vault.assets + offset.assets) = product
  generalize vault.shares + offset.shares = divisor at positive ⊢
  have split := Nat.div_add_mod product divisor
  have below := Nat.mod_lt product positive
  rw [Nat.add_mul, Nat.mul_comm (product / divisor)]
  by_cases exact : product % divisor = 0
  · omega
  · rw [if_pos (Nat.pos_of_ne_zero exact)]
    omega

theorem toSharesDown_mono {amount more : Nat} (grows : amount ≤ more) :
    toSharesDown offset vault amount ≤ toSharesDown offset vault more :=
  Nat.div_le_div_right (Nat.mul_le_mul_right _ grows)

/-- A redeemer never takes the virtual assets with him. -/
theorem toAssetsDown_le_assets {amount : Nat} (inside : amount ≤ vault.shares) :
    toAssetsDown offset vault amount ≤ vault.assets + offset.assets := by
  apply Nat.div_le_of_le_mul
  apply Nat.mul_le_mul_right
  omega

/-- With one virtual unit of assets the vault covers every redemption. -/
theorem toAssetsDown_covered {amount : Nat} (one : offset.assets = 1)
    (inside : amount ≤ vault.shares) : toAssetsDown offset vault amount ≤ vault.assets := by
  have short : toAssetsDown offset vault amount < vault.assets + 1 := by
    apply Nat.div_lt_of_lt_mul
    rw [one]
    apply Nat.mul_lt_mul_of_pos_right _ (Nat.succ_pos _)
    have virtual := offset.sharesPos
    omega
  omega

/-- Shares bought within a translated limit stay within the limit. -/
theorem toSharesDown_le_of_le {amount limit : Nat}
    (within : amount ≤ toAssetsDown offset vault limit) :
    toSharesDown offset vault amount ≤ limit := by
  apply Nat.div_le_of_le_mul
  calc amount * (vault.shares + offset.shares)
      ≤ toAssetsDown offset vault limit * (vault.shares + offset.shares) :=
        Nat.mul_le_mul_right _ within
    _ ≤ limit * (vault.assets + offset.assets) := toAssetsDown_le limit
    _ = (vault.assets + offset.assets) * limit := Nat.mul_comm _ _

/-- The price of shares within a translated limit stays within the limit. -/
theorem toAssetsUp_le_of_le {amount limit : Nat}
    (within : amount ≤ toSharesDown offset vault limit) :
    toAssetsUp offset vault amount ≤ limit := by
  have covered : amount * (vault.assets + offset.assets) ≤
      limit * (vault.shares + offset.shares) :=
    (Nat.mul_le_mul_right _ within).trans (toSharesDown_le limit)
  unfold toAssetsUp toAssetsDown
  generalize amount * (vault.assets + offset.assets) = product at covered ⊢
  have positive : 0 < vault.shares + offset.shares := shares_pos
  generalize vault.shares + offset.shares = divisor at covered positive ⊢
  have floor : product / divisor ≤ limit := Nat.div_le_of_le_mul (by rwa [Nat.mul_comm])
  by_cases exact : product % divisor = 0
  · rw [if_neg (by omega)]
    exact floor
  · rw [if_pos (Nat.pos_of_ne_zero exact)]
    apply Nat.succ_le_of_lt
    rcases Nat.lt_or_eq_of_le floor with below | same
    · exact below
    · have split := Nat.div_add_mod product divisor
      rw [same, Nat.mul_comm] at split
      omega

end Conversions

/-! ## Vaults below par -/

/-- One unit of shares costs at most one unit of assets. -/
def BelowPar (offset : Offset) (vault : Vault) : Prop :=
  vault.assets + offset.assets ≤ vault.shares + offset.shares

namespace BelowPar

variable {offset : Offset} {vault : Vault}

theorem le_toSharesDown (below : BelowPar offset vault) (amount : Nat) :
    amount ≤ toSharesDown offset vault amount :=
  (Nat.le_div_iff_mul_le assets_pos).mpr (Nat.mul_le_mul_left amount below)

theorem toAssetsUp_le (below : BelowPar offset vault) (amount : Nat) :
    toAssetsUp offset vault amount ≤ amount :=
  toAssetsUp_le_of_le (below.le_toSharesDown amount)

/-- More shares than assets come in. -/
theorem issue {assets shares : Nat} (below : BelowPar offset vault) (more : assets ≤ shares) :
    BelowPar offset ⟨vault.assets + assets, vault.shares + shares⟩ := by
  unfold BelowPar at below ⊢
  simp only
  omega

/-- Assets leave. -/
theorem lose (below : BelowPar offset vault) (assets : Nat) :
    BelowPar offset ⟨vault.assets - assets, vault.shares⟩ := by
  unfold BelowPar at below ⊢
  simp only
  omega

/-- A floor at a price of at most one falls short of the amount by at most the gap. -/
theorem floor_gap {amount low high quotient : Nat} (below : low ≤ high)
    (short : quotient < low) (floor : amount * low < (quotient + 1) * high) :
    low + amount ≤ high + quotient := by
  obtain ⟨gap, rfl⟩ := Nat.exists_eq_add_of_le below
  by_contra above
  have excess : quotient + 1 + gap ≤ amount := by omega
  have reached : (quotient + 1) * (low + gap) ≤ amount * low := by
    calc (quotient + 1) * (low + gap)
        = (quotient + 1) * low + (quotient + 1) * gap := Nat.mul_add _ _ _
      _ ≤ (quotient + 1) * low + low * gap :=
          Nat.add_le_add_left (Nat.mul_le_mul_right gap short) _
      _ = (quotient + 1 + gap) * low := by ring
      _ ≤ amount * low := Nat.mul_le_mul_right low excess
  exact absurd floor (Nat.not_lt.mpr reached)

/-- Rounding down a redemption never lifts a vault above par. -/
theorem redeem {shares : Nat} (below : BelowPar offset vault)
    (enough : toAssetsDown offset vault shares ≤ vault.assets) :
    BelowPar offset
      ⟨vault.assets - toAssetsDown offset vault shares, vault.shares - shares⟩ := by
  have positive := offset.assetsPos
  have floor : shares * (vault.assets + offset.assets) <
      (toAssetsDown offset vault shares + 1) * (vault.shares + offset.shares) := by
    rw [Nat.mul_comm (_ + 1)]
    exact Nat.lt_mul_div_succ _ shares_pos
  have gap := floor_gap below (by omega) floor
  unfold BelowPar
  simp only
  omega

end BelowPar

/-! ## The share price -/

/-- The price after is at least the price before. -/
def NotDiluted (offset : Offset) (before after : Vault) : Prop :=
  (before.assets + offset.assets) * (after.shares + offset.shares) ≤
    (after.assets + offset.assets) * (before.shares + offset.shares)

namespace NotDiluted

variable {offset : Offset} {before middle after vault : Vault}

theorem refl (vault : Vault) : NotDiluted offset vault vault := le_rfl

theorem trans (first : NotDiluted offset before middle) (second : NotDiluted offset middle after) :
    NotDiluted offset before after := by
  have positive : 0 < middle.shares + offset.shares := shares_pos
  apply Nat.le_of_mul_le_mul_right _ positive
  calc (before.assets + offset.assets) * (after.shares + offset.shares) *
        (middle.shares + offset.shares)
      = (before.assets + offset.assets) * (middle.shares + offset.shares) *
          (after.shares + offset.shares) := by ring
    _ ≤ (middle.assets + offset.assets) * (before.shares + offset.shares) *
          (after.shares + offset.shares) := Nat.mul_le_mul_right _ first
    _ = (middle.assets + offset.assets) * (after.shares + offset.shares) *
          (before.shares + offset.shares) := by ring
    _ ≤ (after.assets + offset.assets) * (middle.shares + offset.shares) *
          (before.shares + offset.shares) := Nat.mul_le_mul_right _ second
    _ = (after.assets + offset.assets) * (before.shares + offset.shares) *
          (middle.shares + offset.shares) := by ring

/-- Shares sold at the price or above. -/
theorem issue {assets shares : Nat}
    (fair : shares * (vault.assets + offset.assets) ≤ assets * (vault.shares + offset.shares)) :
    NotDiluted offset vault ⟨vault.assets + assets, vault.shares + shares⟩ := by
  unfold NotDiluted
  calc (vault.assets + offset.assets) * (vault.shares + shares + offset.shares)
      = (vault.assets + offset.assets) * (vault.shares + offset.shares) +
          shares * (vault.assets + offset.assets) := by ring
    _ ≤ (vault.assets + offset.assets) * (vault.shares + offset.shares) +
          assets * (vault.shares + offset.shares) := Nat.add_le_add_left fair _
    _ = (vault.assets + assets + offset.assets) * (vault.shares + offset.shares) := by ring

/-- Shares redeemed at the price or below. -/
theorem redeem {assets shares : Nat} (enough : assets ≤ vault.assets)
    (inside : shares ≤ vault.shares)
    (fair : assets * (vault.shares + offset.shares) ≤ shares * (vault.assets + offset.assets)) :
    NotDiluted offset vault ⟨vault.assets - assets, vault.shares - shares⟩ := by
  unfold NotDiluted
  obtain ⟨left, leftEq⟩ := Nat.exists_eq_add_of_le enough
  obtain ⟨rest, restEq⟩ := Nat.exists_eq_add_of_le inside
  rw [leftEq, restEq] at fair ⊢
  rw [Nat.add_sub_cancel_left, Nat.add_sub_cancel_left]
  have gained : assets * (rest + offset.shares) ≤ shares * (left + offset.assets) := by
    have both : assets * (shares + rest + offset.shares) =
        assets * (rest + offset.shares) + assets * shares := by ring
    have other : shares * (assets + left + offset.assets) =
        shares * (left + offset.assets) + assets * shares := by ring
    omega
  calc (assets + left + offset.assets) * (rest + offset.shares)
      = (left + offset.assets) * (rest + offset.shares) +
          assets * (rest + offset.shares) := by ring
    _ ≤ (left + offset.assets) * (rest + offset.shares) +
          shares * (left + offset.assets) := Nat.add_le_add_left gained _
    _ = (left + offset.assets) * (shares + rest + offset.shares) := by ring

end NotDiluted

end Usd8Core.Lib.VirtualShares
