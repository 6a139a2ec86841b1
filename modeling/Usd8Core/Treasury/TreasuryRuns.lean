import Usd8Core.Treasury.TreasuryCalls
import Usd8Core.Chain.RegistryCalls

/-!
# Runs of the Treasury

USD8 that is backed stays backed whatever the order of the operations, and no way of
splitting a redemption pays more than redeeming at once.
-/

set_option autoImplicit false

namespace Usd8Core.Treasury

open Usd8Core.Lib.ByteWords
open Usd8Core.Lib.CheckedCall
open Usd8Core.Lib.FiniteLedger
open Usd8Core.Lib.ProRata
open Usd8Core.Lib.TraceRun
open Usd8Core.Chain

namespace TreasuryState

variable {σ : Type} {contracts : ExternalContracts σ} {self : Address}

/-! ## Steps -/

section Steps

variable {t next : TreasuryState σ} {tx : TreasuryTx}

theorem step_ok (run : step contracts self t tx = .ok next) :
    t.External self tx.sender ∧ t.exec contracts self tx.sender tx.operation = .ok next := by
  obtain ⟨_, external, run⟩ := (bind_ok_iff _ _ _).mp run
  exact ⟨not_not.mp ((revertIf_ok_iff _ _ _).mp external), run⟩

theorem step_mint_ok (preserving : ValuePreserving contracts self) (usdcAmount : Nat)
    (operation : tx.operation = .mintUSD8 usdcAmount)
    (run : step contracts self t tx = .ok next) : Minted contracts self t next usdcAmount := by
  obtain ⟨external, run⟩ := step_ok run
  rw [operation] at run
  exact mintBody_ok preserving usdcAmount external (statusCheck_ok _ run)

theorem step_redeem_ok (preserving : ValuePreserving contracts self)
    (usd8Amount minUsdcOut : Nat) (operation : tx.operation = .redeemUSD8 usd8Amount minUsdcOut)
    (run : step contracts self t tx = .ok next) :
    ∃ paid reserve, Redeemed contracts self t next usd8Amount paid reserve := by
  obtain ⟨external, run⟩ := step_ok run
  rw [operation] at run
  exact redeemBody_ok preserving usd8Amount minUsdcOut external (statusCheck_ok _ run)

theorem Minted.backed {usdcAmount : Nat} (minted : Minted contracts self t next usdcAmount)
    (backed : t.Backed contracts self) : next.Backed contracts self := by
  obtain ⟨reserve, holds, covered⟩ := backed
  refine ⟨_, minted.reserve reserve holds, ?_⟩
  rw [minted.supply, Nat.add_mul]
  exact Nat.add_le_add_right covered _

theorem Redeemed.backed {usd8Amount paid reserve : Nat}
    (redeemed : Redeemed contracts self t next usd8Amount paid reserve)
    (backed : t.Backed contracts self) : next.Backed contracts self := by
  obtain ⟨other, holds, covered⟩ := backed
  rw [holds.unique (getReserveBalance_isReserve redeemed.valued)] at covered
  refine ⟨_, redeemed.reserveAfter, ?_⟩
  rw [redeemed.supply, redeemed.paidEq]
  exact covered_after covered

theorem step_backed (preserving : ValuePreserving contracts self)
    (backed : t.Backed contracts self) (run : step contracts self t tx = .ok next) :
    next.Backed contracts self := by
  cases operation : tx.operation with
  | mintUSD8 usdcAmount =>
      exact Minted.backed (step_mint_ok preserving usdcAmount operation run) backed
  | redeemUSD8 usd8Amount minUsdcOut =>
      obtain ⟨paid, reserve, redeemed⟩ :=
        step_redeem_ok preserving usd8Amount minUsdcOut operation run
      exact Redeemed.backed redeemed backed
  | depositToStrategy strategy amount =>
      obtain ⟨-, run⟩ := step_ok run
      rw [operation] at run
      exact (depositToStrategy_noLoss preserving strategy amount run).backed backed
  | withdrawFromStrategy strategy amount =>
      obtain ⟨-, run⟩ := step_ok run
      rw [operation] at run
      exact (withdrawFromStrategy_noLoss preserving strategy amount run).backed backed
  | harvestAndDistribute =>
      obtain ⟨-, run⟩ := step_ok run
      rw [operation] at run
      obtain ⟨⟨final, result⟩, harvestRun, same⟩ := (bind_ok_iff _ _ _).mp run
      cases (pure_ok_iff _ _).mp same
      exact harvestAndDistribute_backed preserving result backed harvestRun

/-- Minting or redeeming. -/
def Operation.IsUser : Operation → Prop
  | .mintUSD8 _ => True
  | .redeemUSD8 _ _ => True
  | _ => False

theorem user_step_ratio (preserving : ValuePreserving contracts self) (reserve : Nat)
    (user : Operation.IsUser tx.operation) (holds : t.IsReserve contracts self reserve)
    (short : reserve * usdcToUsd8Scale < t.usd8.totalSupply)
    (run : step contracts self t tx = .ok next) :
    ∃ reserveAfter, next.IsReserve contracts self reserveAfter ∧
      reserve * next.usd8.totalSupply ≤ reserveAfter * t.usd8.totalSupply := by
  cases operation : tx.operation with
  | mintUSD8 usdcAmount =>
      have minted := step_mint_ok preserving usdcAmount operation run
      exact ⟨_, Minted.reserve minted reserve holds,
        (minted_notWorse usdcAmount minted).ratio short⟩
  | redeemUSD8 usd8Amount minUsdcOut =>
      obtain ⟨paid, valued, redeemed⟩ :=
        step_redeem_ok preserving usd8Amount minUsdcOut operation run
      have same := holds.unique (getReserveBalance_isReserve redeemed.valued)
      subst same
      exact ⟨_, redeemed.reserveAfter, (redeemed_notWorse redeemed).ratio short⟩
  | depositToStrategy strategy amount =>
      rw [operation] at user
      exact absurd user id
  | withdrawFromStrategy strategy amount =>
      rw [operation] at user
      exact absurd user id
  | harvestAndDistribute =>
      rw [operation] at user
      exact absurd user id

theorem user_step_avoids (preserving : ValuePreserving contracts self)
    (user : Operation.IsUser tx.operation) : Avoids IsWorsened (step contracts self t tx) := by
  refine avoids_revertIf_bind _ _ _ (fun _ => id) fun external => ?_
  have isExternal := not_not.mp external
  cases operation : tx.operation with
  | mintUSD8 usdcAmount => exact mintUSD8_avoids preserving usdcAmount isExternal
  | redeemUSD8 usd8Amount minUsdcOut =>
      exact redeemUSD8_avoids preserving usd8Amount minUsdcOut isExternal
  | depositToStrategy strategy amount =>
      rw [operation] at user
      exact absurd user id
  | withdrawFromStrategy strategy amount =>
      rw [operation] at user
      exact absurd user id
  | harvestAndDistribute =>
      rw [operation] at user
      exact absurd user id

end Steps

/-! ## Consecutive redemptions -/

section Redemptions

variable {t final : TreasuryState σ} {steps : List (Transition (TreasuryState σ) TreasuryTx)}

/-- The USD8 amount a transition redeems. -/
def redeemedAmount (transition : Transition (TreasuryState σ) TreasuryTx) : Nat :=
  match transition.action.operation with
  | .redeemUSD8 usd8Amount _ => usd8Amount
  | _ => 0

def Redemption (transition : Transition (TreasuryState σ) TreasuryTx) : Prop :=
  ∃ usd8Amount minUsdcOut, transition.action.operation = .redeemUSD8 usd8Amount minUsdcOut

/-- After a row of redemptions, in terms of the state before it. -/
structure RedeemedAll (contracts : ExternalContracts σ) (treasury : Address)
    (t final : TreasuryState σ) (reserve : Nat) (amounts : List Nat) : Prop where
  inside : amounts.sum ≤ t.usd8.totalSupply
  supply : final.usd8.totalSupply = t.usd8.totalSupply - amounts.sum
  reserveAfter : final.IsReserve contracts treasury
    (reserve - (payouts usdcToUsd8Scale reserve t.usd8.totalSupply amounts).sum)
  totalPaid : final.totalPaid = t.totalPaid +
    (payouts usdcToUsd8Scale reserve t.usd8.totalSupply amounts).sum

theorem redemptions_run (preserving : ValuePreserving contracts self) (reserve : Nat)
    (holds : t.IsReserve contracts self reserve)
    (run : IsRun (step contracts self) t steps final)
    (redemptions : ∀ transition ∈ steps, Redemption transition) :
    RedeemedAll contracts self t final reserve (steps.map redeemedAmount) := by
  induction run with
  | nil => exact ⟨Nat.zero_le _, rfl, holds, rfl⟩
  | snoc steps middle action final run last ih =>
      have before := ih (fun transition member =>
        redemptions transition (List.mem_append_left _ member))
      obtain ⟨usd8Amount, minUsdcOut, operation⟩ := redemptions ⟨middle, action, final⟩ (by simp)
      obtain ⟨paid, valued, redeemed⟩ :=
        step_redeem_ok preserving usd8Amount minUsdcOut operation last
      have valuedEq := (getReserveBalance_isReserve redeemed.valued).unique before.reserveAfter
      have paidEq := redeemed.paidEq
      have insideMiddle := redeemed.inside
      have inside := before.inside
      rw [valuedEq, before.supply] at paidEq
      rw [before.supply] at insideMiddle
      have amountEq : redeemedAmount ⟨middle, action, final⟩ = usd8Amount := by
        simp only [redeemedAmount] at operation ⊢
        rw [operation]
      rw [List.map_append, List.map_singleton, amountEq]
      refine ⟨?_, ?_, ?_, ?_⟩
      · rw [List.sum_append, List.sum_singleton]
        omega
      · rw [redeemed.supply, before.supply, List.sum_append, List.sum_singleton, Nat.sub_sub]
      · rw [payouts_append, List.sum_append, List.sum_singleton, ← Nat.sub_sub, ← paidEq,
          ← valuedEq]
        exact redeemed.reserveAfter
      · rw [redeemed.totalPaid, before.totalPaid, payouts_append, List.sum_append,
          List.sum_singleton, ← paidEq, Nat.add_assoc]

theorem RedeemedAll.paid_le {reserve : Nat} {amounts : List Nat}
    (all : RedeemedAll contracts self t final reserve amounts) :
    final.totalPaid ≤ t.totalPaid +
      payout usdcToUsd8Scale reserve t.usd8.totalSupply amounts.sum := by
  rw [all.totalPaid]
  exact Nat.add_le_add_left (sum_payouts_le usdcToUsd8Scale_pos amounts all.inside) _

/-- The first redemption of a row values the reserve. -/
theorem first_redemption (preserving : ValuePreserving contracts self) (nonempty : steps ≠ [])
    (run : IsRun (step contracts self) t steps final)
    (redemptions : ∀ transition ∈ steps, Redemption transition) :
    ∃ next usd8Amount paid reserve,
      Redeemed contracts self t next usd8Amount paid reserve := by
  cases steps with
  | nil => exact absurd rfl nonempty
  | cons first later =>
      obtain ⟨before, ran, -⟩ := IsRun.split_at [] later first run
      obtain ⟨usd8Amount, minUsdcOut, operation⟩ := redemptions first (List.mem_cons_self ..)
      rw [before.nil_inv] at ran
      obtain ⟨paid, reserve, redeemed⟩ :=
        step_redeem_ok preserving usd8Amount minUsdcOut operation ran
      exact ⟨_, usd8Amount, paid, reserve, redeemed⟩

theorem redemptions_within_quote (preserving : ValuePreserving contracts self)
    (nonempty : steps ≠ []) (run : IsRun (step contracts self) t steps final)
    (redemptions : ∀ transition ∈ steps, Redemption transition) :
    ∃ quote, t.redeemQuote contracts self (steps.map redeemedAmount).sum = .ok quote ∧
      final.totalPaid ≤ t.totalPaid + quote := by
  obtain ⟨next, usd8Amount, paid, reserve, first⟩ :=
    first_redemption preserving nonempty run redemptions
  have all := redemptions_run preserving reserve (getReserveBalance_isReserve first.valued) run
    redemptions
  exact ⟨_, redeemQuote_total reserve _ first.valued first.nonzero first.fits all.inside,
    all.paid_le⟩

theorem redemptions_within_one (preserving : ValuePreserving contracts self)
    (run : IsRun (step contracts self) t steps final)
    (redemptions : ∀ transition ∈ steps, Redemption transition) (sender : Address)
    (minUsdcOut : Nat) (one : TreasuryState σ)
    (ran : step contracts self t
      ⟨sender, .redeemUSD8 (steps.map redeemedAmount).sum minUsdcOut⟩ = .ok one) :
    final.totalPaid ≤ one.totalPaid := by
  obtain ⟨paid, reserve, redeemed⟩ := step_redeem_ok preserving _ minUsdcOut rfl ran
  have all := redemptions_run preserving reserve (getReserveBalance_isReserve redeemed.valued) run
    redemptions
  rw [redeemed.totalPaid, redeemed.paidEq]
  exact all.paid_le

end Redemptions

/-! ## Backing over whole runs -/

/-- With contracts around the Treasury that lose no value: a backed supply stays backed,
below par no user operation lowers the reserve per USD8, none is refused for worsening
the status, and redemptions in a row pay at most what one of their sum pays. -/
theorem treasury_stays_backed (preserving : ValuePreserving contracts self) :
    (∀ t steps final, IsRun (step contracts self) t steps final →
      t.Backed contracts self → final.Backed contracts self) ∧
    (∀ t tx next reserve, Operation.IsUser tx.operation →
      t.IsReserve contracts self reserve →
      reserve * usdcToUsd8Scale < t.usd8.totalSupply →
      step contracts self t tx = .ok next →
      ∃ reserveAfter, next.IsReserve contracts self reserveAfter ∧
        reserve * next.usd8.totalSupply ≤ reserveAfter * t.usd8.totalSupply) ∧
    (∀ t tx, Operation.IsUser tx.operation →
      ∀ reserveBefore supplyBefore reserveAfter supplyAfter,
        step contracts self t tx ≠ .error
          (.reserveSupplyStatusWorsened reserveBefore supplyBefore reserveAfter supplyAfter)) ∧
    ∀ t steps final, IsRun (step contracts self) t steps final →
      (∀ transition ∈ steps, Redemption transition) →
      (steps ≠ [] → ∃ quote,
        t.redeemQuote contracts self (steps.map redeemedAmount).sum = .ok quote ∧
          final.totalPaid ≤ t.totalPaid + quote) ∧
      ∀ sender minUsdcOut one,
        step contracts self t
          ⟨sender, .redeemUSD8 (steps.map redeemedAmount).sum minUsdcOut⟩ = .ok one →
        final.totalPaid ≤ one.totalPaid := by
  refine ⟨?_, ?_, ?_, ?_⟩
  · intro t steps final run backed
    exact run.invariant (fun state => state.Backed contracts self) backed
      (fun state tx next holds ran => step_backed preserving holds ran)
  · intro t tx next reserve user holds short ran
    exact user_step_ratio preserving reserve user holds short ran
  · intro t tx user reserveBefore supplyBefore reserveAfter supplyAfter failed
    exact user_step_avoids preserving user _ failed trivial
  · intro t steps final run redemptions
    exact ⟨fun nonempty => redemptions_within_quote preserving nonempty run redemptions,
      fun sender minUsdcOut one ran =>
        redemptions_within_one preserving run redemptions sender minUsdcOut one ran⟩

end TreasuryState

/-! ## A Treasury with one vault -/

/-- USDC balances and what each vault holds for the Treasury. -/
structure VaultState where
  usdc : Address → Nat
  assets : Address → Nat

/-- A standard token, vaults without fees and receivers that take their share. -/
def vaultContracts (treasury : Address) : ExternalContracts VaultState where
  usdcBalance vaults := vaults.usdc
  usdcTransfer vaults sender recipient amount :=
    if amount ≤ vaults.usdc sender then
      some { vaults with usdc := moveBalance vaults.usdc sender recipient amount }
    else none
  totalAssets vaults strategy := some (vaults.assets strategy)
  deploy vaults strategy amount :=
    if amount ≤ vaults.usdc strategy then
      some
        { usdc := Function.update vaults.usdc strategy (vaults.usdc strategy - amount)
          assets := Function.update vaults.assets strategy (vaults.assets strategy + amount) }
    else none
  withdraw vaults strategy amount :=
    if amount ≤ vaults.assets strategy then
      some
        { usdc := Function.update vaults.usdc treasury (vaults.usdc treasury + amount)
          assets := Function.update vaults.assets strategy (vaults.assets strategy - amount) }
    else none
  receiveProfitDistribution vaults usd8 receiver share :=
    match usd8.transfer treasury receiver share with
    | .ok moved => some (vaults, moved)
    | .error _ => none

theorem vaultContracts_preserving (treasury : Address) :
    ValuePreserving (vaultContracts treasury) treasury where
  collected := by
    intro vaults after user amount differ run
    obtain ⟨enough, ⟨⟩⟩ := Option.ite_none_right_eq_some.mp run
    exact ⟨moveBalance_payee _ _ _ _ (Ne.symm differ), fun _ _ => rfl⟩
  paid := by
    intro vaults after user amount differ run
    obtain ⟨enough, ⟨⟩⟩ := Option.ite_none_right_eq_some.mp run
    refine ⟨?_, fun _ _ => rfl⟩
    have left := moveBalance_payer vaults.usdc treasury user amount (Ne.symm differ)
    simp only [vaultContracts] at left ⊢
    omega
  deployed := by
    intro vaults pushed after strategy amount transferred run
    obtain ⟨enough, ⟨⟩⟩ := Option.ite_none_right_eq_some.mp transferred
    obtain ⟨held, ⟨⟩⟩ := Option.ite_none_right_eq_some.mp run
    refine ⟨?_, ⟨vaults.assets strategy, rfl, by simp [vaultContracts]⟩, ?_⟩
    · by_cases same : treasury = strategy
      · subst same
        simp only [vaultContracts, Function.update_self]
        rw [moveBalance_self _ _ _ enough]
        omega
      · simp only [vaultContracts, Function.update_of_ne same]
        rw [moveBalance_payer _ _ _ _ same]
        omega
    · intro other differ
      simp [vaultContracts, Function.update_of_ne differ]
  withdrawn := by
    intro vaults after strategy amount run
    obtain ⟨enough, ⟨⟩⟩ := Option.ite_none_right_eq_some.mp run
    refine ⟨by simp [vaultContracts],
      ⟨vaults.assets strategy - amount, ?_, by simp [vaultContracts]⟩, ?_⟩
    · simp only [vaultContracts, Option.some.injEq]
      omega
    · intro other differ
      simp [vaultContracts, Function.update_of_ne differ]
  received := by
    intro vaults after usd8 moved receiver share run
    simp only [vaultContracts] at run
    split at run
    next transferred =>
      cases run
      exact ⟨le_rfl, TreasuryState.transfer_supply transferred, fun _ => rfl⟩
    next => cases run

namespace SampleTreasury

def self : Address := Address.ofNat 50
def timelock : Address := Address.ofNat 1
def vault : Address := Address.ofNat 70
def saver : Address := Address.ofNat 80
def alice : Address := Address.ofNat 100

/-- All USD8 in one hand. -/
def issued (amount : Nat) (fits : amount < uintBound 256) : Usd8 where
  balances := Function.update (fun _ => 0) alice amount
  totalSupply := amount
  sound := by
    rw [Finset.sum_update_of_mem (Finset.mem_univ _)]
    simp
  fits := fits

/-- 400 idle, 600 in the vault and 50 with alice, against an issue of her choice. -/
def start (amount : Nat) (fits : amount < uintBound 256) : TreasuryState VaultState where
  registry := { Registry.initial timelock timelock with treasury := self }
  external :=
    { usdc := Function.update (Function.update (fun _ => 0) self 400) alice 50
      assets := Function.update (fun _ => 0) vault 600 }
  usd8 := issued amount fits
  harvestBufferDivisorSlot := 0
  strategies := [vault]
  distinct := List.nodup_singleton vault
  profitReceivers := [⟨saver, 3, .receiveProfitDistribution⟩]
  events := []

def backed : TreasuryState VaultState := start (900 * usdcToUsd8Scale) (by decide)

def short : TreasuryState VaultState := start (1100 * usdcToUsd8Scale) (by decide)

def operations : List TreasuryState.TreasuryTx :=
  [⟨alice, .mintUSD8 50⟩, ⟨timelock, .depositToStrategy vault 300⟩,
    ⟨alice, .redeemUSD8 (500 * usdcToUsd8Scale) 500⟩,
    ⟨timelock, .withdrawFromStrategy vault 100⟩, ⟨timelock, .harvestAndDistribute⟩]

def redemptions : List TreasuryState.TreasuryTx :=
  [⟨alice, .redeemUSD8 (300 * usdcToUsd8Scale) 0⟩, ⟨alice, .redeemUSD8 (700 * usdcToUsd8Scale) 0⟩]

end SampleTreasury

open SampleTreasury in
/-- All five operations on the backed Treasury, and two redemptions on the short one. -/
theorem sampleTreasury_stays_backed :
    (∃ steps final, IsRun (TreasuryState.step (vaultContracts self) self) backed steps final ∧
      steps.length = 5 ∧ final.Backed (vaultContracts self) self) ∧
    ∃ steps final quote, IsRun (TreasuryState.step (vaultContracts self) self) short steps final ∧
      steps.map Transition.action = redemptions ∧
      short.redeemQuote (vaultContracts self) self (1000 * usdcToUsd8Scale) = .ok quote ∧
      final.totalPaid ≤ short.totalPaid + quote := by
  have theorems := TreasuryState.treasury_stays_backed (vaultContracts_preserving self)
  constructor
  · have passed : endsIn (TreasuryState.step (vaultContracts self) self) backed operations
        (fun steps _ => steps.length == 5) = true := by decide +kernel
    obtain ⟨steps, final, run, checked⟩ := endsIn_isRun _ _ passed
    refine ⟨steps, final, run, beq_iff_eq.mp checked, ?_⟩
    apply theorems.1 backed steps final run
    refine ⟨1000, ⟨fun _ => 600, by simp [backed, start, vaultContracts], ?_⟩, by decide⟩
    decide
  · have passed : endsIn (TreasuryState.step (vaultContracts self) self) short redemptions
        (fun steps _ => steps.map Transition.action == redemptions) = true := by decide +kernel
    obtain ⟨steps, final, run, checked⟩ := endsIn_isRun _ _ passed
    have actions := beq_iff_eq.mp checked
    have amounts : steps.map TreasuryState.redeemedAmount =
        [300 * usdcToUsd8Scale, 700 * usdcToUsd8Scale] := by
      have viaActions : steps.map TreasuryState.redeemedAmount =
          (steps.map Transition.action).map (fun tx => match tx.operation with
            | .redeemUSD8 usd8Amount _ => usd8Amount
            | _ => 0) := by
        rw [List.map_map]
        rfl
      rw [viaActions, actions]
      rfl
    have all : ∀ transition ∈ steps, TreasuryState.Redemption transition := by
      intro transition member
      have listed : transition.action ∈ redemptions := by
        rw [← actions]
        exact List.mem_map_of_mem member
      rcases List.mem_pair.mp listed with first | second
      · exact ⟨_, _, by rw [first]⟩
      · exact ⟨_, _, by rw [second]⟩
    have nonempty : steps ≠ [] := by
      rintro rfl
      cases actions
    obtain ⟨quote, quoted, bounded⟩ := (theorems.2.2.2 short steps final run all).1 nonempty
    rw [amounts] at quoted
    exact ⟨steps, final, quote, run, actions, quoted, bounded⟩

end Usd8Core.Treasury
