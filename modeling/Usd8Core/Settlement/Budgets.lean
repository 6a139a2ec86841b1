import Usd8Core.Kernel.Allocate
import Usd8Core.Chain.System
import Usd8Core.Lib.FloorShare

/-!
# Kernel budgets and the on-chain cap

The budget of a pool is a sum of grossed-up floors.  It is bounded once, against
the pool's own share of the capped total, and the bound is the one `_commitRoot`
checks when the pool still holds what the kernel was told.
-/

set_option autoImplicit false

namespace Usd8Core.Settlement

open Usd8Core.Lib.ByteWords
open Usd8Core.Lib.CheckedCall
open Usd8Core.Lib.FloorShare
open Usd8Core.Kernel
open Usd8Core.Chain (World DefiInsurance ContractError SingleAssetCoverPool
  SmallDeployment.platform SmallDeployment.alice SmallDeployment.bob)

section Kernel

variable (input : KernelInput)

/-- The rows with their payouts, before the split over the pools. -/
def paidRows : List SettledRow :=
  payoutRows input (input.claims.map (settleClaim input))

theorem settledRows_unpaid (row : SettledRow)
    (member : row ∈ input.claims.map (settleClaim input)) : row.payoutUsd = 0 := by
  obtain ⟨claim, -, rfl⟩ := List.mem_map.mp member
  rfl

/-- Everything handed out, in USD, is within the netted cap. -/
theorem sum_payoutUsd_le :
    ((paidRows input).map SettledRow.payoutUsd).sum ≤ maxTotalUsd input := by
  unfold paidRows payoutRows
  generalize rowsEq : input.claims.map (settleClaim input) = rows
  split
  · have nothing : (rows.map SettledRow.payoutUsd).sum = 0 := by
      rw [List.sum_eq_zero_iff]
      intro amount member
      obtain ⟨row, rowMember, rfl⟩ := List.mem_map.mp member
      exact settledRows_unpaid input row (rowsEq ▸ rowMember)
    omega
  · have totalEq : totalBoostedScore rows = (rows.map SettledRow.boostedScore).sum := by
      rw [totalBoostedScore, foldl_add_eq_sum, Nat.zero_add]
    rw [List.map_map, totalEq]
    calc (rows.map (SettledRow.payoutUsd ∘
            payoutRow input (rows.map SettledRow.boostedScore).sum)).sum
        ≤ (rows.map fun row => maxTotalUsd input * row.boostedScore /
            (rows.map SettledRow.boostedScore).sum).sum := by
          apply List.sum_le_sum
          intro row _
          exact Nat.min_le_left _ _
      _ ≤ maxTotalUsd input := sum_share_le rows SettledRow.boostedScore _

/-- What one pool gives up over all rows. -/
def poolBudget (rows : List SettledRow) (pool : PoolInput) : Nat :=
  (rows.map fun row =>
    grossAmount input (poolAmount input.pools row.payoutUsd pool)).sum

theorem foldl_addGross (rows : List SettledRow) (drawn : PoolInput → Nat) :
    (rows.map (splitRow input)).foldl (addGross input) (input.pools.map drawn) =
      input.pools.map fun pool => drawn pool + poolBudget input rows pool := by
  induction rows generalizing drawn with
  | nil => simp [poolBudget]
  | cons row rest ih =>
      have oneRow : addGross input (input.pools.map drawn) (splitRow input row) =
          input.pools.map fun pool => drawn pool +
            grossAmount input (poolAmount input.pools row.payoutUsd pool) := by
        simp [addGross, splitRow, List.zipWith_map]
      rw [List.map_cons, List.foldl_cons, oneRow, ih]
      apply List.map_congr_left
      intro pool _
      simp only [poolBudget, List.map_cons, List.sum_cons]
      omega

theorem allocatedPayouts_eq :
    allocatedPayouts input = input.pools.map (poolBudget input (paidRows input)) := by
  have start : List.replicate input.pools.length 0 = input.pools.map fun _ => 0 := by
    simp
  unfold allocatedPayouts allocatedRows
  rw [start, foldl_addGross]
  simp [paidRows]

theorem userShareBps_pos (policy : PolicyChecked input) : 0 < userShareBps input := by
  have fee := policy.fee
  simp only [userShareBps, bps, Kernel.maxProtocolFeeBps] at fee ⊢
  omega

/-- The budget of a pool never exceeds the pool's own cap. -/
theorem poolBudget_le_cap (policy : PolicyChecked input) (pool : PoolInput) :
    poolBudget input (paidRows input) pool ≤
      pool.balance * input.maxCoverPoolPayoutBps / bps := by
  have shareBound : poolBudget input (paidRows input) pool ≤
      ((paidRows input).map fun row => poolAmount input.pools row.payoutUsd pool).sum *
        bps / userShareBps input := by
    simpa only [poolBudget, grossAmount] using sum_floor_le (paidRows input)
      (fun row => poolAmount input.pools row.payoutUsd pool) bps (userShareBps input)
  rcases Nat.eq_zero_or_pos (poolUsd input.pools) with worthless | worth
  · have nothing : ((paidRows input).map fun row =>
        poolAmount input.pools row.payoutUsd pool).sum = 0 := by
      simp [poolAmount, worthless]
    rw [nothing, Nat.zero_mul, Nat.zero_div] at shareBound
    exact shareBound.trans (Nat.zero_le _)
  · have splitBound : ((paidRows input).map fun row =>
        poolAmount input.pools row.payoutUsd pool).sum ≤
        maxTotalUsd input * pool.balance / poolUsd input.pools := by
      simp only [poolAmount, if_neg (Nat.ne_of_gt worth)]
      calc ((paidRows input).map fun row =>
              row.payoutUsd * pool.balance / poolUsd input.pools).sum
          ≤ ((paidRows input).map SettledRow.payoutUsd).sum * pool.balance /
              poolUsd input.pools := sum_floor_le _ _ _ _
        _ ≤ maxTotalUsd input * pool.balance / poolUsd input.pools :=
            Nat.div_le_div_right (Nat.mul_le_mul_right _ (sum_payoutUsd_le input))
    calc poolBudget input (paidRows input) pool
        ≤ maxTotalUsd input * pool.balance / poolUsd input.pools * bps /
            userShareBps input :=
          shareBound.trans (Nat.div_le_div_right (Nat.mul_le_mul_right _ splitBound))
      _ ≤ pool.balance * input.maxCoverPoolPayoutBps / bps :=
          gross_of_net_share_le (poolUsd input.pools) input.maxCoverPoolPayoutBps bps
            (userShareBps input) pool.balance worth (by decide)
            (userShareBps_pos input policy)

end Kernel

theorem poolPayouts_within_caps (keccak256 : List Byte → Hash) (input : KernelInput)
    (output : KernelOutput) (run : allocate keccak256 input = .ok output) (i : Nat)
    (pool : PoolInput) (atPool : input.pools[i]? = some pool) :
    ∃ payout, output.poolPayouts[i]? = some payout ∧
      payout ≤ pool.balance * input.maxCoverPoolPayoutBps / bps := by
  have allocated := allocate_ok keccak256 input output run
  refine ⟨poolBudget input (paidRows input) pool, ?_, ?_⟩
  · rw [allocated.poolPayouts, allocatedPayouts_eq, List.getElem?_map, atPool]
    rfl
  · exact poolBudget_le_cap input allocated.policy pool

/-! ## The cap on chain -/

/-- `_commitRoot` rejected a budget. -/
def IsPayoutCapExceeded : ContractError → Prop
  | .payoutCapExceeded _ _ _ => True
  | _ => False

theorem maxPayoutPerIncident_avoids (pool : SingleAssetCoverPool) (registry : Chain.Registry) :
    Avoids IsPayoutCapExceeded (pool.maxPayoutPerIncident registry) := by
  apply avoids_bind _ _ (avoids_checkedMul 256 _ _ not_false)
  intro product _
  exact avoids_pure _

/-- Budgets within the caps of their pools pass the loop of `_commitRoot`. -/
theorem checkPayoutCaps_avoids (w : World) (pools : List Address) (payouts : List Nat)
    (i : Nat)
    (within : ∀ (k : Nat) (p : Address) (payout : Nat) (pool : SingleAssetCoverPool),
      pools[k]? = some p → payouts[k]? = some payout → w.pools p = some pool →
        payout ≤ pool.totalAssets * w.registry.maxCoverPoolPayoutBps / Chain.bpsDenominator) :
    Avoids IsPayoutCapExceeded (w.checkPayoutCaps i pools payouts) := by
  induction pools generalizing payouts i with
  | nil => cases payouts <;> exact avoids_ok ()
  | cons p rest ih =>
      cases payouts with
      | nil => exact avoids_ok ()
      | cons payout payouts =>
          unfold World.checkPayoutCaps
          apply avoids_bind _ _ (avoids_orRevert _ _ fun _ => not_false)
          intro pool found
          have poolEq := (orRevert_ok_iff _ _ _).mp found
          apply avoids_bind _ _ (maxPayoutPerIncident_avoids pool w.registry)
          intro cap capRun
          simp only [SingleAssetCoverPool.maxPayoutPerIncident, bind_ok_iff, pure_ok_iff,
            checkedMul_ok_iff] at capRun
          obtain ⟨product, ⟨-, rfl⟩, rfl⟩ := capRun
          apply avoids_revertIf_bind
          · intro exceeds
            have fits := within 0 p payout pool rfl rfl poolEq
            omega
          · intro _
            apply ih payouts (i + 1)
            intro k q later pool atPool atPayout
            exact within (k + 1) q later pool atPool atPayout

theorem commitRoot_avoids_cap (w : World) (m : Address) (mod : DefiInsurance)
    (incidentId : Nat) (root : Hash) (payouts : List Nat)
    (within : ∀ (k : Nat) (p : Address) (payout : Nat) (pool : SingleAssetCoverPool),
      (mod.incidents incidentId).pools[k]? = some p → payouts[k]? = some payout →
      w.pools p = some pool →
        payout ≤ pool.totalAssets * w.registry.maxCoverPoolPayoutBps / Chain.bpsDenominator) :
    Avoids IsPayoutCapExceeded (w.commitRoot m mod incidentId root payouts) := by
  unfold World.commitRoot
  apply avoids_revertIf_bind
  · intro _
    exact not_false
  intro _
  apply avoids_bind _ _ (checkPayoutCaps_avoids w _ payouts 0 within)
  intro _ _
  apply avoids_bind
  · apply avoids_ite
    · intro _
      exact avoids_checkedAdd 64 _ _ not_false
    · intro _
      exact avoids_pure _
  · intro deadline _
    exact avoids_pure _

/-- Every budget the kernel returns is within its pool's cap, and `_commitRoot`
accepts the budgets while the pools hold what the kernel was given. -/
theorem kernel_budgets_fit_payout_caps (keccak256 : List Byte → Hash) (input : KernelInput)
    (output : KernelOutput) (run : allocate keccak256 input = .ok output) :
    output.poolPayouts.length = input.pools.length ∧
    (∀ (i : Nat) (pool : PoolInput), input.pools[i]? = some pool →
      ∃ payout, output.poolPayouts[i]? = some payout ∧
        payout ≤ pool.balance * input.maxCoverPoolPayoutBps / 10000) ∧
    ∀ (w : World) (m : Address) (mod : DefiInsurance) (incidentId : Nat) (root : Hash),
      w.registry.maxCoverPoolPayoutBps = input.maxCoverPoolPayoutBps →
      (mod.incidents incidentId).pools.length = input.pools.length →
      (∀ (i : Nat) (p : Address) (poolInput : PoolInput),
        (mod.incidents incidentId).pools[i]? = some p → input.pools[i]? = some poolInput →
        ∃ pool, w.pools p = some pool ∧ pool.totalAssets = poolInput.balance ∧
          pool.totalAssets * w.registry.maxCoverPoolPayoutBps < uintBound 256) →
      Avoids IsPayoutCapExceeded
        (w.commitRoot m mod incidentId root output.poolPayouts) := by
  have allocated := allocate_ok keccak256 input output run
  refine ⟨?_, poolPayouts_within_caps keccak256 input output run, ?_⟩
  · rw [allocated.poolPayouts, allocatedPayouts_eq, List.length_map]
  · intro w m mod incidentId root sameBps sameLength balances
    apply commitRoot_avoids_cap
    intro k p payout pool atPool atPayout found
    have inRange : k < input.pools.length := by
      rw [← sameLength]
      exact (List.getElem?_eq_some_iff.mp atPool).1
    have atInput := List.getElem?_eq_getElem inRange
    obtain ⟨held, foundHeld, sameBalance, -⟩ := balances k p _ atPool atInput
    obtain ⟨budget, atBudget, bound⟩ :=
      poolPayouts_within_caps keccak256 input output run k _ atInput
    cases found.symm.trans foundHeld
    cases atPayout.symm.trans atBudget
    rw [sameBalance, sameBps]
    exact bound

/-- What the enclave is given for the incident of the small deployment. -/
def smallInput : KernelInput where
  incidentId := 1
  coverageBps := 8000
  boosterBoostBps := 500
  insuredDecimals := 0
  twapRatio := 10 ^ 18
  underlyingUsd := 1
  maxCoverPoolPayoutBps := 5000
  protocolFeeShareBps := 2000
  pools := [⟨1000, 100, 2⟩]
  claims :=
    [⟨1, SmallDeployment.alice, 400, 400, 100, 0, 90, 2, 2⟩,
      ⟨2, SmallDeployment.bob, 300, 300, 80, 0, 70, 0, 0⟩]

theorem smallInput_fits_cap :
    ∃ output, allocate SmallDeployment.platform.keccak256 smallInput = .ok output ∧
      output.poolPayouts = [498] ∧
      ∃ payout, output.poolPayouts[0]? = some payout ∧ payout ≤ 1000 * 5000 / 10000 := by
  have succeeds : (match allocate SmallDeployment.platform.keccak256 smallInput with
      | .ok output => output.poolPayouts == [498]
      | .error _ => false) = true := by decide +kernel
  split at succeeds
  next output run =>
    obtain ⟨-, within, -⟩ := kernel_budgets_fit_payout_caps _ smallInput output run
    exact ⟨output, run, by simpa using succeeds, within 0 ⟨1000, 100, 2⟩ rfl⟩
  next => cases succeeds

end Usd8Core.Settlement
