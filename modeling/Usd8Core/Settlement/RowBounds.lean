import Usd8Core.Settlement.Budgets

/-!
# Bounds on the settled rows

Every row of an allocation is a function of its own claim and of two totals, the
capped pool value and the sum of the boosted scores.  The bounds of a row, of the
sum of the payouts and of the value paid in assets are read off that form.
-/

set_option autoImplicit false

namespace Usd8Core.Settlement

open Usd8Core.Lib.ByteWords
open Usd8Core.Lib.CheckedCall
open Usd8Core.Lib.FloorShare
open Usd8Core.Kernel
open Usd8Core.Chain (SmallDeployment.platform)

section Rows

variable (input : KernelInput)

/-- `total_boosted_score`. -/
def scoreDenominator : Nat := totalBoostedScore (input.claims.map (settleClaim input))

theorem scoreDenominator_eq :
    scoreDenominator input =
      (input.claims.map fun claim => (settleClaim input claim).boostedScore).sum := by
  rw [scoreDenominator, totalBoostedScore, foldl_add_eq_sum, Nat.zero_add, List.map_map]
  rfl

theorem boostedScore_le_denominator (claim : ClaimInput) (member : claim ∈ input.claims) :
    (settleClaim input claim).boostedScore ≤ scoreDenominator input := by
  rw [scoreDenominator_eq]
  exact List.le_sum_of_mem (List.mem_map.mpr ⟨claim, member, rfl⟩)

/-- The final row of one claim. -/
def finalRow (claim : ClaimInput) : SettledRow :=
  splitRow input
    (if scoreDenominator input = 0 then settleClaim input claim
      else payoutRow input (scoreDenominator input) (settleClaim input claim))

theorem allocatedRows_eq : allocatedRows input = input.claims.map (finalRow input) := by
  unfold allocatedRows payoutRows finalRow scoreDenominator
  split <;> simp [Function.comp_def]

/-- `payout_usd`: the share of the capped total by boosted score, capped by the loss. -/
def claimPayout (claim : ClaimInput) : Nat :=
  min (maxTotalUsd input * (settleClaim input claim).boostedScore / scoreDenominator input)
    ((settleClaim input claim).lossUsd * input.coverageBps / bps)

/-- The final row is the resolved claim with its payout and the payout's split; without
any score the division by the empty denominator gives the zero that was there. -/
theorem finalRow_eq (claim : ClaimInput) :
    finalRow input claim = { settleClaim input claim with
      payoutUsd := claimPayout input claim
      amounts := input.pools.map (poolAmount input.pools (claimPayout input claim)) } := by
  unfold finalRow claimPayout
  split
  next nobody =>
    rw [nobody, Nat.div_zero, Nat.zero_min]
    rfl
  next => rfl

/-! ## The scores of one row -/

theorem settleClaim_scoreSpent_le (claim : ClaimInput) :
    (settleClaim input claim).scoreSpent ≤ claim.scoreToSpend := by
  unfold settleClaim
  simp only
  split
  · exact Nat.zero_le _
  · exact Nat.min_le_left _ _

theorem settleClaim_score_within_gross (claim : ClaimInput) :
    (settleClaim input claim).scoreSpent + claim.spentScore ≤
      max claim.grossEarnedScore claim.spentScore := by
  change (if min claim.minHeld claim.escrowAmount = 0 then 0
    else min claim.scoreToSpend (if claim.grossEarnedScore > claim.spentScore then
      claim.grossEarnedScore - claim.spentScore else 0)) + claim.spentScore ≤ _
  split
  · omega
  · split <;> omega

theorem settleClaim_boostedScore_eq_zero (claim : ClaimInput)
    (nothing : (settleClaim input claim).eligibleAmount = 0 ∨
      (settleClaim input claim).scoreSpent = 0) :
    (settleClaim input claim).boostedScore = 0 := by
  have unspent : (settleClaim input claim).scoreSpent = 0 := by
    rcases nothing with ineligible | unspent
    · exact if_pos ineligible
    · exact unspent
  change (settleClaim input claim).scoreSpent * _ / bps = 0
  rw [unspent, Nat.zero_mul, Nat.zero_div]

/-- A payout of nothing moves nothing. -/
theorem poolAmount_zero (pools : List PoolInput) (pool : PoolInput) :
    poolAmount pools 0 pool = 0 := by
  simp [poolAmount]

/-! ## The value paid in assets -/

/-- The exact USD value of the amounts of a row. -/
def assetValue (pools : List PoolInput) (amounts : List Nat) : ℚ :=
  (List.zipWith (fun (amount : Nat) (pool : PoolInput) =>
    (amount * pool.assetUsd : ℚ) / 10 ^ pool.assetDecimals) amounts pools).sum

theorem poolUsd_eq (pools : List PoolInput) :
    poolUsd pools = (pools.map fun pool =>
      pool.balance * pool.assetUsd / pow10 pool.assetDecimals).sum := by
  rw [poolUsd, foldl_add_eq_sum, Nat.zero_add]

theorem assetValue_amounts (pools : List PoolInput) (payoutUsd : Nat)
    (worth : 0 < poolUsd pools) :
    assetValue pools (pools.map (poolAmount pools payoutUsd)) =
      exactValue pools (fun pool => payoutUsd * pool.balance / poolUsd pools)
        PoolInput.assetUsd (fun pool => pow10 pool.assetDecimals) := by
  unfold assetValue exactValue
  rw [List.zipWith_map_left, List.zipWith_self]
  congr 1
  apply List.map_congr_left
  intro pool _
  simp only [poolAmount, if_neg (Nat.ne_of_gt worth), pow10]
  push_cast
  rfl

/-- The amounts of a row are worth its payout, up to the rounding of the pool value. -/
theorem assetValue_le (pools : List PoolInput) (payoutUsd : Nat) (worth : 0 < poolUsd pools) :
    (poolUsd pools : ℚ) * assetValue pools (pools.map (poolAmount pools payoutUsd)) ≤
      payoutUsd * (poolUsd pools + pools.length) := by
  have floored := exactValue_le_floor pools PoolInput.balance PoolInput.assetUsd
    (fun pool => pow10 pool.assetDecimals) (fun pool => pow10_pos pool.assetDecimals)
  rw [← poolUsd_eq] at floored
  rw [assetValue_amounts pools payoutUsd worth]
  calc (poolUsd pools : ℚ) * exactValue pools
          (fun pool => payoutUsd * pool.balance / poolUsd pools) PoolInput.assetUsd
          (fun pool => pow10 pool.assetDecimals)
      ≤ payoutUsd * exactValue pools PoolInput.balance PoolInput.assetUsd
          (fun pool => pow10 pool.assetDecimals) := shares_value_le _ _ _ _ _ _
    _ ≤ payoutUsd * (poolUsd pools + pools.length) :=
        mul_le_mul_of_nonneg_left floored (Nat.cast_nonneg payoutUsd)

end Rows

/-- What holds of the row of a claim in every accepted allocation. -/
structure RowBounds (input : KernelInput) (claim : ClaimInput) (row : SettledRow) : Prop where
  claimId : row.claimId = claim.claimId
  user : row.user = claim.user
  escrow : row.escrowAmount = claim.escrowAmount
  payout : row.payoutUsd ≤ row.lossUsd * input.coverageBps / 10000
  eligible : row.eligibleAmount ≤ row.escrowAmount
  scoreSpent : row.scoreSpent ≤ claim.scoreToSpend
  scoreWithinGross : row.scoreSpent + claim.spentScore ≤
    max claim.grossEarnedScore claim.spentScore
  nothing : row.eligibleAmount = 0 ∨ row.scoreSpent = 0 →
    row.payoutUsd = 0 ∧ (∀ amount ∈ row.amounts, amount = 0) ∧ row.boostedScore = 0
  value : 0 < poolUsd input.pools →
    (poolUsd input.pools : ℚ) * assetValue input.pools row.amounts ≤
      row.payoutUsd * (poolUsd input.pools + input.pools.length)

theorem finalRow_bounds (input : KernelInput) (claim : ClaimInput) :
    RowBounds input claim (finalRow input claim) := by
  rw [finalRow_eq]
  refine {
    claimId := rfl
    user := rfl
    escrow := rfl
    payout := Nat.min_le_right _ _
    eligible := Nat.min_le_right _ _
    scoreSpent := settleClaim_scoreSpent_le input claim
    scoreWithinGross := settleClaim_score_within_gross input claim
    nothing := ?_
    value := ?_ }
  · intro nothing
    have unboosted := settleClaim_boostedScore_eq_zero input claim nothing
    have unpaid : claimPayout input claim = 0 := by
      rw [claimPayout, unboosted, Nat.mul_zero, Nat.zero_div, Nat.zero_min]
    refine ⟨unpaid, ?_, unboosted⟩
    intro amount member
    obtain ⟨pool, -, rfl⟩ := List.mem_map.mp member
    rw [unpaid]
    exact poolAmount_zero input.pools pool
  · intro worth
    exact assetValue_le input.pools _ worth

/-- Rows, payouts and paid values of an accepted allocation are bounded together. -/
theorem allocation_bounds (keccak256 : List Byte → Hash) (input : KernelInput)
    (output : KernelOutput) (run : allocate keccak256 input = .ok output) :
    output.rows.length = input.claims.length ∧
      (∀ (i : Nat) (claim : ClaimInput) (row : SettledRow), input.claims[i]? = some claim →
        output.rows[i]? = some row → RowBounds input claim row) ∧
      (output.rows.map SettledRow.payoutUsd).sum ≤
        poolUsd input.pools * input.maxCoverPoolPayoutBps / 10000 *
          (10000 - input.protocolFeeShareBps) / 10000 := by
  have allocated := allocate_ok keccak256 input output run
  have rowsEq : output.rows = input.claims.map (finalRow input) :=
    allocated.rows.trans (allocatedRows_eq input)
  refine ⟨?_, ?_, ?_⟩
  · rw [rowsEq, List.length_map]
  · intro i claim row atClaim atRow
    rw [rowsEq, List.getElem?_map, atClaim] at atRow
    cases atRow
    exact finalRow_bounds input claim
  · have samePayouts : output.rows.map SettledRow.payoutUsd =
        (paidRows input).map SettledRow.payoutUsd := by
      rw [allocated.rows, allocatedRows, List.map_map]
      rfl
    rw [samePayouts]
    exact sum_payoutUsd_le input

theorem smallInput_bounded :
    ∃ output, allocate SmallDeployment.platform.keccak256 smallInput = .ok output ∧
      (output.rows.map SettledRow.payoutUsd).sum ≤ 1000 * 5000 / 10000 * 8000 / 10000 := by
  have succeeds : (match allocate SmallDeployment.platform.keccak256 smallInput with
      | .ok _ => true
      | .error _ => false) = true := by decide +kernel
  split at succeeds
  next output run =>
    obtain ⟨-, -, within⟩ := allocation_bounds _ smallInput output run
    exact ⟨output, run, within⟩
  next => cases succeeds

end Usd8Core.Settlement
