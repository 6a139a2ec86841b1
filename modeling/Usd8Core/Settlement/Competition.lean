import Usd8Core.Kernel.AllocateEvents
import Usd8Core.Settlement.MerkleCommitment
import Usd8Core.Settlement.RowBounds

/-!
# Claims compete for the capped total

Another claim, or a higher score of one, can only enlarge the denominator the
others share the capped total by.  The claim that grew has its score in the
numerator as well, and its share moves the other way.
-/

set_option autoImplicit false

namespace Usd8Core.Settlement

open Usd8Core.Lib.ByteWords
open Usd8Core.Lib.CheckedCall
open Usd8Core.Lib.FloorShare
open Usd8Core.Kernel
open Usd8Core.Chain (SmallDeployment.platform SmallDeployment.alice SmallDeployment.bob)

/-- One claim with any of its score and holding inputs raised. -/
structure Raises (claim claim' : ClaimInput) : Prop where
  claimId : claim'.claimId = claim.claimId
  user : claim'.user = claim.user
  escrowAmount : claim'.escrowAmount = claim.escrowAmount
  spentScore : claim'.spentScore = claim.spentScore
  boosterAmount : claim'.boosterAmount = claim.boosterAmount
  scoreToSpend : claim.scoreToSpend ≤ claim'.scoreToSpend
  grossEarnedScore : claim.grossEarnedScore ≤ claim'.grossEarnedScore
  boosterHeld : claim.boosterHeld ≤ claim'.boosterHeld
  minHeld : claim.minHeld ≤ claim'.minHeld

/-- The first row is paid no more than the second, in USD and from every pool. -/
def PaidAtMost (row row' : SettledRow) : Prop :=
  row.payoutUsd ≤ row'.payoutUsd ∧ List.Forall₂ (· ≤ ·) row.amounts row'.amounts

section Monotone

variable (input : KernelInput)

/-! ## One row -/

theorem settleClaim_eligible_mono (claim claim' : ClaimInput) (raises : Raises claim claim') :
    (settleClaim input claim).eligibleAmount ≤ (settleClaim input claim').eligibleAmount := by
  change min claim.minHeld claim.escrowAmount ≤ min claim'.minHeld claim'.escrowAmount
  have held := raises.minHeld
  have escrow := raises.escrowAmount
  omega

theorem settleClaim_lossUsd_mono (claim claim' : ClaimInput) (raises : Raises claim claim') :
    (settleClaim input claim).lossUsd ≤ (settleClaim input claim').lossUsd := by
  have eligible := settleClaim_eligible_mono input claim claim' raises
  apply Nat.div_le_div_right
  apply Nat.mul_le_mul_right
  apply Nat.div_le_div_right
  exact Nat.mul_le_mul_right _ eligible

theorem settleClaim_scoreSpent_mono (claim claim' : ClaimInput) (raises : Raises claim claim') :
    (settleClaim input claim).scoreSpent ≤ (settleClaim input claim').scoreSpent := by
  have eligible := settleClaim_eligible_mono input claim claim' raises
  have gross := raises.grossEarnedScore
  have spent := raises.spentScore
  have score := raises.scoreToSpend
  have unspent :
      (if claim.grossEarnedScore > claim.spentScore then
        claim.grossEarnedScore - claim.spentScore else 0) ≤
      (if claim'.grossEarnedScore > claim'.spentScore then
        claim'.grossEarnedScore - claim'.spentScore else 0) := by
    split <;> split <;> omega
  have spends : ∀ own : ClaimInput, (settleClaim input own).eligibleAmount ≠ 0 →
      (settleClaim input own).scoreSpent = min own.scoreToSpend
        (if own.grossEarnedScore > own.spentScore then
          own.grossEarnedScore - own.spentScore else 0) := fun own positive => if_neg positive
  by_cases ineligible : (settleClaim input claim).eligibleAmount = 0
  · have nothing : (settleClaim input claim).scoreSpent = 0 := if_pos ineligible
    rw [nothing]
    exact Nat.zero_le _
  · -- an eligible claim stays eligible, and both terms of its minimum only grow
    rw [spends claim ineligible, spends claim' (by omega)]
    exact min_le_min score unspent

theorem settleClaim_boostedScore_mono (claim claim' : ClaimInput)
    (raises : Raises claim claim') :
    (settleClaim input claim).boostedScore ≤ (settleClaim input claim').boostedScore := by
  have spent := settleClaim_scoreSpent_mono input claim claim' raises
  have boost : min claim.boosterAmount claim.boosterHeld ≤
      min claim'.boosterAmount claim'.boosterHeld := by
    have held := raises.boosterHeld
    have amount := raises.boosterAmount
    omega
  apply Nat.div_le_div_right
  apply Nat.mul_le_mul spent
  exact Nat.add_le_add_left (Nat.mul_le_mul_right _ boost) _

/-! ## The denominator -/

theorem scoreDenominator_withClaims (claims : List ClaimInput) :
    scoreDenominator (withClaims input claims) =
      (claims.map fun claim => (settleClaim input claim).boostedScore).sum :=
  scoreDenominator_eq (withClaims input claims)

/-- A larger denominator lowers the payout of every claim that was in the first. -/
theorem claimPayout_antitone (claims claims' : List ClaimInput) (claim : ClaimInput)
    (member : claim ∈ claims)
    (grows : scoreDenominator (withClaims input claims) ≤
      scoreDenominator (withClaims input claims')) :
    claimPayout (withClaims input claims') claim ≤ claimPayout (withClaims input claims) claim := by
  apply min_le_min_right
  rcases Nat.eq_zero_or_pos (scoreDenominator (withClaims input claims)) with nobody | positive
  · have noScore := boostedScore_le_denominator (withClaims input claims) claim member
    have zero : (settleClaim (withClaims input claims') claim).boostedScore = 0 :=
      Nat.le_zero.mp (nobody ▸ noScore)
    rw [zero, Nat.mul_zero, Nat.zero_div]
    exact Nat.zero_le _
  · exact Nat.div_le_div_left grows positive

/-- The raised claim keeps at least its share: its score enters both terms. -/
theorem claimPayout_raised (before after : List ClaimInput) (claim claim' : ClaimInput)
    (raises : Raises claim claim') :
    claimPayout (withClaims input (before ++ claim :: after)) claim ≤
      claimPayout (withClaims input (before ++ claim' :: after)) claim' := by
  have score := settleClaim_boostedScore_mono input claim claim' raises
  have loss := settleClaim_lossUsd_mono input claim claim' raises
  have split : ∀ own : ClaimInput,
      scoreDenominator (withClaims input (before ++ own :: after)) =
        ((before ++ after).map fun other => (settleClaim input other).boostedScore).sum +
          (settleClaim input own).boostedScore := by
    intro own
    rw [scoreDenominator_withClaims]
    simp only [List.map_append, List.map_cons, List.sum_append, List.sum_cons]
    omega
  unfold claimPayout
  rw [split claim, split claim']
  apply min_le_min
  · change maxTotalUsd input * (settleClaim input claim).boostedScore / _ ≤
      maxTotalUsd input * (settleClaim input claim').boostedScore / _
    rcases Nat.eq_zero_or_pos (((before ++ after).map fun other =>
      (settleClaim input other).boostedScore).sum + (settleClaim input claim).boostedScore)
      with nobody | positive
    · rw [nobody, Nat.div_zero]
      exact Nat.zero_le _
    · exact own_share_le _ _ _ _ score positive
  · exact Nat.div_le_div_right (Nat.mul_le_mul_right _ loss)

/-! ## Rows of two allocations -/

theorem poolAmount_mono (pools : List PoolInput) (pool : PoolInput) (paid paid' : Nat)
    (less : paid ≤ paid') : poolAmount pools paid pool ≤ poolAmount pools paid' pool := by
  unfold poolAmount
  split
  · exact Nat.le_refl _
  · exact Nat.div_le_div_right (Nat.mul_le_mul_right _ less)

/-- The split over the pools follows the payout. -/
theorem finalRow_paidAtMost (claims claims' : List ClaimInput) (claim claim' : ClaimInput)
    (less : claimPayout (withClaims input claims) claim ≤
      claimPayout (withClaims input claims') claim') :
    PaidAtMost (finalRow (withClaims input claims) claim)
      (finalRow (withClaims input claims') claim') := by
  rw [finalRow_eq, finalRow_eq]
  refine ⟨less, ?_⟩
  apply List.forall₂_map_left_iff.mpr
  apply List.forall₂_map_right_iff.mpr
  apply List.forall₂_same.mpr
  intro pool _
  exact poolAmount_mono input.pools pool _ _ less

end Monotone

/-- The tree refuses two rows of one claim. -/
theorem allocate_claimIds_nodup (keccak256 : List Byte → Hash) (input : KernelInput)
    (output : KernelOutput) (run : allocate keccak256 input = .ok output) :
    (input.claims.map ClaimInput.claimId).Nodup := by
  have commitment := (allocate_ok keccak256 input output run).commitment
  have ids : ((allocatedRows input).map SettledRow.merkleRow).map MerkleRow.claimId =
      input.claims.map ClaimInput.claimId := by
    rw [allocatedRows_eq, List.map_map, List.map_map]
    apply List.map_congr_left
    intro claim _
    simp [finalRow_eq, SettledRow.merkleRow, settleClaim]
  unfold commitRows at commitment
  split at commitment
  next empty =>
    rw [← ids, empty]
    exact List.nodup_nil
  next =>
    obtain ⟨tree, built, -⟩ := (bind_ok_iff _ _ _).mp commitment
    rw [← ids]
    exact (settlementTree_new_ok keccak256 _ _ tree built).2.1

/-- The rows of an allocation are the final rows of its claims. -/
theorem allocate_row_of_claim (keccak256 : List Byte → Hash) (input : KernelInput)
    (output : KernelOutput) (run : allocate keccak256 input = .ok output) (row : SettledRow)
    (member : row ∈ output.rows) :
    ∃ claim ∈ input.claims, row = finalRow input claim ∧ row.claimId = claim.claimId := by
  rw [(allocate_ok keccak256 input output run).rows, allocatedRows_eq] at member
  obtain ⟨claim, claimMember, rfl⟩ := List.mem_map.mp member
  exact ⟨claim, claimMember, rfl, by rw [finalRow_eq]; rfl⟩

/-- A further claim never raises what another claim is paid, and neither does a higher
score, holding or booster balance of one claim, which never lowers what that claim is paid. -/
theorem allocation_competitive (keccak256 : List Byte → Hash) (input : KernelInput)
    (before after : List ClaimInput) (claim : ClaimInput) :
    (∀ (output output' : KernelOutput),
      allocate keccak256 (withClaims input (before ++ after)) = .ok output →
      allocate keccak256 (withClaims input (before ++ claim :: after)) = .ok output' →
      ∀ row ∈ output.rows, ∀ row' ∈ output'.rows, row'.claimId = row.claimId →
        PaidAtMost row' row) ∧
    ∀ (claim' : ClaimInput) (output output' : KernelOutput), Raises claim claim' →
      allocate keccak256 (withClaims input (before ++ claim :: after)) = .ok output →
      allocate keccak256 (withClaims input (before ++ claim' :: after)) = .ok output' →
      ∀ row ∈ output.rows, ∀ row' ∈ output'.rows, row'.claimId = row.claimId →
        (row.claimId ≠ claim.claimId → PaidAtMost row' row) ∧
        (row.claimId = claim.claimId → PaidAtMost row row') := by
  constructor
  · intro output output' run run' row member row' member' sameId
    obtain ⟨own, ownMember, rfl, ownId⟩ := allocate_row_of_claim _ _ output run row member
    obtain ⟨own', ownMember', rfl, ownId'⟩ :=
      allocate_row_of_claim _ _ output' run' row' member'
    change own ∈ before ++ after at ownMember
    have stays : own ∈ before ++ claim :: after := by
      rcases List.mem_append.mp ownMember with earlier | later
      · simp [earlier]
      · simp [later]
    have sameClaim : own' = own :=
      List.inj_on_of_nodup_map (allocate_claimIds_nodup _ _ output' run') ownMember' stays
        (ownId'.symm.trans (sameId.trans ownId))
    subst sameClaim
    apply finalRow_paidAtMost
    apply claimPayout_antitone input _ _ _ ownMember
    rw [scoreDenominator_withClaims, scoreDenominator_withClaims]
    simp only [List.map_append, List.map_cons, List.sum_append, List.sum_cons]
    omega
  · intro claim' output output' raises run run' row member row' member' sameId
    obtain ⟨own, ownMember, rfl, ownId⟩ := allocate_row_of_claim _ _ output run row member
    obtain ⟨own', ownMember', rfl, ownId'⟩ :=
      allocate_row_of_claim _ _ output' run' row' member'
    change own ∈ before ++ claim :: after at ownMember
    have distinct := allocate_claimIds_nodup _ _ output run
    have distinct' := allocate_claimIds_nodup _ _ output' run'
    constructor
    · intro other
      have notRaised : own ≠ claim := fun same => other (by rw [ownId, same])
      have stays : own ∈ before ++ claim' :: after := by
        rcases List.mem_append.mp ownMember with earlier | here
        · simp [earlier]
        · rcases List.mem_cons.mp here with same | later
          · exact absurd same notRaised
          · simp [later]
      have sameClaim : own' = own :=
        List.inj_on_of_nodup_map distinct' ownMember' stays
          (ownId'.symm.trans (sameId.trans ownId))
      subst sameClaim
      apply finalRow_paidAtMost
      apply claimPayout_antitone input _ _ _ ownMember
      have score := settleClaim_boostedScore_mono input claim claim' raises
      rw [scoreDenominator_withClaims, scoreDenominator_withClaims]
      simp only [List.map_append, List.map_cons, List.sum_append, List.sum_cons]
      omega
    · intro raised
      have isClaim : own = claim :=
        List.inj_on_of_nodup_map distinct ownMember (by simp [withClaims])
          (ownId.symm.trans raised)
      have isClaim' : own' = claim' :=
        List.inj_on_of_nodup_map distinct' ownMember' (by simp [withClaims])
          (ownId'.symm.trans (sameId.trans (raised.trans raises.claimId.symm)))
      subst isClaim isClaim'
      apply finalRow_paidAtMost
      exact claimPayout_raised input before after _ _ raises

theorem smallInput_competes :
    ∃ output output',
      allocate SmallDeployment.platform.keccak256
        (withClaims smallInput (smallInput.claims.take 1)) = .ok output ∧
      allocate SmallDeployment.platform.keccak256 smallInput = .ok output' ∧
      ∀ row ∈ output.rows, ∀ row' ∈ output'.rows, row'.claimId = row.claimId →
        PaidAtMost row' row := by
  obtain ⟨output, run⟩ := exists_ok_of_isSome
    (allocate SmallDeployment.platform.keccak256
      (withClaims smallInput (smallInput.claims.take 1))) (by decide +kernel)
  obtain ⟨output', run'⟩ := exists_ok_of_isSome
    (allocate SmallDeployment.platform.keccak256 smallInput) (by decide +kernel)
  have competes := (allocation_competitive SmallDeployment.platform.keccak256 smallInput
    (smallInput.claims.take 1) [] ⟨2, SmallDeployment.bob, 300, 300, 80, 0, 70, 0, 0⟩).1
  exact ⟨output, output', run, run', competes output output' run run'⟩

end Usd8Core.Settlement
