import Usd8Core.Kernel.ClaimSet
import Usd8Core.Kernel.SettlementTree

/-!
# Allocation

`allocate` checks the settlement policy, resolves each claim to a row, splits
the capped pool value over the boosted scores, splits each payout over the pools
by balance, grosses the pool draws up by the protocol fee and commits the rows.
-/

set_option autoImplicit false

namespace Usd8Core.Kernel

open Usd8Core.Lib.ByteWords
open Usd8Core.Lib.CheckedCall

/-! ## Policy checks -/

def checkPolicy (input : KernelInput) : Except KernelError Unit := do
  revertIf (maxCoverageBps < input.coverageBps)
    (.invalidPolicy ("coverageBps exceeds " ++ toString maxCoverageBps ++ ": " ++
      toString input.coverageBps))
  revertIf (bps < input.maxCoverPoolPayoutBps)
    (.invalidPolicy ("maxCoverPoolPayoutBps exceeds " ++ toString bps ++ ": " ++
      toString input.maxCoverPoolPayoutBps))
  revertIf (maxProtocolFeeBps < input.protocolFeeShareBps)
    (.invalidPolicy ("protocolFeeShareBps exceeds " ++ toString maxProtocolFeeBps ++ ": " ++
      toString input.protocolFeeShareBps))
  revertIf (input.boosterBoostBps = 0 ∨ 65535 < input.boosterBoostBps)
    (.invalidPolicy ("boosterBoostBps must be a nonzero uint16: " ++
      toString input.boosterBoostBps))
  revertIf (255 < input.insuredDecimals)
    (.invalidPolicy ("insuredDecimals exceeds uint8: " ++ toString input.insuredDecimals))
  match input.pools.find? (fun pool => 255 < pool.assetDecimals) with
  | some pool =>
      .error (.invalidPolicy ("pool assetDecimals exceeds uint8: " ++
        toString pool.assetDecimals))
  | none => .ok ()

/-! ## Rows -/

/-- A claim before any payout is assigned. -/
def settleClaim (input : KernelInput) (claim : ClaimInput) : SettledRow :=
  let eligible := min claim.minHeld claim.escrowAmount
  let lossUsd := eligible * input.twapRatio / pow10 18 * input.underlyingUsd /
    pow10 input.insuredDecimals
  let unspent :=
    if claim.grossEarnedScore > claim.spentScore then
      claim.grossEarnedScore - claim.spentScore
    else 0
  let boost := min claim.boosterAmount claim.boosterHeld
  -- zero-eligible claims stay in the signed set but neither spend nor dilute score
  let scoreSpent := if eligible = 0 then 0 else min claim.scoreToSpend unspent
  let boostedScore := scoreSpent * (bps + boost * input.boosterBoostBps) / bps
  { claimId := claim.claimId
    user := claim.user
    escrowAmount := claim.escrowAmount
    eligibleAmount := eligible
    lossUsd := lossUsd
    grossEarnedScore := claim.grossEarnedScore
    earnedScore := unspent
    scoreSpent := scoreSpent
    boostedScore := boostedScore
    boosterAmount := claim.boosterAmount
    eligibleBoosterAmount := boost
    payoutUsd := 0
    amounts := [] }

def poolUsd (pools : List PoolInput) : Nat :=
  pools.foldl (fun sum pool =>
    sum + pool.balance * pool.assetUsd / pow10 pool.assetDecimals) 0

def userShareBps (input : KernelInput) : Nat := bps - input.protocolFeeShareBps

def maxTotalGrossUsd (input : KernelInput) : Nat :=
  poolUsd input.pools * input.maxCoverPoolPayoutBps / bps

def maxTotalUsd (input : KernelInput) : Nat :=
  maxTotalGrossUsd input * userShareBps input / bps

def totalBoostedScore (rows : List SettledRow) : Nat :=
  rows.foldl (fun sum row => sum + row.boostedScore) 0

def payoutRow (input : KernelInput) (total : Nat) (row : SettledRow) : SettledRow :=
  let cap := row.lossUsd * input.coverageBps / bps
  let entitlement := maxTotalUsd input * row.boostedScore / total
  { row with payoutUsd := min entitlement cap }

def payoutRows (input : KernelInput) (rows : List SettledRow) : List SettledRow :=
  if totalBoostedScore rows = 0 then rows
  else rows.map (payoutRow input (totalBoostedScore rows))

def poolAmount (pools : List PoolInput) (payoutUsd : Nat) (pool : PoolInput) : Nat :=
  if poolUsd pools = 0 then 0 else payoutUsd * pool.balance / poolUsd pools

def splitRow (input : KernelInput) (row : SettledRow) : SettledRow :=
  { row with amounts := input.pools.map (poolAmount input.pools row.payoutUsd) }

/-- `(amount * bps) / user_share_bps`: what a pool gives up for a net amount. -/
def grossAmount (input : KernelInput) (amount : Nat) : Nat :=
  amount * bps / userShareBps input

def addGross (input : KernelInput) (totals : List Nat) (row : SettledRow) : List Nat :=
  List.zipWith (fun total amount => total + grossAmount input amount) totals row.amounts

def allocatedRows (input : KernelInput) : List SettledRow :=
  (payoutRows input (input.claims.map (settleClaim input))).map (splitRow input)

def allocatedPayouts (input : KernelInput) : List Nat :=
  (allocatedRows input).foldl (addGross input) (List.replicate input.pools.length 0)

/-! ## Commitments and the whole kernel -/

def registrationEvent (index : Nat) (claim : ClaimInput) : ClaimEvent :=
  { kind := .register
    claimId := claim.claimId
    user := claim.user
    amount := claim.escrowAmount
    scoreToSpend := claim.scoreToSpend
    boosterAmount := claim.boosterAmount
    blockNumber := 0
    logIndex := index }

def SettledRow.merkleRow (row : SettledRow) : MerkleRow :=
  { claimId := row.claimId
    user := row.user
    amounts := row.amounts
    scoreSpent := row.scoreSpent
    boostedScore := row.boostedScore
    eligibleAmount := row.eligibleAmount
    eligibleBoosterAmount := row.eligibleBoosterAmount }

section Allocate

variable (keccak256 : List Byte → Hash)

def commitRows (incidentId : Nat) (rows : List SettledRow) :
    Except KernelError (String × List (Nat × List String)) :=
  if rows = [] then .ok (hashHex Hash.zero, [])
  else do
    let tree ← SettlementTree.new keccak256 incidentId (rows.map SettledRow.merkleRow)
    pure (tree.rootHex, tree.allProofsHex)

def allocate (input : KernelInput) : Except KernelError KernelOutput := do
  checkPolicy input
  let rows := allocatedRows input
  let claimEvents := input.claims.mapIdx registrationEvent
  let claimSetHash ← claimSetHash keccak256 claimEvents
  let settlementInputHash ← settlementInputHash keccak256
    (rows.map fun row => (row.user, row.grossEarnedScore))
  let (root, proofs) ← commitRows keccak256 input.incidentId rows
  pure {
    rows := rows
    poolPayouts := allocatedPayouts input
    claimSetHash := claimSetHash
    settlementInputHash := settlementInputHash
    root := root
    proofs := proofs }

/-! ## What an accepted input satisfies -/

structure PolicyChecked (input : KernelInput) : Prop where
  coverage : input.coverageBps ≤ maxCoverageBps
  payout : input.maxCoverPoolPayoutBps ≤ bps
  fee : input.protocolFeeShareBps ≤ maxProtocolFeeBps
  boostPositive : input.boosterBoostBps ≠ 0
  boostFits : input.boosterBoostBps ≤ 65535
  insuredDecimals : input.insuredDecimals ≤ 255
  poolDecimals : ∀ pool ∈ input.pools, pool.assetDecimals ≤ 255

theorem checkPolicy_ok (input : KernelInput) (result : Unit)
    (run : checkPolicy input = .ok result) : PolicyChecked input := by
  unfold checkPolicy at run
  simp only [bind_ok_iff, revertIf_ok_iff, exists_const, not_lt, not_or] at run
  obtain ⟨coverage, payout, fee, ⟨boostPositive, boostFits⟩, insured, run⟩ := run
  refine ⟨coverage, payout, fee, boostPositive, boostFits, insured, ?_⟩
  intro pool member
  by_contra tooLarge
  cases found : input.pools.find? (fun pool => 255 < pool.assetDecimals) with
  | none =>
      have allSmall := List.find?_eq_none.mp found pool member
      simp at allSmall
      omega
  | some other =>
      rw [found] at run
      cases run

structure Allocated (input : KernelInput) (output : KernelOutput) : Prop where
  policy : PolicyChecked input
  rows : output.rows = allocatedRows input
  poolPayouts : output.poolPayouts = allocatedPayouts input
  commitment : commitRows keccak256 input.incidentId (allocatedRows input) =
    .ok (output.root, output.proofs)

theorem allocate_ok (input : KernelInput) (output : KernelOutput)
    (run : allocate keccak256 input = .ok output) : Allocated keccak256 input output := by
  unfold allocate at run
  obtain ⟨_, policy, run⟩ := (bind_ok_iff _ _ _).mp run
  obtain ⟨setHash, _, run⟩ := (bind_ok_iff _ _ _).mp run
  obtain ⟨inputHash, _, run⟩ := (bind_ok_iff _ _ _).mp run
  obtain ⟨committed, commitRun, result⟩ := (bind_ok_iff _ _ _).mp run
  have outputEq := (pure_ok_iff _ _).mp result
  subst outputEq
  exact ⟨checkPolicy_ok input _ policy, rfl, rfl, commitRun⟩

end Allocate

end Usd8Core.Kernel
