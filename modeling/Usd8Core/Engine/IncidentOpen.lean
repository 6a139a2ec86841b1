import Usd8Core.Lib.CheckedCall

/-!
# Discovering a price drop

`discover_incident_open_twap` compares, at every candidate reference block, the
ratios sampled before it with those sampled after it, and returns the start of
the last run of candidates that show a drop.  Machine words that the source
leaves unchecked are checked here, so that a run out of bounds would show.
-/

set_option autoImplicit false

namespace Usd8Core.Engine

open Usd8Core.Lib.CheckedCall

def maxIncidentOpenSamples : Nat := 256

def maxIncidentOpenDiscoveryPoints : Nat := 256

inductive IncidentOpenError where
  | panic (reason : Panic)
  | chain (message : String)
  | chainId (actual expected : Nat)
  | registryMismatch
  | zeroIncidentId
  | finalizedAheadOfLatest (finalized latest : Nat)
  | unapprovedToken
  | unauthorizedSigner
  | zeroPcrCommitment
  | activeIncident
  | invalidPriceConfig
  | insufficientPriceDrop (minimumDropBps : Nat)
  | noFinalizedCandidateWindow
  | discoveryTooLarge (points maximum : Nat)
  | headChanged
  | finalizedHeadChanged
  | typedData (message : String)
  deriving DecidableEq

instance : HasPanic IncidentOpenError := ⟨IncidentOpenError.panic⟩

abbrev OpenCall := Except IncidentOpenError

structure DiscoveryPolicy where
  latestBlock : Nat
  finalizedBlock : Nat
  maxAge : Nat
  twapBlocks : Nat
  sampleStepBlocks : Nat
  minimumDropBps : Nat
  deriving DecidableEq

structure TwapSelection where
  referenceBlock : Nat
  baselineSum : Nat
  distressSum : Nat
  sampleCount : Nat
  deriving DecidableEq

/-- What the function has fixed before it reads any ratio. -/
structure DiscoveryPlan where
  firstCandidate : Nat
  candidateCount : Nat
  sampleCount : Nat
  blocks : List Nat
  deriving DecidableEq

/-- The loop that collects the sample blocks; it is over after one round for each of them
and one more. -/
def sampleBlocks (sampleStepBlocks lastPoint : Nat) : Nat → Nat → List Nat
  | 0, _ => []
  | rounds + 1, block =>
      if block ≤ lastPoint then
        block :: (if block + sampleStepBlocks < uintBound 64 then
          sampleBlocks sampleStepBlocks lastPoint rounds (block + sampleStepBlocks) else [])
      else []

/-- `saturating_mul` of `u64`. -/
def saturatingMul (a b : Nat) : Nat := min (a * b) maxU64

def discoveryPlan (policy : DiscoveryPolicy) : OpenCall DiscoveryPlan := do
  let earliest := max (max (policy.latestBlock - policy.maxAge) policy.twapBlocks) 1
  revertIf (policy.finalizedBlock < policy.twapBlocks) .noFinalizedCandidateWindow
  let latest := policy.finalizedBlock - policy.twapBlocks
  let firstStep ← ceilDiv earliest policy.sampleStepBlocks
  revertIf (uintBound 64 ≤ firstStep * policy.sampleStepBlocks) .invalidPriceConfig
  let firstCandidate := firstStep * policy.sampleStepBlocks
  let lastStep ← checkedDiv latest policy.sampleStepBlocks
  let lastCandidate ← checkedMul 64 lastStep policy.sampleStepBlocks
  revertIf (firstCandidate > lastCandidate ∨ firstCandidate ≥ policy.latestBlock)
    .noFinalizedCandidateWindow
  let span ← checkedSub lastCandidate firstCandidate
  let steps ← checkedDiv span policy.sampleStepBlocks
  let candidateCount ← checkedAdd 64 steps 1
  let sampleCount ← checkedDiv policy.twapBlocks policy.sampleStepBlocks
  let pointCount := candidateCount + saturatingMul sampleCount 2
  revertIf (uintBound 64 ≤ pointCount) .invalidPriceConfig
  revertIf (pointCount > maxIncidentOpenDiscoveryPoints)
    (.discoveryTooLarge pointCount maxIncidentOpenDiscoveryPoints)
  let firstPoint ← checkedSub firstCandidate policy.twapBlocks
  revertIf (uintBound 64 ≤ lastCandidate + policy.twapBlocks) .invalidPriceConfig
  let lastPoint := lastCandidate + policy.twapBlocks
  pure ⟨firstCandidate, candidateCount, sampleCount,
    sampleBlocks policy.sampleStepBlocks lastPoint (pointCount + 1) firstPoint⟩

/-- The sum of `ratios[start..stop]`. -/
def sumSlice (ratios : List Nat) (start stop : Nat) : OpenCall Nat := do
  revertIf (stop < start ∨ ratios.length < stop) (.panic .indexOutOfBounds)
  pure ((ratios.drop start).take (stop - start)).sum

/-- `ratios[index]` -/
def ratioAt (ratios : List Nat) (index : Nat) : OpenCall Nat :=
  orRevert ratios[index]? (.panic .indexOutOfBounds)

structure DiscoveryState where
  baselineSum : Nat
  distressSum : Nat
  selected : Option TwapSelection
  previousQualified : Bool

/-- The selection that a candidate starting a run of drops makes. -/
def selectCandidate (policy : DiscoveryPolicy) (plan : DiscoveryPlan) (state : DiscoveryState)
    (candidateIndex : Nat) : OpenCall TwapSelection := do
  let offset ← checkedMul 64 candidateIndex policy.sampleStepBlocks
  let referenceBlock ← checkedAdd 64 plan.firstCandidate offset
  pure ⟨referenceBlock, state.baselineSum, state.distressSum, plan.sampleCount⟩

/-- One iteration of the loop over the candidates. -/
def discoveryStep (policy : DiscoveryPolicy) (plan : DiscoveryPlan) (remainingBps : Nat)
    (ratios : List Nat) (state : DiscoveryState) (candidateIndex : Nat) :
    OpenCall DiscoveryState := do
  let qualified := decide (state.distressSum * 10000 < state.baselineSum * remainingBps)
  let selected ← (if qualified && !state.previousQualified then do
      let selection ← selectCandidate policy plan state candidateIndex
      pure (some selection)
    else pure state.selected)
  if candidateIndex + 1 < plan.candidateCount then do
    let leaves ← ratioAt ratios candidateIndex
    let baselineLeft ← checkedSub state.baselineSum leaves
    let enters ← ratioAt ratios (candidateIndex + plan.sampleCount)
    let leavesDistress ← ratioAt ratios (candidateIndex + plan.sampleCount + 1)
    let distressLeft ← checkedSub state.distressSum leavesDistress
    let entersDistress ← ratioAt ratios (candidateIndex + plan.sampleCount * 2 + 1)
    pure ⟨baselineLeft + enters, distressLeft + entersDistress, selected, qualified⟩
  else pure ⟨state.baselineSum, state.distressSum, selected, qualified⟩

/-- The part of the function that follows the price reads. -/
def scanRatios (policy : DiscoveryPolicy) (plan : DiscoveryPlan) (ratios : List Nat) :
    OpenCall TwapSelection := do
  let baselineSum ← sumSlice ratios 0 plan.sampleCount
  let distressSum ← sumSlice ratios (plan.sampleCount + 1) (plan.sampleCount * 2 + 1)
  let remainingBps ← checkedSub 10000 policy.minimumDropBps
  let state ← (List.range plan.candidateCount).foldlM
    (discoveryStep policy plan remainingBps ratios) ⟨baselineSum, distressSum, none, false⟩
  orRevert state.selected (.insufficientPriceDrop policy.minimumDropBps)

/-- `discover_incident_open_twap`, with the batch of price reads as a parameter. -/
def discoverIncidentOpenTwap (ratiosAt : List Nat → OpenCall (List Nat))
    (policy : DiscoveryPolicy) : OpenCall TwapSelection := do
  let plan ← discoveryPlan policy
  let ratios ← ratiosAt plan.blocks
  scanRatios policy plan ratios

end Usd8Core.Engine
