import Usd8Core.Chain.CoverPool

/-!
# Registry

Every state-changing function of `Registry.sol` outside upgrades.  The Registry
reads the registered module's active incident and a pool's asset through calls;
a call that reverts is `none`.
-/

set_option autoImplicit false

namespace Usd8Core.Chain

open Usd8Core.Lib.ByteWords
open Usd8Core.Lib.CheckedCall

/-- What a Registry call reads beside its own storage. -/
structure RegistryEnv where
  sender : Address
  blockNumber : Nat
  payoutIncidentActive : Bool
  activeIncidentId : Address → Option Nat
  poolAsset : Address → Option Address

structure RoundData where
  roundId : Nat
  answer : Int
  updatedAt : Nat
  answeredInRound : Nat

/-- What the probes of `_validateAssetUsdFeed` see: the code size, the decoded
`decimals()` word and the decoded `latestRoundData()`, when the calls succeed. -/
structure FeedProbe where
  codeLength : Nat
  decimals : Option Nat
  round : Option RoundData

inductive RegistryCall where
  | setProtocolFeeConfig (config : ProtocolFeeConfig)
  | setIncidentTimingConfig (config : IncidentTimingConfig)
  | setExitTimingConfig (config : ExitTimingConfig)
  | setIncidentOpenPriceConfig (config : IncidentOpenPriceConfig)
  | endBetaMode
  | setTimelock (newTimelock : Address)
  | setAdmin (account : Address) (allowed : Bool)
  | setTeePcrHash (newHash : Hash)
  | setUsd8 (newUsd8 : Address)
  | setTreasury (newTreasury : Address)
  | setSavingsVault (newSavingsVault : Address)
  | setUsd8PriceOracle (newOracle : Address)
  | setAssetUsdFeed (asset newFeed : Address) (probe : FeedProbe)
  | setMaxOracleStaleness (newStaleness : Nat)
  | addPool (pool usdFeed : Address) (probe : FeedProbe)
  | removePool (pool : Address)
  | setDefiInsurance (newModule : Address)
  | clearDefiInsurance (expectedModule : Address) (expectedIncidentId : Nat)
  | setScoredToken (token : Address) (rate : Nat)
  | setBoosterConfig (collection : Address) (tokenId boostBps : Nat)
  | setMaxCoverPoolPayoutBps (newBps : Nat)
  | setPaused (target : Address) (paused : Bool)
  | setPausedBatch (targets : List Address) (paused : Bool)

def RegistryCall.Encodable : RegistryCall → Prop
  | .setProtocolFeeConfig config =>
      config.claimProtocolFeeShareBps < uintBound 16 ∧ config.reserveYieldFeeBps < uintBound 16
  | .setIncidentTimingConfig config =>
      config.phaseWindow < uintBound 64 ∧ config.maxReferenceBlockAge < uintBound 64
  | .setExitTimingConfig config =>
      config.unstakeCooldown < uintBound 64 ∧ config.exitBatchInterval < uintBound 64
  | .setIncidentOpenPriceConfig config =>
      config.twapBlocks < uintBound 64 ∧ config.sampleStepBlocks < uintBound 64 ∧
        config.minimumDropBps < uintBound 16
  | .setMaxOracleStaleness newStaleness => newStaleness < uintBound 64
  | .clearDefiInsurance _ expectedIncidentId => expectedIncidentId < uintBound 256
  | .setScoredToken _ rate => rate < uintBound 128
  | .setBoosterConfig _ tokenId boostBps => tokenId < uintBound 64 ∧ boostBps < uintBound 16
  | .setMaxCoverPoolPayoutBps newBps => newBps < uintBound 256
  | _ => True

instance (call : RegistryCall) : Decidable call.Encodable := by
  cases call <;> unfold RegistryCall.Encodable <;> infer_instance

namespace Registry

/-- The Registry after `initialize`. -/
def initial (timelock admin : Address) : Registry where
  timelock := timelock
  isAdmin := fun account => decide (account = admin)
  paused := fun _ => false
  coverPoolAssets := []
  coverPool := fun _ => Address.zero
  defiInsurance := Address.zero
  maxCoverPoolPayoutBps := 5000
  protocolFeeConfig := ⟨admin, 2000, 2000⟩
  scoredTokenList := []
  scoredRates := fun _ => []
  boosterConfig := ⟨Address.zero, 0, 0⟩
  scoreSpent := fun _ => 0
  betaMode := true
  teePcrHash := Hash.zero
  usd8 := Address.zero
  treasury := Address.zero
  savingsVault := Address.zero
  usd8PriceOracle := Address.zero
  assetUsdFeed := fun _ => Address.zero
  maxOracleStaleness := 36 * 60 * 60
  incidentTimingConfig := ⟨3 * 24 * 60 * 60, 43200⟩
  exitTimingConfig := ⟨7 * 24 * 60 * 60, 3 * 24 * 60 * 60⟩
  incidentOpenPriceConfig := ⟨7200, 300, 2000⟩

def coverPools (registry : Registry) : List Address :=
  registry.coverPoolAssets.map registry.coverPool

def requireNotFrozen (env : RegistryEnv) : Call Unit :=
  revertIf (env.payoutIncidentActive = true) .frozen

def validateAssetUsdFeed (feed : Address) (probe : FeedProbe) : Call Unit := do
  revertIf (probe.codeLength = 0) (.invalidAssetUsdFeed feed)
  let decimals ← orRevert probe.decimals (.invalidAssetUsdFeed feed)
  revertIf (decimals > 18) (.invalidAssetUsdFeed feed)
  let round ← orRevert probe.round (.invalidAssetUsdFeed feed)
  revertIf (round.answer ≤ 0 ∨ round.updatedAt = 0 ∨ round.answeredInRound < round.roundId)
    (.invalidAssetUsdFeed feed)

def setProtocolFeeConfig (env : RegistryEnv) (registry : Registry)
    (config : ProtocolFeeConfig) : Call Registry := do
  requireAdminOrTimelock registry env.sender
  revertIf (config.receiver = Address.zero) .zeroAddress
  revertIf (config.claimProtocolFeeShareBps > maxProtocolFeeBps)
    (.invalidProtocolFeeBps config.claimProtocolFeeShareBps)
  revertIf (config.reserveYieldFeeBps > maxProtocolFeeBps)
    (.invalidProtocolFeeBps config.reserveYieldFeeBps)
  pure { registry with protocolFeeConfig := config }

def setIncidentTimingConfig (env : RegistryEnv) (registry : Registry)
    (config : IncidentTimingConfig) : Call Registry := do
  requireTimelock registry env.sender
  requireNotFrozen env
  revertIf (config.phaseWindow = 0 ∨ config.maxReferenceBlockAge = 0 ∨
      config.maxReferenceBlockAge ≤ registry.incidentOpenPriceConfig.twapBlocks)
    .invalidIncidentTimingConfig
  pure { registry with incidentTimingConfig := config }

def setExitTimingConfig (env : RegistryEnv) (registry : Registry)
    (config : ExitTimingConfig) : Call Registry := do
  requireTimelock registry env.sender
  requireNotFrozen env
  revertIf (config.unstakeCooldown = 0 ∨ config.exitBatchInterval = 0) .invalidExitTimingConfig
  pure { registry with exitTimingConfig := config }

def setIncidentOpenPriceConfig (env : RegistryEnv) (registry : Registry)
    (config : IncidentOpenPriceConfig) : Call Registry := do
  requireTimelock registry env.sender
  requireNotFrozen env
  revertIf (config.twapBlocks = 0 ∨ config.sampleStepBlocks = 0 ∨
      config.sampleStepBlocks > config.twapBlocks ∨
      config.twapBlocks % config.sampleStepBlocks ≠ 0 ∨
      config.twapBlocks / config.sampleStepBlocks < 2 ∨
      config.minimumDropBps = 0 ∨ config.minimumDropBps ≥ bpsDenominator ∨
      config.twapBlocks ≥ registry.incidentTimingConfig.maxReferenceBlockAge)
    .invalidIncidentOpenPriceConfig
  pure { registry with incidentOpenPriceConfig := config }

def endBetaMode (env : RegistryEnv) (registry : Registry) : Call Registry := do
  requireTimelock registry env.sender
  requireNotFrozen env
  pure { registry with betaMode := false }

def setTimelock (env : RegistryEnv) (registry : Registry) (newTimelock : Address) :
    Call Registry := do
  requireTimelock registry env.sender
  revertIf (newTimelock = Address.zero) .zeroAddress
  pure { registry with timelock := newTimelock }

def setAdmin (env : RegistryEnv) (registry : Registry) (account : Address) (allowed : Bool) :
    Call Registry := do
  requireTimelock registry env.sender
  revertIf (account = Address.zero) .zeroAddress
  pure { registry with isAdmin := Function.update registry.isAdmin account allowed }

def setTeePcrHash (env : RegistryEnv) (registry : Registry) (newHash : Hash) :
    Call Registry := do
  requireTimelock registry env.sender
  requireNotFrozen env
  revertIf (newHash = Hash.zero) .invalidTeePcrHash
  pure { registry with teePcrHash := newHash }

def setUsd8 (env : RegistryEnv) (registry : Registry) (newUsd8 : Address) : Call Registry := do
  requireTimelock registry env.sender
  revertIf (registry.usd8 ≠ Address.zero) .usd8AlreadySet
  revertIf (newUsd8 = Address.zero) .zeroAddress
  pure { registry with usd8 := newUsd8 }

def setTreasury (env : RegistryEnv) (registry : Registry) (newTreasury : Address) :
    Call Registry := do
  requireTimelock registry env.sender
  revertIf (registry.treasury ≠ Address.zero) .treasuryAlreadySet
  revertIf (newTreasury = Address.zero) .zeroAddress
  pure { registry with treasury := newTreasury }

def setSavingsVault (env : RegistryEnv) (registry : Registry) (newSavingsVault : Address) :
    Call Registry := do
  requireTimelock registry env.sender
  revertIf (registry.savingsVault ≠ Address.zero) .savingsVaultAlreadySet
  revertIf (newSavingsVault = Address.zero) .zeroAddress
  pure { registry with savingsVault := newSavingsVault }

def setUsd8PriceOracle (env : RegistryEnv) (registry : Registry) (newOracle : Address) :
    Call Registry := do
  requireTimelock registry env.sender
  revertIf (newOracle = Address.zero) .zeroAddress
  pure { registry with usd8PriceOracle := newOracle }

def setAssetUsdFeed (env : RegistryEnv) (registry : Registry) (asset newFeed : Address)
    (probe : FeedProbe) : Call Registry := do
  requireTimelock registry env.sender
  requireNotFrozen env
  revertIf (asset = Address.zero ∨ newFeed = Address.zero) .zeroAddress
  validateAssetUsdFeed newFeed probe
  pure { registry with assetUsdFeed := Function.update registry.assetUsdFeed asset newFeed }

def setMaxOracleStaleness (env : RegistryEnv) (registry : Registry) (newStaleness : Nat) :
    Call Registry := do
  requireTimelock registry env.sender
  requireNotFrozen env
  revertIf (newStaleness = 0) .invalidOracleStaleness
  pure { registry with maxOracleStaleness := newStaleness }

def addPool (env : RegistryEnv) (registry : Registry) (pool usdFeed : Address)
    (probe : FeedProbe) : Call Registry := do
  requireTimelock registry env.sender
  requireNotFrozen env
  revertIf (pool = Address.zero ∨ usdFeed = Address.zero) .zeroAddress
  validateAssetUsdFeed usdFeed probe
  let asset ← orRevert (env.poolAsset pool) (.noCode pool)
  revertIf (asset = Address.zero) .zeroAddress
  revertIf (registry.coverPool asset ≠ Address.zero) (.poolExists asset)
  pure { registry with
    coverPool := Function.update registry.coverPool asset pool
    assetUsdFeed := Function.update registry.assetUsdFeed asset usdFeed
    coverPoolAssets := registry.coverPoolAssets ++ [asset] }

/-- Overwrite the first match with the last entry and drop the last slot. -/
def swapPop (entries : List Address) (entry : Address) : List Address :=
  if entry ∈ entries then
    (entries.set (entries.idxOf entry) (entries.getLastD Address.zero)).dropLast
  else entries

def removePool (env : RegistryEnv) (registry : Registry) (pool : Address) : Call Registry := do
  requireTimelock registry env.sender
  requireNotFrozen env
  let asset ← orRevert (env.poolAsset pool) (.noCode pool)
  revertIf (registry.coverPool asset ≠ pool) (.poolNotFound asset)
  pure { registry with
    coverPool := Function.update registry.coverPool asset Address.zero
    assetUsdFeed := Function.update registry.assetUsdFeed asset Address.zero
    coverPoolAssets := swapPop registry.coverPoolAssets asset }

def setDefiInsurance (env : RegistryEnv) (registry : Registry) (newModule : Address) :
    Call Registry := do
  requireTimelock registry env.sender
  revertIf (newModule = Address.zero) .zeroAddress
  revertIf (env.payoutIncidentActive = true) .frozen
  let candidate ← orRevert (env.activeIncidentId newModule) (.noCode newModule)
  revertIf (candidate ≠ 0) (.candidateIncidentActive newModule candidate)
  pure { registry with defiInsurance := newModule }

/-- The bound incident is compared only when there is a module and it still answers. -/
def checkExpectedIncident (env : RegistryEnv) (current : Address) (expectedIncidentId : Nat) :
    Call Unit :=
  if current = Address.zero then .ok ()
  else
    match env.activeIncidentId current with
    | none => .ok ()
    | some activeId =>
        revertIf (activeId ≠ 0 ∧ activeId ≠ expectedIncidentId)
          (.incidentChanged expectedIncidentId activeId)

def clearDefiInsurance (env : RegistryEnv) (registry : Registry) (expectedModule : Address)
    (expectedIncidentId : Nat) : Call Registry := do
  requireTimelock registry env.sender
  revertIf (registry.defiInsurance ≠ expectedModule)
    (.moduleChanged expectedModule registry.defiInsurance)
  checkExpectedIncident env registry.defiInsurance expectedIncidentId
  pure { registry with defiInsurance := Address.zero }

def setScoredToken (env : RegistryEnv) (registry : Registry) (token : Address) (rate : Nat) :
    Call Registry := do
  requireTimelock registry env.sender
  requireNotFrozen env
  revertIf (token = Address.zero) .zeroAddress
  let points := registry.scoredRates token
  let fromBlock := truncate 64 env.blockNumber
  match points.getLast? with
  | some previous => do
      revertIf (fromBlock ≤ previous.fromBlock)
        (.nonIncreasingScoredRateBlock token previous.fromBlock fromBlock)
      pure { registry with
        scoredRates := Function.update registry.scoredRates token
          (points ++ [⟨fromBlock, rate⟩]) }
  | none =>
      pure { registry with
        scoredTokenList := registry.scoredTokenList ++ [token]
        scoredRates := Function.update registry.scoredRates token
          (points ++ [⟨fromBlock, rate⟩]) }

def setBoosterConfig (env : RegistryEnv) (registry : Registry) (collection : Address)
    (tokenId boostBps : Nat) : Call Registry := do
  requireTimelock registry env.sender
  requireNotFrozen env
  revertIf (collection = Address.zero) .zeroAddress
  revertIf (boostBps = 0) .invalidBoosterBoostBps
  revertIf (registry.boosterConfig.collection ≠ Address.zero) .boosterConfigAlreadySet
  pure { registry with boosterConfig := ⟨collection, tokenId, boostBps⟩ }

def setMaxCoverPoolPayoutBps (env : RegistryEnv) (registry : Registry) (newBps : Nat) :
    Call Registry := do
  requireTimelock registry env.sender
  requireNotFrozen env
  revertIf (newBps = 0 ∨ newBps ≥ bpsDenominator) (.invalidMaxCoverPoolPayoutBps newBps)
  pure { registry with maxCoverPoolPayoutBps := newBps }

def setPausedBatch (env : RegistryEnv) (registry : Registry) (targets : List Address)
    (paused : Bool) : Call Registry := do
  requireAdminOrTimelock registry env.sender
  pure { registry with
    paused := targets.foldl (fun flags target => Function.update flags target paused)
      registry.paused }

def setPaused (env : RegistryEnv) (registry : Registry) (target : Address) (paused : Bool) :
    Call Registry := do
  requireAdminOrTimelock registry env.sender
  pure { registry with paused := Function.update registry.paused target paused }

/-- Called by the payout module only. -/
def recordScoreSpent (registry : Registry) (sender account : Address) (amount : Nat) :
    Call (Registry × Event) := do
  revertIf (sender ≠ registry.defiInsurance) (.unauthorizedModule sender)
  let newTotal ← checkedAdd 256 (registry.scoreSpent account) amount
  pure ({ registry with scoreSpent := Function.update registry.scoreSpent account newTotal },
    .scoreSpentRecorded account amount newTotal)

def exec (env : RegistryEnv) (registry : Registry) (call : RegistryCall) : Call Registry := do
  revertIf (¬ call.Encodable) .abiDecode
  match call with
  | .setProtocolFeeConfig config => setProtocolFeeConfig env registry config
  | .setIncidentTimingConfig config => setIncidentTimingConfig env registry config
  | .setExitTimingConfig config => setExitTimingConfig env registry config
  | .setIncidentOpenPriceConfig config => setIncidentOpenPriceConfig env registry config
  | .endBetaMode => endBetaMode env registry
  | .setTimelock newTimelock => setTimelock env registry newTimelock
  | .setAdmin account allowed => setAdmin env registry account allowed
  | .setTeePcrHash newHash => setTeePcrHash env registry newHash
  | .setUsd8 newUsd8 => setUsd8 env registry newUsd8
  | .setTreasury newTreasury => setTreasury env registry newTreasury
  | .setSavingsVault newSavingsVault => setSavingsVault env registry newSavingsVault
  | .setUsd8PriceOracle newOracle => setUsd8PriceOracle env registry newOracle
  | .setAssetUsdFeed asset newFeed probe => setAssetUsdFeed env registry asset newFeed probe
  | .setMaxOracleStaleness newStaleness => setMaxOracleStaleness env registry newStaleness
  | .addPool pool usdFeed probe => addPool env registry pool usdFeed probe
  | .removePool pool => removePool env registry pool
  | .setDefiInsurance newModule => setDefiInsurance env registry newModule
  | .clearDefiInsurance expectedModule expectedIncidentId =>
      clearDefiInsurance env registry expectedModule expectedIncidentId
  | .setScoredToken token rate => setScoredToken env registry token rate
  | .setBoosterConfig collection tokenId boostBps =>
      setBoosterConfig env registry collection tokenId boostBps
  | .setMaxCoverPoolPayoutBps newBps => setMaxCoverPoolPayoutBps env registry newBps
  | .setPaused target paused => setPaused env registry target paused
  | .setPausedBatch targets paused => setPausedBatch env registry targets paused

end Registry

end Usd8Core.Chain
