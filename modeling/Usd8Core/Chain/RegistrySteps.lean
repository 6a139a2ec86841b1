import Usd8Core.Chain.RegistryCalls
import Mathlib.Data.List.Basic

/-!
# What a Registry call can change

One statement covers every call: which settings are written at most once, when
the payout module changes, and how the list of cover pools moves.
-/

set_option autoImplicit false

namespace Usd8Core.Chain

open Usd8Core.Lib.ByteWords
open Usd8Core.Lib.CheckedCall

/-- The list of cover pools is kept, grows by a new asset or loses one. -/
inductive PoolListStep (env : RegistryEnv) (registry next : Registry) : Prop
  | kept (assets : next.coverPoolAssets = registry.coverPoolAssets)
      (pools : next.coverPool = registry.coverPool)
  | added (asset pool : Address) (poolNotZero : pool ≠ Address.zero)
      (assetOf : env.poolAsset pool = some asset)
      (free : registry.coverPool asset = Address.zero)
      (assets : next.coverPoolAssets = registry.coverPoolAssets ++ [asset])
      (pools : next.coverPool = Function.update registry.coverPool asset pool)
  | removed (asset pool : Address) (assetOf : env.poolAsset pool = some asset)
      (listed : registry.coverPool asset = pool)
      (assets : next.coverPoolAssets = Registry.swapPop registry.coverPoolAssets asset)
      (pools : next.coverPool = Function.update registry.coverPool asset Address.zero)

/-- The payout module is kept, cleared, or replaced by one without an incident. -/
inductive ModuleStep (env : RegistryEnv) (registry next : Registry) : Prop
  | kept (same : next.defiInsurance = registry.defiInsurance)
  | cleared (zero : next.defiInsurance = Address.zero)
  | replaced (notZero : next.defiInsurance ≠ Address.zero)
      (notFrozen : env.payoutIncidentActive = false)
      (idle : env.activeIncidentId next.defiInsurance = some 0)

structure RegistryStep (env : RegistryEnv) (registry next : Registry) : Prop where
  scores : next.scoreSpent = registry.scoreSpent
  cooldown : registry.exitTimingConfig.unstakeCooldown ≠ 0 →
    next.exitTimingConfig.unstakeCooldown ≠ 0
  fee : registry.protocolFeeConfig.claimProtocolFeeShareBps ≤ maxProtocolFeeBps →
    next.protocolFeeConfig.claimProtocolFeeShareBps ≤ maxProtocolFeeBps
  usd8 : next.usd8 = registry.usd8 ∨ registry.usd8 = Address.zero
  boosters : next.boosterConfig = registry.boosterConfig ∨
    registry.boosterConfig.collection = Address.zero
  module : ModuleStep env registry next
  poolList : PoolListStep env registry next

section Steps

variable {env : RegistryEnv} {registry next : Registry}

/-- A call that writes none of the fields above. -/
theorem RegistryStep.ofSame (scores : next.scoreSpent = registry.scoreSpent)
    (timing : next.exitTimingConfig = registry.exitTimingConfig)
    (fee : next.protocolFeeConfig = registry.protocolFeeConfig)
    (usd8 : next.usd8 = registry.usd8)
    (boosters : next.boosterConfig = registry.boosterConfig)
    (module : next.defiInsurance = registry.defiInsurance)
    (assets : next.coverPoolAssets = registry.coverPoolAssets)
    (pools : next.coverPool = registry.coverPool) : RegistryStep env registry next :=
  ⟨scores, fun before => by rw [timing]; exact before, fun before => by rw [fee]; exact before,
    Or.inl usd8, Or.inl boosters, .kept module, .kept assets pools⟩

theorem setProtocolFeeConfig_step (config : ProtocolFeeConfig)
    (run : Registry.setProtocolFeeConfig env registry config = .ok next) :
    RegistryStep env registry next := by
  unfold Registry.setProtocolFeeConfig at run
  obtain ⟨_, -, run⟩ := (bind_ok_iff _ _ _).mp run
  obtain ⟨_, -, run⟩ := (bind_ok_iff _ _ _).mp run
  obtain ⟨_, bound, run⟩ := (bind_ok_iff _ _ _).mp run
  obtain ⟨_, -, result⟩ := (bind_ok_iff _ _ _).mp run
  cases (pure_ok_iff _ _).mp result
  exact ⟨rfl, id, fun _ => Nat.le_of_not_lt ((revertIf_ok_iff _ _ _).mp bound), Or.inl rfl,
    Or.inl rfl, .kept rfl, .kept rfl rfl⟩

theorem setExitTimingConfig_step (config : ExitTimingConfig)
    (run : Registry.setExitTimingConfig env registry config = .ok next) :
    RegistryStep env registry next := by
  unfold Registry.setExitTimingConfig at run
  obtain ⟨_, -, run⟩ := (bind_ok_iff _ _ _).mp run
  obtain ⟨_, -, run⟩ := (bind_ok_iff _ _ _).mp run
  obtain ⟨_, positive, result⟩ := (bind_ok_iff _ _ _).mp run
  cases (pure_ok_iff _ _).mp result
  have nonzero := (revertIf_ok_iff _ _ _).mp positive
  exact ⟨rfl, fun _ zero => nonzero (Or.inl zero), id, Or.inl rfl, Or.inl rfl, .kept rfl,
    .kept rfl rfl⟩

theorem setUsd8_step (newUsd8 : Address)
    (run : Registry.setUsd8 env registry newUsd8 = .ok next) : RegistryStep env registry next := by
  unfold Registry.setUsd8 at run
  obtain ⟨_, -, run⟩ := (bind_ok_iff _ _ _).mp run
  obtain ⟨_, unset, run⟩ := (bind_ok_iff _ _ _).mp run
  obtain ⟨_, -, result⟩ := (bind_ok_iff _ _ _).mp run
  cases (pure_ok_iff _ _).mp result
  exact ⟨rfl, id, id, Or.inr (not_not.mp ((revertIf_ok_iff _ _ _).mp unset)), Or.inl rfl,
    .kept rfl, .kept rfl rfl⟩

theorem setBoosterConfig_step (collection : Address) (tokenId boostBps : Nat)
    (run : Registry.setBoosterConfig env registry collection tokenId boostBps = .ok next) :
    RegistryStep env registry next := by
  unfold Registry.setBoosterConfig at run
  obtain ⟨_, -, run⟩ := (bind_ok_iff _ _ _).mp run
  obtain ⟨_, -, run⟩ := (bind_ok_iff _ _ _).mp run
  obtain ⟨_, -, run⟩ := (bind_ok_iff _ _ _).mp run
  obtain ⟨_, -, run⟩ := (bind_ok_iff _ _ _).mp run
  obtain ⟨_, unset, result⟩ := (bind_ok_iff _ _ _).mp run
  cases (pure_ok_iff _ _).mp result
  exact ⟨rfl, id, id, Or.inl rfl, Or.inr (not_not.mp ((revertIf_ok_iff _ _ _).mp unset)),
    .kept rfl, .kept rfl rfl⟩

theorem addPool_step (pool usdFeed : Address) (probe : FeedProbe)
    (run : Registry.addPool env registry pool usdFeed probe = .ok next) :
    RegistryStep env registry next := by
  unfold Registry.addPool at run
  obtain ⟨_, -, run⟩ := (bind_ok_iff _ _ _).mp run
  obtain ⟨_, -, run⟩ := (bind_ok_iff _ _ _).mp run
  obtain ⟨_, notZero, run⟩ := (bind_ok_iff _ _ _).mp run
  obtain ⟨_, -, run⟩ := (bind_ok_iff _ _ _).mp run
  obtain ⟨asset, assetOf, run⟩ := (bind_ok_iff _ _ _).mp run
  obtain ⟨_, -, run⟩ := (bind_ok_iff _ _ _).mp run
  obtain ⟨_, free, result⟩ := (bind_ok_iff _ _ _).mp run
  cases (pure_ok_iff _ _).mp result
  have bothSet := (revertIf_ok_iff _ _ _).mp notZero
  exact ⟨rfl, id, id, Or.inl rfl, Or.inl rfl, .kept rfl,
    .added asset pool (fun zero => bothSet (Or.inl zero))
      ((orRevert_ok_iff _ _ _).mp assetOf) (not_not.mp ((revertIf_ok_iff _ _ _).mp free)) rfl rfl⟩

theorem removePool_step (pool : Address)
    (run : Registry.removePool env registry pool = .ok next) : RegistryStep env registry next := by
  unfold Registry.removePool at run
  obtain ⟨_, -, run⟩ := (bind_ok_iff _ _ _).mp run
  obtain ⟨_, -, run⟩ := (bind_ok_iff _ _ _).mp run
  obtain ⟨asset, assetOf, run⟩ := (bind_ok_iff _ _ _).mp run
  obtain ⟨_, listed, result⟩ := (bind_ok_iff _ _ _).mp run
  cases (pure_ok_iff _ _).mp result
  exact ⟨rfl, id, id, Or.inl rfl, Or.inl rfl, .kept rfl,
    .removed asset pool ((orRevert_ok_iff _ _ _).mp assetOf)
      (not_not.mp ((revertIf_ok_iff _ _ _).mp listed)) rfl rfl⟩

theorem setDefiInsurance_step (newModule : Address)
    (run : Registry.setDefiInsurance env registry newModule = .ok next) :
    RegistryStep env registry next := by
  unfold Registry.setDefiInsurance at run
  obtain ⟨_, -, run⟩ := (bind_ok_iff _ _ _).mp run
  obtain ⟨_, notZero, run⟩ := (bind_ok_iff _ _ _).mp run
  obtain ⟨_, notFrozen, run⟩ := (bind_ok_iff _ _ _).mp run
  obtain ⟨candidate, answered, run⟩ := (bind_ok_iff _ _ _).mp run
  obtain ⟨_, idle, result⟩ := (bind_ok_iff _ _ _).mp run
  cases (pure_ok_iff _ _).mp result
  have candidateEq : candidate = 0 := not_not.mp ((revertIf_ok_iff _ _ _).mp idle)
  have active := (orRevert_ok_iff _ _ _).mp answered
  rw [candidateEq] at active
  exact ⟨rfl, id, id, Or.inl rfl, Or.inl rfl,
    .replaced ((revertIf_ok_iff _ _ _).mp notZero)
      (by simpa using (revertIf_ok_iff _ _ _).mp notFrozen) active, .kept rfl rfl⟩

theorem clearDefiInsurance_step (expectedModule : Address) (expectedIncidentId : Nat)
    (run : Registry.clearDefiInsurance env registry expectedModule expectedIncidentId =
      .ok next) : RegistryStep env registry next := by
  unfold Registry.clearDefiInsurance at run
  obtain ⟨_, -, run⟩ := (bind_ok_iff _ _ _).mp run
  obtain ⟨_, -, run⟩ := (bind_ok_iff _ _ _).mp run
  obtain ⟨_, -, result⟩ := (bind_ok_iff _ _ _).mp run
  cases (pure_ok_iff _ _).mp result
  exact ⟨rfl, id, id, Or.inl rfl, Or.inl rfl, .cleared rfl, .kept rfl rfl⟩

theorem setScoredToken_step (token : Address) (rate : Nat)
    (run : Registry.setScoredToken env registry token rate = .ok next) :
    RegistryStep env registry next := by
  unfold Registry.setScoredToken at run
  obtain ⟨_, -, run⟩ := (bind_ok_iff _ _ _).mp run
  obtain ⟨_, -, run⟩ := (bind_ok_iff _ _ _).mp run
  obtain ⟨_, -, run⟩ := (bind_ok_iff _ _ _).mp run
  dsimp only at run
  split at run
  · obtain ⟨_, -, result⟩ := (bind_ok_iff _ _ _).mp run
    cases (pure_ok_iff _ _).mp result
    exact .ofSame rfl rfl rfl rfl rfl rfl rfl rfl
  · cases (pure_ok_iff _ _).mp run
    exact .ofSame rfl rfl rfl rfl rfl rfl rfl rfl

/-- Every Registry call is such a step. -/
theorem registry_exec_step (call : RegistryCall)
    (run : Registry.exec env registry call = .ok next) : RegistryStep env registry next := by
  unfold Registry.exec at run
  obtain ⟨_, -, run⟩ := (bind_ok_iff _ _ _).mp run
  cases call with
  | setProtocolFeeConfig config => exact setProtocolFeeConfig_step config run
  | setExitTimingConfig config => exact setExitTimingConfig_step config run
  | setUsd8 newUsd8 => exact setUsd8_step newUsd8 run
  | setBoosterConfig collection tokenId boostBps =>
      exact setBoosterConfig_step collection tokenId boostBps run
  | addPool pool usdFeed probe => exact addPool_step pool usdFeed probe run
  | removePool pool => exact removePool_step pool run
  | setDefiInsurance newModule => exact setDefiInsurance_step newModule run
  | clearDefiInsurance expectedModule expectedIncidentId =>
      exact clearDefiInsurance_step expectedModule expectedIncidentId run
  | setScoredToken token rate => exact setScoredToken_step token rate run
  | setIncidentTimingConfig config =>
      simp only [Registry.setIncidentTimingConfig, bind_ok_iff, pure_ok_iff] at run
      obtain ⟨_, -, _, -, _, -, rfl⟩ := run
      exact .ofSame rfl rfl rfl rfl rfl rfl rfl rfl
  | setIncidentOpenPriceConfig config =>
      simp only [Registry.setIncidentOpenPriceConfig, bind_ok_iff, pure_ok_iff] at run
      obtain ⟨_, -, _, -, _, -, rfl⟩ := run
      exact .ofSame rfl rfl rfl rfl rfl rfl rfl rfl
  | endBetaMode =>
      simp only [Registry.endBetaMode, bind_ok_iff, pure_ok_iff] at run
      obtain ⟨_, -, _, -, rfl⟩ := run
      exact .ofSame rfl rfl rfl rfl rfl rfl rfl rfl
  | setTimelock newTimelock =>
      simp only [Registry.setTimelock, bind_ok_iff, pure_ok_iff] at run
      obtain ⟨_, -, _, -, rfl⟩ := run
      exact .ofSame rfl rfl rfl rfl rfl rfl rfl rfl
  | setAdmin account allowed =>
      simp only [Registry.setAdmin, bind_ok_iff, pure_ok_iff] at run
      obtain ⟨_, -, _, -, rfl⟩ := run
      exact .ofSame rfl rfl rfl rfl rfl rfl rfl rfl
  | setTeePcrHash newHash =>
      simp only [Registry.setTeePcrHash, bind_ok_iff, pure_ok_iff] at run
      obtain ⟨_, -, _, -, _, -, rfl⟩ := run
      exact .ofSame rfl rfl rfl rfl rfl rfl rfl rfl
  | setTreasury newTreasury =>
      simp only [Registry.setTreasury, bind_ok_iff, pure_ok_iff] at run
      obtain ⟨_, -, _, -, _, -, rfl⟩ := run
      exact .ofSame rfl rfl rfl rfl rfl rfl rfl rfl
  | setSavingsVault newSavingsVault =>
      simp only [Registry.setSavingsVault, bind_ok_iff, pure_ok_iff] at run
      obtain ⟨_, -, _, -, _, -, rfl⟩ := run
      exact .ofSame rfl rfl rfl rfl rfl rfl rfl rfl
  | setUsd8PriceOracle newOracle =>
      simp only [Registry.setUsd8PriceOracle, bind_ok_iff, pure_ok_iff] at run
      obtain ⟨_, -, _, -, rfl⟩ := run
      exact .ofSame rfl rfl rfl rfl rfl rfl rfl rfl
  | setAssetUsdFeed asset newFeed probe =>
      simp only [Registry.setAssetUsdFeed, bind_ok_iff, pure_ok_iff] at run
      obtain ⟨_, -, _, -, _, -, _, -, rfl⟩ := run
      exact .ofSame rfl rfl rfl rfl rfl rfl rfl rfl
  | setMaxOracleStaleness newStaleness =>
      simp only [Registry.setMaxOracleStaleness, bind_ok_iff, pure_ok_iff] at run
      obtain ⟨_, -, _, -, _, -, rfl⟩ := run
      exact .ofSame rfl rfl rfl rfl rfl rfl rfl rfl
  | setMaxCoverPoolPayoutBps newBps =>
      simp only [Registry.setMaxCoverPoolPayoutBps, bind_ok_iff, pure_ok_iff] at run
      obtain ⟨_, -, _, -, _, -, rfl⟩ := run
      exact .ofSame rfl rfl rfl rfl rfl rfl rfl rfl
  | setPaused target paused =>
      simp only [Registry.setPaused, bind_ok_iff, pure_ok_iff] at run
      obtain ⟨_, -, rfl⟩ := run
      exact .ofSame rfl rfl rfl rfl rfl rfl rfl rfl
  | setPausedBatch targets paused =>
      simp only [Registry.setPausedBatch, bind_ok_iff, pure_ok_iff] at run
      obtain ⟨_, -, rfl⟩ := run
      exact .ofSame rfl rfl rfl rfl rfl rfl rfl rfl

/-! ## The freeze -/

/-- What a settlement reads of the Registry. -/
structure SettlementConfig where
  coverPools : List (Address × Address)
  assetUsdFeed : Address → Address
  maxOracleStaleness : Nat
  maxCoverPoolPayoutBps : Nat
  scoredTokenList : List Address
  scoredRates : Address → List RatePoint
  boosterConfig : BoosterConfig
  teePcrHash : Hash
  incidentTimingConfig : IncidentTimingConfig
  exitTimingConfig : ExitTimingConfig

def Registry.settlementConfig (registry : Registry) : SettlementConfig where
  coverPools := registry.coverPoolAssets.map fun asset => (asset, registry.coverPool asset)
  assetUsdFeed := registry.assetUsdFeed
  maxOracleStaleness := registry.maxOracleStaleness
  maxCoverPoolPayoutBps := registry.maxCoverPoolPayoutBps
  scoredTokenList := registry.scoredTokenList
  scoredRates := registry.scoredRates
  boosterConfig := registry.boosterConfig
  teePcrHash := registry.teePcrHash
  incidentTimingConfig := registry.incidentTimingConfig
  exitTimingConfig := registry.exitTimingConfig

theorem not_requireNotFrozen {result : Unit} (frozen : env.payoutIncidentActive = true) :
    Registry.requireNotFrozen env ≠ .ok result := by
  intro passed
  exact (revertIf_ok_iff _ _ _).mp passed frozen

/-- No Registry call of anyone changes it while an incident is active. -/
theorem registry_exec_frozen (call : RegistryCall) (frozen : env.payoutIncidentActive = true)
    (run : Registry.exec env registry call = .ok next) :
    next.settlementConfig = registry.settlementConfig := by
  unfold Registry.exec at run
  obtain ⟨_, -, run⟩ := (bind_ok_iff _ _ _).mp run
  cases call with
  | setProtocolFeeConfig config =>
      simp only [Registry.setProtocolFeeConfig, bind_ok_iff, pure_ok_iff] at run
      obtain ⟨_, -, _, -, _, -, _, -, rfl⟩ := run
      rfl
  | setTimelock newTimelock =>
      simp only [Registry.setTimelock, bind_ok_iff, pure_ok_iff] at run
      obtain ⟨_, -, _, -, rfl⟩ := run
      rfl
  | setAdmin account allowed =>
      simp only [Registry.setAdmin, bind_ok_iff, pure_ok_iff] at run
      obtain ⟨_, -, _, -, rfl⟩ := run
      rfl
  | setUsd8 newUsd8 =>
      simp only [Registry.setUsd8, bind_ok_iff, pure_ok_iff] at run
      obtain ⟨_, -, _, -, _, -, rfl⟩ := run
      rfl
  | setTreasury newTreasury =>
      simp only [Registry.setTreasury, bind_ok_iff, pure_ok_iff] at run
      obtain ⟨_, -, _, -, _, -, rfl⟩ := run
      rfl
  | setSavingsVault newSavingsVault =>
      simp only [Registry.setSavingsVault, bind_ok_iff, pure_ok_iff] at run
      obtain ⟨_, -, _, -, _, -, rfl⟩ := run
      rfl
  | setUsd8PriceOracle newOracle =>
      simp only [Registry.setUsd8PriceOracle, bind_ok_iff, pure_ok_iff] at run
      obtain ⟨_, -, _, -, rfl⟩ := run
      rfl
  | clearDefiInsurance expectedModule expectedIncidentId =>
      simp only [Registry.clearDefiInsurance, bind_ok_iff, pure_ok_iff] at run
      obtain ⟨_, -, _, -, _, -, rfl⟩ := run
      rfl
  | setPaused target paused =>
      simp only [Registry.setPaused, bind_ok_iff, pure_ok_iff] at run
      obtain ⟨_, -, rfl⟩ := run
      rfl
  | setPausedBatch targets paused =>
      simp only [Registry.setPausedBatch, bind_ok_iff, pure_ok_iff] at run
      obtain ⟨_, -, rfl⟩ := run
      rfl
  | setDefiInsurance newModule =>
      simp only [Registry.setDefiInsurance, bind_ok_iff] at run
      obtain ⟨_, -, _, -, _, notFrozen, -⟩ := run
      exact absurd frozen ((revertIf_ok_iff _ _ _).mp notFrozen)
  | setIncidentTimingConfig config =>
      simp only [Registry.setIncidentTimingConfig, bind_ok_iff] at run
      obtain ⟨_, -, _, passed, -⟩ := run
      exact absurd passed (not_requireNotFrozen frozen)
  | setExitTimingConfig config =>
      simp only [Registry.setExitTimingConfig, bind_ok_iff] at run
      obtain ⟨_, -, _, passed, -⟩ := run
      exact absurd passed (not_requireNotFrozen frozen)
  | setIncidentOpenPriceConfig config =>
      simp only [Registry.setIncidentOpenPriceConfig, bind_ok_iff] at run
      obtain ⟨_, -, _, passed, -⟩ := run
      exact absurd passed (not_requireNotFrozen frozen)
  | endBetaMode =>
      simp only [Registry.endBetaMode, bind_ok_iff] at run
      obtain ⟨_, -, _, passed, -⟩ := run
      exact absurd passed (not_requireNotFrozen frozen)
  | setTeePcrHash newHash =>
      simp only [Registry.setTeePcrHash, bind_ok_iff] at run
      obtain ⟨_, -, _, passed, -⟩ := run
      exact absurd passed (not_requireNotFrozen frozen)
  | setAssetUsdFeed asset newFeed probe =>
      simp only [Registry.setAssetUsdFeed, bind_ok_iff] at run
      obtain ⟨_, -, _, passed, -⟩ := run
      exact absurd passed (not_requireNotFrozen frozen)
  | setMaxOracleStaleness newStaleness =>
      simp only [Registry.setMaxOracleStaleness, bind_ok_iff] at run
      obtain ⟨_, -, _, passed, -⟩ := run
      exact absurd passed (not_requireNotFrozen frozen)
  | addPool pool usdFeed probe =>
      simp only [Registry.addPool, bind_ok_iff] at run
      obtain ⟨_, -, _, passed, -⟩ := run
      exact absurd passed (not_requireNotFrozen frozen)
  | removePool pool =>
      simp only [Registry.removePool, bind_ok_iff] at run
      obtain ⟨_, -, _, passed, -⟩ := run
      exact absurd passed (not_requireNotFrozen frozen)
  | setScoredToken token rate =>
      simp only [Registry.setScoredToken, bind_ok_iff] at run
      obtain ⟨_, -, _, passed, -⟩ := run
      exact absurd passed (not_requireNotFrozen frozen)
  | setBoosterConfig collection tokenId boostBps =>
      simp only [Registry.setBoosterConfig, bind_ok_iff] at run
      obtain ⟨_, -, _, passed, -⟩ := run
      exact absurd passed (not_requireNotFrozen frozen)
  | setMaxCoverPoolPayoutBps newBps =>
      simp only [Registry.setMaxCoverPoolPayoutBps, bind_ok_iff] at run
      obtain ⟨_, -, _, passed, -⟩ := run
      exact absurd passed (not_requireNotFrozen frozen)

/-! ## Removing an entry by swap and pop -/

/-- The entries that stay, in some order. -/
theorem swapPop_perm (entries : List Address) (entry : Address) :
    (Registry.swapPop entries entry).Perm (entries.erase entry) := by
  unfold Registry.swapPop
  split
  case isFalse absent => rw [List.erase_of_not_mem absent]
  case isTrue present =>
    rcases List.eq_nil_or_concat entries with rfl | ⟨front, last, rfl⟩
    · simp at present
    · rw [List.concat_eq_append] at present ⊢
      have lastEq : (front ++ [last]).getLastD Address.zero = last := by simp
      rw [lastEq]
      by_cases inFront : entry ∈ front
      · have inside := List.idxOf_lt_length_iff.mpr inFront
        rw [List.idxOf_append_of_mem inFront, List.set_append_left _ _ inside,
          List.dropLast_concat, List.erase_append_left _ inFront]
        have swapped := List.set_perm_cons_eraseIdx inside last
        rw [← List.erase_eq_eraseIdx_of_idxOf rfl] at swapped
        exact swapped.trans (List.perm_append_singleton last _).symm
      · have isLast : entry = last := by
          rcases List.mem_append.mp present with absurdity | single
          · exact absurd absurdity inFront
          · exact List.mem_singleton.mp single
        subst isLast
        have position : List.idxOf entry (front ++ [entry]) = front.length := by
          rw [List.idxOf_append_of_notMem inFront]
          simp
        rw [position, List.erase_append_right _ inFront]
        simp

theorem swapPop_nodup (entries : List Address) (entry : Address) (distinct : entries.Nodup) :
    (Registry.swapPop entries entry).Nodup :=
  (swapPop_perm entries entry).nodup_iff.mpr (distinct.erase entry)

theorem mem_swapPop_iff (entries : List Address) (entry other : Address)
    (distinct : entries.Nodup) :
    other ∈ Registry.swapPop entries entry ↔ other ≠ entry ∧ other ∈ entries := by
  rw [(swapPop_perm entries entry).mem_iff, distinct.mem_erase_iff]

end Steps

end Usd8Core.Chain
