import Usd8Core.Chain.RegistrySteps

/-!
# Registry topology

The cover-pool list with its feeds, and the list of scored tokens with their
rate histories, over every sequence of Registry calls.  Both enumerations are
kept by hand in the contract; here each is tied to the mapping it enumerates.
-/

set_option autoImplicit false

namespace Usd8Core.Chain

open Usd8Core.Lib.ByteWords
open Usd8Core.Lib.CheckedCall

/-! ## What a call does to feeds, scored tokens and windows -/

/-- Feeds are kept, one is written, or one is deleted with its pool. -/
inductive FeedStep (registry next : Registry) : Prop
  | kept (feeds : next.assetUsdFeed = registry.assetUsdFeed)
      (assets : next.coverPoolAssets = registry.coverPoolAssets)
  | written (asset feed : Address) (notZero : feed ≠ Address.zero)
      (feeds : next.assetUsdFeed = Function.update registry.assetUsdFeed asset feed)
      (assets : ∀ other ∈ next.coverPoolAssets,
        other = asset ∨ other ∈ registry.coverPoolAssets)
  | deleted (asset : Address)
      (feeds : next.assetUsdFeed = Function.update registry.assetUsdFeed asset Address.zero)
      (assets : next.coverPoolAssets = Registry.swapPop registry.coverPoolAssets asset)

/-- Histories are kept, one starts with its token listed, or one grows. -/
inductive ScoreStep (registry next : Registry) : Prop
  | kept (tokens : next.scoredTokenList = registry.scoredTokenList)
      (rates : next.scoredRates = registry.scoredRates)
  | started (token : Address) (point : RatePoint) (unscored : registry.scoredRates token = [])
      (tokens : next.scoredTokenList = registry.scoredTokenList ++ [token])
      (rates : next.scoredRates = Function.update registry.scoredRates token [point])
  | extended (token : Address) (last point : RatePoint)
      (scored : (registry.scoredRates token).getLast? = some last)
      (later : last.fromBlock < point.fromBlock)
      (tokens : next.scoredTokenList = registry.scoredTokenList)
      (rates : next.scoredRates = Function.update registry.scoredRates token
        (registry.scoredRates token ++ [point]))

/-- The reference window is longer than the price window. -/
def Registry.WindowsNest (registry : Registry) : Prop :=
  registry.incidentOpenPriceConfig.twapBlocks <
    registry.incidentTimingConfig.maxReferenceBlockAge

structure TopologyStep (registry next : Registry) : Prop where
  feeds : FeedStep registry next
  scores : ScoreStep registry next
  windows : registry.WindowsNest → next.WindowsNest

section Steps

variable {env : RegistryEnv} {registry next : Registry}

/-- A call that writes none of these fields. -/
theorem TopologyStep.ofSame (feeds : next.assetUsdFeed = registry.assetUsdFeed)
    (assets : next.coverPoolAssets = registry.coverPoolAssets)
    (tokens : next.scoredTokenList = registry.scoredTokenList)
    (rates : next.scoredRates = registry.scoredRates)
    (timing : next.incidentTimingConfig = registry.incidentTimingConfig)
    (price : next.incidentOpenPriceConfig = registry.incidentOpenPriceConfig) :
    TopologyStep registry next where
  feeds := .kept feeds assets
  scores := .kept tokens rates
  windows nested := by
    unfold Registry.WindowsNest at nested ⊢
    rw [timing, price]
    exact nested

theorem setIncidentTimingConfig_topology (config : IncidentTimingConfig) :
    Returns (TopologyStep registry)
      (Registry.setIncidentTimingConfig env registry config) := by
  refine returns_bind fun _ _ => returns_bind fun _ _ => returns_bind fun _ checked => ?_
  have valid := (revertIf_ok_iff _ _ _).mp checked
  push Not at valid
  exact returns_pure ⟨.kept rfl rfl, .kept rfl rfl, fun _ => valid.2.2⟩

theorem setIncidentOpenPriceConfig_topology (config : IncidentOpenPriceConfig) :
    Returns (TopologyStep registry)
      (Registry.setIncidentOpenPriceConfig env registry config) := by
  refine returns_bind fun _ _ => returns_bind fun _ _ => returns_bind fun _ checked => ?_
  have valid := (revertIf_ok_iff _ _ _).mp checked
  push Not at valid
  exact returns_pure ⟨.kept rfl rfl, .kept rfl rfl, fun _ => valid.2.2.2.2.2.2.2⟩

theorem setAssetUsdFeed_topology (asset newFeed : Address) (probe : FeedProbe) :
    Returns (TopologyStep registry)
      (Registry.setAssetUsdFeed env registry asset newFeed probe) := by
  refine returns_bind fun _ _ => returns_bind fun _ _ => returns_bind fun _ checked =>
    returns_bind fun _ _ => ?_
  have notZero := (revertIf_ok_iff _ _ _).mp checked
  refine returns_pure ⟨?_, .kept rfl rfl, id⟩
  exact .written asset newFeed (fun zero => notZero (Or.inr zero)) rfl fun _ => Or.inr

theorem addPool_topology (pool usdFeed : Address) (probe : FeedProbe) :
    Returns (TopologyStep registry) (Registry.addPool env registry pool usdFeed probe) := by
  refine returns_bind fun _ _ => returns_bind fun _ _ => returns_bind fun _ checked =>
    returns_bind fun _ _ => returns_bind fun asset _ => returns_bind fun _ _ =>
    returns_bind fun _ _ => ?_
  have notZero := (revertIf_ok_iff _ _ _).mp checked
  refine returns_pure ⟨?_, .kept rfl rfl, id⟩
  refine .written asset usdFeed (fun zero => notZero (Or.inr zero)) rfl ?_
  intro other member
  rcases List.mem_append.mp member with old | new
  · exact Or.inr old
  · exact Or.inl (List.mem_singleton.mp new)

theorem removePool_topology (pool : Address) :
    Returns (TopologyStep registry) (Registry.removePool env registry pool) :=
  returns_bind fun _ _ => returns_bind fun _ _ => returns_bind fun asset _ =>
    returns_bind fun _ _ => returns_pure ⟨.deleted asset rfl rfl, .kept rfl rfl, id⟩

theorem setScoredToken_topology (token : Address) (rate : Nat) :
    Returns (TopologyStep registry) (Registry.setScoredToken env registry token rate) := by
  refine returns_bind fun _ _ => returns_bind fun _ _ => returns_bind fun _ _ => ?_
  cases found : (registry.scoredRates token).getLast? with
  | some last =>
      simp only [found]
      refine returns_bind fun _ checked => returns_pure ⟨.kept rfl rfl, ?_, id⟩
      exact .extended token last ⟨truncate 64 env.blockNumber, rate⟩ found
        (Nat.lt_of_not_le ((revertIf_ok_iff _ _ _).mp checked)) rfl rfl
  | none =>
      simp only [found]
      have unscored := List.getLast?_eq_none_iff.mp found
      refine returns_pure ⟨.kept rfl rfl, ?_, id⟩
      refine .started token ⟨truncate 64 env.blockNumber, rate⟩ unscored rfl ?_
      rw [unscored]
      rfl

/-- Every Registry call is such a step. -/
theorem registry_exec_topology (call : RegistryCall)
    (run : Registry.exec env registry call = .ok next) : TopologyStep registry next := by
  have calls : Returns (TopologyStep registry) (Registry.exec env registry call) := by
    refine returns_bind fun _ _ => ?_
    cases call with
    | setIncidentTimingConfig config => exact setIncidentTimingConfig_topology config
    | setIncidentOpenPriceConfig config => exact setIncidentOpenPriceConfig_topology config
    | setAssetUsdFeed asset newFeed probe => exact setAssetUsdFeed_topology asset newFeed probe
    | addPool pool usdFeed probe => exact addPool_topology pool usdFeed probe
    | removePool pool => exact removePool_topology pool
    | setScoredToken token rate => exact setScoredToken_topology token rate
    | setTimelock newTimelock =>
        exact returns_bind fun _ _ => returns_bind fun _ _ =>
          returns_pure (.ofSame rfl rfl rfl rfl rfl rfl)
    | setAdmin account allowed =>
        exact returns_bind fun _ _ => returns_bind fun _ _ =>
          returns_pure (.ofSame rfl rfl rfl rfl rfl rfl)
    | endBetaMode =>
        exact returns_bind fun _ _ => returns_bind fun _ _ =>
          returns_pure (.ofSame rfl rfl rfl rfl rfl rfl)
    | setUsd8PriceOracle newOracle =>
        exact returns_bind fun _ _ => returns_bind fun _ _ =>
          returns_pure (.ofSame rfl rfl rfl rfl rfl rfl)
    | setPaused target paused =>
        exact returns_bind fun _ _ => returns_pure (.ofSame rfl rfl rfl rfl rfl rfl)
    | setPausedBatch targets paused =>
        exact returns_bind fun _ _ => returns_pure (.ofSame rfl rfl rfl rfl rfl rfl)
    | setExitTimingConfig config =>
        exact returns_bind fun _ _ => returns_bind fun _ _ => returns_bind fun _ _ =>
          returns_pure (.ofSame rfl rfl rfl rfl rfl rfl)
    | setTeePcrHash newHash =>
        exact returns_bind fun _ _ => returns_bind fun _ _ => returns_bind fun _ _ =>
          returns_pure (.ofSame rfl rfl rfl rfl rfl rfl)
    | setUsd8 newUsd8 =>
        exact returns_bind fun _ _ => returns_bind fun _ _ => returns_bind fun _ _ =>
          returns_pure (.ofSame rfl rfl rfl rfl rfl rfl)
    | setTreasury newTreasury =>
        exact returns_bind fun _ _ => returns_bind fun _ _ => returns_bind fun _ _ =>
          returns_pure (.ofSame rfl rfl rfl rfl rfl rfl)
    | setSavingsVault newSavingsVault =>
        exact returns_bind fun _ _ => returns_bind fun _ _ => returns_bind fun _ _ =>
          returns_pure (.ofSame rfl rfl rfl rfl rfl rfl)
    | setMaxOracleStaleness newStaleness =>
        exact returns_bind fun _ _ => returns_bind fun _ _ => returns_bind fun _ _ =>
          returns_pure (.ofSame rfl rfl rfl rfl rfl rfl)
    | setMaxCoverPoolPayoutBps newBps =>
        exact returns_bind fun _ _ => returns_bind fun _ _ => returns_bind fun _ _ =>
          returns_pure (.ofSame rfl rfl rfl rfl rfl rfl)
    | clearDefiInsurance expectedModule expectedIncidentId =>
        exact returns_bind fun _ _ => returns_bind fun _ _ => returns_bind fun _ _ =>
          returns_pure (.ofSame rfl rfl rfl rfl rfl rfl)
    | setProtocolFeeConfig config =>
        exact returns_bind fun _ _ => returns_bind fun _ _ => returns_bind fun _ _ =>
          returns_bind fun _ _ => returns_pure (.ofSame rfl rfl rfl rfl rfl rfl)
    | setDefiInsurance newModule =>
        exact returns_bind fun _ _ => returns_bind fun _ _ => returns_bind fun _ _ =>
          returns_bind fun _ _ => returns_bind fun _ _ =>
          returns_pure (.ofSame rfl rfl rfl rfl rfl rfl)
    | setBoosterConfig collection tokenId boostBps =>
        exact returns_bind fun _ _ => returns_bind fun _ _ => returns_bind fun _ _ =>
          returns_bind fun _ _ => returns_bind fun _ _ =>
          returns_pure (.ofSame rfl rfl rfl rfl rfl rfl)
  exact calls next run

end Steps

/-! ## The invariant -/

/-- The two enumerations list exactly what their mappings hold; `assetOf` is the pools'
own `asset()`. -/
structure Topology (assetOf : Address → Option Address) (registry : Registry) : Prop where
  assets : registry.coverPoolAssets.Nodup
  listed : ∀ asset, asset ∈ registry.coverPoolAssets ↔ registry.coverPool asset ≠ Address.zero
  poolAssets : ∀ asset ∈ registry.coverPoolAssets,
    assetOf (registry.coverPool asset) = some asset
  feeds : ∀ asset ∈ registry.coverPoolAssets, registry.assetUsdFeed asset ≠ Address.zero
  tokens : registry.scoredTokenList.Nodup
  scored : ∀ token, token ∈ registry.scoredTokenList ↔ registry.scoredRates token ≠ []
  ascending : ∀ token, (registry.scoredRates token).Pairwise
    fun earlier later => earlier.fromBlock < later.fromBlock
  windows : registry.WindowsNest

theorem Topology.initial (assetOf : Address → Option Address) (timelock admin : Address) :
    Topology assetOf (Registry.initial timelock admin) where
  assets := List.nodup_nil
  listed := by simp [Registry.initial]
  poolAssets := by simp [Registry.initial]
  feeds := by simp [Registry.initial]
  tokens := List.nodup_nil
  scored := by simp [Registry.initial]
  ascending _ := List.Pairwise.nil
  windows := by norm_num [Registry.WindowsNest, Registry.initial]

section Preserved

variable {env : RegistryEnv} {registry next : Registry}

/-- The pool list follows the pool mapping. -/
theorem Topology.poolList (topology : Topology env.poolAsset registry)
    (step : PoolListStep env registry next) :
    next.coverPoolAssets.Nodup ∧
      (∀ asset, asset ∈ next.coverPoolAssets ↔ next.coverPool asset ≠ Address.zero) ∧
      ∀ asset ∈ next.coverPoolAssets, env.poolAsset (next.coverPool asset) = some asset := by
  cases step with
  | kept assets pools =>
      rw [assets, pools]
      exact ⟨topology.assets, topology.listed, topology.poolAssets⟩
  | added asset pool poolNotZero assetOf free assets pools =>
      have fresh : asset ∉ registry.coverPoolAssets := fun member =>
        (topology.listed asset).mp member free
      rw [assets, pools]
      refine ⟨?_, ?_, ?_⟩
      · exact topology.assets.append (List.nodup_singleton asset)
          (by simpa [List.disjoint_singleton] using fresh)
      · intro other
        rw [List.mem_append, List.mem_singleton]
        by_cases same : other = asset
        · subst same
          simp [poolNotZero]
        · rw [Function.update_of_ne same, ← topology.listed]
          simp [same]
      · intro other member
        by_cases same : other = asset
        · subst same
          rw [Function.update_self]
          exact assetOf
        · rw [Function.update_of_ne same]
          rcases List.mem_append.mp member with old | new
          · exact topology.poolAssets other old
          · exact absurd (List.mem_singleton.mp new) same
  | removed asset pool assetOf listed assets pools =>
      rw [assets, pools]
      refine ⟨swapPop_nodup _ asset topology.assets, ?_, ?_⟩
      · intro other
        rw [mem_swapPop_iff _ asset other topology.assets]
        by_cases same : other = asset
        · subst same
          simp
        · rw [Function.update_of_ne same, ← topology.listed]
          simp [same]
      · intro other member
        obtain ⟨differ, old⟩ := (mem_swapPop_iff _ asset other topology.assets).mp member
        rw [Function.update_of_ne differ]
        exact topology.poolAssets other old

theorem Topology.feedList {assetOf : Address → Option Address}
    (topology : Topology assetOf registry) (step : FeedStep registry next) :
    ∀ asset ∈ next.coverPoolAssets, next.assetUsdFeed asset ≠ Address.zero := by
  intro other member
  cases step with
  | kept feeds assets =>
      rw [feeds]
      exact topology.feeds other (assets ▸ member)
  | written asset feed notZero feeds assets =>
      rw [feeds]
      by_cases same : other = asset
      · rw [same, Function.update_self]
        exact notZero
      · rw [Function.update_of_ne same]
        exact topology.feeds other ((assets other member).resolve_left same)
  | deleted asset feeds assets =>
      rw [assets] at member
      obtain ⟨differ, old⟩ := (mem_swapPop_iff _ asset other topology.assets).mp member
      rw [feeds, Function.update_of_ne differ]
      exact topology.feeds other old

theorem Topology.scoreList {assetOf : Address → Option Address}
    (topology : Topology assetOf registry) (step : ScoreStep registry next) :
    next.scoredTokenList.Nodup ∧
      (∀ token, token ∈ next.scoredTokenList ↔ next.scoredRates token ≠ []) ∧
      ∀ token, (next.scoredRates token).Pairwise
        fun earlier later => earlier.fromBlock < later.fromBlock := by
  cases step with
  | kept tokens rates =>
      rw [tokens, rates]
      exact ⟨topology.tokens, topology.scored, topology.ascending⟩
  | started token point unscored tokens rates =>
      have fresh : token ∉ registry.scoredTokenList := fun member =>
        (topology.scored token).mp member unscored
      rw [tokens, rates]
      refine ⟨?_, ?_, ?_⟩
      · exact topology.tokens.append (List.nodup_singleton token)
          (by simpa [List.disjoint_singleton] using fresh)
      · intro other
        rw [List.mem_append, List.mem_singleton]
        by_cases same : other = token
        · subst same
          simp
        · rw [Function.update_of_ne same, ← topology.scored]
          simp [same]
      · intro other
        by_cases same : other = token
        · rw [same, Function.update_self]
          exact List.pairwise_singleton _ _
        · rw [Function.update_of_ne same]
          exact topology.ascending other
  | extended token last point scored later tokens rates =>
      have nonempty : registry.scoredRates token ≠ [] := by
        intro empty
        simp [empty] at scored
      rw [tokens, rates]
      refine ⟨topology.tokens, ?_, ?_⟩
      · intro other
        by_cases same : other = token
        · rw [same, Function.update_self, topology.scored]
          simp [nonempty]
        · rw [Function.update_of_ne same]
          exact topology.scored other
      · intro other
        by_cases same : other = token
        · rw [same, Function.update_self]
          obtain ⟨front, history⟩ := List.getLast?_eq_some_iff.mp scored
          have ascending := topology.ascending token
          rw [history] at ascending ⊢
          -- everything before the last point is below it, and the new one is above
          rw [List.pairwise_append] at ascending ⊢
          refine ⟨?_, List.pairwise_singleton _ _, ?_⟩
          · rw [List.pairwise_append]
            exact ascending
          · intro earlier earlierMember added addedMember
            rw [List.mem_singleton.mp addedMember]
            rcases List.mem_append.mp earlierMember with before | isLast
            · exact Nat.lt_trans (ascending.2.2 earlier before last (by simp)) later
            · rw [List.mem_singleton.mp isLast]
              exact later
        · rw [Function.update_of_ne same]
          exact topology.ascending other

theorem Topology.step (topology : Topology env.poolAsset registry) (call : RegistryCall)
    (run : Registry.exec env registry call = .ok next) : Topology env.poolAsset next := by
  obtain ⟨feedStep, scoreStep, windows⟩ := registry_exec_topology call run
  obtain ⟨assets, listed, poolAssets⟩ := topology.poolList (registry_exec_step call run).poolList
  obtain ⟨tokens, scored, ascending⟩ := topology.scoreList scoreStep
  exact ⟨assets, listed, poolAssets, topology.feedList feedStep, tokens, scored, ascending,
    windows topology.windows⟩

/-- Histories only grow. -/
theorem ScoreStep.history_grows (step : ScoreStep registry next) (token : Address) :
    registry.scoredRates token <+: next.scoredRates token := by
  cases step with
  | kept tokens rates => rw [rates]
  | started other point unscored tokens rates =>
      rw [rates]
      by_cases same : token = other
      · rw [same, unscored]
        exact List.nil_prefix
      · rw [Function.update_of_ne same]
  | extended other last point scored later tokens rates =>
      rw [rates]
      by_cases same : token = other
      · rw [same, Function.update_self]
        exact List.prefix_append _ _
      · rw [Function.update_of_ne same]

end Preserved

/-! ## Sequences of calls -/

/-- A Registry transaction of anyone, with what the Registry sees of the other contracts. -/
structure RegistryTx where
  sender : Address
  blockNumber : Nat
  payoutIncidentActive : Bool
  activeIncidentId : Address → Option Nat
  call : RegistryCall

section Sequences

variable (assetOf : Address → Option Address)

def RegistryTx.env (tx : RegistryTx) : RegistryEnv where
  sender := tx.sender
  blockNumber := tx.blockNumber
  payoutIncidentActive := tx.payoutIncidentActive
  activeIncidentId := tx.activeIncidentId
  poolAsset := assetOf

/-- A reverted transaction leaves the state as it was. -/
def applyTx (registry : Registry) (tx : RegistryTx) : Registry :=
  match Registry.exec (tx.env assetOf) registry tx.call with
  | .ok next => next
  | .error _ => registry

def applyTxs (registry : Registry) (txs : List RegistryTx) : Registry :=
  txs.foldl (applyTx assetOf) registry

theorem Topology.applyTx (registry : Registry) (topology : Topology assetOf registry)
    (tx : RegistryTx) : Topology assetOf (applyTx assetOf registry tx) := by
  unfold Chain.applyTx
  split
  next next run =>
    have start : Topology (tx.env assetOf).poolAsset registry := topology
    exact start.step tx.call run
  next => exact topology

theorem Topology.applyTxs (registry : Registry) (topology : Topology assetOf registry)
    (txs : List RegistryTx) : Topology assetOf (applyTxs assetOf registry txs) := by
  induction txs generalizing registry with
  | nil => exact topology
  | cons tx rest ih => exact ih _ (topology.applyTx assetOf registry tx)

theorem applyTx_history_grows (registry : Registry) (tx : RegistryTx) (token : Address) :
    registry.scoredRates token <+: (applyTx assetOf registry tx).scoredRates token := by
  unfold applyTx
  split
  next next run => exact (registry_exec_topology tx.call run).scores.history_grows token
  next => exact List.prefix_rfl

theorem applyTxs_history_grows (registry : Registry) (txs : List RegistryTx)
    (token : Address) :
    registry.scoredRates token <+: (applyTxs assetOf registry txs).scoredRates token := by
  induction txs generalizing registry with
  | nil => exact List.prefix_rfl
  | cons tx rest ih =>
      exact (applyTx_history_grows assetOf registry tx token).trans (ih _)

end Sequences

end Usd8Core.Chain
