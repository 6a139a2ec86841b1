import Usd8Core.Chain.RegistryTopology
import Mathlib.Data.List.Dedup

/-!
# What the engine reads of the Registry

`decode_pool_topology` and `complete_score_config` refuse a Registry view whose
lists repeat, miss a history or run backwards.  No state of the contract has one.
-/

set_option autoImplicit false

namespace Usd8Core.Engine

open Usd8Core.Lib.ByteWords
open Usd8Core.Lib.CheckedCall
open Usd8Core.Chain (Registry RatePoint SettlementParams Topology RegistryTx applyTxs)

inductive ChainError where
  | rpc (message : String)
  | invalidConfiguration (message : String)
  | invalidPoolTopology (message : String)
  deriving DecidableEq

/-! ## Pool topology -/

structure CoverPoolsReturn where
  assets : List Address
  poolAddrs : List Address

structure PoolTopology where
  assets : List Address
  poolAddrs : List Address

/-- The sizes of the two hash sets are the lengths without repetitions. -/
def decodePoolTopology (result : CoverPoolsReturn) : Except ChainError PoolTopology := do
  revertIf (result.assets.length ≠ result.poolAddrs.length)
    (.invalidPoolTopology (toString result.assets.length ++ " assets but " ++
      toString result.poolAddrs.length ++ " pools"))
  revertIf (result.assets.dedup.length ≠ result.assets.length ∨
      result.poolAddrs.dedup.length ≠ result.poolAddrs.length)
    (.invalidPoolTopology "duplicate asset or pool")
  pure ⟨result.assets, result.poolAddrs⟩

/-- The view `coverPools()`. -/
def coverPoolsView (registry : Registry) : CoverPoolsReturn :=
  ⟨registry.coverPoolAssets, registry.coverPools⟩

theorem decodePoolTopology_of_nodup (result : CoverPoolsReturn)
    (aligned : result.assets.length = result.poolAddrs.length)
    (assets : result.assets.Nodup) (pools : result.poolAddrs.Nodup) :
    decodePoolTopology result = .ok ⟨result.assets, result.poolAddrs⟩ := by
  simp [decodePoolTopology, revertIf, aligned, assets.dedup, pools.dedup, Bind.bind, Except.bind,
    pure, Except.pure]

/-! ## Score configuration -/

structure ScoredToken where
  token : Address
  decimals : Nat
  rates : List RatePoint

structure ScoreConfig where
  params : SettlementParams
  scoredTokens : List ScoredToken

/-- The points of one history, each above the one before. -/
def ascendingRates (token : Address) (previous : Option Nat) :
    List RatePoint → Except ChainError (List RatePoint)
  | [] => .ok []
  | point :: rest => do
      revertIf (∃ block ∈ previous, point.fromBlock ≤ block)
        (.invalidConfiguration ("rate history for " ++ addressHex token ++
          " is not strictly ascending"))
      let points ← ascendingRates token (some point.fromBlock) rest
      pure (point :: points)

/-- The loop over the tokens; `seen` is the hash set of the tokens before. -/
def scoredTokensFrom (decimalsAt : Address → Except ChainError Nat) (seen : List Address) :
    List (Address × List RatePoint) → Except ChainError (List ScoredToken)
  | [] => .ok []
  | (token, history) :: rest => do
      revertIf (token ∈ seen)
        (.invalidConfiguration ("duplicate scored token " ++ addressHex token))
      revertIf (history = [])
        (.invalidConfiguration ("scored token " ++ addressHex token ++ " has no rate history"))
      let rates ← ascendingRates token none history
      let decimals ← decimalsAt token
      let tokens ← scoredTokensFrom decimalsAt (token :: seen) rest
      pure (⟨token, decimals, rates⟩ :: tokens)

def completeScoreConfig (decimalsAt : Address → Except ChainError Nat)
    (params : SettlementParams) (tokenAddresses : List Address)
    (histories : List (List RatePoint)) : Except ChainError ScoreConfig := do
  revertIf (params.sampleStepBlocks = 0) (.invalidConfiguration "sampleStepBlocks is zero")
  let scoredTokens ← scoredTokensFrom decimalsAt [] (tokenAddresses.zip histories)
  pure ⟨params, scoredTokens⟩

theorem ascendingRates_of_ascending (token : Address) (points : List RatePoint)
    (previous : Option Nat)
    (above : ∀ block ∈ previous, ∀ point ∈ points, block < point.fromBlock)
    (ascending : points.Pairwise fun earlier later => earlier.fromBlock < later.fromBlock) :
    ascendingRates token previous points = .ok points := by
  induction points generalizing previous with
  | nil => rfl
  | cons point rest ih =>
      rw [List.pairwise_cons] at ascending
      have passes : ¬ ∃ block ∈ previous, point.fromBlock ≤ block := by
        rintro ⟨block, isPrevious, notAbove⟩
        have higher := above block isPrevious point (by simp)
        omega
      have restRun := ih (some point.fromBlock)
        (by
          intro block isPrevious later member
          cases isPrevious
          exact ascending.1 later member)
        ascending.2
      simp only [ascendingRates, revertIf, if_neg passes, restRun, Bind.bind, Except.bind, pure,
        Except.pure]

/-- Distinct tokens with ascending histories: only a decimals read can fail. -/
theorem scoredTokensFrom_error (decimalsAt : Address → Except ChainError Nat)
    (entries : List (Address × List RatePoint)) (seen : List Address)
    (distinct : (entries.map Prod.fst).Nodup)
    (fresh : ∀ entry ∈ entries, entry.1 ∉ seen)
    (nonempty : ∀ entry ∈ entries, entry.2 ≠ [])
    (ascending : ∀ entry ∈ entries,
      entry.2.Pairwise fun earlier later => earlier.fromBlock < later.fromBlock)
    (error : ChainError) (failed : scoredTokensFrom decimalsAt seen entries = .error error) :
    ∃ entry ∈ entries, decimalsAt entry.1 = .error error := by
  induction entries generalizing seen with
  | nil => cases failed
  | cons entry rest ih =>
      obtain ⟨token, history⟩ := entry
      rw [List.map_cons, List.nodup_cons] at distinct
      have unseen : token ∉ seen := fresh (token, history) (by simp)
      have scored : history ≠ [] := nonempty (token, history) (by simp)
      have rates := ascendingRates_of_ascending token history none (by simp)
        (ascending (token, history) (by simp))
      simp only [scoredTokensFrom, revertIf, if_neg unseen, if_neg scored, rates, Bind.bind,
        Except.bind] at failed
      cases decimals : decimalsAt token with
      | error actual =>
          rw [decimals] at failed
          cases failed
          exact ⟨(token, history), by simp, decimals⟩
      | ok value =>
          cases later : scoredTokensFrom decimalsAt (token :: seen) rest with
          | ok tokens =>
              simp only [decimals, later] at failed
              cases failed
          | error actual =>
              simp only [decimals, later] at failed
              cases failed
              obtain ⟨other, member, read⟩ := ih (token :: seen) distinct.2
                (by
                  intro other member seenMember
                  rcases List.mem_cons.mp seenMember with same | before
                  · exact distinct.1 (List.mem_map.mpr ⟨other, member, same⟩)
                  · exact fresh other (by simp [member]) before)
                (fun other member => nonempty other (by simp [member]))
                (fun other member => ascending other (by simp [member])) later
              exact ⟨other, by simp [member], read⟩

/-! ## The views of a reachable Registry -/

section Views

variable {assetOf : Address → Option Address} {registry : Registry}

/-- Two listed assets cannot share a pool: the pool names its asset. -/
theorem coverPools_nodup (topology : Topology assetOf registry) : registry.coverPools.Nodup := by
  apply List.Nodup.map_on _ topology.assets
  intro first firstMember second secondMember samePool
  have firstAsset := topology.poolAssets first firstMember
  have secondAsset := topology.poolAssets second secondMember
  rw [samePool, secondAsset] at firstAsset
  exact (Option.some.inj firstAsset).symm

theorem coverPoolsView_decodes (topology : Topology assetOf registry) :
    decodePoolTopology (coverPoolsView registry) =
      .ok ⟨registry.coverPoolAssets, registry.coverPools⟩ :=
  decodePoolTopology_of_nodup (coverPoolsView registry)
    (by simp [coverPoolsView, Registry.coverPools]) topology.assets (coverPools_nodup topology)

theorem completeScoreConfig_error (topology : Topology assetOf registry)
    (decimalsAt : Address → Except ChainError Nat) (params : SettlementParams)
    (error : ChainError)
    (failed : completeScoreConfig decimalsAt params registry.scoredTokenList
      (registry.scoredTokenList.map registry.scoredRates) = .error error) :
    params.sampleStepBlocks = 0 ∨
      ∃ token ∈ registry.scoredTokenList, decimalsAt token = .error error := by
  by_cases zero : params.sampleStepBlocks = 0
  · exact Or.inl zero
  right
  have paired : registry.scoredTokenList.zip
      (registry.scoredTokenList.map registry.scoredRates) =
      registry.scoredTokenList.map fun token => (token, registry.scoredRates token) := by
    simpa using List.zip_map' (f := id) (g := registry.scoredRates)
      (l := registry.scoredTokenList)
  unfold completeScoreConfig at failed
  rw [revertIf, if_neg zero, paired] at failed
  rcases (bind_error_iff _ _ _).mp failed with impossible | ⟨_, -, failed⟩
  · cases impossible
  rcases (bind_error_iff _ _ _).mp failed with failed | ⟨_, -, impossible⟩
  · obtain ⟨entry, member, read⟩ := scoredTokensFrom_error decimalsAt _ []
      (by simpa [Function.comp_def] using topology.tokens) (by simp)
      (by
        intro entry member
        obtain ⟨token, listed, rfl⟩ := List.mem_map.mp member
        exact (topology.scored token).mp listed)
      (by
        intro entry member
        obtain ⟨token, -, rfl⟩ := List.mem_map.mp member
        exact topology.ascending token) error failed
    obtain ⟨token, listed, rfl⟩ := List.mem_map.mp member
    exact ⟨token, listed, read⟩
  · cases impossible

end Views

/-- After every sequence of Registry transactions the enumerations match their mappings,
histories have only grown, and the engine's checks on them pass. -/
theorem registry_topology_decodable (assetOf : Address → Option Address)
    (timelock admin : Address) (txs later : List RegistryTx) (registry : Registry)
    (reached : registry = applyTxs assetOf (Registry.initial timelock admin) txs) :
    registry.coverPoolAssets.Nodup ∧
    (∀ asset, (asset ∈ registry.coverPoolAssets ↔ registry.coverPool asset ≠ Address.zero) ∧
      (asset ∈ registry.coverPoolAssets → registry.assetUsdFeed asset ≠ Address.zero)) ∧
    registry.coverPools.Nodup ∧ registry.coverPools.length = registry.coverPoolAssets.length ∧
    (∀ (i : Nat) (asset pool : Address), registry.coverPoolAssets[i]? = some asset →
      registry.coverPools[i]? = some pool →
        pool = registry.coverPool asset ∧ assetOf pool = some asset) ∧
    registry.scoredTokenList.Nodup ∧
    (∀ token, (token ∈ registry.scoredTokenList ↔ registry.scoredRates token ≠ []) ∧
      ((registry.scoredRates token).Pairwise
        fun earlier later => earlier.fromBlock < later.fromBlock) ∧
      registry.scoredRates token <+: (applyTxs assetOf registry later).scoredRates token) ∧
    registry.incidentOpenPriceConfig.twapBlocks <
      registry.incidentTimingConfig.maxReferenceBlockAge ∧
    decodePoolTopology (coverPoolsView registry) =
      .ok ⟨registry.coverPoolAssets, registry.coverPools⟩ ∧
    ∀ (decimalsAt : Address → Except ChainError Nat) (params : SettlementParams)
      (error : ChainError),
      completeScoreConfig decimalsAt params registry.scoredTokenList
          (registry.scoredTokenList.map registry.scoredRates) = .error error →
        params.sampleStepBlocks = 0 ∨
          ∃ token ∈ registry.scoredTokenList, decimalsAt token = .error error := by
  have topology : Topology assetOf registry := by
    rw [reached]
    exact (Topology.initial assetOf timelock admin).applyTxs assetOf _ txs
  refine ⟨topology.assets, fun asset => ⟨topology.listed asset, topology.feeds asset⟩,
    coverPools_nodup topology, List.length_map _, ?_, topology.tokens, ?_, topology.windows,
    coverPoolsView_decodes topology, completeScoreConfig_error topology⟩
  · intro i asset pool atAsset atPool
    rw [Registry.coverPools, List.getElem?_map, atAsset] at atPool
    cases atPool
    exact ⟨rfl, topology.poolAssets asset (List.mem_of_getElem? atAsset)⟩
  · intro token
    exact ⟨topology.scored token, topology.ascending token,
      Chain.applyTxs_history_grows assetOf registry later token⟩

/-- Two pools of different assets, the first one removed again, and a rate set twice. -/
def sampleTxs : List RegistryTx :=
  let probe : Chain.FeedProbe := ⟨1, some 8, some ⟨1, 1, 1, 1⟩⟩
  [⟨Address.ofNat 1, 5, false, fun _ => none, .addPool (Address.ofNat 20) (Address.ofNat 90) probe⟩,
    ⟨Address.ofNat 1, 6, false, fun _ => none,
      .addPool (Address.ofNat 30) (Address.ofNat 91) probe⟩,
    ⟨Address.ofNat 1, 6, false, fun _ => none, .setScoredToken (Address.ofNat 7) 4⟩,
    ⟨Address.ofNat 2, 7, false, fun _ => none, .removePool (Address.ofNat 30)⟩,
    ⟨Address.ofNat 1, 7, false, fun _ => none, .removePool (Address.ofNat 20)⟩,
    ⟨Address.ofNat 1, 8, false, fun _ => none, .setScoredToken (Address.ofNat 7) 0⟩]

/-- The assets are numbered one above their pools. -/
def sampleAsset (pool : Address) : Option Address := some (Address.ofNat (pool.val + 1))

theorem sampleTxs_decodable :
    (applyTxs sampleAsset (Registry.initial (Address.ofNat 1) (Address.ofNat 2))
        sampleTxs).coverPoolAssets = [Address.ofNat 31] ∧
      decodePoolTopology (coverPoolsView (applyTxs sampleAsset
        (Registry.initial (Address.ofNat 1) (Address.ofNat 2)) sampleTxs)) =
        .ok ⟨[Address.ofNat 31], [Address.ofNat 30]⟩ := by
  have assets : (applyTxs sampleAsset (Registry.initial (Address.ofNat 1) (Address.ofNat 2))
      sampleTxs).coverPoolAssets = [Address.ofNat 31] := by decide +kernel
  have pools : (applyTxs sampleAsset (Registry.initial (Address.ofNat 1) (Address.ofNat 2))
      sampleTxs).coverPools = [Address.ofNat 30] := by decide +kernel
  obtain ⟨-, -, -, -, -, -, -, -, decodes, -⟩ := registry_topology_decodable sampleAsset
    (Address.ofNat 1) (Address.ofNat 2) sampleTxs [] _ rfl
  rw [assets, pools] at decodes
  exact ⟨assets, decodes⟩

end Usd8Core.Engine
