import Usd8Core.Chain.RegistrySteps
import Usd8Core.Insurance.Effects
import Usd8Core.Pool.CallHistory

/-!
# The deployment

What every reachable world has in common: modules and pools sit at different
addresses, the Registry's settings are within their bounds, and its list names
each deployed pool once, under the pool's own asset.
-/

set_option autoImplicit false

namespace Usd8Core.Insurance

open Usd8Core.Lib.ByteWords
open Usd8Core.Lib.CheckedCall
open Usd8Core.Chain
open Usd8Core.Pool

structure Deployment (w : World) : Prop where
  moduleNotZero : ∀ m, (w.modules m).isSome = true → m ≠ Address.zero
  poolNotZero : ∀ p, (w.pools p).isSome = true → p ≠ Address.zero
  apart : ∀ account, (w.modules account).isSome = true → (w.pools account).isSome = false
  cooldown : w.registry.exitTimingConfig.unstakeCooldown ≠ 0
  fee : w.registry.protocolFeeConfig.claimProtocolFeeShareBps ≤ maxProtocolFeeBps
  registered : w.registry.defiInsurance = Address.zero ∨
    (w.modules w.registry.defiInsurance).isSome = true
  tokens : ∀ p pool, w.pools p = some pool → pool.usd8 ≠ Address.zero
  assets : w.registry.coverPoolAssets.Nodup
  listed : ∀ asset ∈ w.registry.coverPoolAssets,
    ∃ pool, w.pools (w.registry.coverPool asset) = some pool ∧ pool.asset = asset
  unlisted : ∀ asset, asset ∉ w.registry.coverPoolAssets →
    w.registry.coverPool asset = Address.zero

/-- The same contracts with the same tokens, whatever their storage. -/
structure SameContracts (w next : World) : Prop where
  modules : ∀ m, (next.modules m).isSome = (w.modules m).isSome
  pools : ∀ p, (next.pools p).isSome = (w.pools p).isSome
  tokens : ∀ p pool, w.pools p = some pool → ∃ after, next.pools p = some after ∧
    after.asset = pool.asset ∧ after.usd8 = pool.usd8

section Contracts

variable {platform : Platform} {m sender : Address} {w next : World}

theorem SameContracts.refl (w : World) : SameContracts w w :=
  ⟨fun _ => rfl, fun _ => rfl, fun _ pool present => ⟨pool, present, rfl, rfl⟩⟩

theorem SameContracts.trans {middle : World} (first : SameContracts w middle)
    (second : SameContracts middle next) : SameContracts w next := by
  refine ⟨fun m => (second.modules m).trans (first.modules m),
    fun p => (second.pools p).trans (first.pools p), ?_⟩
  intro p pool present
  obtain ⟨between, presentBetween, asset, usd8⟩ := first.tokens p pool present
  obtain ⟨after, presentAfter, assetAfter, usd8After⟩ :=
    second.tokens p between presentBetween
  exact ⟨after, presentAfter, assetAfter.trans asset, usd8After.trans usd8⟩

/-- A world that differs in neither modules nor pools. -/
theorem SameContracts.ofSame (modules : next.modules = w.modules)
    (pools : next.pools = w.pools) : SameContracts w next :=
  ⟨fun m => by rw [modules], fun p => by rw [pools],
    fun _ pool present => ⟨pool, by rw [pools]; exact present, rfl, rfl⟩⟩

theorem callPool_sameContracts (p caller : Address) (call : PoolCall)
    (run : w.callPool p caller call = .ok next) : SameContracts w next := by
  obtain ⟨pool, tx, present, executed, nextEq⟩ := callPool_ok caller call run
  have frame := exec_frame call executed
  rw [emitAll_eq] at nextEq
  have poolsEq : next.pools = Function.update w.pools p (some tx.pool) := by rw [nextEq]
  refine ⟨fun m => by rw [nextEq], ?_, ?_⟩
  · intro other
    rw [poolsEq]
    by_cases same : other = p
    · subst same
      rw [Function.update_self, present]
      rfl
    · rw [Function.update_of_ne same]
  · intro other before presentBefore
    rw [poolsEq]
    by_cases same : other = p
    · subst same
      cases presentBefore.symm.trans present
      exact ⟨tx.pool, Function.update_self .., frame.asset, frame.usd8⟩
    · rw [Function.update_of_ne same]
      exact ⟨before, presentBefore, rfl, rfl⟩

theorem ModuleEffect.sameContracts (effect : ModuleEffect platform m sender w next) :
    SameContracts w next := by
  have frame := effect.frame
  have modules : ∀ other, (next.modules other).isSome = (w.modules other).isSome := by
    intro other
    by_cases same : other = m
    · subst same
      exact frame.deployed
    · rw [frame.others other same]
  cases effect with
  | stored before after deployed =>
      exact ⟨modules, fun _ => rfl, fun _ pool present => ⟨pool, present, rfl, rfl⟩⟩
  | emitted event own => exact .ofSame rfl rfl
  | moved token payer recipient amount erc20 payerKnown run => exact .ofSame rfl rfl
  | boosted erc1155 others => exact .ofSame rfl rfl
  | called _ p call allowed run => exact callPool_sameContracts p m call run
  | scored account amount registry event run => exact .ofSame rfl rfl

theorem effects_sameContracts (effects : ModuleEffects platform m sender w next) :
    SameContracts w next := by
  induction effects with
  | refl => exact SameContracts.refl w
  | tail _ last ih => exact ih.trans last.sameContracts

/-! ## Every step keeps the deployment -/

/-- The Registry and the contracts are all the deployment depends on. -/
theorem Deployment.ofSame (deployment : Deployment w) (same : SameContracts w next)
    (registry : next.registry = { w.registry with scoreSpent := next.registry.scoreSpent }) :
    Deployment next := by
  refine ⟨?_, ?_, ?_, ?_, ?_, ?_, ?_, ?_, ?_, ?_⟩
  · intro m present
    rw [same.modules m] at present
    exact deployment.moduleNotZero m present
  · intro p present
    rw [same.pools p] at present
    exact deployment.poolNotZero p present
  · intro account present
    rw [same.modules account] at present
    rw [same.pools account]
    exact deployment.apart account present
  · rw [registry]
    exact deployment.cooldown
  · rw [registry]
    exact deployment.fee
  · rw [registry]
    rcases deployment.registered with zero | present
    · exact Or.inl zero
    · exact Or.inr (by rw [same.modules]; exact present)
  · intro p after presentAfter
    have present := same.pools p
    rw [presentAfter] at present
    obtain ⟨pool, presentBefore⟩ := Option.isSome_iff_exists.mp present.symm
    obtain ⟨other, otherPresent, -, usd8⟩ := same.tokens p pool presentBefore
    cases presentAfter.symm.trans otherPresent
    rw [usd8]
    exact deployment.tokens p pool presentBefore
  · rw [registry]
    exact deployment.assets
  · rw [registry]
    intro asset member
    obtain ⟨pool, present, assetEq⟩ := deployment.listed asset member
    obtain ⟨after, presentAfter, assetAfter, -⟩ := same.tokens _ pool present
    exact ⟨after, presentAfter, assetAfter.trans assetEq⟩
  · rw [registry]
    exact deployment.unlisted

theorem Deployment.notExternal {account : Address} (external : w.IsExternal account) :
    account ≠ Address.zero ∧ (w.modules account).isSome = false ∧
      (w.pools account).isSome = false := by
  obtain ⟨notZero, notModule, notPool⟩ := external
  refine ⟨notZero, ?_, ?_⟩
  · rw [Option.isNone_iff_eq_none.mp notModule]
    rfl
  · rw [Option.isNone_iff_eq_none.mp notPool]
    rfl

theorem callRegistry_ok (call : RegistryCall) (run : w.callRegistry sender call = .ok next) :
    ∃ registry, RegistryStep (w.registryEnv sender) w.registry registry ∧
      next = { w with registry := registry } := by
  unfold World.callRegistry at run
  obtain ⟨registry, executed, result⟩ := (bind_ok_iff _ _ _).mp run
  exact ⟨registry, registry_exec_step call executed, ((pure_ok_iff _ _).mp result).symm⟩

theorem poolAsset_eq_some_iff (p asset : Address) :
    (w.registryEnv sender).poolAsset p = some asset ↔
      ∃ pool, w.pools p = some pool ∧ pool.asset = asset := by
  simp [World.registryEnv]

/-- The pool list stays in order through a Registry call. -/
theorem Deployment.poolList (deployment : Deployment w) (registry : Registry)
    (changed : PoolListStep (w.registryEnv sender) w.registry registry) :
    registry.coverPoolAssets.Nodup ∧
      (∀ asset ∈ registry.coverPoolAssets,
        ∃ pool, w.pools (registry.coverPool asset) = some pool ∧ pool.asset = asset) ∧
      ∀ asset, asset ∉ registry.coverPoolAssets → registry.coverPool asset = Address.zero := by
  cases changed with
  | kept assets pools =>
      rw [assets, pools]
      exact ⟨deployment.assets, deployment.listed, deployment.unlisted⟩
  | added asset p poolNotZero assetOf free assets pools =>
      obtain ⟨pool, present, assetEq⟩ := (poolAsset_eq_some_iff p asset).mp assetOf
      have fresh : asset ∉ w.registry.coverPoolAssets := by
        intro member
        obtain ⟨other, otherPresent, -⟩ := deployment.listed asset member
        rw [free] at otherPresent
        exact deployment.poolNotZero Address.zero (by rw [otherPresent]; rfl) rfl
      rw [assets, pools]
      refine ⟨?_, ?_, ?_⟩
      · exact List.nodup_append.mpr ⟨deployment.assets, List.nodup_singleton asset, by
          intro first firstMember second secondMember same
          rw [List.mem_singleton] at secondMember
          exact fresh (secondMember ▸ same ▸ firstMember)⟩
      · intro other member
        by_cases same : other = asset
        · subst same
          rw [Function.update_self]
          exact ⟨pool, present, assetEq⟩
        · rw [Function.update_of_ne same]
          rcases List.mem_append.mp member with old | new
          · exact deployment.listed other old
          · exact absurd (List.mem_singleton.mp new) same
      · intro other absent
        have differ : other ≠ asset := by
          rintro rfl
          exact absent (List.mem_append_right _ (List.mem_singleton.mpr rfl))
        rw [Function.update_of_ne differ]
        exact deployment.unlisted other (fun member => absent (List.mem_append_left _ member))
  | removed asset p assetOf listed assets pools =>
      rw [assets, pools]
      refine ⟨swapPop_nodup _ asset deployment.assets, ?_, ?_⟩
      · intro other member
        obtain ⟨differ, old⟩ := (mem_swapPop_iff _ asset other deployment.assets).mp member
        rw [Function.update_of_ne differ]
        exact deployment.listed other old
      · intro other absent
        by_cases same : other = asset
        · subst same
          rw [Function.update_self]
        · rw [Function.update_of_ne same]
          apply deployment.unlisted other
          intro member
          exact absent ((mem_swapPop_iff _ asset other deployment.assets).mpr ⟨same, member⟩)

theorem Deployment.registryCall (deployment : Deployment w) (call : RegistryCall)
    (run : w.callRegistry sender call = .ok next) : Deployment next := by
  obtain ⟨registry, changed, nextEq⟩ := callRegistry_ok call run
  obtain ⟨assets, listed, unlisted⟩ := deployment.poolList registry changed.poolList
  subst nextEq
  refine ⟨deployment.moduleNotZero, deployment.poolNotZero, deployment.apart,
    changed.cooldown deployment.cooldown, changed.fee deployment.fee, ?_, deployment.tokens,
    assets, listed, unlisted⟩
  cases changed.module with
  | kept same =>
      change registry.defiInsurance = _ ∨ (w.modules registry.defiInsurance).isSome = true
      rw [same]
      exact deployment.registered
  | cleared zero => exact Or.inl zero
  | replaced notZero notFrozen idle =>
      right
      change (w.modules registry.defiInsurance).isSome = true
      have answered : (w.modules registry.defiInsurance).map
          (fun mod => mod.activeIncidentId w.now) = some 0 := idle
      obtain ⟨mod, present, -⟩ := Option.map_eq_some_iff.mp answered
      rw [present]
      rfl

theorem deployModule_ok (run : w.deployModule m = .ok next) :
    w.IsExternal m ∧ next = w.setModule m DefiInsurance.initial := by
  unfold World.deployModule World.requireExternal at run
  obtain ⟨_, external, result⟩ := (bind_ok_iff _ _ _).mp run
  exact ⟨not_not.mp ((revertIf_ok_iff _ _ _).mp external), ((pure_ok_iff _ _).mp result).symm⟩

theorem deployPool_ok (p asset : Address) (run : w.deployPool p asset = .ok next) :
    w.IsExternal p ∧ asset ≠ Address.zero ∧ w.registry.usd8 ≠ Address.zero ∧
      next = { w with
        pools := Function.update w.pools p
          (some (SingleAssetCoverPool.initial asset w.registry.usd8)) } := by
  unfold World.deployPool World.requireExternal at run
  obtain ⟨_, external, run⟩ := (bind_ok_iff _ _ _).mp run
  obtain ⟨_, assetNotZero, run⟩ := (bind_ok_iff _ _ _).mp run
  obtain ⟨_, usd8NotZero, result⟩ := (bind_ok_iff _ _ _).mp run
  exact ⟨not_not.mp ((revertIf_ok_iff _ _ _).mp external),
    (revertIf_ok_iff _ _ _).mp assetNotZero, (revertIf_ok_iff _ _ _).mp usd8NotZero,
    ((pure_ok_iff _ _).mp result).symm⟩

theorem Deployment.moduleDeployed (deployment : Deployment w)
    (run : w.deployModule m = .ok next) : Deployment next := by
  obtain ⟨external, nextEq⟩ := deployModule_ok run
  obtain ⟨notZero, -, notPool⟩ := Deployment.notExternal external
  subst nextEq
  have grown : ∀ other, (w.modules other).isSome = true →
      ((w.setModule m DefiInsurance.initial).modules other).isSome = true := by
    intro other present
    by_cases same : other = m
    · subst same
      rw [setModule_self]
      rfl
    · rw [setModule_other _ same]
      exact present
  refine ⟨?_, deployment.poolNotZero, ?_, deployment.cooldown, deployment.fee, ?_,
    deployment.tokens, deployment.assets, deployment.listed, deployment.unlisted⟩
  · intro other present
    by_cases same : other = m
    · subst same
      exact notZero
    · rw [setModule_other _ same] at present
      exact deployment.moduleNotZero other present
  · intro other present
    by_cases same : other = m
    · subst same
      exact notPool
    · rw [setModule_other _ same] at present
      exact deployment.apart other present
  · rcases deployment.registered with zero | present
    · exact Or.inl zero
    · exact Or.inr (grown _ present)

theorem Deployment.poolDeployed (deployment : Deployment w) (p asset : Address)
    (run : w.deployPool p asset = .ok next) : Deployment next := by
  obtain ⟨external, -, usd8NotZero, nextEq⟩ := deployPool_ok p asset run
  obtain ⟨notZero, notModule, notPool⟩ := Deployment.notExternal external
  subst nextEq
  refine ⟨deployment.moduleNotZero, ?_, ?_, deployment.cooldown, deployment.fee,
    deployment.registered, ?_, deployment.assets, ?_, deployment.unlisted⟩
  · intro other present
    by_cases same : other = p
    · subst same
      exact notZero
    · dsimp only at present
      rw [Function.update_of_ne same] at present
      exact deployment.poolNotZero other present
  · intro account present
    by_cases same : account = p
    · subst same
      rw [notModule] at present
      cases present
    · dsimp only
      rw [Function.update_of_ne same]
      exact deployment.apart account present
  · intro other pool present
    by_cases same : other = p
    · subst same
      dsimp only at present
      rw [Function.update_self] at present
      cases present
      exact usd8NotZero
    · dsimp only at present
      rw [Function.update_of_ne same] at present
      exact deployment.tokens other pool present
  · intro listedAsset member
    obtain ⟨pool, present, assetEq⟩ := deployment.listed listedAsset member
    have differ : w.registry.coverPool listedAsset ≠ p := by
      intro same
      rw [← same, present] at notPool
      cases notPool
    exact ⟨pool, by dsimp only; rw [Function.update_of_ne differ]; exact present, assetEq⟩

theorem Deployment.genesis (block : Block) (timelock admin : Address) (erc20 : Erc20)
    (erc1155 : Erc1155) : Deployment (World.genesis block timelock admin erc20 erc1155) := by
  refine ⟨?_, ?_, ?_, ?_, ?_, Or.inl rfl, ?_, List.nodup_nil, ?_, fun _ _ => rfl⟩
  · intro m present
    cases present
  · intro p present
    cases present
  · intro account present
    cases present
  · change 7 * 24 * 60 * 60 ≠ 0
    decide
  · exact le_rfl
  · intro p pool present
    cases present
  · intro asset member
    cases member

end Contracts

/-! ## The kinds of steps -/

/-- A transaction that only moves, mints or burns tokens. -/
def TokenMove : Tx → Prop
  | .erc20Transfer _ _ _ _ => True
  | .erc20Mint _ _ _ => True
  | .erc20Burn _ _ _ => True
  | .erc1155Transfer _ _ _ _ _ => True
  | .erc1155Mint _ _ _ _ => True
  | .erc1155Burn _ _ _ _ => True
  | _ => False

/-- One step of the system by who acts.  Token moves cost external accounts only. -/
inductive StepCase (platform : Platform) (w next : World) : Tx → Prop
  | registry (sender : Address) (call : RegistryCall) (external : w.IsExternal sender)
      (run : w.callRegistry sender call = .ok next) :
      StepCase platform w next (.registry sender call)
  | module (m sender : Address) (call : ModuleCall) (external : w.IsExternal sender)
      (run : w.callModule platform m sender call = .ok next) :
      StepCase platform w next (.module m sender call)
  | pool (p sender : Address) (call : PoolCall) (external : w.IsExternal sender)
      (run : w.callPool p sender call = .ok next) : StepCase platform w next (.pool p sender call)
  | tokens (tx : Tx) (move : TokenMove tx) (erc20 : Erc20) (erc1155 : Erc1155)
      (erc20Kept : ∀ token account, ¬ w.IsExternal account →
        w.erc20 token account ≤ erc20 token account)
      (erc1155Kept : ∀ collection id account, ¬ w.IsExternal account →
        w.erc1155 collection id account ≤ erc1155 collection id account)
      (nextEq : next = { w with erc20 := erc20, erc1155 := erc1155 }) :
      StepCase platform w next tx
  | moduleDeployed (m : Address) (run : w.deployModule m = .ok next) :
      StepCase platform w next (.deployModule m)
  | poolDeployed (p asset : Address) (run : w.deployPool p asset = .ok next) :
      StepCase platform w next (.deployPool p asset)
  | mined (block : Block) (later : w.block.timestamp ≤ block.timestamp)
      (higher : w.block.number < block.number) (nextEq : next = { w with block := block }) :
      StepCase platform w next (.mine block)

section Steps

variable {platform : Platform} {w next : World}

theorem requireExternal_ok {account : Address} {result : Unit}
    (run : w.requireExternal account = .ok result) : w.IsExternal account :=
  not_not.mp ((revertIf_ok_iff _ _ _).mp run)

theorem tokens_case {tx : Tx} (move : TokenMove tx) (ran : step platform w tx = .ok next) :
    StepCase platform w next tx := by
  cases tx with
  | erc20Transfer token sender recipient amount =>
      obtain ⟨_, external, run⟩ := (bind_ok_iff _ _ _).mp ran
      obtain ⟨erc20, transferred, nextEq⟩ := (transferErc20_ok_iff _ _ _ _).mp run
      refine .tokens _ move erc20 w.erc1155 ?_ (fun _ _ _ _ => le_rfl) nextEq
      intro other account internal
      apply erc20Transfer_le _ _ _ _ _ _ transferred
      rintro rfl
      exact internal (requireExternal_ok external)
  | erc20Mint token recipient amount =>
      refine .tokens _ move _ w.erc1155 ?_ (fun _ _ _ _ => le_rfl)
        ((pure_ok_iff _ _).mp ran).symm
      intro other account _
      by_cases sameToken : other = token
      · subst sameToken
        rw [Function.update_self]
        by_cases same : account = recipient
        · subst same
          rw [Function.update_self]
          exact Nat.le_add_right _ _
        · rw [Function.update_of_ne same]
      · rw [Function.update_of_ne sameToken]
  | erc20Burn token holder amount =>
      obtain ⟨_, external, run⟩ := (bind_ok_iff _ _ _).mp ran
      obtain ⟨_, -, result⟩ := (bind_ok_iff _ _ _).mp run
      refine .tokens _ move _ w.erc1155 ?_ (fun _ _ _ _ => le_rfl)
        ((pure_ok_iff _ _).mp result).symm
      intro other account internal
      have notHolder : account ≠ holder := by
        rintro rfl
        exact internal (requireExternal_ok external)
      by_cases sameToken : other = token
      · subst sameToken
        rw [Function.update_self, Function.update_of_ne notHolder]
      · rw [Function.update_of_ne sameToken]
  | erc1155Transfer collection id sender recipient amount =>
      obtain ⟨_, external, run⟩ := (bind_ok_iff _ _ _).mp ran
      obtain ⟨erc1155, transferred, result⟩ := (bind_ok_iff _ _ _).mp run
      refine .tokens _ move w.erc20 erc1155 (fun _ _ _ => le_rfl) ?_
        ((pure_ok_iff _ _).mp result).symm
      intro otherCollection otherId account internal
      apply erc1155Transfer_le _ _ _ _ _ _ _ transferred
      rintro rfl
      exact internal (requireExternal_ok external)
  | erc1155Mint collection id recipient amount =>
      refine .tokens _ move w.erc20 _ (fun _ _ _ => le_rfl) ?_ ((pure_ok_iff _ _).mp ran).symm
      intro otherCollection otherId account _
      by_cases sameUnit : otherCollection = collection ∧ otherId = id
      · obtain ⟨rfl, rfl⟩ := sameUnit
        rw [Function.update_self, Function.update_self]
        by_cases same : account = recipient
        · subst same
          rw [Function.update_self]
          exact Nat.le_add_right _ _
        · rw [Function.update_of_ne same]
      · rw [erc1155_update_of_ne _ _ _ _ _ _ sameUnit]
  | erc1155Burn collection id holder amount =>
      obtain ⟨_, external, run⟩ := (bind_ok_iff _ _ _).mp ran
      obtain ⟨erc1155, burnt, result⟩ := (bind_ok_iff _ _ _).mp run
      refine .tokens _ move w.erc20 erc1155 (fun _ _ _ => le_rfl) ?_
        ((pure_ok_iff _ _).mp result).symm
      intro otherCollection otherId account internal
      apply erc1155Burn_le _ _ _ _ _ _ burnt
      rintro rfl
      exact internal (requireExternal_ok external)
  | registry sender call => exact absurd move id
  | module m sender call => exact absurd move id
  | pool p sender call => exact absurd move id
  | deployModule m => exact absurd move id
  | deployPool p asset => exact absurd move id
  | mine block => exact absurd move id

theorem step_cases {tx : Tx} (ran : step platform w tx = .ok next) :
    StepCase platform w next tx := by
  cases tx with
  | registry sender call =>
      obtain ⟨_, external, run⟩ := (bind_ok_iff _ _ _).mp ran
      exact .registry sender call (requireExternal_ok external) run
  | module m sender call =>
      obtain ⟨_, external, run⟩ := (bind_ok_iff _ _ _).mp ran
      exact .module m sender call (requireExternal_ok external) run
  | pool p sender call =>
      obtain ⟨_, external, run⟩ := (bind_ok_iff _ _ _).mp ran
      exact .pool p sender call (requireExternal_ok external) run
  | deployModule m => exact .moduleDeployed m ran
  | deployPool p asset => exact .poolDeployed p asset ran
  | mine block =>
      obtain ⟨_, forward, result⟩ := (bind_ok_iff _ _ _).mp ran
      have later := (revertIf_ok_iff _ _ _).mp forward
      rw [not_or, not_le, not_lt] at later
      exact .mined block later.2 later.1 ((pure_ok_iff _ _).mp result).symm
  | erc20Transfer token sender recipient amount => exact tokens_case trivial ran
  | erc20Mint token recipient amount => exact tokens_case trivial ran
  | erc20Burn token holder amount => exact tokens_case trivial ran
  | erc1155Transfer collection id sender recipient amount => exact tokens_case trivial ran
  | erc1155Mint collection id recipient amount => exact tokens_case trivial ran
  | erc1155Burn collection id holder amount => exact tokens_case trivial ran

theorem Deployment.step {tx : Tx} (deployment : Deployment w)
    (ran : step platform w tx = .ok next) : Deployment next := by
  cases step_cases ran with
  | registry sender call external run => exact deployment.registryCall call run
  | module m sender call external run =>
      have effects := callModule_effects call run
      exact deployment.ofSame (effects_sameContracts effects) (effects_frame effects).registry
  | pool p sender call external run =>
      apply deployment.ofSame (callPool_sameContracts p sender call run)
      rw [(callPool_frame sender call run).2.1]
  | tokens _ move erc20 erc1155 erc20Kept erc1155Kept nextEq =>
      subst nextEq
      exact deployment.ofSame (.ofSame rfl rfl) rfl
  | moduleDeployed m run => exact deployment.moduleDeployed run
  | poolDeployed p asset run => exact deployment.poolDeployed p asset run
  | mined block later higher nextEq =>
      subst nextEq
      exact deployment.ofSame (.ofSame rfl rfl) rfl

/-- Every reachable world is a deployment. -/
theorem reachable_deployment (reachable : Reachable platform w) : Deployment w :=
  reachable.invariant Deployment Deployment.genesis
    (fun _ _ _ deployment ran => deployment.step ran)

end Steps

end Usd8Core.Insurance
