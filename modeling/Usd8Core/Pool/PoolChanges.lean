import Usd8Core.Pool.PoolRuns

/-!
# What a step does to one pool

A step of the system reaches a pool by calls only: the one the transaction makes,
or the settlements and payments of a module.  A preorder on pools that each of
those calls respects therefore relates the pool before and after the step.
-/

set_option autoImplicit false

namespace Usd8Core.Pool

open Usd8Core.Lib.ByteWords
open Usd8Core.Lib.CheckedCall
open Usd8Core.Lib.TraceRun
open Usd8Core.Chain
open Usd8Core.Insurance

/-- What a call of the pool at `env.self` may rely on. -/
structure CallGround (env : PoolEnv) (tx : PoolTx) : Prop where
  inTime : env.now < uintBound 64
  caller : CallerOk env
  accounts : TxAccounts env tx
  rewards : RewardsSolvent env.self env.now tx.pool

/-- A preorder on pools that every `allowed` call respects. -/
structure Respected (allowed : PoolCall → Prop)
    (relation : SingleAssetCoverPool → SingleAssetCoverPool → Prop) : Prop where
  refl : ∀ pool, relation pool pool
  trans : ∀ first second third, relation first second → relation second third →
    relation first third
  fromModule : ∀ call, FromModule call → allowed call
  exec : ∀ (env : PoolEnv) (tx next : PoolTx) (call : PoolCall), allowed call →
    CallGround env tx → PoolTx.exec env tx call = .ok next → relation tx.pool next.pool

/-- The pool is still there, related to what it was. -/
def RelatesPool (relation : SingleAssetCoverPool → SingleAssetCoverPool → Prop) (p : Address)
    (pool : SingleAssetCoverPool) (next : World) : Prop :=
  ∃ after, next.pools p = some after ∧ relation pool after

section Rule

variable {platform : Platform} {p m sender : Address} {w next : World} {allowed : PoolCall → Prop}
  {relation : SingleAssetCoverPool → SingleAssetCoverPool → Prop} {pool : SingleAssetCoverPool}

theorem PoolInOrder.ground (inOrder : PoolInOrder p w pool)
    (caller : CallerOk (w.poolEnv p sender)) :
    CallGround (w.poolEnv p sender) ⟨pool, w.erc20, []⟩ :=
  ⟨w.block.timestamp_lt, caller, inOrder.accounts, inOrder.rewards⟩

theorem Deployment.externalCaller (deployment : Deployment w) (external : w.IsExternal sender)
    (present : w.pools p = some pool) : CallerOk (w.poolEnv p sender) := by
  obtain ⟨notZero, -, notPool⟩ := Deployment.notExternal external
  have isPool : (w.pools p).isSome = true := by rw [present]; rfl
  refine ⟨notZero, ?_, deployment.poolNotZero p isPool, deployment.cooldown⟩
  rintro (rfl : sender = p)
  rw [notPool] at isPool
  cases isPool

theorem Deployment.moduleCaller (deployment : Deployment w)
    (deployed : (w.modules m).isSome = true) (present : w.pools p = some pool) :
    CallerOk (w.poolEnv p m) := by
  have isPool : (w.pools p).isSome = true := by rw [present]; rfl
  refine ⟨deployment.moduleNotZero m deployed, ?_, deployment.poolNotZero p isPool,
    deployment.cooldown⟩
  rintro (rfl : m = p)
  rw [deployment.apart m deployed] at isPool
  cases isPool

theorem callPool_relates (respected : Respected allowed relation) (call : PoolCall)
    (permitted : allowed call) (present : w.pools p = some pool) (inOrder : PoolInOrder p w pool)
    (caller : CallerOk (w.poolEnv p sender)) (run : w.callPool p sender call = .ok next) :
    RelatesPool relation p pool next := by
  obtain ⟨before, tx, presentBefore, executed, nextEq⟩ := callPool_ok sender call run
  cases present.symm.trans presentBefore
  refine ⟨tx.pool, ?_, respected.exec _ _ _ call permitted (inOrder.ground caller) executed⟩
  rw [nextEq, emitAll_eq]
  exact Function.update_self ..

theorem moduleEffect_relates (respected : Respected allowed relation) (deployment : Deployment w)
    (deployed : (w.modules m).isSome = true) (present : w.pools p = some pool)
    (inOrder : PoolInOrder p w pool) (effect : ModuleEffect platform m sender w next) :
    RelatesPool relation p pool next := by
  have unchanged : relation pool pool := respected.refl pool
  cases effect with
  | stored before after storedBefore => exact ⟨pool, present, unchanged⟩
  | emitted event own => exact ⟨pool, present, unchanged⟩
  | moved token payer recipient amount erc20 payerKnown run => exact ⟨pool, present, unchanged⟩
  | boosted erc1155 others => exact ⟨pool, present, unchanged⟩
  | scored account amount registry event run => exact ⟨pool, present, unchanged⟩
  | called _ other call fromModule run =>
      by_cases same : p = other
      · subst same
        exact callPool_relates respected call (respected.fromModule call fromModule) present
          inOrder (Deployment.moduleCaller deployment deployed present) run
      · obtain ⟨-, -, -, -, otherPools⟩ := callPool_frame m call run
        exact ⟨pool, (otherPools p same).trans present, unchanged⟩

theorem effects_relate (respected : Respected allowed relation) (deployment : Deployment w)
    (deployed : (w.modules m).isSome = true) (notPool : (w.pools sender).isSome = false)
    (present : w.pools p = some pool) (inOrder : PoolInOrder p w pool)
    (effects : ModuleEffects platform m sender w next) : RelatesPool relation p pool next := by
  induction effects with
  | refl => exact ⟨pool, present, respected.refl pool⟩
  | @tail middle final earlier last ih =>
      obtain ⟨between, presentBetween, related⟩ := ih
      have same := effects_sameContracts earlier
      have deploymentBetween := deployment.ofSame same (effects_frame earlier).registry
      have inOrderBetween := poolEffects_inOrder (p := p)
        (effects_poolEffects deployment deployed notPool earlier)
        ((addressInOrder_some present).mpr inOrder)
      obtain ⟨after, presentAfter, relatedAfter⟩ := moduleEffect_relates respected
        deploymentBetween (by rw [same.modules]; exact deployed) presentBetween
        ((addressInOrder_some presentBetween).mp inOrderBetween) last
      exact ⟨after, presentAfter, respected.trans _ _ _ related relatedAfter⟩

/-- The rule: a step whose own call to the pool, if it makes one, is `allowed`. -/
theorem step_relates (respected : Respected allowed relation) {tx : Tx}
    (reachable : Reachable platform w) (present : w.pools p = some pool)
    (direct : ∀ caller call, tx = .pool p caller call → allowed call)
    (ran : step platform w tx = .ok next) : RelatesPool relation p pool next := by
  have deployment := reachable_deployment reachable
  have inOrder := reachable_poolInOrder reachable present
  have unchanged : relation pool pool := respected.refl pool
  cases step_cases ran with
  | registry caller call external run =>
      obtain ⟨registry, -, nextEq⟩ := callRegistry_ok call run
      rw [nextEq]
      exact ⟨pool, present, unchanged⟩
  | module m caller call external run =>
      obtain ⟨-, -, notPool⟩ := Deployment.notExternal external
      exact effects_relate respected deployment (callModule_deployed call run) notPool present
        inOrder (callModule_effects call run)
  | pool target caller call external run =>
      by_cases same : p = target
      · subst same
        exact callPool_relates respected call (direct caller call rfl) present inOrder
          (Deployment.externalCaller deployment external present) run
      · obtain ⟨-, -, -, -, otherPools⟩ := callPool_frame caller call run
        exact ⟨pool, (otherPools p same).trans present, unchanged⟩
  | tokens _ move erc20 erc1155 erc20Kept erc1155Kept nextEq =>
      rw [nextEq]
      exact ⟨pool, present, unchanged⟩
  | moduleDeployed m run =>
      obtain ⟨-, nextEq⟩ := deployModule_ok run
      rw [nextEq]
      exact ⟨pool, present, unchanged⟩
  | poolDeployed target asset run =>
      obtain ⟨external, -, -, nextEq⟩ := deployPool_ok target asset run
      have differ : p ≠ target := by
        rintro rfl
        have absent := (Deployment.notExternal external).2.2
        rw [present] at absent
        cases absent
      rw [nextEq]
      exact ⟨pool, (Function.update_of_ne differ ..).trans present, unchanged⟩
  | mined block later higher nextEq =>
      rw [nextEq]
      exact ⟨pool, present, unchanged⟩

/-- An address without a pool gets one by a deployment only. -/
theorem step_absent {tx : Tx} (absent : w.pools p = none)
    (ran : step platform w tx = .ok next) :
    next.pools p = none ∨
      ∃ asset, next.pools p = some (SingleAssetCoverPool.initial asset w.registry.usd8) := by
  cases step_cases ran with
  | registry caller call external run =>
      obtain ⟨registry, -, nextEq⟩ := callRegistry_ok call run
      rw [nextEq]
      exact .inl absent
  | module m caller call external run =>
      have same := (effects_sameContracts (callModule_effects call run)).pools p
      rw [absent] at same
      exact .inl (Option.not_isSome_iff_eq_none.mp (by rw [same]; exact Bool.false_ne_true))
  | pool target caller call external run =>
      have differ : p ≠ target := by
        rintro rfl
        obtain ⟨pool, tx, present, -, -⟩ := callPool_ok caller call run
        rw [absent] at present
        cases present
      obtain ⟨-, -, -, -, otherPools⟩ := callPool_frame caller call run
      exact .inl ((otherPools p differ).trans absent)
  | tokens _ move erc20 erc1155 erc20Kept erc1155Kept nextEq =>
      rw [nextEq]
      exact .inl absent
  | moduleDeployed m run =>
      obtain ⟨-, nextEq⟩ := deployModule_ok run
      rw [nextEq]
      exact .inl absent
  | poolDeployed target asset run =>
      obtain ⟨-, -, -, nextEq⟩ := deployPool_ok target asset run
      rw [nextEq]
      by_cases same : p = target
      · subst same
        exact .inr ⟨asset, Function.update_self ..⟩
      · exact .inl ((Function.update_of_ne same ..).trans absent)
  | mined block later higher nextEq =>
      rw [nextEq]
      exact .inl absent

/-- What a new pool has, and every step of a run keeps of a pool, holds in the whole run. -/
theorem run_pool {holds : List (Transition World Tx) → SingleAssetCoverPool → Prop}
    {steps : List (Transition World Tx)}
    (deployed : ∀ steps asset usd8, holds steps (SingleAssetCoverPool.initial asset usd8))
    (kept : ∀ earlier middle tx final before, SystemRun platform earlier middle →
      middle.pools p = some before → holds earlier before → step platform middle tx = .ok final →
        ∃ after, final.pools p = some after ∧ holds (earlier ++ [⟨middle, tx, final⟩]) after)
    {pool : SingleAssetCoverPool} (run : SystemRun platform steps w)
    (present : w.pools p = some pool) : holds steps pool := by
  obtain ⟨block, timelock, admin, erc20, erc1155, run⟩ := run
  induction run generalizing pool with
  | nil => cases present
  | snoc earlier middle tx final run last ih =>
      cases atMiddle : middle.pools p with
      | some before =>
          obtain ⟨after, presentAfter, holdsAfter⟩ :=
            kept earlier middle tx final before ⟨_, _, _, _, _, run⟩ atMiddle (ih atMiddle) last
          cases present.symm.trans presentAfter
          exact holdsAfter
      | none =>
          rcases step_absent atMiddle last with absent | ⟨asset, isDeployed⟩
          · rw [absent] at present
            cases present
          · cases present.symm.trans isDeployed
            exact deployed _ asset _

end Rule

end Usd8Core.Pool
