import Usd8Core.Insurance.Deployment
import Usd8Core.Pool.RewardPayments

/-!
# Pools in a running system

Seen from one pool, a step of the system is a sequence of three kinds of effects:
something else happened and the pool lost nothing, somebody called the pool, or
the pool was deployed.  An invariant of these effects holds of every pool in
every reachable world.
-/

set_option autoImplicit false

namespace Usd8Core.Pool

open Usd8Core.Lib.ByteWords
open Usd8Core.Lib.CheckedCall
open Usd8Core.Lib.FiniteLedger
open Usd8Core.Chain
open Usd8Core.Insurance

inductive PoolEffect (p : Address) : World → World → Prop
  | passive (w next : World) (same : next.pools p = w.pools p) (later : w.now ≤ next.now)
      (richer : (w.pools p).isSome = true → ∀ token, w.erc20 token p ≤ next.erc20 token p)
      (quiet : settledEpochs (eventsOf next p) = settledEpochs (eventsOf w p)) :
      PoolEffect p w next
  | called (w next : World) (sender : Address) (call : PoolCall)
      (caller : CallerOk (w.poolEnv p sender)) (run : w.callPool p sender call = .ok next) :
      PoolEffect p w next
  | deployed (w next : World) (asset : Address) (fresh : w.pools p = none)
      (present : next.pools p = some (SingleAssetCoverPool.initial asset w.registry.usd8))
      (quiet : eventsOf next p = eventsOf w p) : PoolEffect p w next

abbrev PoolEffects (p : Address) : World → World → Prop := Relation.ReflTransGen (PoolEffect p)

section Effects

variable {platform : Platform} {p m sender : Address} {w next : World}

/-- A world with the same pools, clock, tokens and logs as far as `p` can see. -/
theorem PoolEffect.ofSame (pools : next.pools = w.pools) (block : next.block = w.block)
    (erc20 : next.erc20 = w.erc20) (logs : next.logs = w.logs) : PoolEffect p w next := by
  refine .passive w next (by rw [pools]) ?_ ?_ ?_
  · exact le_of_eq (by rw [World.now, World.now, block])
  · intro _ token
    rw [erc20]
  · rw [eventsOf, eventsOf, logs]

theorem settledEpochs_moduleEvent (event : Event) (own : ModuleEvent event) :
    settledEpochs [event] = [] := by
  cases event <;> first | rfl | exact absurd own id

/-- A call to another pool. -/
theorem otherPool_effect (other caller : Address) (call : PoolCall) (differ : p ≠ other)
    (notCaller : (w.pools p).isSome = true → p ≠ caller)
    (run : w.callPool other caller call = .ok next) : PoolEffect p w next := by
  obtain ⟨pool, tx, -, executed, nextEq⟩ := callPool_ok caller call run
  have frame := exec_frame call executed
  obtain ⟨sameBlock, -, -, -, otherPools⟩ := callPool_frame caller call run
  refine .passive w next (otherPools p differ) ?_ ?_ ?_
  · exact le_of_eq (by rw [World.now, World.now, sameBlock])
  · intro present token
    rw [nextEq, emitAll_eq]
    exact frame.others token p differ (notCaller present)
  · rw [nextEq, eventsOf_emitAll, if_neg (Ne.symm differ), List.append_nil]
    rfl

/-- A module's effect, seen from a pool. -/
theorem moduleEffect_poolEffect (deployment : Deployment w)
    (deployed : (w.modules m).isSome = true) (notPool : (w.pools sender).isSome = false)
    (effect : ModuleEffect platform m sender w next) : PoolEffect p w next := by
  have notModule : (w.pools p).isSome = true → p ≠ m := by
    rintro present rfl
    rw [deployment.apart p deployed] at present
    cases present
  have notSender : (w.pools p).isSome = true → p ≠ sender := by
    rintro present rfl
    rw [notPool] at present
    cases present
  cases effect with
  | stored before after storedBefore => exact .ofSame rfl rfl rfl rfl
  | emitted event own =>
      refine .passive _ _ rfl le_rfl (fun _ _ => le_rfl) ?_
      rw [eventsOf_emit, settledEpochs_append]
      split
      · rw [settledEpochs_moduleEvent event own, List.append_nil]
      · exact List.append_nil _
  | moved token payer recipient amount erc20 payerKnown run =>
      refine .passive _ _ rfl le_rfl ?_ rfl
      intro present other
      apply erc20Transfer_le _ _ _ _ _ _ run
      rcases payerKnown with rfl | rfl
      · exact notModule present
      · exact notSender present
  | boosted erc1155 others => exact .ofSame rfl rfl rfl rfl
  | called _ other call allowed run =>
      by_cases same : p = other
      · subst same
        obtain ⟨pool, tx, present, -⟩ := callPool_ok m call run
        have isPool : (w.pools p).isSome = true := by rw [present]; rfl
        exact .called w next m call ⟨deployment.moduleNotZero m deployed,
          Ne.symm (notModule isPool), deployment.poolNotZero p isPool, deployment.cooldown⟩ run
      · exact otherPool_effect other m call same notModule run
  | scored account amount registry event run =>
      obtain ⟨-, eventEq, -⟩ := recordScoreSpent_ok w.registry registry m account amount event run
      refine .passive _ _ rfl le_rfl (fun _ _ => le_rfl) ?_
      rw [eventsOf_emit, settledEpochs_append, eventEq]
      split <;> exact List.append_nil _

theorem effects_poolEffects (deployment : Deployment w)
    (deployed : (w.modules m).isSome = true) (notPool : (w.pools sender).isSome = false)
    (effects : ModuleEffects platform m sender w next) : PoolEffects p w next := by
  induction effects with
  | refl => exact .refl
  | tail earlier last ih =>
      have same := effects_sameContracts earlier
      have between := deployment.ofSame same (effects_frame earlier).registry
      refine ih.tail (moduleEffect_poolEffect between ?_ ?_ last)
      · rw [same.modules]
        exact deployed
      · rw [same.pools]
        exact notPool

theorem step_poolEffects {tx : Tx} (deployment : Deployment w)
    (ran : step platform w tx = .ok next) : PoolEffects p w next := by
  cases step_cases ran with
  | registry sender call external run =>
      obtain ⟨registry, -, nextEq⟩ := callRegistry_ok call run
      subst nextEq
      exact .single (.ofSame rfl rfl rfl rfl)
  | module m sender call external run =>
      obtain ⟨-, -, notPool⟩ := Deployment.notExternal external
      exact effects_poolEffects deployment (callModule_deployed call run) notPool
        (callModule_effects call run)
  | pool other sender call external run =>
      obtain ⟨notZero, -, notPool⟩ := Deployment.notExternal external
      have notCaller : (w.pools p).isSome = true → p ≠ sender := by
        rintro present rfl
        rw [notPool] at present
        cases present
      by_cases same : p = other
      · subst same
        obtain ⟨pool, tx, present, -⟩ := callPool_ok sender call run
        have isPool : (w.pools p).isSome = true := by rw [present]; rfl
        exact .single (.called w next sender call ⟨notZero, Ne.symm (notCaller isPool),
          deployment.poolNotZero p isPool, deployment.cooldown⟩ run)
      · exact .single (otherPool_effect other sender call same notCaller run)
  | tokens _ move erc20 erc1155 erc20Kept erc1155Kept nextEq =>
      subst nextEq
      refine .single (.passive _ _ rfl le_rfl ?_ rfl)
      intro present token
      apply erc20Kept token p
      intro external
      rw [(Deployment.notExternal external).2.2] at present
      cases present
  | moduleDeployed m run =>
      obtain ⟨-, nextEq⟩ := deployModule_ok run
      subst nextEq
      exact .single (.ofSame rfl rfl rfl rfl)
  | poolDeployed other asset run =>
      obtain ⟨external, -, -, nextEq⟩ := deployPool_ok other asset run
      subst nextEq
      by_cases same : p = other
      · subst same
        refine .single (.deployed _ _ asset ?_ (Function.update_self ..) rfl)
        exact Option.isNone_iff_eq_none.mp external.2.2
      · exact .single (.passive _ _ (Function.update_of_ne same ..) le_rfl
          (fun _ _ => le_rfl) rfl)
  | mined block later higher nextEq =>
      subst nextEq
      exact .single (.passive _ _ rfl later (fun _ _ => le_rfl) rfl)

end Effects

/-! ## What holds of every pool -/

structure PoolInOrder (p : Address) (w : World) (pool : SingleAssetCoverPool) : Prop where
  accounts : PoolAccounts p w.now pool (fun token => w.erc20 token p)
  rewards : RewardsSolvent p w.now pool
  history : settledEpochs (eventsOf w p) = (exitLedger pool).settled

/-- A deployed pool is in order, and nothing was settled at an address without one. -/
def AddressInOrder (p : Address) (w : World) : Prop :=
  match w.pools p with
  | some pool => PoolInOrder p w pool
  | none => settledEpochs (eventsOf w p) = []

section InOrder

variable {platform : Platform} {p : Address} {w next : World}

theorem addressInOrder_some {pool : SingleAssetCoverPool} (present : w.pools p = some pool) :
    AddressInOrder p w ↔ PoolInOrder p w pool := by
  rw [AddressInOrder, present]

theorem called_inOrder {pool : SingleAssetCoverPool} (sender : Address) (call : PoolCall)
    (present : w.pools p = some pool) (inOrder : PoolInOrder p w pool)
    (caller : CallerOk (w.poolEnv p sender)) (run : w.callPool p sender call = .ok next) :
    AddressInOrder p next := by
  obtain ⟨before, tx, presentBefore, executed, nextEq⟩ := callPool_ok sender call run
  cases present.symm.trans presentBefore
  have poolsEq : next.pools p = some tx.pool := by
    rw [nextEq, emitAll_eq]
    exact Function.update_self ..
  have nowEq : next.now = w.now := by
    rw [World.now, World.now, (callPool_frame sender call run).1]
  have erc20Eq : next.erc20 = tx.erc20 := by rw [nextEq, emitAll_eq]
  have frame := exec_frame call executed
  have accounts : TxAccounts (w.poolEnv p sender) ⟨pool, w.erc20, []⟩ := inOrder.accounts
  obtain ⟨newly, settledEq, eventsEq⟩ := frame.settled inOrder.accounts.book.index_le
  rw [addressInOrder_some poolsEq]
  refine ⟨?_, ?_, ?_⟩
  · rw [nowEq, erc20Eq]
    exact exec_accounts caller call accounts executed
  · rw [nowEq]
    exact exec_solvent w.block.timestamp_lt caller call accounts inOrder.rewards executed
  · have logged : settledEpochs tx.events = newly := by
      rw [eventsEq]
      exact List.nil_append newly
    have before : settledEpochs (eventsOf w p) = (exitLedger pool).settled := inOrder.history
    rw [settledEq, nextEq, eventsOf_emitAll, if_pos rfl, settledEpochs_append, logged]
    exact congrArg (· ++ newly) before

theorem PoolEffect.inOrder (effect : PoolEffect p w next) (inOrder : AddressInOrder p w) :
    AddressInOrder p next := by
  cases effect with
  | passive same later richer quiet =>
      unfold AddressInOrder at inOrder ⊢
      rw [same]
      split at inOrder
      next pool present =>
        have more := richer (by rw [present]; rfl)
        exact ⟨(inOrder.accounts.later later).richer more, inOrder.rewards.later later,
          quiet.trans inOrder.history⟩
      next => exact quiet.trans inOrder
  | called sender call caller run =>
      obtain ⟨pool, tx, present, -⟩ := callPool_ok sender call run
      exact called_inOrder sender call present ((addressInOrder_some present).mp inOrder) caller run
  | deployed asset fresh present quiet =>
      rw [addressInOrder_some present]
      rw [AddressInOrder, fresh] at inOrder
      refine ⟨PoolAccounts.initial p _ asset _ _, RewardsSolvent.initial p _ asset _, ?_⟩
      rw [quiet]
      exact inOrder

theorem poolEffects_inOrder (effects : PoolEffects p w next) (inOrder : AddressInOrder p w) :
    AddressInOrder p next := by
  induction effects with
  | refl => exact inOrder
  | tail _ last ih => exact last.inOrder ih

/-- Every address is in order in every reachable world. -/
theorem reachable_inOrder (reachable : Reachable platform w) : AddressInOrder p w := by
  have both : Deployment w ∧ AddressInOrder p w := by
    refine reachable.invariant (fun world => Deployment world ∧ AddressInOrder p world) ?_ ?_
    · intro block timelock admin erc20 erc1155
      exact ⟨Deployment.genesis block timelock admin erc20 erc1155, rfl⟩
    · rintro world tx after ⟨deployment, inOrder⟩ ran
      exact ⟨deployment.step ran, poolEffects_inOrder (step_poolEffects deployment ran) inOrder⟩
  exact both.2

theorem reachable_poolInOrder (reachable : Reachable platform w) {pool : SingleAssetCoverPool}
    (present : w.pools p = some pool) : PoolInOrder p w pool :=
  (addressInOrder_some present).mp (reachable_inOrder reachable)

/-- The asset accounts of every pool in every reachable world.  `outstanding` is the
sum of the shares of all requests that point to an epoch. -/
theorem cover_pool_accounts_hold {pool : SingleAssetCoverPool}
    (reachable : Reachable platform w) (present : w.pools p = some pool) :
    let settled := pool.exitEpochQueue.take pool.nextExitEpochIndex
    let unsettled := pool.exitEpochQueue.drop pool.nextExitEpochIndex
    let outstanding := fun exitEpoch => ∑ user : Address,
      if (pool.exitRequests user).exitEpoch = exitEpoch then (pool.exitRequests user).shares else 0
    pool.accountedAssets + pool.withdrawalReserve +
        (if pool.asset = pool.usd8 then pool.rewardReserve else 0) ≤ w.erc20 pool.asset p ∧
      pool.withdrawalReserve =
        (settled.map fun exitEpoch => (pool.exitEpochs exitEpoch).remainingAssets).sum ∧
      (∀ exitEpoch ∈ settled,
        (pool.exitEpochs exitEpoch).remainingShares = outstanding exitEpoch ∧
          ((pool.exitEpochs exitEpoch).remainingShares = 0 →
            (pool.exitEpochs exitEpoch).remainingAssets = 0)) ∧
      (∀ exitEpoch, exitEpoch ∉ settled →
        (pool.exitEpochs exitEpoch).totalShares = outstanding exitEpoch) ∧
      pool.balances p =
        (unsettled.map fun exitEpoch => (pool.exitEpochs exitEpoch).totalShares).sum ∧
      (pool.totalSupply = 0 → pool.totalAssets = 0) := by
  have accounts := (reachable_poolInOrder reachable present).accounts
  have book := accounts.book
  refine ⟨?_, book.reserve, ?_, ?_, accounts.escrow, accounts.drained⟩
  · have backed := accounts.backed pool.asset
    unfold reserved at backed
    rw [if_pos (rfl : pool.asset = pool.asset)] at backed
    exact backed
  · intro exitEpoch member
    exact ⟨book.settled_shares exitEpoch member, book.settled_drained exitEpoch member⟩
  · intro exitEpoch notSettled
    by_cases queued : exitEpoch ∈ (exitLedger pool).queue
    · rcases (ExitBook.mem_queue_iff _ exitEpoch).mp queued with before | after
      · exact absurd before notSettled
      · exact book.unsettled_shares exitEpoch after
    · obtain ⟨noShares, -, noRequests⟩ := book.unused exitEpoch queued
      exact noShares.trans noRequests.symm

/-- The pool of the small deployment after its first exit: 900 units of assets back
the shares that are left. -/
theorem smallDeployment_pool_backed :
    ∃ w pool, Reachable SmallDeployment.platform w ∧
      w.pools SmallDeployment.pool = some pool ∧ pool.accountedAssets = 900 ∧
      pool.accountedAssets + pool.withdrawalReserve +
        (if pool.asset = pool.usd8 then pool.rewardReserve else 0) ≤
          w.erc20 pool.asset SmallDeployment.pool := by
  obtain ⟨steps, w, run, checked⟩ := SmallDeployment.reaches
    (SmallDeployment.stake ++ SmallDeployment.exit)
    (fun w => (w.pools SmallDeployment.pool).any fun pool => pool.accountedAssets == 900)
    (by decide +kernel)
  obtain ⟨pool, present, assets⟩ := (Option.any_eq_true _ _).mp checked
  exact ⟨w, pool, run.reachable, present, by simpa using assets,
    (cover_pool_accounts_hold run.reachable present).1⟩

end InOrder

end Usd8Core.Pool
