import Usd8Core.Pool.PoolSteps

/-!
# What the pool's external calls do

The outcome of every successful call as a record of the checks that passed, the
token transfer made and the storage left behind.
-/

set_option autoImplicit false

namespace Usd8Core.Pool

open Usd8Core.Lib.ByteWords
open Usd8Core.Lib.CheckedCall
open Usd8Core.Chain

/-! ## Deposits and transfers -/

/-- What `deposit` and `mint` come down to. -/
structure Deposited (env : PoolEnv) (tx next : PoolTx) (receiver : Address)
    (assets shares : Nat) : Prop where
  terms : tx.pool.previewDeposit assets = .ok shares ∨ tx.pool.previewMint shares = .ok assets
  received : erc20Transfer tx.erc20 tx.pool.asset env.sender env.self assets = .ok next.erc20
  receiverNotZero : receiver ≠ Address.zero
  minted : ∃ pool, tx.pool.update env.self env.now Address.zero receiver shares = .ok pool ∧
    next.pool = { pool with accountedAssets := pool.accountedAssets + assets }
  events : next.events = tx.events

theorem depositShares_ok (env : PoolEnv) (tx next : PoolTx) (receiver : Address)
    (assets shares : Nat)
    (terms : tx.pool.previewDeposit assets = .ok shares ∨
      tx.pool.previewMint shares = .ok assets)
    (run : PoolTx.depositShares env tx receiver assets shares = .ok next) :
    Deposited env tx next receiver assets shares := by
  unfold PoolTx.depositShares SingleAssetCoverPool.mintShares at run
  obtain ⟨_, -, run⟩ := (bind_ok_iff _ _ _).mp run
  obtain ⟨erc20, transferred, run⟩ := (bind_ok_iff _ _ _).mp run
  obtain ⟨pool, mintRun, run⟩ := (bind_ok_iff _ _ _).mp run
  obtain ⟨_, notZero, mintRun⟩ := (bind_ok_iff _ _ _).mp mintRun
  obtain ⟨received, -, run⟩ := (bind_ok_iff _ _ _).mp run
  obtain ⟨_, -, run⟩ := (bind_ok_iff _ _ _).mp run
  obtain ⟨accounted, accountedRun, result⟩ := (bind_ok_iff _ _ _).mp run
  obtain ⟨-, accountedEq⟩ := (checkedAdd_ok_iff _ _ _ _).mp accountedRun
  cases (pure_ok_iff _ _).mp result
  subst accountedEq
  exact ⟨terms, transferred, (revertIf_ok_iff _ _ _).mp notZero, ⟨pool, mintRun, rfl⟩, rfl⟩

theorem deposit_ok (env : PoolEnv) (tx next : PoolTx) (assets : Nat) (receiver : Address)
    (run : PoolTx.deposit env tx assets receiver = .ok next) :
    ∃ shares, Deposited env tx next receiver assets shares := by
  unfold PoolTx.deposit at run
  obtain ⟨_, -, run⟩ := (bind_ok_iff _ _ _).mp run
  obtain ⟨limit, -, run⟩ := (bind_ok_iff _ _ _).mp run
  obtain ⟨_, -, run⟩ := (bind_ok_iff _ _ _).mp run
  obtain ⟨shares, preview, run⟩ := (bind_ok_iff _ _ _).mp run
  exact ⟨shares, depositShares_ok env tx next receiver assets shares (Or.inl preview) run⟩

theorem mint_ok (env : PoolEnv) (tx next : PoolTx) (shares : Nat) (receiver : Address)
    (run : PoolTx.mint env tx shares receiver = .ok next) :
    ∃ assets, Deposited env tx next receiver assets shares := by
  unfold PoolTx.mint at run
  obtain ⟨_, -, run⟩ := (bind_ok_iff _ _ _).mp run
  obtain ⟨limit, -, run⟩ := (bind_ok_iff _ _ _).mp run
  obtain ⟨_, -, run⟩ := (bind_ok_iff _ _ _).mp run
  obtain ⟨assets, preview, run⟩ := (bind_ok_iff _ _ _).mp run
  exact ⟨assets, depositShares_ok env tx next receiver assets shares (Or.inr preview) run⟩

theorem transfer_ok (env : PoolEnv) (tx next : PoolTx) (recipient : Address) (value : Nat)
    (run : PoolTx.transfer env tx recipient value = .ok next) :
    recipient ≠ Address.zero ∧
      ∃ pool, tx.pool.update env.self env.now env.sender recipient value = .ok pool ∧
        next = { tx with pool := pool } := by
  unfold PoolTx.transfer at run
  obtain ⟨_, notZero, run⟩ := (bind_ok_iff _ _ _).mp run
  obtain ⟨pool, updated, result⟩ := (bind_ok_iff _ _ _).mp run
  exact ⟨(revertIf_ok_iff _ _ _).mp notZero, pool, updated, ((pure_ok_iff _ _).mp result).symm⟩

/-! ## Exits -/

/-- A call that settled matured epochs and did nothing else. -/
structure Settled (env : PoolEnv) (tx next : PoolTx) (maxEpochs : Nat) : Prop where
  run : ∃ pool events, tx.pool.settleMatured env.self env.now maxEpochs = .ok (pool, events) ∧
    next = { tx with pool := pool, events := tx.events ++ events }

theorem settleAll_ok (env : PoolEnv) (tx next : PoolTx)
    (run : PoolTx.settleAll env tx = .ok next) :
    Settled env tx next (tx.pool.exitEpochQueue.length - tx.pool.nextExitEpochIndex) := by
  unfold PoolTx.settleAll at run
  obtain ⟨outstanding, counted, run⟩ := (bind_ok_iff _ _ _).mp run
  obtain ⟨⟨pool, events⟩, settled, result⟩ := (bind_ok_iff _ _ _).mp run
  obtain ⟨-, outstandingEq⟩ := (checkedSub_ok_iff _ _ _).mp counted
  subst outstandingEq
  exact ⟨pool, events, settled, ((pure_ok_iff _ _).mp result).symm⟩

theorem settleMaturedExitEpochs_ok (env : PoolEnv) (tx next : PoolTx) (maxEpochs : Nat)
    (run : PoolTx.settleMaturedExitEpochs env tx maxEpochs = .ok next) :
    env.payoutIncidentActive = false ∧ Settled env tx next maxEpochs := by
  unfold PoolTx.settleMaturedExitEpochs at run
  obtain ⟨_, notFrozen, run⟩ := (bind_ok_iff _ _ _).mp run
  obtain ⟨⟨pool, events⟩, settled, result⟩ := (bind_ok_iff _ _ _).mp run
  have active := (revertIf_ok_iff _ _ _).mp notFrozen
  exact ⟨by simpa using active, pool, events, settled, ((pure_ok_iff _ _).mp result).symm⟩

/-- The pool after a request was written and before its shares move. -/
def queuedRequest (pool : SingleAssetCoverPool) (user : Address) (shares exitEpoch : Nat) :
    SingleAssetCoverPool :=
  { pool with
    exitRequests := Function.update pool.exitRequests user ⟨shares, exitEpoch⟩
    exitEpochQueue :=
      if (pool.exitEpochs exitEpoch).totalShares = 0 then pool.exitEpochQueue ++ [exitEpoch]
      else pool.exitEpochQueue
    exitEpochs := Function.update pool.exitEpochs exitEpoch
      { pool.exitEpochs exitEpoch with
        totalShares := (pool.exitEpochs exitEpoch).totalShares + shares } }

theorem enqueueRedeem_ok (env : PoolEnv) (pool next : SingleAssetCoverPool)
    (shares exitEpoch : Nat)
    (run : PoolTx.enqueueRedeem env pool shares exitEpoch = .ok next) :
    ∃ synced userSynced,
      (queuedRequest pool env.sender shares exitEpoch).checkpointGlobalRewards env.self env.now =
        .ok synced ∧
      synced.checkpointUserRewards env.self env.now env.sender = .ok userSynced ∧
      userSynced.erc20Update env.self env.sender env.self shares = .ok next := by
  unfold PoolTx.enqueueRedeem at run
  obtain ⟨total, totalRun, run⟩ := (bind_ok_iff _ _ _).mp run
  obtain ⟨-, totalEq⟩ := (checkedAdd_ok_iff _ _ _ _).mp totalRun
  obtain ⟨synced, global, run⟩ := (bind_ok_iff _ _ _).mp run
  obtain ⟨userSynced, user, moved⟩ := (bind_ok_iff _ _ _).mp run
  subst totalEq
  exact ⟨synced, userSynced, global, user, moved⟩

/-- What `requestRedeem` does after the optional settlement to `settled`. -/
structure Requested (env : PoolEnv) (tx settled next : PoolTx) (shares exitEpoch : Nat) :
    Prop where
  first : (env.payoutIncidentActive = false ∧ Settled env tx settled
      (tx.pool.exitEpochQueue.length - tx.pool.nextExitEpochIndex)) ∨ settled = tx
  positive : shares ≠ 0
  enough : shares ≤ settled.pool.balances env.sender
  noRequest : (settled.pool.exitRequests env.sender).shares = 0
  assigned : SingleAssetCoverPool.calculateExitEpoch env settled.pool env.now = .ok exitEpoch
  enqueued : ∃ pool, PoolTx.enqueueRedeem env settled.pool shares exitEpoch = .ok pool ∧
    next = { settled with
      pool := pool, events := settled.events ++ [.redeemRequested env.sender shares] }

theorem requestRedeem_ok (env : PoolEnv) (tx next : PoolTx) (shares : Nat)
    (run : PoolTx.requestRedeem env tx shares = .ok next) :
    ∃ settled exitEpoch, Requested env tx settled next shares exitEpoch := by
  unfold PoolTx.requestRedeem at run
  obtain ⟨_, -, run⟩ := (bind_ok_iff _ _ _).mp run
  obtain ⟨settled, settleRun, run⟩ := (bind_ok_iff _ _ _).mp run
  obtain ⟨_, positive, run⟩ := (bind_ok_iff _ _ _).mp run
  obtain ⟨_, enough, run⟩ := (bind_ok_iff _ _ _).mp run
  obtain ⟨_, noRequest, run⟩ := (bind_ok_iff _ _ _).mp run
  obtain ⟨exitEpoch, assigned, run⟩ := (bind_ok_iff _ _ _).mp run
  obtain ⟨pool, enqueued, result⟩ := (bind_ok_iff _ _ _).mp run
  have noneBefore := (revertIf_ok_iff _ _ _).mp noRequest
  refine ⟨settled, exitEpoch, ?_, (revertIf_ok_iff _ _ _).mp positive,
    Nat.le_of_not_lt ((revertIf_ok_iff _ _ _).mp enough), by simpa using noneBefore, assigned,
    pool, enqueued, ((pure_ok_iff _ _).mp result).symm⟩
  rcases (ite_ok_iff _ _ _ _).mp settleRun with ⟨active, settleRun⟩ | ⟨-, settleRun⟩
  · exact Or.inl ⟨active, settleAll_ok env tx settled settleRun⟩
  · exact Or.inr ((pure_ok_iff _ _).mp settleRun).symm

/-- What `completeRedeem` does after the optional settlement to `settled`. -/
structure Completed (env : PoolEnv) (tx settled next : PoolTx) (receiver : Address)
    (assets : Nat) : Prop where
  receiverNotPool : receiver ≠ env.self
  first : (env.payoutIncidentActive = false ∧ Settled env tx settled
      (tx.pool.exitEpochQueue.length - tx.pool.nextExitEpochIndex)) ∨ settled = tx
  positive : (tx.pool.exitRequests env.sender).shares ≠ 0
  owed : PoolTx.redeemAssets
      (settled.pool.exitEpochs (tx.pool.exitRequests env.sender).exitEpoch)
      (tx.pool.exitRequests env.sender).shares = .ok assets
  sharesLeft : (tx.pool.exitRequests env.sender).shares ≤
    (settled.pool.exitEpochs (tx.pool.exitRequests env.sender).exitEpoch).remainingShares
  assetsLeft : assets ≤
    (settled.pool.exitEpochs (tx.pool.exitRequests env.sender).exitEpoch).remainingAssets
  reserveLeft : assets ≤ settled.pool.withdrawalReserve
  paid : erc20Transfer settled.erc20 settled.pool.asset env.self receiver assets =
    .ok next.erc20
  pool : next.pool = { settled.pool with
    exitRequests := Function.update settled.pool.exitRequests env.sender ⟨0, 0⟩
    exitEpochs := Function.update settled.pool.exitEpochs
      (tx.pool.exitRequests env.sender).exitEpoch
      { settled.pool.exitEpochs (tx.pool.exitRequests env.sender).exitEpoch with
        remainingShares := (settled.pool.exitEpochs
          (tx.pool.exitRequests env.sender).exitEpoch).remainingShares -
            (tx.pool.exitRequests env.sender).shares
        remainingAssets := (settled.pool.exitEpochs
          (tx.pool.exitRequests env.sender).exitEpoch).remainingAssets - assets }
    withdrawalReserve := settled.pool.withdrawalReserve - assets }
  events : ∃ shares, next.events =
    settled.events ++ [.exitClaimed env.sender receiver shares assets]

/-- What a redemption pays from: an epoch that is not settled yet is settled first. -/
def paidFrom (env : PoolEnv) (tx : PoolTx) : Call PoolTx :=
  let request := tx.pool.exitRequests env.sender
  if (tx.pool.exitEpochs request.exitEpoch).remainingShares = 0 then
    PoolTx.settleForRedeem env tx request
  else pure tx

theorem completeRedeem_paidFrom (env : PoolEnv) (tx next : PoolTx) (receiver : Address)
    (run : PoolTx.completeRedeem env tx receiver = .ok next) :
    ∃ settled assets, paidFrom env tx = .ok settled ∧
      Completed env tx settled next receiver assets := by
  unfold PoolTx.completeRedeem at run
  obtain ⟨_, -, run⟩ := (bind_ok_iff _ _ _).mp run
  obtain ⟨_, validReceiver, run⟩ := (bind_ok_iff _ _ _).mp run
  obtain ⟨_, positive, run⟩ := (bind_ok_iff _ _ _).mp run
  obtain ⟨settled, settleRun, run⟩ := (bind_ok_iff _ _ _).mp run
  unfold PoolTx.payRequest at run
  obtain ⟨assets, owed, run⟩ := (bind_ok_iff _ _ _).mp run
  obtain ⟨remainingShares, sharesRun, run⟩ := (bind_ok_iff _ _ _).mp run
  obtain ⟨remainingAssets, assetsRun, run⟩ := (bind_ok_iff _ _ _).mp run
  obtain ⟨reserve, reserveRun, run⟩ := (bind_ok_iff _ _ _).mp run
  obtain ⟨erc20, transferred, result⟩ := (bind_ok_iff _ _ _).mp run
  obtain ⟨sharesLeft, sharesEq⟩ := (checkedSub_ok_iff _ _ _).mp sharesRun
  obtain ⟨assetsLeft, assetsEq⟩ := (checkedSub_ok_iff _ _ _).mp assetsRun
  obtain ⟨reserveLeft, reserveEq⟩ := (checkedSub_ok_iff _ _ _).mp reserveRun
  cases (pure_ok_iff _ _).mp result
  subst sharesEq assetsEq reserveEq
  have receiverChecked := (revertIf_ok_iff _ _ _).mp validReceiver
  refine ⟨settled, assets, settleRun, fun same => receiverChecked (Or.inr same), ?_,
    (revertIf_ok_iff _ _ _).mp positive, owed, sharesLeft, assetsLeft, reserveLeft,
    transferred, rfl, ⟨_, rfl⟩⟩
  rcases (ite_ok_iff _ _ _ _).mp settleRun with ⟨-, settleRun⟩ | ⟨-, settleRun⟩
  · unfold PoolTx.settleForRedeem at settleRun
    obtain ⟨_, -, settleRun⟩ := (bind_ok_iff _ _ _).mp settleRun
    obtain ⟨_, notFrozen, settleRun⟩ := (bind_ok_iff _ _ _).mp settleRun
    have active := (revertIf_ok_iff _ _ _).mp notFrozen
    exact Or.inl ⟨by simpa using active, settleAll_ok env tx settled settleRun⟩
  · exact Or.inr ((pure_ok_iff _ _).mp settleRun).symm

theorem completeRedeem_ok (env : PoolEnv) (tx next : PoolTx) (receiver : Address)
    (run : PoolTx.completeRedeem env tx receiver = .ok next) :
    ∃ settled assets, Completed env tx settled next receiver assets := by
  obtain ⟨settled, assets, -, completed⟩ := completeRedeem_paidFrom env tx next receiver run
  exact ⟨settled, assets, completed⟩

/-! ## Rewards -/

/-- `claimReward`: both checkpoints, then the payment when something is owed. -/
structure RewardClaimed (env : PoolEnv) (tx next : PoolTx) (synced : SingleAssetCoverPool) :
    Prop where
  checkpointed : ∃ global, tx.pool.checkpointGlobalRewards env.self env.now = .ok global ∧
    global.checkpointUserRewards env.self env.now env.sender = .ok synced
  paid : ((synced.rewardState env.sender).rewards = 0 ∧ next = { tx with pool := synced }) ∨
    ((synced.rewardState env.sender).rewards ≠ 0 ∧
      (synced.rewardState env.sender).rewards ≤ synced.rewardReserve ∧
      erc20Transfer tx.erc20 synced.usd8 env.self env.sender
        (synced.rewardState env.sender).rewards = .ok next.erc20 ∧
      next.pool = { synced with
        rewardState := Function.update synced.rewardState env.sender
          { synced.rewardState env.sender with rewards := 0 }
        rewardReserve := synced.rewardReserve - (synced.rewardState env.sender).rewards } ∧
      next.events = tx.events ++
        [.rewardClaimed env.sender (synced.rewardState env.sender).rewards])

theorem claimReward_ok (env : PoolEnv) (tx next : PoolTx)
    (run : PoolTx.claimReward env tx = .ok next) :
    ∃ synced, RewardClaimed env tx next synced := by
  unfold PoolTx.claimReward at run
  obtain ⟨_, -, run⟩ := (bind_ok_iff _ _ _).mp run
  obtain ⟨global, globalRun, run⟩ := (bind_ok_iff _ _ _).mp run
  obtain ⟨synced, userRun, run⟩ := (bind_ok_iff _ _ _).mp run
  refine ⟨synced, ⟨global, globalRun, userRun⟩, ?_⟩
  rcases (ite_ok_iff _ _ _ _).mp run with ⟨nothing, run⟩ | ⟨something, run⟩
  · exact Or.inl ⟨nothing, ((pure_ok_iff _ _).mp run).symm⟩
  · obtain ⟨reserve, reserveRun, run⟩ := (bind_ok_iff _ _ _).mp run
    obtain ⟨erc20, transferred, result⟩ := (bind_ok_iff _ _ _).mp run
    obtain ⟨enough, reserveEq⟩ := (checkedSub_ok_iff _ _ _).mp reserveRun
    cases (pure_ok_iff _ _).mp result
    subst reserveEq
    exact Or.inr ⟨something, enough, transferred, rfl, rfl⟩

/-- `receiveProfitDistribution`: pull, checkpoint, re-blend. -/
structure ProfitReceived (env : PoolEnv) (tx next : PoolTx) (amount : Nat)
    (synced : SingleAssetCoverPool) (newDuration newRate : Nat) : Prop where
  received : erc20Transfer tx.erc20 tx.pool.usd8 env.sender env.self amount = .ok next.erc20
  checkpointed : SingleAssetCoverPool.checkpointGlobalRewards
    { tx.pool with rewardReserve := tx.pool.rewardReserve + amount } env.self env.now =
      .ok synced
  blended : PoolTx.blendStream synced env.now amount = .ok (newDuration, newRate)
  pool : next.pool = { synced with
    rewardRate := newRate
    lastUpdateTime := truncate 64 env.now
    periodFinish := truncate 64 (env.now + newDuration) }
  events : ∃ finish, next.events = tx.events ++ [.rewardNotified amount newRate finish]

theorem receiveProfitDistribution_ok (env : PoolEnv) (tx next : PoolTx) (amount : Nat)
    (run : PoolTx.receiveProfitDistribution env tx amount = .ok next) :
    ∃ synced newDuration newRate,
      ProfitReceived env tx next amount synced newDuration newRate := by
  unfold PoolTx.receiveProfitDistribution at run
  obtain ⟨_, -, run⟩ := (bind_ok_iff _ _ _).mp run
  obtain ⟨_, -, run⟩ := (bind_ok_iff _ _ _).mp run
  obtain ⟨earning, -, run⟩ := (bind_ok_iff _ _ _).mp run
  obtain ⟨_, -, run⟩ := (bind_ok_iff _ _ _).mp run
  obtain ⟨erc20, transferred, run⟩ := (bind_ok_iff _ _ _).mp run
  obtain ⟨reserve, reserveRun, run⟩ := (bind_ok_iff _ _ _).mp run
  obtain ⟨-, reserveEq⟩ := (checkedAdd_ok_iff _ _ _ _).mp reserveRun
  obtain ⟨synced, globalRun, run⟩ := (bind_ok_iff _ _ _).mp run
  obtain ⟨⟨newDuration, newRate⟩, blended, run⟩ := (bind_ok_iff _ _ _).mp run
  obtain ⟨finish, finishRun, result⟩ := (bind_ok_iff _ _ _).mp run
  obtain ⟨-, finishEq⟩ := (checkedAdd_ok_iff _ _ _ _).mp finishRun
  cases (pure_ok_iff _ _).mp result
  subst reserveEq finishEq
  exact ⟨synced, newDuration, newRate, transferred, globalRun, blended, rfl, ⟨_, rfl⟩⟩

/-! ## Payouts, settings and sweeping -/

/-- `payClaim`: nothing for a zero amount, a transfer out of the active assets else. -/
structure ClaimPaid (env : PoolEnv) (tx next : PoolTx) (recipient : Address) (amount : Nat) :
    Prop where
  sender : env.sender = env.registry.defiInsurance
  recipientNotPool : recipient ≠ env.self
  paid : (amount = 0 ∧ next = tx) ∨
    (amount ≠ 0 ∧ amount ≤ tx.pool.accountedAssets ∧
      erc20Transfer tx.erc20 tx.pool.asset env.self recipient amount = .ok next.erc20 ∧
      next.pool = { tx.pool with accountedAssets := tx.pool.accountedAssets - amount } ∧
      next.events = tx.events ++ [.claimPaid recipient amount])

theorem payClaim_ok (env : PoolEnv) (tx next : PoolTx) (recipient : Address) (amount : Nat)
    (run : PoolTx.payClaim env tx recipient amount = .ok next) :
    ClaimPaid env tx next recipient amount := by
  unfold PoolTx.payClaim at run
  obtain ⟨_, -, run⟩ := (bind_ok_iff _ _ _).mp run
  obtain ⟨_, fromModule, run⟩ := (bind_ok_iff _ _ _).mp run
  obtain ⟨_, notPool, run⟩ := (bind_ok_iff _ _ _).mp run
  have sender := (revertIf_ok_iff _ _ _).mp fromModule
  refine ⟨by simpa using sender, (revertIf_ok_iff _ _ _).mp notPool, ?_⟩
  rcases (ite_ok_iff _ _ _ _).mp run with ⟨zero, run⟩ | ⟨nonzero, run⟩
  · exact Or.inl ⟨zero, ((pure_ok_iff _ _).mp run).symm⟩
  · obtain ⟨_, -, run⟩ := (bind_ok_iff _ _ _).mp run
    obtain ⟨accounted, accountedRun, run⟩ := (bind_ok_iff _ _ _).mp run
    obtain ⟨erc20, transferred, result⟩ := (bind_ok_iff _ _ _).mp run
    obtain ⟨enough, accountedEq⟩ := (checkedSub_ok_iff _ _ _).mp accountedRun
    cases (pure_ok_iff _ _).mp result
    subst accountedEq
    exact Or.inr ⟨nonzero, enough, transferred, rfl, rfl⟩

theorem setRewardsDuration_ok (env : PoolEnv) (tx next : PoolTx) (newDuration : Nat)
    (run : PoolTx.setRewardsDuration env tx newDuration = .ok next) :
    next = { tx with pool := { tx.pool with rewardsDuration := newDuration } } := by
  unfold PoolTx.setRewardsDuration at run
  obtain ⟨_, -, run⟩ := (bind_ok_iff _ _ _).mp run
  obtain ⟨_, -, result⟩ := (bind_ok_iff _ _ _).mp run
  exact ((pure_ok_iff _ _).mp result).symm

theorem setDepositCap_ok (env : PoolEnv) (tx next : PoolTx) (newCap : Nat)
    (run : PoolTx.setDepositCap env tx newCap = .ok next) :
    next = { tx with pool := { tx.pool with depositCap := newCap } } := by
  unfold PoolTx.setDepositCap at run
  obtain ⟨_, -, result⟩ := (bind_ok_iff _ _ _).mp run
  exact ((pure_ok_iff _ _).mp result).symm

/-- What the pool must keep of each token. -/
def reserved (pool : SingleAssetCoverPool) (token : Address) : Nat :=
  (if token = pool.asset then pool.accountedAssets + pool.withdrawalReserve else 0) +
    (if token = pool.usd8 then pool.rewardReserve else 0)

/-- Two pools of the same tokens whose principal and rewards differ by given amounts. -/
theorem reserved_add (pool next : SingleAssetCoverPool) (principal rewards : Nat)
    (sameAsset : next.asset = pool.asset) (sameUsd8 : next.usd8 = pool.usd8)
    (assets : next.accountedAssets + next.withdrawalReserve =
      pool.accountedAssets + pool.withdrawalReserve + principal)
    (reserve : next.rewardReserve = pool.rewardReserve + rewards) (token : Address) :
    reserved next token = reserved pool token + (if token = pool.asset then principal else 0) +
      (if token = pool.usd8 then rewards else 0) := by
  unfold reserved
  rw [sameAsset, sameUsd8, assets, reserve]
  split_ifs <;> omega

theorem sweepToken_ok (env : PoolEnv) (tx next : PoolTx) (token recipient : Address)
    (run : PoolTx.sweepToken env tx token recipient = .ok next) :
    recipient ≠ env.self ∧ ∃ amount,
      amount = tx.erc20 token env.self - reserved tx.pool token ∧
      erc20Transfer tx.erc20 token env.self recipient amount = .ok next.erc20 ∧
      next.pool = tx.pool ∧ next.events = tx.events ++ [.tokenSwept token recipient amount] := by
  unfold PoolTx.sweepToken at run
  obtain ⟨_, -, run⟩ := (bind_ok_iff _ _ _).mp run
  obtain ⟨_, -, run⟩ := (bind_ok_iff _ _ _).mp run
  obtain ⟨_, notPool, run⟩ := (bind_ok_iff _ _ _).mp run
  obtain ⟨amount, sweepRun, run⟩ := (bind_ok_iff _ _ _).mp run
  obtain ⟨_, something, run⟩ := (bind_ok_iff _ _ _).mp run
  obtain ⟨erc20, transferred, result⟩ := (bind_ok_iff _ _ _).mp run
  cases (pure_ok_iff _ _).mp result
  refine ⟨(revertIf_ok_iff _ _ _).mp notPool, amount, ?_, transferred, rfl, rfl⟩
  unfold PoolTx.sweepable at sweepRun
  rcases (ite_ok_iff _ _ _ _).mp sweepRun with ⟨-, sweepRun⟩ | ⟨-, sweepRun⟩
  · exact absurd ((pure_ok_iff _ _).mp sweepRun).symm ((revertIf_ok_iff _ _ _).mp something)
  · obtain ⟨principal, principalRun, sweepRun⟩ := (bind_ok_iff _ _ _).mp sweepRun
    obtain ⟨accounted, accountedRun, sweepRun⟩ := (bind_ok_iff _ _ _).mp sweepRun
    have principalEq : principal =
        if token = tx.pool.asset then tx.pool.accountedAssets + tx.pool.withdrawalReserve
        else 0 := by
      rcases (ite_ok_iff _ _ _ _).mp principalRun with ⟨isAsset, added⟩ | ⟨notAsset, zero⟩
      · rw [if_pos isAsset, ((checkedAdd_ok_iff _ _ _ _).mp added).2]
      · rw [if_neg notAsset, ← (pure_ok_iff _ _).mp zero]
    have accountedEq : accounted = reserved tx.pool token := by
      unfold reserved
      rw [← principalEq]
      rcases (ite_ok_iff _ _ _ _).mp accountedRun with ⟨isUsd8, added⟩ | ⟨notUsd8, same⟩
      · rw [if_pos isUsd8, ((checkedAdd_ok_iff _ _ _ _).mp added).2]
      · rw [if_neg notUsd8, Nat.add_zero, ← (pure_ok_iff _ _).mp same]
    rw [← (pure_ok_iff _ _).mp sweepRun, accountedEq]

end Usd8Core.Pool
