import Usd8Core.Pool.RewardCheckpoints
import Usd8Core.Pool.PoolChanges

/-!
# Budget of the reward accumulator

The accumulator, its residual and the stream that is left never exceed what was ever
distributed.  With the windows of the stream and the share supply in their limits, this
bounds every product a checkpoint forms.
-/

set_option autoImplicit false

namespace Usd8Core.Pool

open Usd8Core.Lib.ByteWords
open Usd8Core.Lib.CheckedCall
open Usd8Core.Lib.TraceRun
open Usd8Core.Chain
open Usd8Core.Insurance
open SingleAssetCoverPool (virtualShares)

/-- What a pool that was given `distributed` USD8 keeps to. -/
structure RewardBudget (distributed : Nat) (pool : SingleAssetCoverPool) : Prop where
  spent : pool.rewardPerShareStored + pool.rewardResidual + streamLeft pool ≤
    distributed * rewardScale
  duration : pool.rewardsDuration ≤ maxRewardsDuration
  period : pool.periodFinish ≤ pool.lastUpdateTime + maxRewardsDuration
  supply : pool.totalSupply + virtualShares < uintBound 256

/-- The same stream and the same settings. -/
structure SameStream (pool next : SingleAssetCoverPool) : Prop where
  stored : next.rewardPerShareStored = pool.rewardPerShareStored
  residual : next.rewardResidual = pool.rewardResidual
  finish : next.periodFinish = pool.periodFinish
  updated : next.lastUpdateTime = pool.lastUpdateTime
  rate : next.rewardRate = pool.rewardRate
  duration : next.rewardsDuration = pool.rewardsDuration

section Budget

variable {here : Address} {now distributed : Nat} {pool next : SingleAssetCoverPool}

theorem SameStream.refl (pool : SingleAssetCoverPool) : SameStream pool pool :=
  ⟨rfl, rfl, rfl, rfl, rfl, rfl⟩

theorem SameStream.trans {middle : SingleAssetCoverPool} (first : SameStream pool middle)
    (second : SameStream middle next) : SameStream pool next :=
  ⟨second.stored.trans first.stored, second.residual.trans first.residual,
    second.finish.trans first.finish, second.updated.trans first.updated,
    second.rate.trans first.rate, second.duration.trans first.duration⟩

theorem RewardBudget.ofSame (budget : RewardBudget distributed pool)
    (same : SameStream pool next) (supply : next.totalSupply + virtualShares < uintBound 256) :
    RewardBudget distributed next := by
  have spent := budget.spent
  have period := budget.period
  refine ⟨?_, ?_, ?_, supply⟩
  · rw [streamLeft] at spent ⊢
    rw [same.stored, same.residual, same.finish, same.updated, same.rate]
    exact spent
  · rw [same.duration]
    exact budget.duration
  · rw [same.finish, same.updated]
    exact period

theorem RewardBudget.initial (asset usd8 : Address) :
    RewardBudget 0 (SingleAssetCoverPool.initial asset usd8) := by
  constructor <;>
    simp [SingleAssetCoverPool.initial, streamLeft, maxRewardsDuration, virtualShares, uintBound]

theorem RewardBudget.more {larger : Nat} (budget : RewardBudget distributed pool)
    (grows : distributed ≤ larger) : RewardBudget larger pool :=
  { budget with spent := budget.spent.trans (Nat.mul_le_mul_right _ grows) }

/-! ## Checkpoints -/

/-- Deferring the stream keeps what is left of it. -/
theorem streamLeft_deferred (updated : pool.lastUpdateTime ≤ now) :
    streamLeft (deferred pool now) = streamLeft pool := by
  unfold streamLeft deferred
  by_cases rate : pool.rewardRate = 0
  · simp [rate]
  · by_cases running : pool.lastUpdateTime < pool.periodFinish
    · simp [rate, running]
    · have finished : pool.periodFinish - now = pool.periodFinish - pool.lastUpdateTime := by omega
      simp [running, finished]

theorem RewardBudget.deferred (budget : RewardBudget distributed pool)
    (updated : pool.lastUpdateTime ≤ now) : RewardBudget distributed (deferred pool now) := by
  have spent := budget.spent
  have period := budget.period
  refine ⟨?_, budget.duration, ?_, budget.supply⟩
  · rw [streamLeft_deferred updated]
    exact spent
  · simp only [Pool.deferred]
    split <;> omega

/-- What runs until reward time leaves the stream. -/
theorem streamLeft_accrued (earning : Nat) (updated : pool.lastUpdateTime ≤ now) :
    streamLeft pool = streamLeft (accrued pool earning (pool.rewardTime now)) +
      (pool.rewardTime now - pool.lastUpdateTime) * pool.rewardRate * rewardScale := by
  have windows : pool.periodFinish - pool.lastUpdateTime =
      pool.periodFinish - pool.rewardTime now + (pool.rewardTime now - pool.lastUpdateTime) := by
    rw [rewardTime_eq_min]
    omega
  change (pool.periodFinish - pool.lastUpdateTime) * pool.rewardRate * rewardScale =
    (pool.periodFinish - pool.rewardTime now) * pool.rewardRate * rewardScale + _
  rw [windows, Nat.add_mul, Nat.add_mul]

theorem RewardBudget.accrued {earning : Nat} (budget : RewardBudget distributed pool)
    (positive : earning ≠ 0) (updated : pool.lastUpdateTime ≤ now) :
    RewardBudget distributed (accrued pool earning (pool.rewardTime now)) := by
  have spent := budget.spent
  have period := budget.period
  have stream := streamLeft_accrued earning updated
  have times := rewardTime_eq_min pool now
  by_cases started : pool.lastUpdateTime < pool.rewardTime now
  · rw [accrued_started started] at stream ⊢
    refine ⟨?_, budget.duration, ?_, budget.supply⟩
    · have divided : streamed pool (pool.rewardTime now) / earning +
          streamed pool (pool.rewardTime now) % earning ≤ streamed pool (pool.rewardTime now) := by
        have split := Nat.div_add_mod (streamed pool (pool.rewardTime now)) earning
        have least := Nat.le_mul_of_pos_left (streamed pool (pool.rewardTime now) / earning)
          (Nat.pos_of_ne_zero positive)
        omega
      have run : streamed pool (pool.rewardTime now) =
          (pool.rewardTime now - pool.lastUpdateTime) * pool.rewardRate * rewardScale +
            pool.rewardResidual := rfl
      simp only
      omega
    · simp only
      omega
  · have idle : Pool.accrued pool earning (pool.rewardTime now) =
        { pool with lastUpdateTime := pool.rewardTime now } := by
      simp only [Pool.accrued, if_neg started]
    rw [idle] at stream ⊢
    refine ⟨?_, budget.duration, ?_, budget.supply⟩
    · simp only
      omega
    · simp only
      omega

/-- A global checkpoint keeps the budget. -/
theorem checkpointGlobalRewards_budget (inTime : now < uintBound 64)
    (budget : RewardBudget distributed pool) (updated : pool.lastUpdateTime ≤ now)
    (run : pool.checkpointGlobalRewards here now = .ok next) :
    RewardBudget distributed next := by
  obtain ⟨earning, earns, -⟩ := checkpointGlobalRewards_ok inTime run
  by_cases nobody : earning = 0
  · rw [nobody] at earns
    rw [((checkpointGlobalRewards_nobody inTime earns).mp run).2]
    exact budget.deferred updated
  · rw [((checkpointGlobalRewards_somebody inTime earns nobody).mp run).2]
    exact budget.accrued nobody updated

/-- While the distributions fit the scaled word, a global checkpoint cannot fail. -/
theorem checkpointGlobalRewards_runs (inTime : now + maxRewardsDuration < uintBound 64)
    (budget : RewardBudget distributed pool) (fits : distributed * rewardScale < uintBound 256)
    (bound : pool.balances here ≤ pool.totalSupply) (updated : pool.lastUpdateTime ≤ now) :
    ∃ next, pool.checkpointGlobalRewards here now = .ok next := by
  have spent := budget.spent
  have period := budget.period
  have inWord : now < uintBound 64 := (Nat.le_add_right _ _).trans_lt inTime
  have earns : pool.earningShares here = .ok (pool.totalSupply - pool.balances here) :=
    (checkedSub_ok_iff _ _ _).mpr ⟨bound, rfl⟩
  by_cases nobody : pool.totalSupply - pool.balances here = 0
  · rw [nobody] at earns
    refine ⟨_, (checkpointGlobalRewards_nobody inWord earns).mpr ⟨?_, rfl⟩⟩
    intro _ _
    simp only [uintBound, maxRewardsDuration] at inTime period ⊢
    omega
  · refine ⟨_, (checkpointGlobalRewards_somebody inWord earns nobody).mpr ⟨?_, rfl⟩⟩
    intro started
    have stream := streamLeft_accrued (pool.totalSupply - pool.balances here) updated
    have run : streamed pool (pool.rewardTime now) =
        (pool.rewardTime now - pool.lastUpdateTime) * pool.rewardRate * rewardScale +
          pool.rewardResidual := rfl
    have divided := Nat.div_le_self (streamed pool (pool.rewardTime now))
      (pool.totalSupply - pool.balances here)
    constructor
    · omega
    · omega

/-! ## Share moves -/

theorem maybeCheckpoint_sameStream (condition : Prop) [Decidable condition] (user : Address)
    (run : (if condition then pool.checkpointUserRewards here now user else pure pool) =
      .ok next) :
    SameStream pool next ∧ next.totalSupply = pool.totalSupply := by
  rcases (ite_ok_iff _ _ _ _).mp run with ⟨-, run⟩ | ⟨-, run⟩
  · obtain ⟨rewards, -, nextEq⟩ := checkpointUserRewards_ok pool next here now user run
    subst nextEq
    exact ⟨⟨rfl, rfl, rfl, rfl, rfl, rfl⟩, rfl⟩
  · cases (pure_ok_iff _ _).mp run
    exact ⟨.refl pool, rfl⟩

theorem erc20Update_sameStream (sender recipient : Address) (value : Nat)
    (run : pool.erc20Update here sender recipient value = .ok next) :
    SameStream pool next ∧
      (sender ≠ Address.zero → next.totalSupply ≤ pool.totalSupply) ∧
      next.totalSupply ≤ pool.totalSupply + value := by
  unfold SingleAssetCoverPool.erc20Update SingleAssetCoverPool.debitShares at run
  obtain ⟨debited, debitRun, result⟩ := (bind_ok_iff _ _ _).mp run
  cases (pure_ok_iff _ _).mp result
  unfold SingleAssetCoverPool.creditShares
  rcases (ite_ok_iff _ _ _ _).mp debitRun with ⟨fromZero, debitRun⟩ | ⟨-, debitRun⟩
  · obtain ⟨supply, added, result⟩ := (bind_ok_iff _ _ _).mp debitRun
    obtain ⟨-, rfl⟩ := (checkedAdd_ok_iff _ _ _ _).mp added
    cases (pure_ok_iff _ _).mp result
    split
    · refine ⟨⟨rfl, rfl, rfl, rfl, rfl, rfl⟩, fun notZero => absurd fromZero notZero, ?_⟩
      simp
    · exact ⟨⟨rfl, rfl, rfl, rfl, rfl, rfl⟩, fun notZero => absurd fromZero notZero, le_rfl⟩
  · obtain ⟨_, -, result⟩ := (bind_ok_iff _ _ _).mp debitRun
    cases (pure_ok_iff _ _).mp result
    split
    · refine ⟨⟨rfl, rfl, rfl, rfl, rfl, rfl⟩, fun _ => Nat.sub_le _ _, ?_⟩
      exact (Nat.sub_le _ _).trans (Nat.le_add_right _ _)
    · exact ⟨⟨rfl, rfl, rfl, rfl, rfl, rfl⟩, fun _ => le_rfl, Nat.le_add_right _ _⟩

/-- `_update` keeps the budget; new shares have to leave room for the virtual ones. -/
theorem update_budget (inTime : now < uintBound 64) (budget : RewardBudget distributed pool)
    (updated : pool.lastUpdateTime ≤ now) (sender recipient : Address) (value : Nat)
    (room : sender = Address.zero → pool.totalSupply + value + virtualShares < uintBound 256)
    (run : pool.update here now sender recipient value = .ok next) :
    RewardBudget distributed next := by
  obtain ⟨-, synced, senderSynced, bothSynced, global, senderRun, recipientRun, moved⟩ :=
    update_ok pool next here now sender recipient value run
  obtain ⟨-, -, -, globalSupply, -, -, -, -, -⟩ := checkpointGlobalRewards_clock inTime global
  have globalBudget := checkpointGlobalRewards_budget inTime budget updated global
  obtain ⟨senderSame, senderSupply⟩ := maybeCheckpoint_sameStream _ sender senderRun
  obtain ⟨bothSame, bothSupply⟩ := maybeCheckpoint_sameStream _ recipient recipientRun
  obtain ⟨movedSame, smaller, larger⟩ := erc20Update_sameStream sender recipient value moved
  have before := budget.supply
  apply globalBudget.ofSame ((senderSame.trans bothSame).trans movedSame)
  by_cases minted : sender = Address.zero
  · have enough := room minted
    omega
  · have less := smaller minted
    omega

/-! ## Settlement and distribution -/

theorem settleEpoch_budget (inTime : now < uintBound 64) (budget : RewardBudget distributed pool)
    (updated : pool.lastUpdateTime ≤ now) (exitEpoch : Nat) (event : Event)
    (run : pool.settleEpoch here now exitEpoch = .ok (next, event)) :
    RewardBudget distributed next := by
  obtain ⟨assets, -, -, selfNotZero, -, burnt⟩ :=
    settleEpoch_ok pool next here now exitEpoch event run
  have fixed : RewardBudget distributed (fixedEpoch pool exitEpoch assets) :=
    budget.ofSame ⟨rfl, rfl, rfl, rfl, rfl, rfl⟩ budget.supply
  exact update_budget inTime fixed updated here Address.zero _
    (fun isZero => absurd isZero selfNotZero) burnt

theorem settleEpoch_updated (inTime : now < uintBound 64) (exitEpoch : Nat) (event : Event)
    (run : pool.settleEpoch here now exitEpoch = .ok (next, event)) :
    next.lastUpdateTime ≤ now := by
  obtain ⟨assets, -, -, -, -, burnt⟩ := settleEpoch_ok pool next here now exitEpoch event run
  obtain ⟨-, synced, senderSynced, bothSynced, global, senderRun, recipientRun, moved⟩ :=
    update_ok _ next here now here Address.zero _ burnt
  obtain ⟨-, -, -, -, -, -, -, clock, -⟩ := checkpointGlobalRewards_clock inTime global
  obtain ⟨senderSame, -⟩ := maybeCheckpoint_sameStream _ here senderRun
  obtain ⟨bothSame, -⟩ := maybeCheckpoint_sameStream _ Address.zero recipientRun
  obtain ⟨movedSame, -⟩ := erc20Update_sameStream here Address.zero _ moved
  rw [((senderSame.trans bothSame).trans movedSame).updated]
  exact clock

theorem settleMatured_budget (inTime : now < uintBound 64) (maxEpochs : Nat)
    (events : List Event) (budget : RewardBudget distributed pool)
    (updated : pool.lastUpdateTime ≤ now)
    (run : pool.settleMatured here now maxEpochs = .ok (next, events)) :
    RewardBudget distributed next ∧ next.lastUpdateTime ≤ now := by
  obtain ⟨index, final, ⟨kept, clock⟩, nextEq⟩ := settleMatured_induct pool next here now
    maxEpochs events
    (fun _ current _ => RewardBudget distributed current ∧ current.lastUpdateTime ≤ now)
    ⟨budget, updated⟩
    (by
      rintro index before earlier exitEpoch after event ⟨kept, clock⟩ - - epochRun
      exact ⟨settleEpoch_budget inTime kept clock exitEpoch event epochRun,
        settleEpoch_updated inTime exitEpoch event epochRun⟩)
    run
  subst nextEq
  exact ⟨kept.ofSame ⟨rfl, rfl, rfl, rfl, rfl, rfl⟩ kept.supply, clock⟩

/-- A blended stream runs no longer than the longest one allowed. -/
theorem blendStream_duration (duration : pool.rewardsDuration ≤ maxRewardsDuration)
    (period : pool.periodFinish ≤ now + maxRewardsDuration) (amount newDuration newRate : Nat)
    (run : PoolTx.blendStream pool now amount = .ok (newDuration, newRate)) :
    newDuration ≤ maxRewardsDuration := by
  unfold PoolTx.blendStream at run
  obtain ⟨leftover, leftoverRun, run⟩ := (bind_ok_iff _ _ _).mp run
  obtain ⟨total, totalRun, run⟩ := (bind_ok_iff _ _ _).mp run
  obtain ⟨oldWeight, oldRun, run⟩ := (bind_ok_iff _ _ _).mp run
  obtain ⟨newWeight, newRun, run⟩ := (bind_ok_iff _ _ _).mp run
  obtain ⟨weight, weightRun, run⟩ := (bind_ok_iff _ _ _).mp run
  obtain ⟨blended, blendedRun, run⟩ := (bind_ok_iff _ _ _).mp run
  obtain ⟨rate, -, run⟩ := (bind_ok_iff _ _ _).mp run
  obtain ⟨_, -, run⟩ := (bind_ok_iff _ _ _).mp run
  obtain ⟨_, -, result⟩ := (bind_ok_iff _ _ _).mp run
  cases (pure_ok_iff _ _).mp result
  obtain ⟨-, totalEq⟩ := (checkedAdd_ok_iff _ _ _ _).mp totalRun
  obtain ⟨-, oldEq⟩ := (checkedMul_ok_iff _ _ _ _).mp oldRun
  obtain ⟨-, newEq⟩ := (checkedMul_ok_iff _ _ _ _).mp newRun
  obtain ⟨-, weightEq⟩ := (checkedAdd_ok_iff _ _ _ _).mp weightRun
  obtain ⟨-, blendedEq⟩ := (checkedDiv_ok_iff _ _ _).mp blendedRun
  have remaining : (if now < pool.periodFinish then pool.periodFinish - now else 0) ≤
      maxRewardsDuration := by
    split <;> omega
  have average : blended ≤ maxRewardsDuration := by
    rw [blendedEq]
    apply Nat.div_le_of_le_mul
    rw [weightEq, oldEq, newEq, totalEq, Nat.add_mul]
    exact Nat.add_le_add (Nat.mul_le_mul_left _ remaining) (Nat.mul_le_mul_left _ duration)
  split
  · exact duration
  · exact average

theorem profitReceived_budget {env : PoolEnv} {tx after : PoolTx}
    (inTime : env.now < uintBound 64) (amount : Nat) (synced : SingleAssetCoverPool)
    (newDuration newRate : Nat) (budget : RewardBudget distributed tx.pool)
    (updated : tx.pool.lastUpdateTime ≤ env.now)
    (profit : ProfitReceived env tx after amount synced newDuration newRate) :
    RewardBudget (distributed + amount) after.pool := by
  have funded : RewardBudget distributed
      { tx.pool with rewardReserve := tx.pool.rewardReserve + amount } :=
    budget.ofSame ⟨rfl, rfl, rfl, rfl, rfl, rfl⟩ budget.supply
  have synced' := checkpointGlobalRewards_budget inTime funded updated profit.checkpointed
  obtain ⟨-, -, -, -, -, -, -, clock, -⟩ := checkpointGlobalRewards_clock inTime profit.checkpointed
  have spent := synced'.spent
  have period := synced'.period
  have blended := blendStream_ok amount newDuration newRate profit.blended
  have longest := blendStream_duration synced'.duration (by omega) amount newDuration newRate
    profit.blended
  have finish := truncate_le 64 (env.now + newDuration)
  have started : truncate 64 env.now = env.now := truncate_eq_self inTime
  rw [profit.pool]
  refine ⟨?_, synced'.duration, ?_, synced'.supply⟩
  · have newStream : (truncate 64 (env.now + newDuration) - truncate 64 env.now) * newRate *
        rewardScale ≤ streamLeft synced + amount * rewardScale := by
      rw [streamLeft, ← Nat.add_mul]
      apply Nat.mul_le_mul_right
      calc (truncate 64 (env.now + newDuration) - truncate 64 env.now) * newRate
          ≤ newDuration * newRate := Nat.mul_le_mul_right _ (by omega)
        _ ≤ (synced.periodFinish - env.now) * synced.rewardRate + amount := blended
        _ ≤ (synced.periodFinish - synced.lastUpdateTime) * synced.rewardRate + amount :=
            Nat.add_le_add_right (Nat.mul_le_mul_right _ (by omega)) _
    change synced.rewardPerShareStored + synced.rewardResidual +
      (truncate 64 (env.now + newDuration) - truncate 64 env.now) * newRate * rewardScale ≤ _
    rw [Nat.add_mul]
    omega
  · simp only
    omega

end Budget

/-! ## External calls -/

/-- What a pool holds of the `distributed` USD8 it was given. -/
structure Funded (distributed : Nat) (pool : SingleAssetCoverPool) : Prop where
  budget : RewardBudget distributed pool
  reserve : pool.rewardReserve ≤ distributed

/-- What a call passes to `receiveProfitDistribution`. -/
def distributedBy : PoolCall → Nat
  | .receiveProfitDistribution amount => amount
  | _ => 0

section Calls

variable {env : PoolEnv} {tx next : PoolTx} {distributed : Nat}

theorem Funded.initial (asset usd8 : Address) :
    Funded 0 (SingleAssetCoverPool.initial asset usd8) :=
  ⟨.initial asset usd8, le_rfl⟩

theorem Funded.ofSame {pool after : SingleAssetCoverPool} (funded : Funded distributed pool)
    (same : SameStream pool after) (reserve : after.rewardReserve ≤ pool.rewardReserve)
    (supply : after.totalSupply = pool.totalSupply) : Funded distributed after := by
  refine ⟨funded.budget.ofSame same ?_, reserve.trans funded.reserve⟩
  rw [supply]
  exact funded.budget.supply

theorem Funded.more {pool : SingleAssetCoverPool} {larger : Nat}
    (funded : Funded distributed pool) (grows : distributed ≤ larger) : Funded larger pool :=
  ⟨funded.budget.more grows, funded.reserve.trans grows⟩

theorem update_reserve {pool after : SingleAssetCoverPool} {here : Address} {now : Nat}
    (sender recipient : Address) (value : Nat)
    (run : pool.update here now sender recipient value = .ok after) :
    after.rewardReserve = pool.rewardReserve := by
  obtain ⟨-, acc, moved⟩ := update_erc20 pool after here now sender recipient value run
  exact (erc20Update_accumulator sender recipient value moved).2.1

theorem update_funded {pool after : SingleAssetCoverPool} {here : Address} {now : Nat}
    (inTime : now < uintBound 64) (funded : Funded distributed pool)
    (updated : pool.lastUpdateTime ≤ now) (sender recipient : Address) (value : Nat)
    (room : sender = Address.zero → pool.totalSupply + value + virtualShares < uintBound 256)
    (run : pool.update here now sender recipient value = .ok after) :
    Funded distributed after := by
  refine ⟨update_budget inTime funded.budget updated sender recipient value room run, ?_⟩
  rw [update_reserve sender recipient value run]
  exact funded.reserve

/-- New shares leave room for the virtual ones. -/
theorem depositShares_room (receiver : Address) (assets shares : Nat)
    (supply : tx.pool.totalSupply + virtualShares < uintBound 256)
    (run : PoolTx.depositShares env tx receiver assets shares = .ok next) :
    tx.pool.totalSupply + shares + virtualShares < uintBound 256 := by
  unfold PoolTx.depositShares at run
  obtain ⟨_, checked, -⟩ := (bind_ok_iff _ _ _).mp run
  have inside := (revertIf_ok_iff _ _ _).mp checked
  simp only [SingleAssetCoverPool.shareHeadroom, virtualShares, uintBound] at inside supply ⊢
  omega

theorem deposit_room (assets : Nat) (receiver : Address)
    (supply : tx.pool.totalSupply + virtualShares < uintBound 256)
    (run : PoolTx.deposit env tx assets receiver = .ok next) :
    ∃ shares, tx.pool.totalSupply + shares + virtualShares < uintBound 256 ∧
      Deposited env tx next receiver assets shares := by
  unfold PoolTx.deposit at run
  obtain ⟨_, -, run⟩ := (bind_ok_iff _ _ _).mp run
  obtain ⟨limit, -, run⟩ := (bind_ok_iff _ _ _).mp run
  obtain ⟨_, -, run⟩ := (bind_ok_iff _ _ _).mp run
  obtain ⟨shares, preview, run⟩ := (bind_ok_iff _ _ _).mp run
  exact ⟨shares, depositShares_room receiver assets shares supply run,
    depositShares_ok env tx next receiver assets shares (Or.inl preview) run⟩

theorem mint_room (shares : Nat) (receiver : Address)
    (supply : tx.pool.totalSupply + virtualShares < uintBound 256)
    (run : PoolTx.mint env tx shares receiver = .ok next) :
    tx.pool.totalSupply + shares + virtualShares < uintBound 256 ∧
      ∃ assets, Deposited env tx next receiver assets shares := by
  unfold PoolTx.mint at run
  obtain ⟨_, -, run⟩ := (bind_ok_iff _ _ _).mp run
  obtain ⟨limit, -, run⟩ := (bind_ok_iff _ _ _).mp run
  obtain ⟨_, -, run⟩ := (bind_ok_iff _ _ _).mp run
  obtain ⟨assets, preview, run⟩ := (bind_ok_iff _ _ _).mp run
  exact ⟨depositShares_room receiver assets shares supply run, assets,
    depositShares_ok env tx next receiver assets shares (Or.inr preview) run⟩

theorem deposited_funded (inTime : env.now < uintBound 64) (funded : Funded distributed tx.pool)
    (updated : tx.pool.lastUpdateTime ≤ env.now) (receiver : Address) (assets shares : Nat)
    (room : tx.pool.totalSupply + shares + virtualShares < uintBound 256)
    (deposited : Deposited env tx next receiver assets shares) :
    Funded distributed next.pool := by
  obtain ⟨pool, minted, poolEq⟩ := deposited.minted
  have kept := update_funded inTime funded updated Address.zero receiver shares (fun _ => room)
    minted
  rw [poolEq]
  exact kept.ofSame ⟨rfl, rfl, rfl, rfl, rfl, rfl⟩ le_rfl rfl

theorem settleMatured_funded {pool after : SingleAssetCoverPool} {here : Address} {now : Nat}
    (inTime : now < uintBound 64) (maxEpochs : Nat) (events : List Event)
    (funded : Funded distributed pool) (updated : pool.lastUpdateTime ≤ now)
    (run : pool.settleMatured here now maxEpochs = .ok (after, events)) :
    Funded distributed after ∧ after.lastUpdateTime ≤ now := by
  obtain ⟨budget, clock⟩ :=
    settleMatured_budget inTime maxEpochs events funded.budget updated run
  refine ⟨⟨budget, ?_⟩, clock⟩
  rw [(settleMatured_frame pool after here now maxEpochs events run).rewardReserve]
  exact funded.reserve

theorem maybeSettled_funded (inTime : env.now < uintBound 64) (maxEpochs : Nat)
    (funded : Funded distributed tx.pool) (updated : tx.pool.lastUpdateTime ≤ env.now)
    (first : (env.payoutIncidentActive = false ∧ Settled env tx next maxEpochs) ∨ next = tx) :
    Funded distributed next.pool ∧ next.pool.lastUpdateTime ≤ env.now := by
  rcases first with ⟨-, ⟨pool, events, run, nextEq⟩⟩ | same
  · subst nextEq
    exact settleMatured_funded inTime maxEpochs events funded updated run
  · rw [same]
    exact ⟨funded, updated⟩

theorem enqueueRedeem_funded (inTime : env.now < uintBound 64)
    (pool after : SingleAssetCoverPool) (shares exitEpoch : Nat)
    (senderNotZero : env.sender ≠ Address.zero)
    (funded : Funded distributed pool) (updated : pool.lastUpdateTime ≤ env.now)
    (run : PoolTx.enqueueRedeem env pool shares exitEpoch = .ok after) :
    Funded distributed after := by
  obtain ⟨synced, userSynced, global, user, moved⟩ :=
    enqueueRedeem_ok env pool after shares exitEpoch run
  have queued : Funded distributed (queuedRequest pool env.sender shares exitEpoch) :=
    funded.ofSame ⟨rfl, rfl, rfl, rfl, rfl, rfl⟩ le_rfl rfl
  have syncedBudget := checkpointGlobalRewards_budget inTime queued.budget updated global
  obtain ⟨-, -, -, -, syncedReserve, -⟩ := checkpointGlobalRewards_clock inTime global
  obtain ⟨rewards, -, userEq⟩ :=
    checkpointUserRewards_ok synced userSynced env.self env.now env.sender user
  obtain ⟨-, movedReserve, -⟩ := erc20Update_accumulator env.sender env.self shares moved
  obtain ⟨movedSame, smaller, -⟩ := erc20Update_sameStream env.sender env.self shares moved
  have less := smaller senderNotZero
  have userFunded : Funded distributed userSynced := by
    subst userEq
    exact ⟨syncedBudget.ofSame ⟨rfl, rfl, rfl, rfl, rfl, rfl⟩ syncedBudget.supply,
      syncedReserve.le.trans queued.reserve⟩
  refine ⟨userFunded.budget.ofSame movedSame ?_, movedReserve.le.trans userFunded.reserve⟩
  exact (Nat.add_le_add_right less _).trans_lt userFunded.budget.supply

theorem rewardClaimed_funded (inTime : env.now < uintBound 64) (synced : SingleAssetCoverPool)
    (funded : Funded distributed tx.pool) (updated : tx.pool.lastUpdateTime ≤ env.now)
    (claimed : RewardClaimed env tx next synced) : Funded distributed next.pool := by
  obtain ⟨⟨global, globalRun, userRun⟩, paid⟩ := claimed
  have globalBudget := checkpointGlobalRewards_budget inTime funded.budget updated globalRun
  obtain ⟨-, -, -, -, globalReserve, -⟩ := checkpointGlobalRewards_clock inTime globalRun
  obtain ⟨rewards, -, userEq⟩ :=
    checkpointUserRewards_ok global synced env.self env.now env.sender userRun
  have globalFunded : Funded distributed global :=
    ⟨globalBudget, globalReserve.le.trans funded.reserve⟩
  have syncedFunded : Funded distributed synced := by
    subst userEq
    exact globalFunded.ofSame ⟨rfl, rfl, rfl, rfl, rfl, rfl⟩ le_rfl rfl
  rcases paid with ⟨-, nextEq⟩ | ⟨-, -, -, poolEq, -⟩
  · rw [nextEq]
    exact syncedFunded
  · rw [poolEq]
    exact syncedFunded.ofSame ⟨rfl, rfl, rfl, rfl, rfl, rfl⟩ (Nat.sub_le _ _) rfl

/-- A call adds to the budget what it distributes. -/
theorem exec_funded (inTime : env.now < uintBound 64) (senderNotZero : env.sender ≠ Address.zero)
    (call : PoolCall) (funded : Funded distributed tx.pool)
    (updated : tx.pool.lastUpdateTime ≤ env.now) (run : PoolTx.exec env tx call = .ok next) :
    Funded (distributed + distributedBy call) next.pool := by
  unfold PoolTx.exec at run
  obtain ⟨_, -, run⟩ := (bind_ok_iff _ _ _).mp run
  cases call with
  | deposit assets receiver =>
      obtain ⟨shares, room, deposited⟩ := deposit_room assets receiver funded.budget.supply run
      exact deposited_funded inTime funded updated receiver assets shares room deposited
  | mint shares receiver =>
      obtain ⟨room, assets, deposited⟩ := mint_room shares receiver funded.budget.supply run
      exact deposited_funded inTime funded updated receiver assets shares room deposited
  | transfer recipient value =>
      obtain ⟨-, pool, moved, nextEq⟩ := transfer_ok env tx next recipient value run
      subst nextEq
      exact update_funded inTime funded updated env.sender recipient value
        (fun isZero => absurd isZero senderNotZero) moved
  | requestRedeem shares =>
      obtain ⟨settled, exitEpoch, requested⟩ := requestRedeem_ok env tx next shares run
      obtain ⟨kept, clock⟩ := maybeSettled_funded inTime _ funded updated requested.first
      obtain ⟨pool, enqueued, nextEq⟩ := requested.enqueued
      subst nextEq
      exact enqueueRedeem_funded inTime settled.pool pool shares exitEpoch senderNotZero kept clock
        enqueued
  | settleMaturedExitEpochs maxEpochs =>
      obtain ⟨active, settled⟩ := settleMaturedExitEpochs_ok env tx next maxEpochs run
      exact (maybeSettled_funded inTime maxEpochs funded updated (Or.inl ⟨active, settled⟩)).1
  | completeRedeem receiver =>
      obtain ⟨settled, assets, completed⟩ := completeRedeem_ok env tx next receiver run
      have kept := (maybeSettled_funded inTime _ funded updated completed.first).1
      rw [completed.pool]
      exact kept.ofSame ⟨rfl, rfl, rfl, rfl, rfl, rfl⟩ le_rfl rfl
  | claimReward =>
      obtain ⟨synced, claimed⟩ := claimReward_ok env tx next run
      exact rewardClaimed_funded inTime synced funded updated claimed
  | receiveProfitDistribution amount =>
      obtain ⟨synced, newDuration, newRate, profit⟩ :=
        receiveProfitDistribution_ok env tx next amount run
      obtain ⟨-, -, -, -, syncedReserve, -⟩ :=
        checkpointGlobalRewards_clock inTime profit.checkpointed
      refine ⟨profitReceived_budget inTime amount synced newDuration newRate funded.budget updated
        profit, ?_⟩
      rw [profit.pool]
      exact syncedReserve.le.trans (Nat.add_le_add_right funded.reserve amount)
  | payClaim recipient amount =>
      rcases (payClaim_ok env tx next recipient amount run).paid with
        ⟨-, nextEq⟩ | ⟨-, -, -, poolEq, -⟩
      · subst nextEq
        exact funded
      · rw [poolEq]
        exact funded.ofSame ⟨rfl, rfl, rfl, rfl, rfl, rfl⟩ le_rfl rfl
  | setRewardsDuration newDuration =>
      obtain ⟨_, -, checks⟩ := (bind_ok_iff _ _ _).mp run
      obtain ⟨_, allowed, result⟩ := (bind_ok_iff _ _ _).mp checks
      cases (pure_ok_iff _ _).mp result
      have inside := (revertIf_ok_iff _ _ _).mp allowed
      refine ⟨⟨funded.budget.spent, ?_, funded.budget.period, funded.budget.supply⟩,
        funded.reserve⟩
      simp only
      omega
  | setDepositCap newCap =>
      have nextEq := setDepositCap_ok env tx next newCap run
      subst nextEq
      exact funded.ofSame ⟨rfl, rfl, rfl, rfl, rfl, rfl⟩ le_rfl rfl
  | sweepToken token recipient =>
      obtain ⟨-, amount, -, -, poolEq, -⟩ := sweepToken_ok env tx next token recipient run
      rw [poolEq]
      exact funded

end Calls

/-! ## In a run of the system -/

/-- The USD8 a transaction passes to the pool at `p` as a profit distribution. -/
def distributedTo (p : Address) : Tx → Nat
  | .pool target _ call => if target = p then distributedBy call else 0
  | _ => 0

/-- The USD8 ever passed to `receiveProfitDistribution` of the pool at `p`. -/
def distributed (p : Address) (steps : List (Transition World Tx)) : Nat :=
  (steps.map fun t => distributedTo p t.action).sum

section Runs

variable {platform : Platform} {p : Address} {w : World} {pool : SingleAssetCoverPool}

theorem distributed_snoc (steps : List (Transition World Tx)) (t : Transition World Tx) :
    distributed p (steps ++ [t]) = distributed p steps + distributedTo p t.action := by
  simp [distributed]

theorem funded_respected (total : Nat) : Respected (fun call => distributedBy call = 0)
    (fun pool next => Funded total pool → Funded total next) where
  refl _ funded := funded
  trans _ _ _ first second funded := second (first funded)
  fromModule call fromModule := by
    cases call <;> first | rfl | exact absurd fromModule id
  exec env tx next call nothing ground run := by
    intro funded
    have kept := exec_funded ground.inTime ground.caller.senderNotZero call funded
      ground.rewards.updated_le run
    rw [nothing] at kept
    exact kept

theorem step_funded {next : World} {tx : Tx} {total : Nat} (reachable : Reachable platform w)
    (present : w.pools p = some pool) (funded : Funded total pool)
    (ran : step platform w tx = .ok next) :
    ∃ after, next.pools p = some after ∧ Funded (total + distributedTo p tx) after := by
  by_cases nothing : ∀ caller call, tx = .pool p caller call → distributedBy call = 0
  · obtain ⟨after, presentAfter, kept⟩ :=
      step_relates (funded_respected total) reachable present nothing ran
    exact ⟨after, presentAfter, (kept funded).more (Nat.le_add_right _ _)⟩
  · push Not at nothing
    obtain ⟨caller, call, rfl, -⟩ := nothing
    cases step_cases ran with
    | pool _ _ _ external run =>
        have deployment := reachable_deployment reachable
        have inOrder := reachable_poolInOrder reachable present
        have caller := Deployment.externalCaller deployment external present
        obtain ⟨before, ptx, presentBefore, executed, nextEq⟩ := callPool_ok _ call run
        cases present.symm.trans presentBefore
        refine ⟨ptx.pool, ?_, ?_⟩
        · rw [nextEq, emitAll_eq]
          exact Function.update_self ..
        · rw [distributedTo, if_pos rfl]
          exact exec_funded w.block.timestamp_lt caller.senderNotZero call funded
            inOrder.rewards.updated_le executed
    | tokens _ move erc20 erc1155 erc20Kept erc1155Kept nextEq => exact absurd move id

/-- Every deployed pool keeps to what was ever distributed to it. -/
theorem run_funded {steps : List (Transition World Tx)} (run : SystemRun platform steps w)
    (present : w.pools p = some pool) : Funded (distributed p steps) pool := by
  apply run_pool ?_ ?_ run present
  · intro steps asset usd8
    exact (Funded.initial asset usd8).more (Nat.zero_le _)
  · intro earlier middle tx final before run presentBefore funded last
    rw [distributed_snoc]
    exact step_funded run.reachable presentBefore funded last

end Runs

end Usd8Core.Pool
