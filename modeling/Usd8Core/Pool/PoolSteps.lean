import Usd8Core.Chain.CoverPool

/-!
# What the pool's functions do

One inversion lemma for each function the external calls are made of: when it
returns, which checks passed and which storage it wrote.  The reward
checkpoints write the accumulator fields only, so the accounting proofs never
look into them.
-/

set_option autoImplicit false

namespace Usd8Core.Pool

open Usd8Core.Lib.ByteWords
open Usd8Core.Lib.CheckedCall
open Usd8Core.Lib.FiniteLedger
open Usd8Core.Chain

/-- The storage a reward checkpoint can write. -/
structure Accumulator where
  periodFinish : Nat
  lastUpdateTime : Nat
  rewardPerShareStored : Nat
  rewardResidual : Nat
  rewardState : Address → RewardState

def accumulator (pool : SingleAssetCoverPool) : Accumulator :=
  ⟨pool.periodFinish, pool.lastUpdateTime, pool.rewardPerShareStored, pool.rewardResidual,
    pool.rewardState⟩

def withAccumulator (pool : SingleAssetCoverPool) (acc : Accumulator) :
    SingleAssetCoverPool :=
  { pool with
    periodFinish := acc.periodFinish
    lastUpdateTime := acc.lastUpdateTime
    rewardPerShareStored := acc.rewardPerShareStored
    rewardResidual := acc.rewardResidual
    rewardState := acc.rewardState }

/-- The pool with its settlement cursor moved. -/
def atIndex (pool : SingleAssetCoverPool) (index : Nat) : SingleAssetCoverPool :=
  { pool with nextExitEpochIndex := index }

/-! ## Checkpoints -/

theorem checkpointGlobalRewards_accumulator (pool next : SingleAssetCoverPool)
    (self : Address) (now : Nat)
    (run : pool.checkpointGlobalRewards self now = .ok next) :
    ∃ acc, next = withAccumulator pool acc := by
  unfold SingleAssetCoverPool.checkpointGlobalRewards at run
  obtain ⟨earning, -, run⟩ := (bind_ok_iff _ _ _).mp run
  rcases (ite_ok_iff _ _ _ _).mp run with ⟨-, run⟩ | ⟨-, run⟩
  · rcases (ite_ok_iff _ _ _ _).mp run with ⟨-, run⟩ | ⟨-, run⟩
    · obtain ⟨finish, -, run⟩ := (bind_ok_iff _ _ _).mp run
      exact ⟨⟨_, _, _, _, _⟩, ((pure_ok_iff _ _).mp run).symm⟩
    · exact ⟨⟨_, _, _, _, _⟩, ((pure_ok_iff _ _).mp run).symm⟩
  · rcases (ite_ok_iff _ _ _ _).mp run with ⟨-, run⟩ | ⟨-, run⟩
    · obtain ⟨numerator, -, run⟩ := (bind_ok_iff _ _ _).mp run
      obtain ⟨stored, -, run⟩ := (bind_ok_iff _ _ _).mp run
      exact ⟨⟨_, _, _, _, _⟩, ((pure_ok_iff _ _).mp run).symm⟩
    · exact ⟨⟨_, _, _, _, _⟩, ((pure_ok_iff _ _).mp run).symm⟩

theorem checkpointUserRewards_ok (pool next : SingleAssetCoverPool) (self : Address)
    (now : Nat) (user : Address)
    (run : pool.checkpointUserRewards self now user = .ok next) :
    ∃ rewards, pool.earned self now user = .ok rewards ∧
      next = { pool with
        rewardState :=
          Function.update pool.rewardState user ⟨pool.rewardPerShareStored, rewards⟩ } := by
  unfold SingleAssetCoverPool.checkpointUserRewards at run
  obtain ⟨rewards, earnedRun, run⟩ := (bind_ok_iff _ _ _).mp run
  exact ⟨rewards, earnedRun, ((pure_ok_iff _ _).mp run).symm⟩

theorem checkpointUserRewards_accumulator (pool next : SingleAssetCoverPool)
    (self : Address) (now : Nat) (user : Address)
    (run : pool.checkpointUserRewards self now user = .ok next) :
    ∃ acc, next = withAccumulator pool acc := by
  obtain ⟨rewards, -, nextEq⟩ := checkpointUserRewards_ok pool next self now user run
  exact ⟨⟨_, _, _, _, _⟩, nextEq⟩

/-! ## Share moves -/

/-- The parts of `_update`: the checkpoints, then the plain ERC-20 move. -/
structure Updated (pool next : SingleAssetCoverPool) (self : Address) (now : Nat)
    (sender recipient : Address) (value : Nat) : Prop where
  notToPool : recipient ≠ self
  moved : ∃ synced senderSynced bothSynced,
    pool.checkpointGlobalRewards self now = .ok synced ∧
    (if sender ≠ Address.zero ∧ sender ≠ self then
      synced.checkpointUserRewards self now sender else pure synced) = .ok senderSynced ∧
    (if recipient ≠ Address.zero then
      senderSynced.checkpointUserRewards self now recipient else pure senderSynced) =
        .ok bothSynced ∧
    bothSynced.erc20Update self sender recipient value = .ok next

theorem update_ok (pool next : SingleAssetCoverPool) (self : Address) (now : Nat)
    (sender recipient : Address) (value : Nat)
    (run : pool.update self now sender recipient value = .ok next) :
    Updated pool next self now sender recipient value := by
  unfold SingleAssetCoverPool.update at run
  obtain ⟨synced, global, run⟩ := (bind_ok_iff _ _ _).mp run
  obtain ⟨_, notToPool, run⟩ := (bind_ok_iff _ _ _).mp run
  obtain ⟨senderSynced, senderRun, run⟩ := (bind_ok_iff _ _ _).mp run
  obtain ⟨bothSynced, recipientRun, run⟩ := (bind_ok_iff _ _ _).mp run
  exact ⟨(revertIf_ok_iff _ _ _).mp notToPool, synced, senderSynced, bothSynced, global,
    senderRun, recipientRun, run⟩

/-- A checkpoint that is made or skipped writes accumulator fields only. -/
theorem maybeCheckpoint_accumulator (condition : Prop) [Decidable condition]
    (pool next : SingleAssetCoverPool) (self : Address) (now : Nat) (user : Address)
    (run : (if condition then pool.checkpointUserRewards self now user else pure pool) =
      .ok next) :
    ∃ acc, next = withAccumulator pool acc := by
  rcases (ite_ok_iff _ _ _ _).mp run with ⟨-, run⟩ | ⟨-, run⟩
  · exact checkpointUserRewards_accumulator pool next self now user run
  · exact ⟨accumulator pool, ((pure_ok_iff _ _).mp run).symm⟩

/-- Seen from the accounting, `_update` is the ERC-20 move on changed accumulators. -/
theorem update_erc20 (pool next : SingleAssetCoverPool) (self : Address) (now : Nat)
    (sender recipient : Address) (value : Nat)
    (run : pool.update self now sender recipient value = .ok next) :
    recipient ≠ self ∧
      ∃ acc, (withAccumulator pool acc).erc20Update self sender recipient value = .ok next := by
  obtain ⟨notToPool, synced, senderSynced, bothSynced, global, senderRun, recipientRun,
    moved⟩ := update_ok pool next self now sender recipient value run
  obtain ⟨first, syncedEq⟩ := checkpointGlobalRewards_accumulator pool synced self now global
  obtain ⟨second, senderEq⟩ := maybeCheckpoint_accumulator _ _ _ self now sender senderRun
  obtain ⟨third, bothEq⟩ := maybeCheckpoint_accumulator _ _ _ self now recipient recipientRun
  subst syncedEq senderEq bothEq
  exact ⟨notToPool, third, moved⟩

theorem erc20Update_mint (pool next : SingleAssetCoverPool) (self account : Address)
    (value : Nat) (notZero : account ≠ Address.zero)
    (run : pool.erc20Update self Address.zero account value = .ok next) :
    pool.totalSupply + value < uintBound 256 ∧
      next = { pool with
        totalSupply := pool.totalSupply + value
        balances := Function.update pool.balances account (pool.balances account + value) } := by
  unfold SingleAssetCoverPool.erc20Update SingleAssetCoverPool.debitShares at run
  rw [if_pos rfl] at run
  simp only [bind_ok_iff, pure_ok_iff, checkedAdd_ok_iff] at run
  obtain ⟨debited, ⟨supply, ⟨fits, rfl⟩, rfl⟩, rfl⟩ := run
  simp [SingleAssetCoverPool.creditShares, notZero, fits]

theorem erc20Update_burn (pool next : SingleAssetCoverPool) (self account : Address)
    (value : Nat) (notZero : account ≠ Address.zero)
    (run : pool.erc20Update self account Address.zero value = .ok next) :
    value ≤ pool.balances account ∧
      next = { pool with
        totalSupply := pool.totalSupply - value
        balances := Function.update pool.balances account (pool.balances account - value) } := by
  unfold SingleAssetCoverPool.erc20Update SingleAssetCoverPool.debitShares at run
  rw [if_neg notZero] at run
  simp only [bind_ok_iff, pure_ok_iff, revertIf_ok_iff, exists_const, not_lt] at run
  obtain ⟨debited, ⟨enough, rfl⟩, rfl⟩ := run
  simp [SingleAssetCoverPool.creditShares, enough]

theorem erc20Update_move (pool next : SingleAssetCoverPool) (self sender recipient : Address)
    (value : Nat) (senderNotZero : sender ≠ Address.zero)
    (recipientNotZero : recipient ≠ Address.zero)
    (run : pool.erc20Update self sender recipient value = .ok next) :
    value ≤ pool.balances sender ∧
      next = { pool with balances := moveBalance pool.balances sender recipient value } := by
  unfold SingleAssetCoverPool.erc20Update SingleAssetCoverPool.debitShares at run
  rw [if_neg senderNotZero] at run
  simp only [bind_ok_iff, pure_ok_iff, revertIf_ok_iff, exists_const, not_lt] at run
  obtain ⟨debited, ⟨enough, rfl⟩, rfl⟩ := run
  simp [SingleAssetCoverPool.creditShares, recipientNotZero, enough, moveBalance]

/-- Two states of a pool with the same capital and the same exits. -/
structure SameBooks (pool final : SingleAssetCoverPool) : Prop where
  accounted : final.accountedAssets = pool.accountedAssets
  reserve : final.withdrawalReserve = pool.withdrawalReserve
  epochs : final.exitEpochs = pool.exitEpochs
  requests : final.exitRequests = pool.exitRequests

theorem SameBooks.ofAccumulator (pool : SingleAssetCoverPool) (acc : Accumulator) :
    SameBooks pool (withAccumulator pool acc) := ⟨rfl, rfl, rfl, rfl⟩

theorem SameBooks.trans {pool middle final : SingleAssetCoverPool} (first : SameBooks pool middle)
    (second : SameBooks middle final) : SameBooks pool final :=
  ⟨second.accounted.trans first.accounted, second.reserve.trans first.reserve,
    second.epochs.trans first.epochs, second.requests.trans first.requests⟩

/-- Moving shares is no entry in those books. -/
theorem erc20Update_sameBooks (pool final : SingleAssetCoverPool) (self sender recipient : Address)
    (value : Nat) (run : pool.erc20Update self sender recipient value = .ok final) :
    SameBooks pool final := by
  unfold SingleAssetCoverPool.erc20Update SingleAssetCoverPool.debitShares at run
  obtain ⟨debited, debitRun, result⟩ := (bind_ok_iff _ _ _).mp run
  cases (pure_ok_iff _ _).mp result
  unfold SingleAssetCoverPool.creditShares
  rcases (ite_ok_iff _ _ _ _).mp debitRun with ⟨-, debitRun⟩ | ⟨-, debitRun⟩
  · obtain ⟨supply, -, result⟩ := (bind_ok_iff _ _ _).mp debitRun
    cases (pure_ok_iff _ _).mp result
    split <;> exact ⟨rfl, rfl, rfl, rfl⟩
  · obtain ⟨_, -, result⟩ := (bind_ok_iff _ _ _).mp debitRun
    cases (pure_ok_iff _ _).mp result
    split <;> exact ⟨rfl, rfl, rfl, rfl⟩

theorem update_sameBooks (pool final : SingleAssetCoverPool) (self : Address) (now : Nat)
    (sender recipient : Address) (value : Nat)
    (run : pool.update self now sender recipient value = .ok final) : SameBooks pool final := by
  obtain ⟨-, acc, moved⟩ := update_erc20 pool final self now sender recipient value run
  exact (SameBooks.ofAccumulator pool acc).trans
    (erc20Update_sameBooks _ final self sender recipient value moved)

/-! ## Settlement of exit epochs -/

/-- The assets an epoch is settled for. -/
def EpochAssets (pool : SingleAssetCoverPool) (shares assets : Nat) : Prop :=
  (shares = pool.totalSupply ∧ assets = pool.accountedAssets) ∨
    (shares ≠ pool.totalSupply ∧ pool.previewRedeem shares = .ok assets)

/-- The pool after an epoch was fixed and before its shares are burned. -/
def fixedEpoch (pool : SingleAssetCoverPool) (exitEpoch assets : Nat) :
    SingleAssetCoverPool :=
  { pool with
    exitEpochs := Function.update pool.exitEpochs exitEpoch
      { pool.exitEpochs exitEpoch with
        totalAssets := assets
        remainingShares := (pool.exitEpochs exitEpoch).totalShares
        remainingAssets := assets }
    accountedAssets := pool.accountedAssets - assets
    withdrawalReserve := pool.withdrawalReserve + assets }

theorem settleEpoch_ok (pool next : SingleAssetCoverPool) (self : Address)
    (now exitEpoch : Nat) (event : Event)
    (run : pool.settleEpoch self now exitEpoch = .ok (next, event)) :
    ∃ assets, EpochAssets pool (pool.exitEpochs exitEpoch).totalShares assets ∧
      assets ≤ pool.accountedAssets ∧ self ≠ Address.zero ∧
      event = .exitEpochSettled exitEpoch (pool.exitEpochs exitEpoch).totalShares assets ∧
      (fixedEpoch pool exitEpoch assets).update self now self Address.zero
        (pool.exitEpochs exitEpoch).totalShares = .ok next := by
  unfold SingleAssetCoverPool.settleEpoch at run
  obtain ⟨assets, assetsRun, run⟩ := (bind_ok_iff _ _ _).mp run
  obtain ⟨accounted, accountedRun, run⟩ := (bind_ok_iff _ _ _).mp run
  obtain ⟨enough, accountedEq⟩ := (checkedSub_ok_iff _ _ _).mp accountedRun
  obtain ⟨reserve, reserveRun, run⟩ := (bind_ok_iff _ _ _).mp run
  obtain ⟨-, reserveEq⟩ := (checkedAdd_ok_iff _ _ _ _).mp reserveRun
  obtain ⟨burnt, burnRun, result⟩ := (bind_ok_iff _ _ _).mp run
  cases (pure_ok_iff _ _).mp result
  subst accountedEq reserveEq
  unfold SingleAssetCoverPool.burnShares at burnRun
  obtain ⟨_, selfNotZero, burnRun⟩ := (bind_ok_iff _ _ _).mp burnRun
  refine ⟨assets, ?_, enough, (revertIf_ok_iff _ _ _).mp selfNotZero, rfl, burnRun⟩
  rcases (ite_ok_iff _ _ _ _).mp assetsRun with ⟨whole, assetsRun⟩ | ⟨notWhole, assetsRun⟩
  · exact Or.inl ⟨whole, ((pure_ok_iff _ _).mp assetsRun).symm⟩
  · exact Or.inr ⟨notWhole, assetsRun⟩

/-- The induction rule of the settlement loop: what one settled queue entry
preserves, indexed by how many entries were settled before. -/
theorem settleLoop_induct (self : Address) (now maxEpochs : Nat) (queue : List Nat)
    (holds : Nat → SingleAssetCoverPool → List Event → Prop)
    (settled : ∀ index pool events exitEpoch next event, holds index pool events →
      queue[index]? = some exitEpoch → exitEpoch ≤ now →
      pool.settleEpoch self now exitEpoch = .ok (next, event) →
      holds (index + 1) next (events ++ [event])) :
    ∀ (first count : Nat) (pool : SingleAssetCoverPool) (events : List Event)
      (final : SingleAssetCoverPool) (allEvents : List Event) (total : Nat),
      holds (first + count) pool events →
      SingleAssetCoverPool.settleLoop self now maxEpochs (queue.drop (first + count)) count
        pool events = .ok (final, allEvents, total) →
      holds (first + total) final allEvents := by
  intro first count pool events final allEvents total holdsNow run
  generalize restEq : queue.drop (first + count) = rest at run
  induction rest generalizing count pool events with
  | nil =>
      cases run
      exact holdsNow
  | cons exitEpoch rest ih =>
      rw [SingleAssetCoverPool.settleLoop] at run
      have atIndex : queue[first + count]? = some exitEpoch := by
        rw [← List.head?_drop, restEq, List.head?_cons]
      have dropped : queue.drop (first + (count + 1)) = rest := by
        rw [← Nat.add_assoc, ← List.tail_drop, restEq, List.tail_cons]
      rcases (ite_ok_iff _ _ _ _).mp run with ⟨-, run⟩ | ⟨-, run⟩
      · rcases (ite_ok_iff _ _ _ _).mp run with ⟨-, run⟩ | ⟨matured, run⟩
        · cases run
          exact holdsNow
        · obtain ⟨⟨next, event⟩, epochRun, run⟩ := (bind_ok_iff _ _ _).mp run
          have holdsNext := settled (first + count) pool events exitEpoch next event holdsNow
            atIndex (Nat.le_of_not_lt matured) epochRun
          exact ih (count + 1) next _ holdsNext dropped run
      · cases run
        exact holdsNow

theorem settleMatured_induct (pool next : SingleAssetCoverPool) (self : Address)
    (now maxEpochs : Nat) (events : List Event)
    (holds : Nat → SingleAssetCoverPool → List Event → Prop)
    (initially : holds pool.nextExitEpochIndex pool [])
    (settled : ∀ index before earlier exitEpoch after event, holds index before earlier →
      pool.exitEpochQueue[index]? = some exitEpoch → exitEpoch ≤ now →
      before.settleEpoch self now exitEpoch = .ok (after, event) →
      holds (index + 1) after (earlier ++ [event]))
    (run : pool.settleMatured self now maxEpochs = .ok (next, events)) :
    ∃ index final, holds index final events ∧ next = atIndex final index := by
  unfold SingleAssetCoverPool.settleMatured at run
  obtain ⟨⟨final, all, count⟩, loopRun, result⟩ := (bind_ok_iff _ _ _).mp run
  cases (pure_ok_iff _ _).mp result
  refine ⟨pool.nextExitEpochIndex + count, final, ?_, rfl⟩
  exact settleLoop_induct self now maxEpochs pool.exitEpochQueue holds settled
    pool.nextExitEpochIndex 0 pool [] final events count initially loopRun

/-- What settlement never writes. -/
structure SettleFrame (pool next : SingleAssetCoverPool) : Prop where
  asset : next.asset = pool.asset
  usd8 : next.usd8 = pool.usd8
  queue : next.exitEpochQueue = pool.exitEpochQueue
  requests : next.exitRequests = pool.exitRequests
  rewardReserve : next.rewardReserve = pool.rewardReserve
  rewardRate : next.rewardRate = pool.rewardRate

theorem settleEpoch_frame (pool next : SingleAssetCoverPool) (self : Address)
    (now exitEpoch : Nat) (event : Event)
    (run : pool.settleEpoch self now exitEpoch = .ok (next, event)) : SettleFrame pool next := by
  obtain ⟨assets, -, -, selfNotZero, -, burnt⟩ :=
    settleEpoch_ok pool next self now exitEpoch event run
  obtain ⟨-, acc, moved⟩ := update_erc20 _ next self now self Address.zero _ burnt
  obtain ⟨-, nextEq⟩ := erc20Update_burn _ next self self _ selfNotZero moved
  subst nextEq
  exact ⟨rfl, rfl, rfl, rfl, rfl, rfl⟩

theorem settleMatured_frame (pool next : SingleAssetCoverPool) (self : Address)
    (now maxEpochs : Nat) (events : List Event)
    (run : pool.settleMatured self now maxEpochs = .ok (next, events)) :
    SettleFrame pool next := by
  obtain ⟨index, final, frame, nextEq⟩ := settleMatured_induct pool next self now maxEpochs events
    (fun _ current _ => SettleFrame pool current) ⟨rfl, rfl, rfl, rfl, rfl, rfl⟩
    (by
      intro index before earlier exitEpoch after event frame _ _ epochRun
      have oneStep := settleEpoch_frame before after self now exitEpoch event epochRun
      exact ⟨oneStep.asset.trans frame.asset, oneStep.usd8.trans frame.usd8,
        oneStep.queue.trans frame.queue, oneStep.requests.trans frame.requests,
        oneStep.rewardReserve.trans frame.rewardReserve,
        oneStep.rewardRate.trans frame.rewardRate⟩)
    run
  subst nextEq
  exact ⟨frame.asset, frame.usd8, frame.queue, frame.requests, frame.rewardReserve,
    frame.rewardRate⟩

end Usd8Core.Pool
