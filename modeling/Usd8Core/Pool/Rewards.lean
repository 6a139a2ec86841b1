import Usd8Core.Pool.Accounting
import Mathlib.Algebra.BigOperators.Ring.Finset

/-!
# Solvency of the reward stream

What the pool owes its stakers, scaled by `REWARD_SCALE`: the checkpointed
rewards, the accrual since each user's checkpoint, the division residual and the
part of the stream that has not run yet.  A global checkpoint moves amounts
between these without changing the total, and no call makes the total exceed the
reserve.
-/

set_option autoImplicit false

namespace Usd8Core.Pool

open Usd8Core.Lib.ByteWords
open Usd8Core.Lib.CheckedCall
open Usd8Core.Lib.FiniteLedger
open Usd8Core.Chain

/-- The scaled claim of one user. -/
def userOwed (pool : SingleAssetCoverPool) (user : Address) : Nat :=
  (pool.rewardState user).rewards * rewardScale +
    pool.balances user *
      (pool.rewardPerShareStored - (pool.rewardState user).userRewardPerSharePaid)

noncomputable def owed (here : Address) (pool : SingleAssetCoverPool) : Nat :=
  ∑ user ∈ Finset.univ.erase here, userOwed pool user

/-- The part of the stream between the last update and the end of the period. -/
def streamLeft (pool : SingleAssetCoverPool) : Nat :=
  (pool.periodFinish - pool.lastUpdateTime) * pool.rewardRate * rewardScale

noncomputable def liabilities (here : Address) (pool : SingleAssetCoverPool) : Nat :=
  owed here pool + pool.rewardResidual + streamLeft pool

structure RewardsSolvent (here : Address) (now : Nat) (pool : SingleAssetCoverPool) : Prop where
  paid_le : ∀ user, user ≠ here →
    (pool.rewardState user).userRewardPerSharePaid ≤ pool.rewardPerShareStored
  own : pool.rewardState here = ⟨0, 0⟩
  updated_le : pool.lastUpdateTime ≤ now
  solvent : liabilities here pool ≤ pool.rewardReserve * rewardScale

/-- The accumulator has been brought up to `now`. -/
def Synced (here : Address) (now : Nat) (pool : SingleAssetCoverPool) : Prop :=
  ∀ value, pool.rewardPerShare here now = .ok value → value = pool.rewardPerShareStored

section Pool

variable {here : Address} {now : Nat} {pool next : SingleAssetCoverPool}

theorem RewardsSolvent.later {later : Nat} (rewards : RewardsSolvent here now pool)
    (passed : now ≤ later) : RewardsSolvent here later pool :=
  { rewards with updated_le := rewards.updated_le.trans passed }

theorem RewardsSolvent.initial (here : Address) (now : Nat) (asset usd8 : Address) :
    RewardsSolvent here now (SingleAssetCoverPool.initial asset usd8) := by
  refine ⟨fun _ _ => le_rfl, rfl, Nat.zero_le now, ?_⟩
  have nothing : owed here (SingleAssetCoverPool.initial asset usd8) = 0 := by
    apply Finset.sum_eq_zero
    intro user _
    simp [userOwed, SingleAssetCoverPool.initial]
  rw [liabilities, nothing]
  simp [streamLeft, SingleAssetCoverPool.initial]

/-- The shares that earn are the shares outside the pool. -/
theorem earning_eq (supply : ∑ account, pool.balances account = pool.totalSupply)
    (earning : Nat) (run : pool.earningShares here = .ok earning) :
    ∑ user ∈ Finset.univ.erase here, pool.balances user = earning := by
  obtain ⟨-, earningEq⟩ := (checkedSub_ok_iff _ _ _).mp run
  have split := Finset.sum_erase_add Finset.univ pool.balances (Finset.mem_univ here)
  omega

/-! ## The global checkpoint -/

/-- Raising the accumulator by `step` adds `step` for every earning share. -/
theorem owed_raise (step : Nat) (paidLe : ∀ user, user ≠ here →
      (pool.rewardState user).userRewardPerSharePaid ≤ pool.rewardPerShareStored)
    (sameBalances : next.balances = pool.balances)
    (sameState : next.rewardState = pool.rewardState)
    (raised : next.rewardPerShareStored = pool.rewardPerShareStored + step) :
    owed here next =
      owed here pool + (∑ user ∈ Finset.univ.erase here, pool.balances user) * step := by
  rw [owed, owed, Finset.sum_mul, ← Finset.sum_add_distrib]
  apply Finset.sum_congr rfl
  intro user member
  have bound := paidLe user (Finset.ne_of_mem_erase member)
  rw [userOwed, userOwed, sameBalances, sameState, raised, Nat.add_assoc, ← Nat.mul_add]
  congr 2
  omega

/-- What a global checkpoint does, case by case. -/
theorem checkpointGlobalRewards_ok (inTime : now < uintBound 64)
    (run : pool.checkpointGlobalRewards here now = .ok next) :
    ∃ earning, pool.earningShares here = .ok earning ∧
      ((earning = 0 ∧ pool.rewardRate ≠ 0 ∧ pool.lastUpdateTime < pool.periodFinish ∧
          next = { pool with
            periodFinish := now + (pool.periodFinish - pool.lastUpdateTime)
            lastUpdateTime := now }) ∨
        (earning = 0 ∧ ¬ (pool.rewardRate ≠ 0 ∧ pool.periodFinish > pool.lastUpdateTime) ∧
          next = { pool with lastUpdateTime := now }) ∨
        (earning ≠ 0 ∧ pool.lastUpdateTime < pool.rewardTime now ∧ ∃ numerator,
          numerator = (pool.rewardTime now - pool.lastUpdateTime) * pool.rewardRate *
            rewardScale + pool.rewardResidual ∧
          next = { pool with
            rewardPerShareStored := pool.rewardPerShareStored + numerator / earning
            rewardResidual := numerator % earning
            lastUpdateTime := pool.rewardTime now }) ∨
        (earning ≠ 0 ∧ pool.rewardTime now ≤ pool.lastUpdateTime ∧
          next = { pool with lastUpdateTime := pool.rewardTime now })) := by
  unfold SingleAssetCoverPool.checkpointGlobalRewards at run
  have rewardTimeLe : pool.rewardTime now ≤ now := by
    unfold SingleAssetCoverPool.rewardTime
    split <;> omega
  have nowFits : truncate 64 now = now := truncate_eq_self inTime
  have timeFits : truncate 64 (pool.rewardTime now) = pool.rewardTime now :=
    truncate_eq_self (lt_of_le_of_lt rewardTimeLe inTime)
  rw [nowFits] at run
  obtain ⟨earning, earningRun, run⟩ := (bind_ok_iff _ _ _).mp run
  refine ⟨earning, earningRun, ?_⟩
  rcases (ite_ok_iff _ _ _ _).mp run with ⟨nobody, run⟩ | ⟨somebody, run⟩
  · rcases (ite_ok_iff _ _ _ _).mp run with ⟨⟨rate, running⟩, run⟩ | ⟨idle, run⟩
    · obtain ⟨finish, finishRun, result⟩ := (bind_ok_iff _ _ _).mp run
      obtain ⟨-, finishEq⟩ := (checkedAdd_ok_iff _ _ _ _).mp finishRun
      subst finishEq
      exact Or.inl ⟨nobody, rate, running, ((pure_ok_iff _ _).mp result).symm⟩
    · exact Or.inr (Or.inl ⟨nobody, idle, ((pure_ok_iff _ _).mp run).symm⟩)
  · dsimp only at run
    rw [timeFits] at run
    rcases (ite_ok_iff _ _ _ _).mp run with ⟨forward, run⟩ | ⟨still, run⟩
    · obtain ⟨numerator, numeratorRun, run⟩ := (bind_ok_iff _ _ _).mp run
      obtain ⟨stored, storedRun, result⟩ := (bind_ok_iff _ _ _).mp run
      obtain ⟨-, storedEq⟩ := (checkedAdd_ok_iff _ _ _ _).mp storedRun
      subst storedEq
      simp only [SingleAssetCoverPool.rewardNumerator, bind_ok_iff, checkedSub_ok_iff,
        checkedMul_ok_iff, checkedAdd_ok_iff] at numeratorRun
      obtain ⟨elapsed, ⟨-, rfl⟩, streamed, ⟨-, rfl⟩, scaled, ⟨-, rfl⟩, -, numeratorEq⟩ :=
        numeratorRun
      exact Or.inr (Or.inr (Or.inl ⟨somebody, forward, numerator, numeratorEq,
        ((pure_ok_iff _ _).mp result).symm⟩))
    · exact Or.inr (Or.inr (Or.inr ⟨somebody, Nat.le_of_not_lt still,
        ((pure_ok_iff _ _).mp run).symm⟩))

/-- The checkpoint turns stream and residual into accrual, and changes no total. -/
theorem checkpointGlobalRewards_liabilities (inTime : now < uintBound 64)
    (supply : ∑ account, pool.balances account = pool.totalSupply)
    (paidLe : ∀ user, user ≠ here →
      (pool.rewardState user).userRewardPerSharePaid ≤ pool.rewardPerShareStored)
    (updatedLe : pool.lastUpdateTime ≤ now)
    (run : pool.checkpointGlobalRewards here now = .ok next) :
    liabilities here next = liabilities here pool := by
  obtain ⟨earning, earningRun, cases⟩ := checkpointGlobalRewards_ok inTime run
  rcases cases with ⟨-, -, running, nextEq⟩ | ⟨-, idle, nextEq⟩ |
    ⟨somebody, forward, numerator, numeratorEq, nextEq⟩ | ⟨-, still, nextEq⟩
  · subst nextEq
    have sameStream : streamLeft { pool with
        periodFinish := now + (pool.periodFinish - pool.lastUpdateTime)
        lastUpdateTime := now } = streamLeft pool := by
      simp only [streamLeft]
      congr 2
      omega
    rw [liabilities, sameStream]
    rfl
  · subst nextEq
    have sameStream : streamLeft { pool with lastUpdateTime := now } = streamLeft pool := by
      simp only [streamLeft]
      by_cases rate : pool.rewardRate = 0
      · simp [rate]
      · have finished : pool.periodFinish ≤ pool.lastUpdateTime := by
          by_contra running
          exact idle ⟨rate, by omega⟩
        congr 2
        omega
    rw [liabilities, sameStream]
    rfl
  · have timeLe : pool.rewardTime now ≤ pool.periodFinish := by
      unfold SingleAssetCoverPool.rewardTime
      split <;> omega
    have raised : owed here next = owed here pool +
        (∑ user ∈ Finset.univ.erase here, pool.balances user) * (numerator / earning) :=
      owed_raise _ paidLe (by rw [nextEq]) (by rw [nextEq]) (by rw [nextEq])
    rw [earning_eq supply earning earningRun] at raised
    have divided := Nat.div_add_mod numerator earning
    have residual : next.rewardResidual = numerator % earning := by rw [nextEq]
    have stream : streamLeft pool = streamLeft next +
        (pool.rewardTime now - pool.lastUpdateTime) * pool.rewardRate * rewardScale := by
      rw [nextEq]
      simp only [streamLeft, ← Nat.add_mul]
      congr 2
      omega
    rw [liabilities, liabilities, raised, residual, stream]
    omega
  · subst nextEq
    have sameStream : streamLeft { pool with lastUpdateTime := pool.rewardTime now } =
        streamLeft pool := by
      simp only [streamLeft]
      congr 2
      unfold SingleAssetCoverPool.rewardTime at still ⊢
      by_cases early : now < pool.periodFinish
      · rw [if_pos early] at still ⊢
        omega
      · rw [if_neg early] at still ⊢
        omega
    rw [liabilities, sameStream]
    rfl

/-- What a global checkpoint leaves alone and where it brings the clock. -/
theorem checkpointGlobalRewards_clock (inTime : now < uintBound 64)
    (run : pool.checkpointGlobalRewards here now = .ok next) :
    pool.rewardPerShareStored ≤ next.rewardPerShareStored ∧
      next.rewardState = pool.rewardState ∧ next.balances = pool.balances ∧
      next.totalSupply = pool.totalSupply ∧ next.rewardReserve = pool.rewardReserve ∧
      next.rewardRate = pool.rewardRate ∧ next.rewardsDuration = pool.rewardsDuration ∧
      next.lastUpdateTime ≤ now ∧ Synced here now next := by
  obtain ⟨earning, earningRun, cases⟩ := checkpointGlobalRewards_ok inTime run
  have timeLe : pool.rewardTime now ≤ now := by
    unfold SingleAssetCoverPool.rewardTime
    split <;> omega
  rcases cases with ⟨nobody, -, -, nextEq⟩ | ⟨nobody, -, nextEq⟩ |
    ⟨somebody, -, numerator, -, nextEq⟩ | ⟨somebody, -, nextEq⟩
  · subst nextEq nobody
    refine ⟨le_rfl, rfl, rfl, rfl, rfl, rfl, rfl, le_rfl, ?_⟩
    intro value perShare
    unfold SingleAssetCoverPool.rewardPerShare at perShare
    obtain ⟨other, otherRun, perShare⟩ := (bind_ok_iff _ _ _).mp perShare
    cases earningRun.symm.trans otherRun
    rw [if_pos rfl] at perShare
    exact ((pure_ok_iff _ _).mp perShare).symm
  · subst nextEq nobody
    refine ⟨le_rfl, rfl, rfl, rfl, rfl, rfl, rfl, le_rfl, ?_⟩
    intro value perShare
    unfold SingleAssetCoverPool.rewardPerShare at perShare
    obtain ⟨other, otherRun, perShare⟩ := (bind_ok_iff _ _ _).mp perShare
    cases earningRun.symm.trans otherRun
    rw [if_pos rfl] at perShare
    exact ((pure_ok_iff _ _).mp perShare).symm
  · subst nextEq
    refine ⟨Nat.le_add_right _ _, rfl, rfl, rfl, rfl, rfl, rfl, timeLe, ?_⟩
    intro value perShare
    unfold SingleAssetCoverPool.rewardPerShare at perShare
    obtain ⟨other, otherRun, perShare⟩ := (bind_ok_iff _ _ _).mp perShare
    cases earningRun.symm.trans otherRun
    rw [if_neg somebody] at perShare
    exact ((pure_ok_iff _ _).mp ((if_pos le_rfl).symm.trans perShare)).symm
  · subst nextEq
    refine ⟨le_rfl, rfl, rfl, rfl, rfl, rfl, rfl, timeLe, ?_⟩
    intro value perShare
    unfold SingleAssetCoverPool.rewardPerShare at perShare
    obtain ⟨other, otherRun, perShare⟩ := (bind_ok_iff _ _ _).mp perShare
    cases earningRun.symm.trans otherRun
    rw [if_neg somebody] at perShare
    exact ((pure_ok_iff _ _).mp ((if_pos le_rfl).symm.trans perShare)).symm

theorem checkpointGlobalRewards_solvent (inTime : now < uintBound 64)
    (supply : ∑ account, pool.balances account = pool.totalSupply)
    (rewards : RewardsSolvent here now pool)
    (run : pool.checkpointGlobalRewards here now = .ok next) :
    RewardsSolvent here now next ∧ Synced here now next := by
  obtain ⟨raised, sameState, -, -, sameReserve, -, -, clock, synced⟩ :=
    checkpointGlobalRewards_clock inTime run
  refine ⟨⟨?_, ?_, clock, ?_⟩, synced⟩
  · intro user notPool
    rw [sameState]
    exact (rewards.paid_le user notPool).trans raised
  · rw [sameState]
    exact rewards.own
  · rw [sameReserve, checkpointGlobalRewards_liabilities inTime supply rewards.paid_le
      rewards.updated_le run]
    exact rewards.solvent

/-! ## User checkpoints -/

/-- On a synced accumulator a user earns the accrual since the user's checkpoint. -/
theorem earned_of_synced (synced : Synced here now pool) (user : Address)
    (notPool : user ≠ here) (amount : Nat) (run : pool.earned here now user = .ok amount) :
    amount = pool.balances user *
        (pool.rewardPerShareStored - (pool.rewardState user).userRewardPerSharePaid) /
          rewardScale + (pool.rewardState user).rewards := by
  unfold SingleAssetCoverPool.earned at run
  rw [if_neg notPool] at run
  obtain ⟨perShare, perShareRun, run⟩ := (bind_ok_iff _ _ _).mp run
  obtain ⟨accrued, accruedRun, run⟩ := (bind_ok_iff _ _ _).mp run
  obtain ⟨product, productRun, run⟩ := (bind_ok_iff _ _ _).mp run
  obtain ⟨-, accruedEq⟩ := (checkedSub_ok_iff _ _ _).mp accruedRun
  obtain ⟨-, productEq⟩ := (checkedMul_ok_iff _ _ _ _).mp productRun
  obtain ⟨-, amountEq⟩ := (checkedAdd_ok_iff _ _ _ _).mp run
  rw [amountEq, productEq, accruedEq, synced perShare perShareRun]

theorem rewardScale_pos : 0 < rewardScale := by norm_num [rewardScale]

/-- Fixing a user's accrual rounds it down. -/
theorem checkpointUserRewards_solvent (user : Address) (notPool : user ≠ here)
    (synced : Synced here now pool) (rewards : RewardsSolvent here now pool)
    (run : pool.checkpointUserRewards here now user = .ok next) :
    RewardsSolvent here now next ∧ Synced here now next ∧
      (next.rewardState user).userRewardPerSharePaid = next.rewardPerShareStored := by
  obtain ⟨amount, earnedRun, nextEq⟩ := checkpointUserRewards_ok pool next here now user run
  have amountEq := earned_of_synced synced user notPool amount earnedRun
  subst nextEq
  have written : Function.update pool.rewardState user ⟨pool.rewardPerShareStored, amount⟩ user =
      ⟨pool.rewardPerShareStored, amount⟩ := Function.update_self ..
  have kept : ∀ other, other ≠ user →
      Function.update pool.rewardState user ⟨pool.rewardPerShareStored, amount⟩ other =
        pool.rewardState other := fun other differ => Function.update_of_ne differ _ _
  refine ⟨⟨?_, ?_, rewards.updated_le, ?_⟩, synced, ?_⟩
  · intro other otherNotPool
    by_cases same : other = user
    · subst same
      change (Function.update pool.rewardState other _ other).userRewardPerSharePaid ≤ _
      rw [written]
    · change (Function.update pool.rewardState user _ other).userRewardPerSharePaid ≤ _
      rw [kept other same]
      exact rewards.paid_le other otherNotPool
  · change Function.update pool.rewardState user _ here = _
    rw [kept here (Ne.symm notPool)]
    exact rewards.own
  · refine le_trans ?_ rewards.solvent
    change owed here { pool with
      rewardState := Function.update pool.rewardState user
        ⟨pool.rewardPerShareStored, amount⟩ } + pool.rewardResidual + streamLeft pool ≤
      owed here pool + pool.rewardResidual + streamLeft pool
    apply Nat.add_le_add_right
    apply Nat.add_le_add_right
    apply Finset.sum_le_sum
    intro other _
    by_cases same : other = user
    · subst same
      have fixed : userOwed { pool with
          rewardState := Function.update pool.rewardState other
            ⟨pool.rewardPerShareStored, amount⟩ } other = amount * rewardScale := by
        simp only [userOwed, written, Nat.sub_self, Nat.mul_zero, Nat.add_zero]
      have rounded := Nat.div_mul_le_self (pool.balances other *
        (pool.rewardPerShareStored - (pool.rewardState other).userRewardPerSharePaid)) rewardScale
      rw [fixed, userOwed, amountEq, Nat.add_mul, Nat.add_comm]
      exact Nat.add_le_add_left rounded _
    · simp only [userOwed, kept other same]
      exact le_rfl
  · change (Function.update pool.rewardState user _ user).userRewardPerSharePaid = _
    rw [written]

/-! ## Moving shares between checkpointed users -/

/-- Balances may change where nothing has accrued since the checkpoint. -/
theorem balances_solvent (rewards : RewardsSolvent here now pool)
    (sameAccumulator : accumulator next = accumulator pool)
    (sameReserve : next.rewardReserve = pool.rewardReserve)
    (sameRate : next.rewardRate = pool.rewardRate)
    (settledOrSame : ∀ user, user ≠ here → next.balances user = pool.balances user ∨
      (pool.rewardState user).userRewardPerSharePaid = pool.rewardPerShareStored) :
    RewardsSolvent here now next := by
  simp only [accumulator, Accumulator.mk.injEq] at sameAccumulator
  obtain ⟨sameFinish, sameUpdate, sameStored, sameResidual, sameState⟩ := sameAccumulator
  have sameOwed : owed here next = owed here pool := by
    apply Finset.sum_congr rfl
    intro user member
    rw [userOwed, userOwed, sameStored, sameState]
    rcases settledOrSame user (Finset.ne_of_mem_erase member) with same | settled
    · rw [same]
    · rw [settled, Nat.sub_self, Nat.mul_zero, Nat.mul_zero]
  refine ⟨?_, ?_, ?_, ?_⟩
  · intro user notPool
    rw [sameState, sameStored]
    exact rewards.paid_le user notPool
  · rw [sameState]
    exact rewards.own
  · rw [sameUpdate]
    exact rewards.updated_le
  · rw [liabilities, sameOwed, sameResidual, streamLeft, sameFinish, sameUpdate, sameRate,
      sameReserve]
    exact rewards.solvent

/-- A checkpoint that is skipped for the zero address and the pool itself. -/
theorem maybeCheckpoint_solvent (condition : Prop) [Decidable condition] (user : Address)
    (notPool : condition → user ≠ here) (synced : Synced here now pool)
    (rewards : RewardsSolvent here now pool)
    (run : (if condition then pool.checkpointUserRewards here now user else pure pool) =
      .ok next) :
    RewardsSolvent here now next ∧ Synced here now next ∧
      next.rewardPerShareStored = pool.rewardPerShareStored ∧
      next.balances = pool.balances ∧
      (condition → (next.rewardState user).userRewardPerSharePaid = next.rewardPerShareStored) ∧
      ∀ other, (pool.rewardState other).userRewardPerSharePaid = pool.rewardPerShareStored →
        (next.rewardState other).userRewardPerSharePaid = next.rewardPerShareStored := by
  rcases (ite_ok_iff _ _ _ _).mp run with ⟨met, run⟩ | ⟨skipped, run⟩
  · obtain ⟨kept, syncedNext, settled⟩ :=
      checkpointUserRewards_solvent user (notPool met) synced rewards run
    obtain ⟨amount, -, nextEq⟩ := checkpointUserRewards_ok pool next here now user run
    subst nextEq
    refine ⟨kept, syncedNext, rfl, rfl, fun _ => settled, ?_⟩
    intro other otherSettled
    by_cases same : other = user
    · subst same
      exact settled
    · change (Function.update pool.rewardState user _ other).userRewardPerSharePaid = _
      rw [Function.update_of_ne same]
      exact otherSettled
  · cases (pure_ok_iff _ _).mp run
    exact ⟨rewards, synced, rfl, rfl, fun met => absurd met skipped, fun _ settled => settled⟩

theorem erc20Update_accumulator (sender recipient : Address) (value : Nat)
    (run : pool.erc20Update here sender recipient value = .ok next) :
    accumulator next = accumulator pool ∧ next.rewardReserve = pool.rewardReserve ∧
      next.rewardRate = pool.rewardRate ∧
      ∀ user, (user = Address.zero ∨ (user ≠ sender ∧ user ≠ recipient)) →
        next.balances user = pool.balances user := by
  unfold SingleAssetCoverPool.erc20Update SingleAssetCoverPool.debitShares at run
  obtain ⟨debited, debitRun, result⟩ := (bind_ok_iff _ _ _).mp run
  have nextEq := (pure_ok_iff _ _).mp result
  subst nextEq
  unfold SingleAssetCoverPool.creditShares
  rcases (ite_ok_iff _ _ _ _).mp debitRun with ⟨fromZero, debitRun⟩ | ⟨notZero, debitRun⟩
  · obtain ⟨supply, -, debitResult⟩ := (bind_ok_iff _ _ _).mp debitRun
    cases (pure_ok_iff _ _).mp debitResult
    split
    · exact ⟨rfl, rfl, rfl, fun _ _ => rfl⟩
    · rename_i toSomebody
      refine ⟨rfl, rfl, rfl, ?_⟩
      intro user apart
      apply Function.update_of_ne
      rcases apart with isZero | ⟨-, notRecipient⟩
      · rintro rfl
        exact toSomebody isZero
      · exact notRecipient
  · obtain ⟨_, -, debitResult⟩ := (bind_ok_iff _ _ _).mp debitRun
    cases (pure_ok_iff _ _).mp debitResult
    have senderKept : ∀ user, (user = Address.zero ∨ (user ≠ sender ∧ user ≠ recipient)) →
        Function.update pool.balances sender (pool.balances sender - value) user =
          pool.balances user := by
      intro user apart
      apply Function.update_of_ne
      rcases apart with isZero | ⟨notSender, -⟩
      · rintro rfl
        exact notZero isZero
      · exact notSender
    split
    · exact ⟨rfl, rfl, rfl, senderKept⟩
    · rename_i toSomebody
      refine ⟨rfl, rfl, rfl, ?_⟩
      intro user apart
      have notRecipient : user ≠ recipient := by
        rcases apart with isZero | ⟨-, notRecipient⟩
        · rintro rfl
          exact toSomebody isZero
        · exact notRecipient
      change Function.update _ recipient _ user = _
      rw [Function.update_of_ne notRecipient]
      exact senderKept user apart

/-- `_update` keeps the stream solvent: both parties are checkpointed first. -/
theorem update_solvent (inTime : now < uintBound 64)
    (supply : ∑ account, pool.balances account = pool.totalSupply)
    (rewards : RewardsSolvent here now pool) (sender recipient : Address) (value : Nat)
    (run : pool.update here now sender recipient value = .ok next) :
    RewardsSolvent here now next := by
  obtain ⟨notToPool, synced, senderSynced, bothSynced, global, senderRun, recipientRun,
    moved⟩ := update_ok pool next here now sender recipient value run
  obtain ⟨rewards, sync⟩ := checkpointGlobalRewards_solvent inTime supply rewards global
  obtain ⟨rewards, sync, -, -, senderSettled, -⟩ := maybeCheckpoint_solvent _ sender
    (fun met => met.2) sync rewards senderRun
  obtain ⟨rewards, -, -, -, recipientSettled, othersSettled⟩ := maybeCheckpoint_solvent _
    recipient (fun _ => notToPool) sync rewards recipientRun
  obtain ⟨sameAccumulator, sameReserve, sameRate, balancesKept⟩ :=
    erc20Update_accumulator sender recipient value moved
  refine balances_solvent rewards sameAccumulator sameReserve sameRate ?_
  intro user notPool
  by_cases isZero : user = Address.zero
  · exact Or.inl (balancesKept user (Or.inl isZero))
  · by_cases isSender : user = sender
    · subst isSender
      exact Or.inr (othersSettled user (senderSettled ⟨isZero, notPool⟩))
    · by_cases isRecipient : user = recipient
      · subst isRecipient
        exact Or.inr (recipientSettled isZero)
      · exact Or.inl (balancesKept user (Or.inr ⟨isSender, isRecipient⟩))

/-! ## Settlement and distribution -/

theorem settleMatured_solvent (inTime : now < uintBound 64) (maxEpochs : Nat)
    (events : List Event) (balanceOf : Address → Nat)
    (accounts : PoolAccounts here now pool balanceOf) (rewards : RewardsSolvent here now pool)
    (run : pool.settleMatured here now maxEpochs = .ok (next, events)) :
    RewardsSolvent here now next := by
  obtain ⟨index, final, ⟨-, -, holds⟩, nextEq⟩ := settleMatured_induct pool next here now
    maxEpochs events
    (fun index current _ => PoolAccounts here now (atIndex current index) balanceOf ∧
      current.exitEpochQueue = pool.exitEpochQueue ∧ RewardsSolvent here now current)
    ⟨accounts, rfl, rewards⟩
    (by
      intro index before earlier exitEpoch after event holds atCursor matured epochRun
      obtain ⟨accountsBefore, sameQueue, rewardsBefore⟩ := holds
      rw [← sameQueue] at atCursor
      obtain ⟨accountsAfter, queueAfter⟩ := settleEpoch_accounts index exitEpoch after event
        accountsBefore atCursor matured epochRun
      obtain ⟨assets, -, -, -, -, burnt⟩ :=
        settleEpoch_ok before after here now exitEpoch event epochRun
      have fixed : RewardsSolvent here now (fixedEpoch before exitEpoch assets) :=
        ⟨rewardsBefore.paid_le, rewardsBefore.own, rewardsBefore.updated_le,
          rewardsBefore.solvent⟩
      have supply : ∑ account, (fixedEpoch before exitEpoch assets).balances account =
          (fixedEpoch before exitEpoch assets).totalSupply := accountsBefore.supply
      exact ⟨accountsAfter, queueAfter.trans sameQueue,
        update_solvent inTime supply fixed here Address.zero _ burnt⟩)
    run
  subst nextEq
  exact ⟨holds.paid_le, holds.own, holds.updated_le, holds.solvent⟩

/-- A new stream is worth at most the rest of the old one and the distribution. -/
theorem blendStream_ok (amount newDuration newRate : Nat)
    (run : PoolTx.blendStream pool now amount = .ok (newDuration, newRate)) :
    newDuration * newRate ≤ (pool.periodFinish - now) * pool.rewardRate + amount := by
  unfold PoolTx.blendStream at run
  obtain ⟨leftover, leftoverRun, run⟩ := (bind_ok_iff _ _ _).mp run
  obtain ⟨total, totalRun, run⟩ := (bind_ok_iff _ _ _).mp run
  obtain ⟨oldWeight, -, run⟩ := (bind_ok_iff _ _ _).mp run
  obtain ⟨newWeight, -, run⟩ := (bind_ok_iff _ _ _).mp run
  obtain ⟨weight, -, run⟩ := (bind_ok_iff _ _ _).mp run
  obtain ⟨blended, -, run⟩ := (bind_ok_iff _ _ _).mp run
  obtain ⟨rate, rateRun, run⟩ := (bind_ok_iff _ _ _).mp run
  obtain ⟨_, -, run⟩ := (bind_ok_iff _ _ _).mp run
  obtain ⟨_, -, result⟩ := (bind_ok_iff _ _ _).mp run
  obtain ⟨-, leftoverEq⟩ := (checkedMul_ok_iff _ _ _ _).mp leftoverRun
  obtain ⟨-, totalEq⟩ := (checkedAdd_ok_iff _ _ _ _).mp totalRun
  obtain ⟨-, rateEq⟩ := (checkedDiv_ok_iff _ _ _).mp rateRun
  cases (pure_ok_iff _ _).mp result
  have remaining : (if now < pool.periodFinish then pool.periodFinish - now else 0) =
      pool.periodFinish - now := by
    split
    · rfl
    · omega
  rw [← remaining, ← leftoverEq, ← totalEq, rateEq]
  exact Nat.mul_div_le total _

end Pool

/-! ## External calls -/

section Calls

variable {env : PoolEnv} {tx next : PoolTx}

theorem maybeSettled_solvent (inTime : env.now < uintBound 64) (maxEpochs : Nat)
    (accounts : TxAccounts env tx) (rewards : RewardsSolvent env.self env.now tx.pool)
    (first : (env.payoutIncidentActive = false ∧ Settled env tx next maxEpochs) ∨ next = tx) :
    RewardsSolvent env.self env.now next.pool := by
  rcases first with ⟨-, ⟨pool, events, run, nextEq⟩⟩ | same
  · subst nextEq
    exact settleMatured_solvent inTime maxEpochs events _ accounts rewards run
  · rw [same]
    exact rewards

/-- Escrowing shares for an exit checkpoints the user by hand. -/
theorem enqueueRedeem_solvent (inTime : env.now < uintBound 64) (caller : CallerOk env)
    (pool next : SingleAssetCoverPool) (shares exitEpoch : Nat)
    (supply : ∑ account, pool.balances account = pool.totalSupply)
    (rewards : RewardsSolvent env.self env.now pool)
    (run : PoolTx.enqueueRedeem env pool shares exitEpoch = .ok next) :
    RewardsSolvent env.self env.now next := by
  obtain ⟨synced, userSynced, global, user, moved⟩ :=
    enqueueRedeem_ok env pool next shares exitEpoch run
  have queued : RewardsSolvent env.self env.now
      (queuedRequest pool env.sender shares exitEpoch) :=
    ⟨rewards.paid_le, rewards.own, rewards.updated_le, rewards.solvent⟩
  have queuedSupply :
      ∑ account, (queuedRequest pool env.sender shares exitEpoch).balances account =
        (queuedRequest pool env.sender shares exitEpoch).totalSupply := supply
  obtain ⟨rewards, sync⟩ := checkpointGlobalRewards_solvent inTime queuedSupply queued global
  obtain ⟨rewards, -, settled⟩ :=
    checkpointUserRewards_solvent env.sender caller.senderNotPool sync rewards user
  obtain ⟨sameAccumulator, sameReserve, sameRate, balancesKept⟩ :=
    erc20Update_accumulator env.sender env.self shares moved
  refine balances_solvent rewards sameAccumulator sameReserve sameRate ?_
  intro other notPool
  by_cases isSender : other = env.sender
  · subst isSender
    exact Or.inr settled
  · exact Or.inl (balancesKept other (Or.inr ⟨isSender, notPool⟩))

theorem rewardClaimed_solvent (inTime : env.now < uintBound 64) (caller : CallerOk env)
    (synced : SingleAssetCoverPool) (accounts : TxAccounts env tx)
    (rewards : RewardsSolvent env.self env.now tx.pool)
    (claimed : RewardClaimed env tx next synced) :
    RewardsSolvent env.self env.now next.pool := by
  obtain ⟨⟨global, globalRun, userRun⟩, paid⟩ := claimed
  obtain ⟨rewards, sync⟩ :=
    checkpointGlobalRewards_solvent inTime accounts.supply rewards globalRun
  obtain ⟨rewards, -, -⟩ :=
    checkpointUserRewards_solvent env.sender caller.senderNotPool sync rewards userRun
  rcases paid with ⟨-, nextEq⟩ | ⟨-, enough, -, poolEq, -⟩
  · subst nextEq
    exact rewards
  · have written : next.pool.rewardState env.sender =
        { synced.rewardState env.sender with rewards := 0 } := by
      rw [poolEq]
      exact Function.update_self ..
    have kept : ∀ user, user ≠ env.sender →
        next.pool.rewardState user = synced.rewardState user := by
      intro user differ
      rw [poolEq]
      exact Function.update_of_ne differ _ _
    have sameStored : next.pool.rewardPerShareStored = synced.rewardPerShareStored := by
      rw [poolEq]
    have sameBalances : next.pool.balances = synced.balances := by rw [poolEq]
    refine ⟨?_, ?_, ?_, ?_⟩
    · intro user notPool
      rw [sameStored]
      by_cases same : user = env.sender
      · subst same
        rw [written]
        exact rewards.paid_le _ notPool
      · rw [kept user same]
        exact rewards.paid_le user notPool
    · rw [kept env.self (Ne.symm caller.senderNotPool)]
      exact rewards.own
    · rw [poolEq]
      exact rewards.updated_le
    · have changed := sum_differ_at (userOwed synced) (userOwed next.pool) env.sender
        (Finset.mem_erase.mpr ⟨caller.senderNotPool, Finset.mem_univ _⟩) (by
          intro user _ differ
          rw [userOwed, userOwed, kept user differ, sameBalances, sameStored])
      have before := rewards.solvent
      have reserve : next.pool.rewardReserve =
          synced.rewardReserve - (synced.rewardState env.sender).rewards := by rw [poolEq]
      have residual : next.pool.rewardResidual = synced.rewardResidual := by rw [poolEq]
      have stream : streamLeft next.pool = streamLeft synced := by
        rw [poolEq]
        rfl
      have senderBefore : userOwed synced env.sender = userOwed next.pool env.sender +
          (synced.rewardState env.sender).rewards * rewardScale := by
        rw [userOwed, userOwed, written, sameBalances, sameStored]
        simp only [Nat.zero_mul, Nat.zero_add]
        exact Nat.add_comm _ _
      rw [liabilities, residual, stream, reserve, Nat.sub_mul]
      rw [liabilities] at before
      change (∑ user ∈ Finset.univ.erase env.self, userOwed next.pool user) +
        synced.rewardResidual + streamLeft synced ≤ _
      change (∑ user ∈ Finset.univ.erase env.self, userOwed synced user) +
        synced.rewardResidual + streamLeft synced ≤ _ at before
      generalize ∑ user ∈ Finset.univ.erase env.self, userOwed next.pool user = after at *
      generalize ∑ user ∈ Finset.univ.erase env.self, userOwed synced user = total at *
      omega

theorem profitReceived_solvent (inTime : env.now < uintBound 64) (amount : Nat)
    (synced : SingleAssetCoverPool) (newDuration newRate : Nat) (accounts : TxAccounts env tx)
    (rewards : RewardsSolvent env.self env.now tx.pool)
    (profit : ProfitReceived env tx next amount synced newDuration newRate) :
    RewardsSolvent env.self env.now next.pool := by
  have poolEq := profit.pool
  have unchanged : liabilities env.self synced = liabilities env.self
      { tx.pool with rewardReserve := tx.pool.rewardReserve + amount } :=
    checkpointGlobalRewards_liabilities inTime accounts.supply rewards.paid_le
      rewards.updated_le profit.checkpointed
  obtain ⟨raised, sameState, -, -, sameReserve, sameRate, -, clock, -⟩ :=
    checkpointGlobalRewards_clock inTime profit.checkpointed
  have blended := blendStream_ok amount newDuration newRate profit.blended
  refine ⟨?_, ?_, ?_, ?_⟩
  · intro user notPool
    rw [poolEq]
    change (synced.rewardState user).userRewardPerSharePaid ≤ synced.rewardPerShareStored
    rw [sameState]
    exact (rewards.paid_le user notPool).trans raised
  · rw [poolEq]
    exact (congrFun sameState env.self).trans rewards.own
  · rw [poolEq]
    exact truncate_le 64 env.now
  · have newStream : streamLeft next.pool ≤ streamLeft synced + amount * rewardScale := by
      have window : truncate 64 (env.now + newDuration) - truncate 64 env.now ≤ newDuration := by
        have finish := truncate_le 64 (env.now + newDuration)
        rw [truncate_eq_self inTime]
        omega
      have left : synced.periodFinish - env.now ≤ synced.periodFinish - synced.lastUpdateTime := by
        omega
      rw [poolEq]
      simp only [streamLeft, ← Nat.add_mul]
      apply Nat.mul_le_mul_right
      calc (truncate 64 (env.now + newDuration) - truncate 64 env.now) * newRate
          ≤ newDuration * newRate := Nat.mul_le_mul_right _ window
        _ ≤ (synced.periodFinish - env.now) * synced.rewardRate + amount := blended
        _ ≤ (synced.periodFinish - synced.lastUpdateTime) * synced.rewardRate + amount :=
            Nat.add_le_add_right (Nat.mul_le_mul_right _ left) _
    have before := rewards.solvent
    have sameOwed : owed env.self next.pool = owed env.self synced := by
      rw [poolEq]
      rfl
    have residual : next.pool.rewardResidual = synced.rewardResidual := by rw [poolEq]
    have reserve : next.pool.rewardReserve = tx.pool.rewardReserve + amount := by
      rw [poolEq]
      exact sameReserve
    have total : liabilities env.self synced = liabilities env.self tx.pool := unchanged
    rw [liabilities, sameOwed, residual, reserve, Nat.add_mul]
    rw [liabilities] at total
    omega

/-- Every external call keeps the reward stream solvent. -/
theorem exec_solvent (inTime : env.now < uintBound 64) (caller : CallerOk env) (call : PoolCall)
    (accounts : TxAccounts env tx) (rewards : RewardsSolvent env.self env.now tx.pool)
    (run : PoolTx.exec env tx call = .ok next) :
    RewardsSolvent env.self env.now next.pool := by
  unfold PoolTx.exec at run
  obtain ⟨_, -, run⟩ := (bind_ok_iff _ _ _).mp run
  have depositedSolvent : ∀ receiver assets shares,
      Deposited env tx next receiver assets shares →
      RewardsSolvent env.self env.now next.pool := by
    intro receiver assets shares deposited
    obtain ⟨pool, minted, poolEq⟩ := deposited.minted
    have kept := update_solvent inTime accounts.supply rewards Address.zero receiver shares minted
    rw [poolEq]
    exact ⟨kept.paid_le, kept.own, kept.updated_le, kept.solvent⟩
  cases call with
  | deposit assets receiver =>
      obtain ⟨shares, deposited⟩ := deposit_ok env tx next assets receiver run
      exact depositedSolvent receiver assets shares deposited
  | mint shares receiver =>
      obtain ⟨assets, deposited⟩ := mint_ok env tx next shares receiver run
      exact depositedSolvent receiver assets shares deposited
  | transfer recipient value =>
      obtain ⟨-, pool, updated, nextEq⟩ := transfer_ok env tx next recipient value run
      subst nextEq
      exact update_solvent inTime accounts.supply rewards env.sender recipient value updated
  | requestRedeem shares =>
      obtain ⟨settled, exitEpoch, requested⟩ := requestRedeem_ok env tx next shares run
      have settledAccounts := maybeSettled_accounts _ accounts requested.first
      have settledRewards := maybeSettled_solvent inTime _ accounts rewards requested.first
      obtain ⟨pool, enqueued, nextEq⟩ := requested.enqueued
      subst nextEq
      exact enqueueRedeem_solvent inTime caller settled.pool pool shares exitEpoch
        settledAccounts.supply settledRewards enqueued
  | settleMaturedExitEpochs maxEpochs =>
      obtain ⟨active, settled⟩ := settleMaturedExitEpochs_ok env tx next maxEpochs run
      exact maybeSettled_solvent inTime maxEpochs accounts rewards (Or.inl ⟨active, settled⟩)
  | completeRedeem receiver =>
      obtain ⟨settled, assets, completed⟩ := completeRedeem_ok env tx next receiver run
      have kept := maybeSettled_solvent inTime _ accounts rewards completed.first
      rw [completed.pool]
      exact ⟨kept.paid_le, kept.own, kept.updated_le, kept.solvent⟩
  | claimReward =>
      obtain ⟨synced, claimed⟩ := claimReward_ok env tx next run
      exact rewardClaimed_solvent inTime caller synced accounts rewards claimed
  | receiveProfitDistribution amount =>
      obtain ⟨synced, newDuration, newRate, profit⟩ :=
        receiveProfitDistribution_ok env tx next amount run
      exact profitReceived_solvent inTime amount synced newDuration newRate accounts rewards
        profit
  | payClaim recipient amount =>
      rcases (payClaim_ok env tx next recipient amount run).paid with
        ⟨-, nextEq⟩ | ⟨-, -, -, poolEq, -⟩
      · subst nextEq
        exact rewards
      · rw [poolEq]
        exact ⟨rewards.paid_le, rewards.own, rewards.updated_le, rewards.solvent⟩
  | setRewardsDuration newDuration =>
      have nextEq := setRewardsDuration_ok env tx next newDuration run
      subst nextEq
      exact ⟨rewards.paid_le, rewards.own, rewards.updated_le, rewards.solvent⟩
  | setDepositCap newCap =>
      have nextEq := setDepositCap_ok env tx next newCap run
      subst nextEq
      exact ⟨rewards.paid_le, rewards.own, rewards.updated_le, rewards.solvent⟩
  | sweepToken token recipient =>
      obtain ⟨-, amount, -, -, poolEq, -⟩ := sweepToken_ok env tx next token recipient run
      rw [poolEq]
      exact rewards

end Calls

end Usd8Core.Pool
