import Usd8Core.Pool.EpochClaims
import Usd8Core.Pool.RewardBudget
import Usd8Core.Pool.RewardPayments

/-!
# Share moves without arithmetic errors

Every move of shares checkpoints the accumulator and both parties.  With a funded and
solvent reward stream none of these checkpoints overflows, whatever the balances are.
-/

set_option autoImplicit false

namespace Usd8Core.Pool

open Usd8Core.Lib.ByteWords
open Usd8Core.Lib.CheckedCall
open Usd8Core.Chain
open Usd8Core.Insurance
open SingleAssetCoverPool (virtualShares)

/-- A revert of the compiler or of the share headroom. -/
def LimitError (error : ContractError) : Prop :=
  IsPanic error ∨ ∃ shares headroom, error = .shareSupplyHeadroomExceeded shares headroom

section Rules

variable {α : Type} {bad : ContractError → Prop} {condition : Prop} [Decidable condition]
  {error : ContractError}

/-- A check of the contract's own, and what follows it. -/
theorem check_avoids {next : Unit → Call α} (named : ¬ bad error)
    (rest : ¬ condition → Avoids bad (next ())) :
    Avoids bad (revertIf condition error >>= next) :=
  avoids_revertIf_bind condition error next (fun _ => named) rest

theorem checkedAdd_fits {width a b : Nat} (fits : a + b < uintBound width) :
    Avoids bad (checkedAdd width a b : Call Nat) := by
  unfold checkedAdd
  rw [if_pos fits]
  exact avoids_ok _

theorem checkedSub_ordered {a b : Nat} (ordered : b ≤ a) :
    Avoids bad (checkedSub a b : Call Nat) :=
  avoids_checkedSub a b fun below => absurd below (Nat.not_lt.mpr ordered)

theorem ok_avoids {call : Call α} (ran : ∃ value, call = .ok value) : Avoids bad call := by
  obtain ⟨value, rfl⟩ := ran
  exact avoids_ok value

variable {p sender : Address} {w : World} {call : PoolCall}

/-- A call to a pool fails only as the pool itself does. -/
theorem callPool_avoids (absent : ¬ bad (.noCode p))
    (safe : ∀ pool, w.pools p = some pool →
      Avoids bad (PoolTx.exec (w.poolEnv p sender) ⟨pool, w.erc20, []⟩ call)) :
    Avoids bad (w.callPool p sender call) := by
  unfold World.callPool World.getPool
  apply avoids_bind _ _ (avoids_orRevert _ _ fun _ => absent)
  intro pool found
  apply avoids_bind _ _ (safe pool ((getPool_ok_iff pool).mp found))
  intro tx _
  exact avoids_pure _

end Rules

section Pool

variable {here : Address} {now distributed : Nat} {pool next : SingleAssetCoverPool}
  {bad : ContractError → Prop}

/-- One user's scaled claim is covered by the reserve. -/
theorem userOwed_le_reserve (rewards : RewardsSolvent here now pool) (user : Address)
    (notPool : user ≠ here) : userOwed pool user ≤ pool.rewardReserve * rewardScale := by
  have member : user ∈ Finset.univ.erase here :=
    Finset.mem_erase.mpr ⟨notPool, Finset.mem_univ user⟩
  have one := Finset.single_le_sum (f := userOwed pool) (fun _ _ => Nat.zero_le _) member
  calc userOwed pool user ≤ owed here pool := one
    _ ≤ liabilities here pool := (Nat.le_add_right _ _).trans (Nat.le_add_right _ _)
    _ ≤ pool.rewardReserve * rewardScale := rewards.solvent

/-- Right after a global checkpoint the stored accumulator is the current one. -/
theorem checkpointed_rewardPerShare (inTime : now < uintBound 64)
    (run : pool.checkpointGlobalRewards here now = .ok next) :
    next.rewardPerShare here now = .ok next.rewardPerShareStored := by
  obtain ⟨earning, earns, -⟩ := checkpointGlobalRewards_ok inTime run
  unfold SingleAssetCoverPool.rewardPerShare
  by_cases nobody : earning = 0
  · subst nobody
    rw [((checkpointGlobalRewards_nobody inTime earns).mp run).2]
    have same : (deferred pool now).earningShares here = .ok 0 := earns
    rw [bind_after same]
    rfl
  · rw [((checkpointGlobalRewards_somebody inTime earns nobody).mp run).2]
    have same : (accrued pool earning (pool.rewardTime now)).earningShares here = .ok earning :=
      earns
    rw [bind_after same, if_neg nobody]
    exact if_pos le_rfl

/-- A user's checkpoint on an accumulator that is up to date. -/
theorem checkpointUserRewards_funded (user : Address) (notPool : user ≠ here)
    (current : pool.rewardPerShare here now = .ok pool.rewardPerShareStored)
    (rewards : RewardsSolvent here now pool)
    (fits : pool.rewardReserve * rewardScale < uintBound 256) :
    Avoids bad (pool.checkpointUserRewards here now user) := by
  have covered := userOwed_le_reserve rewards user notPool
  have product : pool.balances user *
      (pool.rewardPerShareStored - (pool.rewardState user).userRewardPerSharePaid) ≤
        userOwed pool user := Nat.le_add_left _ _
  have amount : pool.balances user *
      (pool.rewardPerShareStored - (pool.rewardState user).userRewardPerSharePaid) /
        rewardScale + (pool.rewardState user).rewards ≤ pool.rewardReserve := by
    apply Nat.le_of_mul_le_mul_right _ rewardScale_pos
    have floor := Nat.div_mul_le_self (pool.balances user *
      (pool.rewardPerShareStored - (pool.rewardState user).userRewardPerSharePaid)) rewardScale
    rw [Nat.add_mul]
    unfold userOwed at covered
    omega
  have unscaled : pool.rewardReserve ≤ pool.rewardReserve * rewardScale :=
    Nat.le_mul_of_pos_right _ rewardScale_pos
  unfold SingleAssetCoverPool.checkpointUserRewards SingleAssetCoverPool.earned
  rw [if_neg notPool]
  apply avoids_bind
  · rw [bind_after current]
    apply avoids_bind _ _ (checkedSub_ordered (rewards.paid_le user notPool))
    intro gained gainedRun
    obtain ⟨-, rfl⟩ := (checkedSub_ok_iff _ _ _).mp gainedRun
    apply avoids_bind
    · unfold checkedMul
      rw [if_pos (by omega)]
      exact avoids_ok _
    intro scaled scaledRun
    obtain ⟨-, rfl⟩ := (checkedMul_ok_iff _ _ _ _).mp scaledRun
    exact checkedAdd_fits (by omega)
  · intro earned _
    exact avoids_pure _

/-- A user's checkpoint changes neither the accumulator nor what funds it. -/
theorem maybeCheckpoint_perShare (condition : Prop) [Decidable condition] (user : Address)
    (run : (if condition then pool.checkpointUserRewards here now user else pure pool) =
      .ok next) :
    next.rewardPerShare here now = pool.rewardPerShare here now ∧
      next.rewardReserve = pool.rewardReserve ∧ next.totalSupply = pool.totalSupply := by
  rcases (ite_ok_iff _ _ _ _).mp run with ⟨-, run⟩ | ⟨-, run⟩
  · obtain ⟨rewards, -, nextEq⟩ := checkpointUserRewards_ok pool next here now user run
    subst nextEq
    exact ⟨rfl, rfl, rfl⟩
  · cases (pure_ok_iff _ _).mp run
    exact ⟨rfl, rfl, rfl⟩

/-- The plain ERC-20 move fails in arithmetic only when new shares do not fit. -/
theorem erc20Update_avoids (sender recipient : Address) (value : Nat)
    (named : ¬ bad (.erc20InsufficientBalance here sender))
    (room : sender = Address.zero → pool.totalSupply + value < uintBound 256) :
    Avoids bad (pool.erc20Update here sender recipient value) := by
  unfold SingleAssetCoverPool.erc20Update SingleAssetCoverPool.debitShares
  apply avoids_bind
  · apply avoids_ite
    · intro minted
      apply avoids_bind _ _ (checkedAdd_fits (room minted))
      intro supply _
      exact avoids_pure _
    · intro _
      apply check_avoids named
      intro _
      exact avoids_pure _
  · intro debited _
    exact avoids_pure _

/-- What a share move may rely on. -/
structure MoveReady (here : Address) (now distributed : Nat) (pool : SingleAssetCoverPool) :
    Prop where
  supply : ∑ account, pool.balances account = pool.totalSupply
  rewards : RewardsSolvent here now pool
  funded : Funded distributed pool

theorem MoveReady.bound (ready : MoveReady here now distributed pool) :
    pool.balances here ≤ pool.totalSupply := by
  rw [← ready.supply]
  exact Finset.single_le_sum (f := pool.balances) (fun _ _ => Nat.zero_le _)
    (Finset.mem_univ here)

theorem update_avoids (inTime : now + maxRewardsDuration < uintBound 64)
    (named : ¬ bad .invalidRecipient ∧ ∀ account, ¬ bad (.erc20InsufficientBalance here account))
    (fits : distributed * rewardScale < uintBound 256)
    (ready : MoveReady here now distributed pool) (sender recipient : Address) (value : Nat)
    (room : sender = Address.zero → pool.totalSupply + value < uintBound 256) :
    Avoids bad (pool.update here now sender recipient value) := by
  have inWord : now < uintBound 64 := (Nat.le_add_right _ _).trans_lt inTime
  have reserveFits : pool.rewardReserve * rewardScale < uintBound 256 :=
    (Nat.mul_le_mul_right _ ready.funded.reserve).trans_lt fits
  unfold SingleAssetCoverPool.update
  apply avoids_bind _ _ (ok_avoids (checkpointGlobalRewards_runs inTime ready.funded.budget fits
    ready.bound ready.rewards.updated_le))
  intro synced global
  obtain ⟨syncedRewards, sync⟩ :=
    checkpointGlobalRewards_solvent inWord ready.supply ready.rewards global
  obtain ⟨-, -, -, sameSupply, sameReserve, -⟩ := checkpointGlobalRewards_clock inWord global
  have current := checkpointed_rewardPerShare inWord global
  apply check_avoids named.1
  intro notToPool
  apply avoids_bind
  · apply avoids_ite
    · intro met
      apply checkpointUserRewards_funded sender met.2 current syncedRewards
      rw [sameReserve]
      exact reserveFits
    · intro _
      exact avoids_pure _
  intro senderSynced senderRun
  obtain ⟨senderRewards, -, sameStored, -⟩ := maybeCheckpoint_solvent _ sender
    (fun met => met.2) sync syncedRewards senderRun
  obtain ⟨samePerShare, senderReserve, senderSupply⟩ :=
    maybeCheckpoint_perShare _ sender senderRun
  apply avoids_bind
  · apply avoids_ite
    · intro met
      apply checkpointUserRewards_funded recipient notToPool _ senderRewards
      · rw [senderReserve, sameReserve]
        exact reserveFits
      · rw [samePerShare, sameStored]
        exact current
    · intro _
      exact avoids_pure _
  intro bothSynced recipientRun
  obtain ⟨-, -, bothSupply⟩ := maybeCheckpoint_perShare _ recipient recipientRun
  apply erc20Update_avoids _ _ _ (named.2 sender)
  intro minted
  rw [bothSupply, senderSupply, sameSupply]
  exact room minted

end Pool

end Usd8Core.Pool
