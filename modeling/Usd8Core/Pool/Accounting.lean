import Usd8Core.Pool.ExitBook
import Usd8Core.Pool.PoolCalls

/-!
# Accounts of a pool

The invariant of a pool's shares and assets: the exit book is in order, the
shares add up, the pool holds the shares in escrow, every token balance covers
what is reserved of it, and a pool without shares has no active assets.  Each
external call keeps it, whatever the caller, the time and the other contracts do.
-/

set_option autoImplicit false

namespace Usd8Core.Pool

open Usd8Core.Lib.ByteWords
open Usd8Core.Lib.CheckedCall
open Usd8Core.Lib.FiniteLedger
open Usd8Core.Chain

structure PoolAccounts (here : Address) (now : Nat) (pool : SingleAssetCoverPool)
    (balanceOf : Address → Nat) : Prop where
  book : ExitBook now (exitLedger pool)
  supply : ∑ account, pool.balances account = pool.totalSupply
  escrow : pool.balances here = (exitLedger pool).escrowed
  backed : ∀ token, reserved pool token ≤ balanceOf token
  drained : pool.totalSupply = 0 → pool.accountedAssets = 0

section Pool

variable {self : Address} {now : Nat} {pool : SingleAssetCoverPool}
  {balanceOf : Address → Nat}

theorem PoolAccounts.later {later : Nat} (accounts : PoolAccounts self now pool balanceOf)
    (passed : now ≤ later) : PoolAccounts self later pool balanceOf :=
  { accounts with book := accounts.book.later passed }

theorem PoolAccounts.richer {richer : Address → Nat}
    (accounts : PoolAccounts self now pool balanceOf)
    (more : ∀ token, balanceOf token ≤ richer token) : PoolAccounts self now pool richer :=
  { accounts with backed := fun token => (accounts.backed token).trans (more token) }

theorem PoolAccounts.withAccumulator (accounts : PoolAccounts self now pool balanceOf)
    (acc : Accumulator) : PoolAccounts self now (withAccumulator pool acc) balanceOf :=
  ⟨accounts.book, accounts.supply, accounts.escrow, accounts.backed, accounts.drained⟩

theorem balance_le_supply (accounts : PoolAccounts self now pool balanceOf)
    (account : Address) : pool.balances account ≤ pool.totalSupply := by
  rw [← accounts.supply]
  exact Finset.single_le_sum (f := pool.balances) (fun _ _ => Nat.zero_le _)
    (Finset.mem_univ account)

/-- A fresh pool. -/
theorem PoolAccounts.initial (self : Address) (now : Nat) (asset usd8 : Address)
    (balanceOf : Address → Nat) :
    PoolAccounts self now (SingleAssetCoverPool.initial asset usd8) balanceOf := by
  refine ⟨⟨List.Pairwise.nil, le_rfl, ?_, ?_, ?_, ?_, ?_, ?_, rfl⟩, ?_, rfl, ?_, fun _ => rfl⟩
  · intro exitEpoch member
    cases member
  · intro exitEpoch member
    cases member
  · intro exitEpoch member
    cases member
  · intro exitEpoch member
    cases member
  · intro exitEpoch member
    cases member
  · intro exitEpoch _
    refine ⟨rfl, rfl, ?_⟩
    rw [ExitLedger.requested]
    apply Finset.sum_eq_zero
    intro user _
    exact ite_self 0
  · simp [SingleAssetCoverPool.initial]
  · intro token
    change (if token = asset then 0 + 0 else 0) + (if token = usd8 then 0 else 0) ≤
      balanceOf token
    split_ifs <;> omega

/-! ## Settlement -/

/-- One settled epoch, with the cursor moved past it. -/
theorem settleEpoch_accounts (index exitEpoch : Nat) (next : SingleAssetCoverPool)
    (event : Event) (accounts : PoolAccounts self now (atIndex pool index) balanceOf)
    (atCursor : pool.exitEpochQueue[index]? = some exitEpoch) (matured : exitEpoch ≤ now)
    (run : pool.settleEpoch self now exitEpoch = .ok (next, event)) :
    PoolAccounts self now (atIndex next (index + 1)) balanceOf ∧
      next.exitEpochQueue = pool.exitEpochQueue := by
  obtain ⟨assets, epochAssets, enough, selfNotZero, -, burnt⟩ :=
    settleEpoch_ok pool next self now exitEpoch event run
  obtain ⟨-, acc, moved⟩ := update_erc20 _ next self now self Address.zero _ burnt
  obtain ⟨sharesHeld, nextEq⟩ := erc20Update_burn _ next self self _ selfNotZero moved
  subst nextEq
  have bookEq : exitLedger (atIndex { withAccumulator (fixedEpoch pool exitEpoch assets) acc with
        totalSupply := pool.totalSupply - (pool.exitEpochs exitEpoch).totalShares
        balances := Function.update pool.balances self
          (pool.balances self - (pool.exitEpochs exitEpoch).totalShares) } (index + 1)) =
      (exitLedger (atIndex pool index)).settle exitEpoch assets := rfl
  refine ⟨⟨?_, ?_, ?_, ?_, ?_⟩, rfl⟩
  · exact accounts.book.settle exitEpoch assets atCursor matured
  · have changed := sum_differ_at pool.balances
      (Function.update pool.balances self
        (pool.balances self - (pool.exitEpochs exitEpoch).totalShares))
      self (Finset.mem_univ self) (fun other _ differ => Function.update_of_ne differ _ _)
    rw [Function.update_self] at changed
    have total : ∑ account, pool.balances account = pool.totalSupply := accounts.supply
    have held : (pool.exitEpochs exitEpoch).totalShares ≤ pool.balances self := sharesHeld
    change ∑ account, Function.update pool.balances self
        (pool.balances self - (pool.exitEpochs exitEpoch).totalShares) account =
      pool.totalSupply - (pool.exitEpochs exitEpoch).totalShares
    omega
  · have split := accounts.book.settle_escrowed exitEpoch assets atCursor
    have escrow : pool.balances self = (exitLedger (atIndex pool index)).escrowed :=
      accounts.escrow
    have shares : ((exitLedger (atIndex pool index)).epochs exitEpoch).totalShares =
        (pool.exitEpochs exitEpoch).totalShares := rfl
    change Function.update pool.balances self _ self =
      ((exitLedger (atIndex pool index)).settle exitEpoch assets).escrowed
    rw [Function.update_self]
    change pool.balances self - (pool.exitEpochs exitEpoch).totalShares = _
    omega
  · intro token
    have kept : reserved pool token ≤ balanceOf token := accounts.backed token
    have same : (pool.accountedAssets - assets) + (pool.withdrawalReserve + assets) =
        pool.accountedAssets + pool.withdrawalReserve := by omega
    change (if token = pool.asset then (pool.accountedAssets - assets) +
        (pool.withdrawalReserve + assets) else 0) +
      (if token = pool.usd8 then pool.rewardReserve else 0) ≤ balanceOf token
    rw [same]
    exact kept
  · -- all shares leave only when the epoch holds the whole supply, and then takes all assets
    change pool.totalSupply - (pool.exitEpochs exitEpoch).totalShares = 0 →
      pool.accountedAssets - assets = 0
    intro empty
    have held : (pool.exitEpochs exitEpoch).totalShares ≤ pool.balances self := sharesHeld
    have bound : pool.balances self ≤ pool.totalSupply := balance_le_supply accounts self
    rcases epochAssets with ⟨-, assetsEq⟩ | ⟨notWhole, -⟩
    · omega
    · omega

theorem settleMatured_accounts (maxEpochs : Nat) (next : SingleAssetCoverPool)
    (events : List Event) (accounts : PoolAccounts self now pool balanceOf)
    (run : pool.settleMatured self now maxEpochs = .ok (next, events)) :
    PoolAccounts self now next balanceOf := by
  obtain ⟨index, final, ⟨holds, -⟩, nextEq⟩ := settleMatured_induct pool next self now maxEpochs
    events
    (fun index current _ => PoolAccounts self now (atIndex current index) balanceOf ∧
      current.exitEpochQueue = pool.exitEpochQueue)
    ⟨accounts, rfl⟩
    (by
      intro index before earlier exitEpoch after event holds atCursor matured epochRun
      obtain ⟨holds, sameQueue⟩ := holds
      rw [← sameQueue] at atCursor
      obtain ⟨holdsAfter, queueAfter⟩ :=
        settleEpoch_accounts index exitEpoch after event holds atCursor matured epochRun
      exact ⟨holdsAfter, queueAfter.trans sameQueue⟩)
    run
  rw [nextEq]
  exact holds

/-! ## Moving shares -/

theorem move_accounts (next : SingleAssetCoverPool) (sender recipient : Address) (value : Nat)
    (accounts : PoolAccounts self now pool balanceOf) (senderNotZero : sender ≠ Address.zero)
    (senderNotPool : sender ≠ self) (recipientNotZero : recipient ≠ Address.zero)
    (run : pool.update self now sender recipient value = .ok next) :
    PoolAccounts self now next balanceOf := by
  obtain ⟨recipientNotPool, acc, moved⟩ := update_erc20 pool next self now sender recipient value run
  obtain ⟨enough, nextEq⟩ :=
    erc20Update_move _ next self sender recipient value senderNotZero recipientNotZero moved
  subst nextEq
  refine ⟨accounts.book, ?_, ?_, accounts.backed, accounts.drained⟩
  · exact (sum_moveBalance pool.balances sender recipient value enough).trans accounts.supply
  · change moveBalance pool.balances sender recipient value self = _
    rw [moveBalance_of_ne pool.balances sender recipient self value (Ne.symm senderNotPool)
      (Ne.symm recipientNotPool)]
    exact accounts.escrow

/-- Without shares there are no assets, so the first deposit mints shares for
anything it brings in. -/
theorem deposit_terms (accounts : PoolAccounts self now pool balanceOf) (assets shares : Nat)
    (terms : pool.previewDeposit assets = .ok shares ∨ pool.previewMint shares = .ok assets)
    (noShares : pool.totalSupply + shares = 0) : pool.accountedAssets + assets = 0 := by
  have supplyZero : pool.totalSupply = 0 := by omega
  have assetsZero := accounts.drained supplyZero
  have sharesZero : shares = 0 := by omega
  rcases terms with preview | preview
  · simp only [SingleAssetCoverPool.previewDeposit, SingleAssetCoverPool.convertToSharesDown,
      bind_ok_iff, checkedAdd_ok_iff, mulDiv_ok_iff, SingleAssetCoverPool.totalAssets,
      SingleAssetCoverPool.virtualShares, supplyZero, assetsZero] at preview
    obtain ⟨supply, ⟨-, rfl⟩, total, ⟨-, rfl⟩, -, -, sharesEq⟩ := preview
    omega
  · simp only [SingleAssetCoverPool.previewMint, bind_ok_iff, checkedAdd_ok_iff,
      mulDivUp_ok_iff, SingleAssetCoverPool.totalAssets, SingleAssetCoverPool.virtualShares,
      supplyZero, assetsZero, sharesZero] at preview
    obtain ⟨total, ⟨-, rfl⟩, supply, ⟨-, rfl⟩, -, -, assetsEq⟩ := preview
    simp at assetsEq
    omega

theorem mint_accounts (next : SingleAssetCoverPool) (receiver : Address) (assets shares : Nat)
    (accounts : PoolAccounts self now pool balanceOf) (receiverNotZero : receiver ≠ Address.zero)
    (terms : pool.previewDeposit assets = .ok shares ∨ pool.previewMint shares = .ok assets)
    (run : pool.update self now Address.zero receiver shares = .ok next) :
    PoolAccounts self now { next with accountedAssets := next.accountedAssets + assets }
      (fun token => balanceOf token + if token = pool.asset then assets else 0) := by
  obtain ⟨receiverNotPool, acc, moved⟩ :=
    update_erc20 pool next self now Address.zero receiver shares run
  obtain ⟨-, nextEq⟩ := erc20Update_mint _ next self receiver shares receiverNotZero moved
  subst nextEq
  refine ⟨accounts.book, ?_, ?_, ?_, ?_⟩
  · have changed := sum_differ_at pool.balances
      (Function.update pool.balances receiver (pool.balances receiver + shares))
      receiver (Finset.mem_univ receiver)
      (fun other _ differ => Function.update_of_ne differ _ _)
    rw [Function.update_self] at changed
    have total := accounts.supply
    change ∑ account, Function.update pool.balances receiver
      (pool.balances receiver + shares) account = pool.totalSupply + shares
    omega
  · change Function.update pool.balances receiver (pool.balances receiver + shares) self = _
    rw [Function.update_of_ne (Ne.symm receiverNotPool)]
    exact accounts.escrow
  · intro token
    have kept := accounts.backed token
    rw [reserved_add pool _ assets 0]
    · rw [ite_self]
      omega
    · rfl
    · rfl
    · exact Nat.add_right_comm pool.accountedAssets assets pool.withdrawalReserve
    · rfl
  · exact deposit_terms accounts assets shares terms

/-! ## Requests and redemptions -/

theorem calculateExitEpoch_ok (env : PoolEnv) (pool : SingleAssetCoverPool)
    (requestedAt exitEpoch : Nat)
    (run : SingleAssetCoverPool.calculateExitEpoch env pool requestedAt = .ok exitEpoch) :
    requestedAt + env.registry.exitTimingConfig.unstakeCooldown ≤ exitEpoch ∧
      (pool.nextExitEpochIndex < pool.exitEpochQueue.length →
        pool.exitEpochQueue.getLastD 0 ≤ exitEpoch) := by
  unfold SingleAssetCoverPool.calculateExitEpoch at run
  obtain ⟨earliest, earliestRun, run⟩ := (bind_ok_iff _ _ _).mp run
  obtain ⟨batches, batchesRun, run⟩ := (bind_ok_iff _ _ _).mp run
  obtain ⟨boundary, boundaryRun, run⟩ := (bind_ok_iff _ _ _).mp run
  obtain ⟨epoch, castRun, run⟩ := (bind_ok_iff _ _ _).mp run
  obtain ⟨-, earliestEq⟩ := (checkedAdd_ok_iff _ _ _ _).mp earliestRun
  obtain ⟨interval, batchesEq⟩ := (ceilDiv_ok_iff _ _ _).mp batchesRun
  obtain ⟨-, boundaryEq⟩ := (checkedMul_ok_iff _ _ _ _).mp boundaryRun
  obtain ⟨-, epochEq⟩ := (safeCast_ok_iff _ _ _).mp castRun
  have rounded : earliest ≤ epoch := by
    rw [epochEq, boundaryEq, batchesEq]
    split
    · omega
    · have quotient := Nat.lt_div_mul_add (Nat.pos_of_ne_zero interval) (a := earliest - 1)
      rw [Nat.add_mul, Nat.one_mul]
      omega
  rcases (ite_ok_iff _ _ _ _).mp run with ⟨outstanding, result⟩ | ⟨none, result⟩
  · have exitEq := (pure_ok_iff _ _).mp result
    refine ⟨?_, fun _ => ?_⟩
    · rw [← exitEq]
      split <;> omega
    · rw [← exitEq]
      split <;> omega
  · have exitEq := (pure_ok_iff _ _).mp result
    exact ⟨by omega, fun outstanding => absurd outstanding none⟩

theorem le_getLastD_of_ascending {queue : List Nat} (ascending : queue.Pairwise (· < ·))
    (entry : Nat) (member : entry ∈ queue) : entry ≤ queue.getLastD 0 := by
  have nonempty : queue ≠ [] := List.ne_nil_of_mem member
  have lastEq : queue.getLastD 0 = queue.getLast nonempty := by
    rw [List.getLastD_eq_getLast?, List.getLast?_eq_getLast_of_ne_nil nonempty]
    rfl
  rw [lastEq]
  rw [← List.dropLast_append_getLast nonempty, List.pairwise_append] at ascending
  rw [← List.dropLast_append_getLast nonempty, List.mem_append, List.mem_singleton] at member
  rcases member with earlier | last
  · exact Nat.le_of_lt (ascending.2.2 entry earlier _ (List.mem_singleton.mpr rfl))
  · exact le_of_eq last

/-- The epoch a request gets is later than now and not before any queue entry. -/
theorem assigned_is_last (env : PoolEnv) (exitEpoch : Nat)
    (accounts : PoolAccounts self env.now pool balanceOf)
    (cooldown : env.registry.exitTimingConfig.unstakeCooldown ≠ 0)
    (run : SingleAssetCoverPool.calculateExitEpoch env pool env.now = .ok exitEpoch) :
    env.now < exitEpoch ∧ ∀ entry ∈ pool.exitEpochQueue, entry ≤ exitEpoch := by
  obtain ⟨delayed, afterTail⟩ := calculateExitEpoch_ok env pool env.now exitEpoch run
  have future : env.now < exitEpoch := by omega
  refine ⟨future, ?_⟩
  intro entry member
  by_cases outstanding : pool.nextExitEpochIndex < pool.exitEpochQueue.length
  · exact (le_getLastD_of_ascending accounts.book.ascending entry member).trans
      (afterTail outstanding)
  · have allSettled : entry ∈ (exitLedger pool).settled := by
      change entry ∈ pool.exitEpochQueue.take pool.nextExitEpochIndex
      rw [List.take_of_length_le (by omega)]
      exact member
    have past := accounts.book.settled_past entry allSettled
    omega

theorem enqueueRedeem_accounts (env : PoolEnv) (next : SingleAssetCoverPool)
    (shares exitEpoch : Nat) (accounts : PoolAccounts env.self env.now pool balanceOf)
    (cooldown : env.registry.exitTimingConfig.unstakeCooldown ≠ 0)
    (senderNotZero : env.sender ≠ Address.zero) (senderNotPool : env.sender ≠ env.self)
    (selfNotZero : env.self ≠ Address.zero) (positive : shares ≠ 0)
    (noRequest : (pool.exitRequests env.sender).shares = 0)
    (assigned : SingleAssetCoverPool.calculateExitEpoch env pool env.now = .ok exitEpoch)
    (run : PoolTx.enqueueRedeem env pool shares exitEpoch = .ok next) :
    PoolAccounts env.self env.now next balanceOf := by
  obtain ⟨future, last⟩ := assigned_is_last env exitEpoch accounts cooldown assigned
  obtain ⟨synced, userSynced, global, user, moved⟩ :=
    enqueueRedeem_ok env pool next shares exitEpoch run
  obtain ⟨first, syncedEq⟩ := checkpointGlobalRewards_accumulator _ synced env.self env.now global
  obtain ⟨second, userEq⟩ :=
    checkpointUserRewards_accumulator synced userSynced env.self env.now env.sender user
  subst syncedEq userEq
  obtain ⟨enough, nextEq⟩ :=
    erc20Update_move _ next env.self env.sender env.self shares senderNotZero selfNotZero moved
  subst nextEq
  refine ⟨?_, ?_, ?_, accounts.backed, accounts.drained⟩
  · exact accounts.book.request env.sender shares exitEpoch noRequest positive future last
  · exact (sum_moveBalance pool.balances env.sender env.self shares enough).trans accounts.supply
  · change moveBalance pool.balances env.sender env.self shares env.self =
      ((exitLedger pool).request env.sender shares exitEpoch).escrowed
    rw [moveBalance_payee pool.balances env.sender env.self shares (Ne.symm senderNotPool),
      accounts.book.request_escrowed env.sender shares exitEpoch future, accounts.escrow]

end Pool

/-! ## External calls -/

section Calls

variable {env : PoolEnv} {tx next : PoolTx}

/-- The invariant of the state a call works on. -/
def TxAccounts (env : PoolEnv) (tx : PoolTx) : Prop :=
  PoolAccounts env.self env.now tx.pool (fun token => tx.erc20 token env.self)

/-- What holds of the caller and the Registry in every call. -/
structure CallerOk (env : PoolEnv) : Prop where
  senderNotZero : env.sender ≠ Address.zero
  senderNotPool : env.sender ≠ env.self
  selfNotZero : env.self ≠ Address.zero
  cooldown : env.registry.exitTimingConfig.unstakeCooldown ≠ 0

theorem settled_accounts (maxEpochs : Nat) (accounts : TxAccounts env tx)
    (settled : Settled env tx next maxEpochs) : TxAccounts env next := by
  obtain ⟨pool, events, run, nextEq⟩ := settled
  subst nextEq
  exact settleMatured_accounts maxEpochs pool events accounts run

theorem maybeSettled_accounts (maxEpochs : Nat) (accounts : TxAccounts env tx)
    (first : (env.payoutIncidentActive = false ∧ Settled env tx next maxEpochs) ∨ next = tx) :
    TxAccounts env next := by
  rcases first with ⟨-, settled⟩ | same
  · exact settled_accounts maxEpochs accounts settled
  · subst same
    exact accounts

theorem deposited_accounts (caller : CallerOk env) (receiver : Address) (assets shares : Nat)
    (accounts : TxAccounts env tx) (deposited : Deposited env tx next receiver assets shares) :
    TxAccounts env next := by
  obtain ⟨pool, minted, poolEq⟩ := deposited.minted
  have grown := mint_accounts pool receiver assets shares accounts deposited.receiverNotZero
    deposited.terms minted
  have balances : (fun token => next.erc20 token env.self) = fun token =>
      tx.erc20 token env.self + if token = tx.pool.asset then assets else 0 := by
    funext token
    exact erc20Transfer_credit tx.erc20 next.erc20 tx.pool.asset env.sender env.self assets
      deposited.received (Ne.symm caller.senderNotPool) token
  rw [TxAccounts, poolEq, balances]
  exact grown

theorem requested_accounts (caller : CallerOk env) (settled : PoolTx) (shares exitEpoch : Nat)
    (accounts : TxAccounts env tx) (requested : Requested env tx settled next shares exitEpoch) :
    TxAccounts env next := by
  have settledAccounts := maybeSettled_accounts _ accounts requested.first
  obtain ⟨pool, enqueued, nextEq⟩ := requested.enqueued
  subst nextEq
  exact enqueueRedeem_accounts env pool shares exitEpoch settledAccounts caller.cooldown
    caller.senderNotZero caller.senderNotPool caller.selfNotZero requested.positive
    requested.noRequest requested.assigned enqueued

theorem redeemAssets_last (epoch : ExitEpoch) (shares assets : Nat)
    (run : PoolTx.redeemAssets epoch shares = .ok assets)
    (last : shares = epoch.remainingShares) : assets = epoch.remainingAssets := by
  unfold PoolTx.redeemAssets at run
  rw [if_pos last] at run
  exact ((pure_ok_iff _ _).mp run).symm

theorem maybeSettled_requests (maxEpochs : Nat)
    (first : (env.payoutIncidentActive = false ∧ Settled env tx next maxEpochs) ∨ next = tx) :
    next.pool.exitRequests = tx.pool.exitRequests := by
  rcases first with ⟨-, ⟨pool, events, run, nextEq⟩⟩ | same
  · subst nextEq
    exact (settleMatured_frame tx.pool pool env.self env.now maxEpochs events run).requests
  · rw [same]

theorem completed_accounts (settled : PoolTx) (receiver : Address) (assets : Nat)
    (accounts : TxAccounts env tx)
    (completed : Completed env tx settled next receiver assets) : TxAccounts env next := by
  have settledAccounts := maybeSettled_accounts _ accounts completed.first
  have sameRequests := maybeSettled_requests _ completed.first
  obtain ⟨notPool, -, positive, owed, sharesLeft, assetsLeft, reserveLeft, paid, poolEq, -⟩ :=
    completed
  rw [← sameRequests] at positive owed sharesLeft assetsLeft poolEq
  have bookEq : exitLedger next.pool = (exitLedger settled.pool).pay env.sender assets := by
    rw [poolEq]
    rfl
  refine ⟨?_, ?_, ?_, ?_, ?_⟩
  · rw [bookEq]
    exact settledAccounts.book.pay env.sender assets positive sharesLeft assetsLeft
      (redeemAssets_last _ _ _ owed)
  · rw [poolEq]
    exact settledAccounts.supply
  · rw [bookEq, settledAccounts.book.pay_escrowed env.sender assets
      (Nat.ne_of_gt ((Nat.pos_of_ne_zero positive).trans_le sharesLeft)), poolEq]
    exact settledAccounts.escrow
  · intro token
    have kept := settledAccounts.backed token
    have moved := erc20Transfer_debit settled.erc20 next.erc20 settled.pool.asset env.self
      receiver assets paid notPool token
    have change := reserved_add next.pool settled.pool assets 0 (by rw [poolEq])
      (by rw [poolEq])
      (by
        rw [poolEq]
        change settled.pool.accountedAssets + settled.pool.withdrawalReserve =
          settled.pool.accountedAssets + (settled.pool.withdrawalReserve - assets) + assets
        omega)
      (by rw [poolEq]; rfl) token
    rw [ite_self, Nat.add_zero] at change
    have sameAsset : next.pool.asset = settled.pool.asset := by rw [poolEq]
    rw [sameAsset] at change
    omega
  · rw [poolEq]
    exact settledAccounts.drained

theorem rewardClaimed_accounts (caller : CallerOk env) (synced : SingleAssetCoverPool)
    (accounts : TxAccounts env tx) (claimed : RewardClaimed env tx next synced) :
    TxAccounts env next := by
  obtain ⟨⟨global, globalRun, userRun⟩, paid⟩ := claimed
  obtain ⟨first, globalEq⟩ :=
    checkpointGlobalRewards_accumulator tx.pool global env.self env.now globalRun
  obtain ⟨second, syncedEq⟩ :=
    checkpointUserRewards_accumulator global synced env.self env.now env.sender userRun
  subst globalEq syncedEq
  have syncedAccounts := (accounts.withAccumulator first).withAccumulator second
  rcases paid with ⟨-, nextEq⟩ | ⟨-, enough, transferred, poolEq, -⟩
  · subst nextEq
    exact syncedAccounts
  · generalize reward : ((withAccumulator (withAccumulator tx.pool first) second).rewardState
      env.sender).rewards = amount at enough transferred poolEq
    refine ⟨?_, ?_, ?_, ?_, ?_⟩
    · rw [poolEq]
      exact syncedAccounts.book
    · rw [poolEq]
      exact syncedAccounts.supply
    · rw [poolEq]
      exact syncedAccounts.escrow
    · intro token
      have kept : reserved tx.pool token ≤ tx.erc20 token env.self := accounts.backed token
      have moved := erc20Transfer_debit tx.erc20 next.erc20 tx.pool.usd8 env.self env.sender
        amount transferred caller.senderNotPool token
      have change := reserved_add next.pool tx.pool 0 amount (by rw [poolEq]; rfl)
        (by rw [poolEq]; rfl) (by rw [poolEq]; rfl)
        (by
          rw [poolEq]
          change tx.pool.rewardReserve = tx.pool.rewardReserve - amount + amount
          change amount ≤ tx.pool.rewardReserve at enough
          omega) token
      have sameUsd8 : next.pool.usd8 = tx.pool.usd8 := by rw [poolEq]; rfl
      rw [ite_self, Nat.add_zero, sameUsd8] at change
      omega
    · rw [poolEq]
      exact syncedAccounts.drained

theorem profitReceived_accounts (caller : CallerOk env) (amount : Nat)
    (synced : SingleAssetCoverPool) (newDuration newRate : Nat) (accounts : TxAccounts env tx)
    (profit : ProfitReceived env tx next amount synced newDuration newRate) :
    TxAccounts env next := by
  obtain ⟨acc, syncedEq⟩ := checkpointGlobalRewards_accumulator _ synced env.self env.now
    profit.checkpointed
  have poolEq := profit.pool
  subst syncedEq
  refine ⟨?_, ?_, ?_, ?_, ?_⟩
  · rw [poolEq]
    exact accounts.book
  · rw [poolEq]
    exact accounts.supply
  · rw [poolEq]
    exact accounts.escrow
  · intro token
    have kept := accounts.backed token
    have moved := erc20Transfer_credit tx.erc20 next.erc20 tx.pool.usd8 env.sender env.self
      amount profit.received (Ne.symm caller.senderNotPool) token
    have change := reserved_add tx.pool next.pool 0 amount (by rw [poolEq]; rfl)
      (by rw [poolEq]; rfl) (by rw [poolEq]; rfl) (by rw [poolEq]; rfl) token
    rw [ite_self, Nat.add_zero] at change
    omega
  · rw [poolEq]
    exact accounts.drained

theorem claimPaid_accounts (recipient : Address) (amount : Nat) (accounts : TxAccounts env tx)
    (claim : ClaimPaid env tx next recipient amount) : TxAccounts env next := by
  rcases claim.paid with ⟨-, nextEq⟩ | ⟨-, enough, transferred, poolEq, -⟩
  · subst nextEq
    exact accounts
  · refine ⟨?_, ?_, ?_, ?_, ?_⟩
    · rw [poolEq]
      exact accounts.book
    · rw [poolEq]
      exact accounts.supply
    · rw [poolEq]
      exact accounts.escrow
    · intro token
      have kept := accounts.backed token
      have moved := erc20Transfer_debit tx.erc20 next.erc20 tx.pool.asset env.self recipient
        amount transferred claim.recipientNotPool token
      have change := reserved_add next.pool tx.pool amount 0 (by rw [poolEq]) (by rw [poolEq])
        (by
          rw [poolEq]
          change tx.pool.accountedAssets + tx.pool.withdrawalReserve =
            tx.pool.accountedAssets - amount + tx.pool.withdrawalReserve + amount
          omega)
        (by rw [poolEq]; rfl) token
      have sameAsset : next.pool.asset = tx.pool.asset := by rw [poolEq]
      rw [ite_self, Nat.add_zero, sameAsset] at change
      omega
    · rw [poolEq]
      intro empty
      have none : tx.pool.accountedAssets = 0 := accounts.drained empty
      change tx.pool.accountedAssets - amount = 0
      omega

theorem sweepToken_accounts (token recipient : Address) (accounts : TxAccounts env tx)
    (run : PoolTx.sweepToken env tx token recipient = .ok next) : TxAccounts env next := by
  obtain ⟨notPool, amount, amountEq, transferred, poolEq, -⟩ :=
    sweepToken_ok env tx next token recipient run
  rw [TxAccounts, poolEq]
  refine { accounts with backed := ?_ }
  intro other
  have kept := accounts.backed other
  have moved := erc20Transfer_debit tx.erc20 next.erc20 token env.self recipient amount
    transferred notPool other
  by_cases same : other = token
  · subst same
    rw [if_pos rfl] at moved
    omega
  · rw [if_neg same, Nat.add_zero] at moved
    omega

/-- Every external call keeps the accounts of the pool it is made to. -/
theorem exec_accounts (caller : CallerOk env) (call : PoolCall) (accounts : TxAccounts env tx)
    (run : PoolTx.exec env tx call = .ok next) : TxAccounts env next := by
  unfold PoolTx.exec at run
  obtain ⟨_, -, run⟩ := (bind_ok_iff _ _ _).mp run
  cases call with
  | deposit assets receiver =>
      obtain ⟨shares, deposited⟩ := deposit_ok env tx next assets receiver run
      exact deposited_accounts caller receiver assets shares accounts deposited
  | mint shares receiver =>
      obtain ⟨assets, deposited⟩ := mint_ok env tx next shares receiver run
      exact deposited_accounts caller receiver assets shares accounts deposited
  | transfer recipient value =>
      obtain ⟨notZero, pool, updated, nextEq⟩ := transfer_ok env tx next recipient value run
      subst nextEq
      exact move_accounts pool env.sender recipient value accounts caller.senderNotZero
        caller.senderNotPool notZero updated
  | requestRedeem shares =>
      obtain ⟨settled, exitEpoch, requested⟩ := requestRedeem_ok env tx next shares run
      exact requested_accounts caller settled shares exitEpoch accounts requested
  | settleMaturedExitEpochs maxEpochs =>
      exact settled_accounts maxEpochs accounts
        (settleMaturedExitEpochs_ok env tx next maxEpochs run).2
  | completeRedeem receiver =>
      obtain ⟨settled, assets, completed⟩ := completeRedeem_ok env tx next receiver run
      exact completed_accounts settled receiver assets accounts completed
  | claimReward =>
      obtain ⟨synced, claimed⟩ := claimReward_ok env tx next run
      exact rewardClaimed_accounts caller synced accounts claimed
  | receiveProfitDistribution amount =>
      obtain ⟨synced, newDuration, newRate, profit⟩ :=
        receiveProfitDistribution_ok env tx next amount run
      exact profitReceived_accounts caller amount synced newDuration newRate accounts profit
  | payClaim recipient amount =>
      exact claimPaid_accounts recipient amount accounts
        (payClaim_ok env tx next recipient amount run)
  | setRewardsDuration newDuration =>
      have nextEq := setRewardsDuration_ok env tx next newDuration run
      subst nextEq
      exact ⟨accounts.book, accounts.supply, accounts.escrow, accounts.backed, accounts.drained⟩
  | setDepositCap newCap =>
      have nextEq := setDepositCap_ok env tx next newCap run
      subst nextEq
      exact ⟨accounts.book, accounts.supply, accounts.escrow, accounts.backed, accounts.drained⟩
  | sweepToken token recipient => exact sweepToken_accounts token recipient accounts run

end Calls

end Usd8Core.Pool
