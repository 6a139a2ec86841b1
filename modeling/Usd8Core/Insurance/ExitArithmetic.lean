import Usd8Core.Insurance.MaturedExits
import Usd8Core.Pool.SharePrice
import Usd8Core.Pool.TokenSupply
import Usd8Core.Pool.UpdateArithmetic

/-!
# Exits never fail in arithmetic

Settling an epoch and paying a request form products of shares, assets and rewards.  The
accounts, the exit book and the reward budget bound all of them, so neither a settlement
nor a redemption reverts with one of the compiler's errors.
-/

set_option autoImplicit false

namespace Usd8Core.Insurance

open Usd8Core.Lib.ByteWords
open Usd8Core.Lib.CheckedCall
open Usd8Core.Lib.TraceRun
open Usd8Core.Lib.VirtualShares
open Usd8Core.Chain
open Usd8Core.Pool
open SingleAssetCoverPool (virtualShares)

/-- A pool whose numbers leave room for every exit. -/
structure ExitReady (here : Address) (now distributed : Nat) (pool : SingleAssetCoverPool)
    (balanceOf : Address → Nat) : Prop where
  accounts : PoolAccounts here now pool balanceOf
  rewards : RewardsSolvent here now pool
  funded : Funded distributed pool
  assets : balanceOf pool.asset + 1 < uintBound 256

/-- The block time and the distributions stay far below the word. -/
structure Bounded (now distributed : Nat) : Prop where
  inTime : now < uintBound 63
  fits : distributed * rewardScale < uintBound 256

section Settlement

variable {here : Address} {now distributed : Nat} {pool next : SingleAssetCoverPool}
  {balanceOf : Address → Nat}

/-- The longest stream that starts now ends within the word. -/
theorem Bounded.streamInWord (bounded : Bounded now distributed) :
    now + maxRewardsDuration < uintBound 64 := by
  have inTime := bounded.inTime
  simp only [uintBound, maxRewardsDuration] at inTime ⊢
  omega

theorem Bounded.inWord (bounded : Bounded now distributed) : now < uintBound 64 :=
  (Nat.le_add_right _ _).trans_lt bounded.streamInWord

theorem ExitReady.principal (ready : ExitReady here now distributed pool balanceOf) :
    pool.accountedAssets + pool.withdrawalReserve + 1 < uintBound 256 := by
  have backed := ready.accounts.backed pool.asset
  have bound := ready.assets
  unfold reserved at backed
  rw [if_pos rfl] at backed
  omega

theorem ExitReady.sums (ready : ExitReady here now distributed pool balanceOf) :
    SumsFit pool := by
  have principal := ready.principal
  refine ⟨ready.funded.budget.supply, ?_⟩
  rw [SingleAssetCoverPool.totalAssets]
  omega

/-- The shares of the epoch under the cursor are part of the supply. -/
theorem ExitReady.epochShares (index exitEpoch : Nat)
    (ready : ExitReady here now distributed (atIndex pool index) balanceOf)
    (atCursor : pool.exitEpochQueue[index]? = some exitEpoch) :
    (pool.exitEpochs exitEpoch).totalShares ≤ pool.totalSupply := by
  have held : pool.balances here ≤ pool.totalSupply := balance_le_supply ready.accounts here
  have entry : (exitLedger (atIndex pool index)).queue[(exitLedger (atIndex pool index)).index]? =
      some exitEpoch := atCursor
  have split := ready.accounts.book.settle_escrowed exitEpoch 0 entry
  have escrow : pool.balances here = (exitLedger (atIndex pool index)).escrowed :=
    ready.accounts.escrow
  have shares : ((exitLedger (atIndex pool index)).epochs exitEpoch).totalShares =
      (pool.exitEpochs exitEpoch).totalShares := rfl
  omega

/-- What an epoch is settled for is computed without trouble, and the pool has it. -/
theorem epochAssets_noPanic (pool : SingleAssetCoverPool) (shares : Nat) (inside : shares ≤ pool.totalSupply)
    (ready : ExitReady here now distributed pool balanceOf) :
    ∃ assets, (if shares = pool.totalSupply then pure pool.accountedAssets
      else pool.previewRedeem shares : Call Nat) = .ok assets ∧
        assets ≤ pool.accountedAssets := by
  by_cases whole : shares = pool.totalSupply
  · rw [if_pos whole]
    exact ⟨_, rfl, le_rfl⟩
  · rw [if_neg whole]
    have covered : toAssetsDown priceOffset (vault pool) shares ≤ pool.accountedAssets :=
      toAssetsDown_covered rfl inside
    have principal := ready.principal
    refine ⟨_, (convertToAssetsDown_ok_iff shares _).mpr ⟨ready.sums, ?_, rfl⟩, covered⟩
    omega

theorem settleEpoch_noPanic (bounded : Bounded now distributed) (index exitEpoch : Nat)
    (ready : ExitReady here now distributed (atIndex pool index) balanceOf)
    (atCursor : pool.exitEpochQueue[index]? = some exitEpoch) :
    Avoids IsPanic (pool.settleEpoch here now exitEpoch) := by
  have inside := ready.epochShares index exitEpoch atCursor
  have principal : pool.accountedAssets + pool.withdrawalReserve + 1 < uintBound 256 :=
    ready.principal
  obtain ⟨assets, valued, covered⟩ := epochAssets_noPanic (atIndex pool index)
    (pool.exitEpochs exitEpoch).totalShares inside ready
  have assetsRun : (if (pool.exitEpochs exitEpoch).totalShares = pool.totalSupply then
      pure pool.accountedAssets else
        pool.previewRedeem (pool.exitEpochs exitEpoch).totalShares : Call Nat) = .ok assets :=
    valued
  have enough : assets ≤ pool.accountedAssets := covered
  unfold SingleAssetCoverPool.settleEpoch
  simp only
  rw [bind_after assetsRun]
  apply avoids_bind _ _ (checkedSub_ordered enough)
  intro accounted accountedRun
  apply avoids_bind _ _ (checkedAdd_fits (by omega))
  intro reserve reserveRun
  apply avoids_bind
  · unfold SingleAssetCoverPool.burnShares
    apply check_avoids (by simp [IsPanic])
    intro notZero
    apply update_avoids bounded.streamInWord (by simp [IsPanic]) bounded.fits
    · refine ⟨ready.accounts.supply, ?_, ?_⟩
      · exact ⟨ready.rewards.paid_le, ready.rewards.own, ready.rewards.updated_le,
          ready.rewards.solvent⟩
      · exact ready.funded.ofSame ⟨rfl, rfl, rfl, rfl, rfl, rfl⟩ le_rfl rfl
    · exact fun isZero => absurd isZero notZero
  · intro burnt _
    exact avoids_pure _

/-- A settled epoch leaves the pool ready for the next one. -/
theorem settleEpoch_ready (bounded : Bounded now distributed) (index exitEpoch : Nat)
    (event : Event) (ready : ExitReady here now distributed (atIndex pool index) balanceOf)
    (atCursor : pool.exitEpochQueue[index]? = some exitEpoch) (matured : exitEpoch ≤ now)
    (run : pool.settleEpoch here now exitEpoch = .ok (next, event)) :
    ExitReady here now distributed (atIndex next (index + 1)) balanceOf := by
  obtain ⟨accounts, -⟩ :=
    settleEpoch_accounts index exitEpoch next event ready.accounts atCursor matured run
  have frame := settleEpoch_frame pool next here now exitEpoch event run
  obtain ⟨assets, -, -, -, -, burnt⟩ := settleEpoch_ok pool next here now exitEpoch event run
  have fixed : RewardsSolvent here now (fixedEpoch pool exitEpoch assets) :=
    ⟨ready.rewards.paid_le, ready.rewards.own, ready.rewards.updated_le, ready.rewards.solvent⟩
  have supply : ∑ account, (fixedEpoch pool exitEpoch assets).balances account =
      (fixedEpoch pool exitEpoch assets).totalSupply := ready.accounts.supply
  have rewards := update_solvent bounded.inWord supply fixed here Address.zero _ burnt
  have before : RewardBudget distributed pool :=
    ready.funded.budget.ofSame ⟨rfl, rfl, rfl, rfl, rfl, rfl⟩ ready.funded.budget.supply
  have budget : RewardBudget distributed next :=
    settleEpoch_budget bounded.inWord before ready.rewards.updated_le exitEpoch event run
  have reserve : next.rewardReserve ≤ distributed :=
    frame.rewardReserve.le.trans ready.funded.reserve
  refine ⟨accounts, ⟨rewards.paid_le, rewards.own, rewards.updated_le, rewards.solvent⟩, ?_, ?_⟩
  · exact Funded.ofSame ⟨budget, reserve⟩ ⟨rfl, rfl, rfl, rfl, rfl, rfl⟩ le_rfl rfl
  · change balanceOf next.asset + 1 < _
    rw [frame.asset]
    exact ready.assets

theorem settleLoop_noPanic (bounded : Bounded now distributed) (maxEpochs : Nat)
    (queue rest : List Nat) :
    ∀ (index count : Nat) (pool : SingleAssetCoverPool) (events : List Event),
      queue.drop index = rest → pool.exitEpochQueue = queue →
      ExitReady here now distributed (atIndex pool index) balanceOf →
        Avoids IsPanic
          (SingleAssetCoverPool.settleLoop here now maxEpochs rest count pool events) := by
  induction rest with
  | nil =>
      intro index count pool events _ _ _
      exact avoids_ok _
  | cons exitEpoch rest ih =>
      intro index count pool events dropped sameQueue ready
      have atCursor : pool.exitEpochQueue[index]? = some exitEpoch := by
        rw [sameQueue, ← List.head?_drop, dropped, List.head?_cons]
      have dropsNext : queue.drop (index + 1) = rest := by
        rw [← List.tail_drop, dropped, List.tail_cons]
      unfold SingleAssetCoverPool.settleLoop
      apply avoids_ite
      · intro _
        apply avoids_ite
        · intro _
          exact avoids_ok _
        · intro matured
          apply avoids_bind _ _ (settleEpoch_noPanic bounded index exitEpoch ready atCursor)
          rintro ⟨next, event⟩ epochRun
          have frame := settleEpoch_frame pool next here now exitEpoch event epochRun
          apply ih (index + 1) (count + 1) next _ dropsNext (frame.queue.trans sameQueue)
          exact settleEpoch_ready bounded index exitEpoch event ready atCursor
            (Nat.le_of_not_lt matured) epochRun
      · intro _
        exact avoids_ok _

theorem settleMatured_noPanic (bounded : Bounded now distributed) (maxEpochs : Nat)
    (ready : ExitReady here now distributed pool balanceOf) :
    Avoids IsPanic (pool.settleMatured here now maxEpochs) := by
  unfold SingleAssetCoverPool.settleMatured
  apply avoids_bind
  · exact settleLoop_noPanic bounded maxEpochs pool.exitEpochQueue _ pool.nextExitEpochIndex 0 pool
      [] rfl rfl ready
  · intro settled _
    exact avoids_pure _

theorem settleMatured_ready (bounded : Bounded now distributed) (maxEpochs : Nat)
    (events : List Event) (ready : ExitReady here now distributed pool balanceOf)
    (run : pool.settleMatured here now maxEpochs = .ok (next, events)) :
    ExitReady here now distributed next balanceOf := by
  have frame := settleMatured_frame pool next here now maxEpochs events run
  refine ⟨settleMatured_accounts maxEpochs next events ready.accounts run, ?_, ?_, ?_⟩
  · exact settleMatured_solvent bounded.inWord maxEpochs events _ ready.accounts ready.rewards run
  · exact (settleMatured_funded bounded.inWord maxEpochs events ready.funded
      ready.rewards.updated_le run).1
  · rw [frame.asset]
    exact ready.assets

/-- Settling all that is outstanding leaves no matured epoch. -/
theorem settleOutstanding_settled (exitEpoch : Nat) (events : List Event)
    (ordered : ExitBook now (exitLedger pool))
    (queued : exitEpoch ∈ pool.exitEpochQueue) (matured : exitEpoch ≤ now)
    (run : pool.settleMatured here now
      (pool.exitEpochQueue.length - pool.nextExitEpochIndex) = .ok (next, events)) :
    exitEpoch ∈ (exitLedger next).settled := by
  have frame := settleMatured_frame pool next here now _ events run
  unfold SingleAssetCoverPool.settleMatured at run
  obtain ⟨⟨settled, all, count⟩, loopRun, result⟩ := (bind_ok_iff _ _ _).mp run
  obtain ⟨done, countEq, inside, stopped⟩ :=
    settleLoop_stops _ (pool.exitEpochQueue.drop pool.nextExitEpochIndex) 0 [] all count loopRun
  have indexEq : next.nextExitEpochIndex = pool.nextExitEpochIndex + done := by
    cases (pure_ok_iff _ _).mp result
    rw [countEq, Nat.zero_add]
  rw [List.length_drop] at inside
  change exitEpoch ∈ next.exitEpochQueue.take next.nextExitEpochIndex
  rw [frame.queue, indexEq]
  rw [← List.take_append_drop (pool.nextExitEpochIndex + done) pool.exitEpochQueue,
    List.mem_append] at queued
  rcases queued with before | after
  · exact before
  · exfalso
    obtain ⟨i, isInside, valueEq⟩ := List.mem_iff_getElem.mp after
    rw [List.length_drop] at isInside
    have headInside : pool.nextExitEpochIndex + done < pool.exitEpochQueue.length := by omega
    have headFuture := (stopped.resolve_left (by omega))
      (pool.exitEpochQueue[pool.nextExitEpochIndex + done]) (by
        rw [List.drop_drop, List.head?_drop, List.getElem?_eq_getElem headInside])
    rw [List.getElem_drop] at valueEq
    have ascending : pool.exitEpochQueue.Pairwise (· < ·) := ordered.ascending
    rcases Nat.eq_zero_or_pos i with zero | positive
    · subst zero
      simp only [Nat.add_zero] at valueEq
      omega
    · have above := List.pairwise_iff_getElem.mp ascending _ _ headInside (by omega)
        (show pool.nextExitEpochIndex + done < pool.nextExitEpochIndex + done + i by omega)
      omega

/-- An epoch nobody has settled holds no shares to collect. -/
theorem unsettled_waits {user : Address} (ordered : ExitBook now (exitLedger pool))
    (holds : (pool.exitRequests user).shares ≠ 0)
    (empty : (pool.exitEpochs (pool.exitRequests user).exitEpoch).remainingShares = 0) :
    (pool.exitRequests user).exitEpoch ∈ pool.exitEpochQueue ∧
      (pool.exitRequests user).exitEpoch ∉ (exitLedger pool).settled := by
  have requested : (pool.exitRequests user).shares ≤
      (exitLedger pool).requested (pool.exitRequests user).exitEpoch := by
    have one := Finset.single_le_sum (s := Finset.univ)
      (f := ((exitLedger pool).receipt (pool.exitRequests user).exitEpoch).shares)
      (fun _ _ => Nat.zero_le _) (Finset.mem_univ user)
    have own : ((exitLedger pool).receipt (pool.exitRequests user).exitEpoch).shares user =
        (pool.exitRequests user).shares := if_pos rfl
    rw [own] at one
    exact one
  constructor
  · by_contra outside
    have none := (ordered.unused _ outside).2.2
    omega
  · intro settled
    have shares := ordered.settled_shares _ settled
    change (pool.exitEpochs (pool.exitRequests user).exitEpoch).remainingShares = _ at shares
    omega

/-- A settled epoch covers a request, and its assets fit the word. -/
theorem payRequest_noPanic (env : PoolEnv) (tx : PoolTx) (receiver : Address) {count : Nat}
    (ready : ExitReady here now distributed tx.pool balanceOf)
    (settled : (tx.pool.exitRequests env.sender).exitEpoch ∈ (exitLedger tx.pool).settled)
    (balanced : ((exitLedger tx.pool).receipt
      (tx.pool.exitRequests env.sender).exitEpoch).Balanced count) :
    Avoids IsPanic (PoolTx.payRequest env tx receiver (tx.pool.exitRequests env.sender)) := by
  have covered : (tx.pool.exitEpochs (tx.pool.exitRequests env.sender).exitEpoch).remainingAssets ≤
      tx.pool.withdrawalReserve := ready.accounts.book.remaining_le_reserve _ settled
  have principal := ready.principal
  intro error failed
  rintro ⟨reason, same⟩
  refine payRequest_avoids env tx receiver balanced covered error failed ⟨reason, same, ?_⟩
  intro _
  omega

end Settlement

/-! ## The calls of a pool -/

section Calls

variable {env : PoolEnv} {tx : PoolTx} {distributed : Nat} {balanceOf : Address → Nat}

theorem settleMaturedExitEpochs_noPanic (bounded : Bounded env.now distributed) (maxEpochs : Nat)
    (ready : ExitReady env.self env.now distributed tx.pool balanceOf) :
    Avoids IsPanic (PoolTx.settleMaturedExitEpochs env tx maxEpochs) := by
  unfold PoolTx.settleMaturedExitEpochs
  apply check_avoids (by simp [IsPanic])
  intro _
  apply avoids_bind _ _ (settleMatured_noPanic bounded maxEpochs ready)
  intro settled _
  exact avoids_pure _

theorem settleAll_noPanic (bounded : Bounded env.now distributed)
    (ready : ExitReady env.self env.now distributed tx.pool balanceOf) :
    Avoids IsPanic (PoolTx.settleAll env tx) := by
  unfold PoolTx.settleAll
  apply avoids_bind _ _ (checkedSub_ordered ready.accounts.book.index_le)
  intro outstanding _
  apply avoids_bind _ _ (settleMatured_noPanic bounded outstanding ready)
  intro settled _
  exact avoids_pure _

/-- Whether its epoch was settled before or is settled now, a request is paid. -/
theorem completeRedeem_noPanic (bounded : Bounded env.now distributed) (receiver : Address)
    (ready : ExitReady env.self env.now distributed tx.pool balanceOf)
    (balanced : ∀ exitEpoch ∈ (exitLedger tx.pool).settled,
      ∃ count, ((exitLedger tx.pool).receipt exitEpoch).Balanced count) :
    Avoids IsPanic (PoolTx.completeRedeem env tx receiver) := by
  unfold PoolTx.completeRedeem PoolTx.settleForRedeem requireNotPaused
  apply check_avoids (by simp [IsPanic])
  intro _
  apply check_avoids (by simp [IsPanic])
  intro _
  apply check_avoids (by simp [IsPanic])
  intro holds
  by_cases empty : (tx.pool.exitEpochs
      (tx.pool.exitRequests env.sender).exitEpoch).remainingShares = 0
  · obtain ⟨queued, notSettled⟩ := unsettled_waits ready.accounts.book holds empty
    rw [if_pos empty]
    apply avoids_bind
    · apply check_avoids (by simp [IsPanic])
      intro _
      apply check_avoids (by simp [IsPanic])
      intro _
      exact settleAll_noPanic bounded ready
    · intro settled run
      obtain ⟨_, elapsed, run⟩ := (bind_ok_iff _ _ _).mp run
      obtain ⟨_, -, run⟩ := (bind_ok_iff _ _ _).mp run
      have matured := Nat.le_of_not_lt ((revertIf_ok_iff _ _ _).mp elapsed)
      obtain ⟨pool, events, settleRun, rfl⟩ := settleAll_ok env tx settled run
      have isSettled := settleOutstanding_settled _ events ready.accounts.book queued matured
        settleRun
      have fresh := (settleMatured_untouched _ events ready.accounts settleRun).fresh notSettled
        isSettled
      have sameRequests := (settleMatured_frame _ _ _ _ _ events settleRun).requests
      rw [← sameRequests] at isSettled fresh ⊢
      exact payRequest_noPanic env { tx with pool := pool, events := tx.events ++ events } receiver
        (settleMatured_ready bounded _ events ready settleRun) isSettled fresh.balanced
  · have isSettled : (tx.pool.exitRequests env.sender).exitEpoch ∈ (exitLedger tx.pool).settled := by
      by_contra notSettled
      apply empty
      by_cases queued : (tx.pool.exitRequests env.sender).exitEpoch ∈ (exitLedger tx.pool).queue
      · have waiting := (ExitBook.mem_queue_iff _ _).mp queued
        exact (ready.accounts.book.unsettled_open _ (waiting.resolve_left notSettled)).2
      · exact (ready.accounts.book.unused _ queued).2.1
    obtain ⟨count, ledger⟩ := balanced _ isSettled
    rw [if_neg empty]
    exact payRequest_noPanic env tx receiver ready isSettled ledger

end Calls

/-! ## In a run of the system -/

section Runs

variable {platform : Platform} {p m : Address} {w next : World} {pool : SingleAssetCoverPool}
  {steps : List (Transition World Tx)}

/-- The asset's supply and what was distributed to the pool stay below the word. -/
structure WithinLimits (p : Address) (steps : List (Transition World Tx)) (w : World)
    (pool : SingleAssetCoverPool) : Prop where
  supply : tokenSupply w.erc20 pool.asset < uintBound 256 - 1
  distributed : distributed p steps * rewardScale < uintBound 256

theorem run_exitReady (run : SystemRun platform steps w) (present : w.pools p = some pool)
    (limits : WithinLimits p steps w pool) :
    ExitReady p w.now (distributed p steps) pool (fun token => w.erc20 token p) := by
  have inOrder := reachable_poolInOrder run.reachable present
  refine ⟨inOrder.accounts, inOrder.rewards, run_funded run present, ?_⟩
  have one := balance_le_tokenSupply w.erc20 pool.asset p
  have supply := limits.supply
  omega

/-- The receipts of all settled epochs are still balanced. -/
theorem run_balanced (run : SystemRun platform steps w) (present : w.pools p = some pool) :
    ∀ exitEpoch ∈ (exitLedger pool).settled,
      ∃ count, ((exitLedger pool).receipt exitEpoch).Balanced count := by
  intro exitEpoch settled
  have history : EpochHistory p exitEpoch steps pool := (run_history run).1 pool present
  obtain ⟨receipt, fresh, -, -, now, -⟩ := history.since settled
  rw [now]
  exact ⟨_, fresh.balanced.after _⟩

/-- Opening an incident settles the listed pools one after the other, each by itself. -/
theorem settleListedPools_noPanic (m : Address) (total : Address → Nat)
    (ready : ∀ p ∈ w.registry.coverPools, ∀ pool, w.pools p = some pool →
      Bounded w.now (total p) ∧
        ExitReady p w.now (total p) pool (fun token => w.erc20 token p)) :
    Avoids IsPanic (w.settleListedPools m) := by
  unfold World.settleListedPools
  apply avoids_foldlM_mem _ (fun world => world.now = w.now ∧ ∀ p ∈ w.registry.coverPools,
    ∀ pool, world.pools p = some pool → Bounded w.now (total p) ∧
      ExitReady p w.now (total p) pool (fun token => w.erc20 token p))
  · intro other listed world after holds run
    obtain ⟨sameBlock, -, -, -, otherPools⟩ := callPool_frame m _ run
    refine ⟨by rw [World.now, sameBlock]; exact holds.1, ?_⟩
    intro p member pool present
    by_cases same : p = other
    · subst same
      obtain ⟨before, settled, events, presentBefore, presentAfter, settleRun⟩ :=
        settleCall_pool run
      cases present.symm.trans presentAfter
      rw [holds.1] at settleRun
      obtain ⟨bounded, before⟩ := holds.2 p member before presentBefore
      exact ⟨bounded, settleMatured_ready bounded _ events before settleRun⟩
    · exact holds.2 p member pool ((otherPools p same).symm.trans present)
  · intro other listed world holds
    apply callPool_avoids (by simp [IsPanic])
    intro pool present
    unfold PoolTx.exec
    apply check_avoids (by simp [IsPanic])
    intro _
    obtain ⟨bounded, before⟩ := holds.2 other listed pool present
    rw [← holds.1] at bounded before
    exact settleMaturedExitEpochs_noPanic bounded _ before
  · exact ⟨rfl, ready⟩

/-- Neither a settlement nor a redemption nor the settlement loop of a new incident ever
fails in arithmetic. -/
theorem exits_never_overflow (run : SystemRun platform steps w) (inTime : w.now < uintBound 63) :
    (∀ p pool, w.pools p = some pool → WithinLimits p steps w pool →
      (∀ sender maxEpochs,
        Avoids IsPanic (w.callPool p sender (.settleMaturedExitEpochs maxEpochs))) ∧
      ∀ sender receiver, Avoids IsPanic (w.callPool p sender (.completeRedeem receiver))) ∧
    ∀ m, (∀ p ∈ w.registry.coverPools, ∀ pool, w.pools p = some pool →
        WithinLimits p steps w pool) →
      Avoids IsPanic (w.settleListedPools m) := by
  constructor
  · intro p pool present limits
    have ready := run_exitReady run present limits
    have bounded : Bounded w.now (distributed p steps) := ⟨inTime, limits.distributed⟩
    constructor
    · intro sender maxEpochs
      apply callPool_avoids (by simp [IsPanic])
      intro found foundPresent
      cases present.symm.trans foundPresent
      unfold PoolTx.exec
      apply check_avoids (by simp [IsPanic])
      intro _
      exact settleMaturedExitEpochs_noPanic bounded maxEpochs ready
    · intro sender receiver
      apply callPool_avoids (by simp [IsPanic])
      intro found foundPresent
      cases present.symm.trans foundPresent
      unfold PoolTx.exec
      apply check_avoids (by simp [IsPanic])
      intro _
      exact completeRedeem_noPanic bounded receiver ready (run_balanced run present)
  · intro m limits
    apply settleListedPools_noPanic m (fun p => distributed p steps)
    intro p listed pool present
    have within := limits p listed pool present
    exact ⟨⟨inTime, within.distributed⟩, run_exitReady run present within⟩

/-- In the small deployment an epoch has matured and is not settled, and its pool is listed. -/
theorem smallDeployment_exits_never_overflow :
    ∃ steps w pool, SystemRun SmallDeployment.platform steps w ∧
      w.pools SmallDeployment.pool = some pool ∧
      w.registry.coverPools = [SmallDeployment.pool] ∧
      pool.exitEpochQueue = [1814400, 2073600] ∧ pool.nextExitEpochIndex = 0 ∧
      w.now = 1814400 ∧
      Avoids IsPanic (w.callPool SmallDeployment.pool SmallDeployment.bob
        (.settleMaturedExitEpochs 5)) ∧
      Avoids IsPanic (w.callPool SmallDeployment.pool SmallDeployment.alice
        (.completeRedeem SmallDeployment.alice)) ∧
      Avoids IsPanic (w.settleListedPools SmallDeployment.module) := by
  have passed : endsIn (step SmallDeployment.platform) SmallDeployment.start
      (SmallDeployment.stake ++ SmallDeployment.claim.take 3 ++ SmallDeployment.exit.take 1)
      (fun steps w => decide (w.now = 1814400) &&
        decide (w.registry.coverPools = [SmallDeployment.pool]) &&
        decide (distributed SmallDeployment.pool steps = 604800) &&
        decide (mintedIn SmallDeployment.asset steps = 2000) &&
        (w.pools SmallDeployment.pool).any fun pool => decide (pool.asset = SmallDeployment.asset ∧
          pool.exitEpochQueue = [1814400, 2073600] ∧ pool.nextExitEpochIndex = 0)) = true := by
    decide +kernel
  obtain ⟨steps, w, run, checked⟩ := endsIn_isRun _ _ passed
  simp only [Bool.and_eq_true, decide_eq_true_eq] at checked
  obtain ⟨⟨⟨⟨now, listed⟩, given⟩, minted⟩, checked⟩ := checked
  obtain ⟨pool, present, found⟩ := (Option.any_eq_true _ _).mp checked
  obtain ⟨asset, queue, index⟩ := of_decide_eq_true found
  have supply := run_supply SmallDeployment.asset run
  have start : tokenSupply SmallDeployment.start.erc20 SmallDeployment.asset = 0 :=
    Finset.sum_const_zero
  have limits : WithinLimits SmallDeployment.pool steps w pool := by
    refine ⟨?_, ?_⟩
    · rw [asset]
      simp only [uintBound]
      omega
    · rw [given]
      simp only [rewardScale, uintBound]
      omega
  have systemRun : SystemRun SmallDeployment.platform steps w := ⟨_, _, _, _, _, run⟩
  have inTime : w.now < uintBound 63 := by
    rw [now]
    decide
  obtain ⟨pools, opening⟩ := exits_never_overflow systemRun inTime
  obtain ⟨settles, redeems⟩ := pools _ pool present limits
  refine ⟨steps, w, pool, systemRun, present, listed, queue, index, now, settles _ _,
    redeems _ _, opening _ ?_⟩
  intro p member other presentOther
  rw [listed, List.mem_singleton] at member
  subst member
  cases present.symm.trans presentOther
  exact limits

end Runs

end Usd8Core.Insurance
