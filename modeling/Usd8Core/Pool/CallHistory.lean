import Usd8Core.Pool.Accounting

/-!
# What a pool call leaves behind

Besides the accounts, three things hold of every successful call: the two tokens
of the pool stay the same, no third party loses tokens, and the queue of exit
epochs only grows at its end while the epochs the call logs as settled are
exactly those its cursor passes.
-/

set_option autoImplicit false

namespace Usd8Core.Pool

open Usd8Core.Lib.ByteWords
open Usd8Core.Lib.CheckedCall
open Usd8Core.Lib.FiniteLedger
open Usd8Core.Chain

/-- The epoch an event reports as settled. -/
def settledEpoch : Event → Option Nat
  | .exitEpochSettled exitEpoch _ _ => some exitEpoch
  | _ => none

def settledEpochs (events : List Event) : List Nat := events.filterMap settledEpoch

/-- The cursor is inside the queue or at its end. -/
def CursorInside (pool : SingleAssetCoverPool) : Prop :=
  pool.nextExitEpochIndex ≤ pool.exitEpochQueue.length

/-- The epochs passed between two states of a call are those its events report. -/
def SettlementsLogged (tx next : PoolTx) : Prop :=
  ∃ newly, (exitLedger next.pool).settled = (exitLedger tx.pool).settled ++ newly ∧
    settledEpochs next.events = settledEpochs tx.events ++ newly

/-- Every entry of the queue is a 64-bit time. -/
def QueueFits (pool : SingleAssetCoverPool) : Prop :=
  ∀ exitEpoch ∈ pool.exitEpochQueue, exitEpoch < uintBound 64

/-- Two states of a pool with the same tokens, queue and cursor. -/
structure SameQueue (pool final : SingleAssetCoverPool) : Prop where
  asset : final.asset = pool.asset
  usd8 : final.usd8 = pool.usd8
  queue : final.exitEpochQueue = pool.exitEpochQueue
  index : final.nextExitEpochIndex = pool.nextExitEpochIndex

structure CallFrame (env : PoolEnv) (tx next : PoolTx) : Prop where
  asset : next.pool.asset = tx.pool.asset
  usd8 : next.pool.usd8 = tx.pool.usd8
  others : ∀ token account, account ≠ env.self → account ≠ env.sender →
    tx.erc20 token account ≤ next.erc20 token account
  queue : tx.pool.exitEpochQueue <+: next.pool.exitEpochQueue
  fits : QueueFits tx.pool → QueueFits next.pool
  cursor : CursorInside tx.pool → CursorInside next.pool
  settled : CursorInside tx.pool → SettlementsLogged tx next

section Frames

variable {env : PoolEnv} {tx next : PoolTx}

theorem CallFrame.trans {middle : PoolTx} (first : CallFrame env tx middle)
    (second : CallFrame env middle next) : CallFrame env tx next := by
  refine ⟨second.asset.trans first.asset, second.usd8.trans first.usd8, ?_,
    first.queue.trans second.queue, fun fits => second.fits (first.fits fits),
    fun inside => second.cursor (first.cursor inside), ?_⟩
  · intro token account notPool notSender
    exact (first.others token account notPool notSender).trans
      (second.others token account notPool notSender)
  · intro inside
    obtain ⟨firstNew, firstSettled, firstEvents⟩ := first.settled inside
    obtain ⟨secondNew, secondSettled, secondEvents⟩ := second.settled (first.cursor inside)
    refine ⟨firstNew ++ secondNew, ?_, ?_⟩
    · rw [secondSettled, firstSettled, List.append_assoc]
    · rw [secondEvents, firstEvents, List.append_assoc]

/-- A call that leaves the queue alone and logs no settlement. -/
theorem CallFrame.ofSameQueue (same : SameQueue tx.pool next.pool)
    (events : settledEpochs next.events = settledEpochs tx.events)
    (others : ∀ token account, account ≠ env.self → account ≠ env.sender →
      tx.erc20 token account ≤ next.erc20 token account) : CallFrame env tx next := by
  refine ⟨same.asset, same.usd8, others, ?_, ?_, ?_, fun _ => ⟨[], ?_, ?_⟩⟩
  · rw [same.queue]
  · unfold QueueFits
    rw [same.queue]
    exact id
  · unfold CursorInside
    rw [same.queue, same.index]
    exact id
  · rw [List.append_nil]
    change next.pool.exitEpochQueue.take next.pool.nextExitEpochIndex = _
    rw [same.queue, same.index]
    rfl
  · rw [events, List.append_nil]

theorem settledEpochs_append (first second : List Event) :
    settledEpochs (first ++ second) = settledEpochs first ++ settledEpochs second :=
  List.filterMap_append

/-- A transfer by the pool or by the caller costs nobody else. -/
theorem transfer_others {ledger result : Erc20} (token payer recipient : Address) (amount : Nat)
    (payerKnown : payer = env.self ∨ payer = env.sender)
    (run : erc20Transfer ledger token payer recipient amount = .ok result)
    (other account : Address) (notPool : account ≠ env.self) (notSender : account ≠ env.sender) :
    ledger other account ≤ result other account := by
  apply erc20Transfer_le ledger result token payer recipient amount run
  rcases payerKnown with rfl | rfl
  · exact notPool
  · exact notSender

/-! ## Settlement -/

/-- The cursor passes exactly the epochs that are logged. -/
theorem settleMatured_history (pool final : SingleAssetCoverPool) (here : Address)
    (now maxEpochs : Nat) (events : List Event)
    (inside : CursorInside pool)
    (run : pool.settleMatured here now maxEpochs = .ok (final, events)) :
    final.nextExitEpochIndex ≤ pool.exitEpochQueue.length ∧
      (exitLedger final).settled = (exitLedger pool).settled ++ settledEpochs events := by
  have frame := settleMatured_frame pool final here now maxEpochs events run
  obtain ⟨index, reached, ⟨bound, passed⟩, finalEq⟩ :=
    settleMatured_induct pool final here now maxEpochs events
      (fun index _ events => index ≤ pool.exitEpochQueue.length ∧
        pool.exitEpochQueue.take index = (exitLedger pool).settled ++ settledEpochs events)
      ⟨inside, (List.append_nil _).symm⟩
      (by
        intro index before earlier exitEpoch after event passed atCursor _ epochRun
        obtain ⟨assets, -, -, -, eventEq, -⟩ :=
          settleEpoch_ok before after here now exitEpoch event epochRun
        have further := (List.getElem?_eq_some_iff.mp atCursor).1
        refine ⟨further, ?_⟩
        rw [List.take_add_one, atCursor, passed.2, settledEpochs_append, eventEq,
          List.append_assoc]
        rfl)
      run
  refine ⟨by rw [finalEq]; exact bound, ?_⟩
  change final.exitEpochQueue.take final.nextExitEpochIndex = _
  rw [frame.queue, finalEq]
  exact passed

theorem settled_frame (maxEpochs : Nat)
    (settled : Settled env tx next maxEpochs) : CallFrame env tx next := by
  obtain ⟨pool, events, run, nextEq⟩ := settled
  subst nextEq
  have frame := settleMatured_frame tx.pool pool env.self env.now maxEpochs events run
  have history := settleMatured_history tx.pool pool env.self env.now maxEpochs events
  refine ⟨frame.asset, frame.usd8, fun _ _ _ _ => le_rfl, ?_, ?_, ?_, ?_⟩
  · change tx.pool.exitEpochQueue <+: pool.exitEpochQueue
    rw [frame.queue]
  · unfold QueueFits
    rw [frame.queue]
    exact id
  · intro inside
    change pool.nextExitEpochIndex ≤ pool.exitEpochQueue.length
    rw [frame.queue]
    exact (history inside run).1
  · intro inside
    exact ⟨settledEpochs events, (history inside run).2, settledEpochs_append _ _⟩

theorem maybeSettled_frame (maxEpochs : Nat)
    (first : (env.payoutIncidentActive = false ∧ Settled env tx next maxEpochs) ∨ next = tx) :
    CallFrame env tx next := by
  rcases first with ⟨-, settled⟩ | same
  · exact settled_frame maxEpochs settled
  · subst same
    exact CallFrame.ofSameQueue ⟨rfl, rfl, rfl, rfl⟩ rfl (fun _ _ _ _ => le_rfl)

/-! ## The calls -/

theorem erc20Update_sameQueue (pool final : SingleAssetCoverPool) (here sender recipient : Address)
    (value : Nat) (run : pool.erc20Update here sender recipient value = .ok final) :
    SameQueue pool final := by
  unfold SingleAssetCoverPool.erc20Update at run
  obtain ⟨debited, debitRun, result⟩ := (bind_ok_iff _ _ _).mp run
  cases (pure_ok_iff _ _).mp result
  unfold SingleAssetCoverPool.debitShares at debitRun
  unfold SingleAssetCoverPool.creditShares
  rcases (ite_ok_iff _ _ _ _).mp debitRun with ⟨-, debitRun⟩ | ⟨-, debitRun⟩
  · obtain ⟨supply, -, result⟩ := (bind_ok_iff _ _ _).mp debitRun
    cases (pure_ok_iff _ _).mp result
    split <;> exact ⟨rfl, rfl, rfl, rfl⟩
  · obtain ⟨_, -, result⟩ := (bind_ok_iff _ _ _).mp debitRun
    cases (pure_ok_iff _ _).mp result
    split <;> exact ⟨rfl, rfl, rfl, rfl⟩

theorem update_sameQueue (pool final : SingleAssetCoverPool) (here : Address) (now : Nat)
    (sender recipient : Address) (value : Nat)
    (run : pool.update here now sender recipient value = .ok final) : SameQueue pool final := by
  obtain ⟨-, acc, moved⟩ := update_erc20 pool final here now sender recipient value run
  have same := erc20Update_sameQueue _ final here sender recipient value moved
  exact ⟨same.asset, same.usd8, same.queue, same.index⟩

theorem deposited_frame (receiver : Address) (assets shares : Nat)
    (deposited : Deposited env tx next receiver assets shares) : CallFrame env tx next := by
  obtain ⟨pool, minted, poolEq⟩ := deposited.minted
  have same := update_sameQueue _ _ _ _ _ _ _ minted
  apply CallFrame.ofSameQueue
  · rw [poolEq]
    exact ⟨same.asset, same.usd8, same.queue, same.index⟩
  · rw [deposited.events]
  · exact transfer_others _ env.sender _ _ (Or.inr rfl) deposited.received

theorem queuedRequest_prefix (pool : SingleAssetCoverPool) (user : Address)
    (shares exitEpoch : Nat) :
    pool.exitEpochQueue <+: (queuedRequest pool user shares exitEpoch).exitEpochQueue := by
  unfold queuedRequest
  dsimp only
  split
  · exact List.prefix_append _ _
  · exact List.prefix_rfl

/-- A request gets an entry of the queue or a time cast to 64 bits. -/
theorem calculateExitEpoch_fits (pool : SingleAssetCoverPool) (requestedAt exitEpoch : Nat)
    (fits : QueueFits pool)
    (run : SingleAssetCoverPool.calculateExitEpoch env pool requestedAt = .ok exitEpoch) :
    exitEpoch < uintBound 64 := by
  unfold SingleAssetCoverPool.calculateExitEpoch at run
  obtain ⟨earliest, -, run⟩ := (bind_ok_iff _ _ _).mp run
  obtain ⟨batches, -, run⟩ := (bind_ok_iff _ _ _).mp run
  obtain ⟨boundary, -, run⟩ := (bind_ok_iff _ _ _).mp run
  obtain ⟨epoch, castRun, run⟩ := (bind_ok_iff _ _ _).mp run
  obtain ⟨boundaryFits, epochEq⟩ := (safeCast_ok_iff _ _ _).mp castRun
  rcases (ite_ok_iff _ _ _ _).mp run with ⟨outstanding, result⟩ | ⟨-, result⟩
  · have nonempty : pool.exitEpochQueue ≠ [] := List.ne_nil_of_length_pos (by omega)
    have tailFits : pool.exitEpochQueue.getLastD 0 < uintBound 64 := by
      rw [List.getLastD_eq_getLast?, List.getLast?_eq_getLast_of_ne_nil nonempty]
      exact fits _ (List.getLast_mem nonempty)
    rw [← (pure_ok_iff _ _).mp result]
    split
    · exact tailFits
    · rw [epochEq]
      exact boundaryFits
  · rw [← (pure_ok_iff _ _).mp result, epochEq]
    exact boundaryFits

theorem requested_frame (settled : PoolTx) (shares exitEpoch : Nat)
    (requested : Requested env tx settled next shares exitEpoch) : CallFrame env tx next := by
  have first := maybeSettled_frame _ requested.first
  obtain ⟨pool, enqueued, nextEq⟩ := requested.enqueued
  obtain ⟨synced, userSynced, global, user, moved⟩ :=
    enqueueRedeem_ok env settled.pool pool shares exitEpoch enqueued
  obtain ⟨acc, syncedEq⟩ := checkpointGlobalRewards_accumulator _ synced env.self env.now global
  obtain ⟨userAcc, userEq⟩ :=
    checkpointUserRewards_accumulator synced userSynced env.self env.now env.sender user
  have kept := erc20Update_sameQueue _ pool env.self env.sender env.self shares moved
  subst nextEq userEq syncedEq
  have same : SameQueue (queuedRequest settled.pool env.sender shares exitEpoch) pool :=
    ⟨kept.asset, kept.usd8, kept.queue, kept.index⟩
  have grown := queuedRequest_prefix settled.pool env.sender shares exitEpoch
  have sameIndex : pool.nextExitEpochIndex = settled.pool.nextExitEpochIndex := same.index
  refine first.trans ⟨same.asset, same.usd8, fun _ _ _ _ => le_rfl, ?_, ?_, ?_, ?_⟩
  · change settled.pool.exitEpochQueue <+: pool.exitEpochQueue
    rw [same.queue]
    exact grown
  · intro fits entry member
    have assignedFits := calculateExitEpoch_fits settled.pool _ exitEpoch fits requested.assigned
    change entry ∈ pool.exitEpochQueue at member
    rw [same.queue, queuedRequest] at member
    dsimp only at member
    split at member
    · rcases List.mem_append.mp member with old | newest
      · exact fits entry old
      · rw [List.mem_singleton.mp newest]
        exact assignedFits
    · exact fits entry member
  · intro inside
    change pool.nextExitEpochIndex ≤ pool.exitEpochQueue.length
    rw [same.queue, sameIndex]
    exact inside.trans grown.length_le
  · intro inside
    refine ⟨[], ?_, ?_⟩
    · rw [List.append_nil]
      change pool.exitEpochQueue.take pool.nextExitEpochIndex =
        settled.pool.exitEpochQueue.take settled.pool.nextExitEpochIndex
      obtain ⟨tail, grownEq⟩ := grown
      rw [same.queue, sameIndex, ← grownEq, List.take_append_of_le_length inside]
    · rw [settledEpochs_append]
      rfl

theorem completed_frame (settled : PoolTx) (receiver : Address) (assets : Nat)
    (completed : Completed env tx settled next receiver assets) : CallFrame env tx next := by
  have first := maybeSettled_frame _ completed.first
  obtain ⟨shares, events⟩ := completed.events
  refine first.trans (CallFrame.ofSameQueue ?_ ?_ ?_)
  · rw [completed.pool]
    exact ⟨rfl, rfl, rfl, rfl⟩
  · rw [events, settledEpochs_append]
    exact List.append_nil _
  · exact transfer_others _ env.self _ _ (Or.inl rfl) completed.paid

theorem rewardClaimed_frame (synced : SingleAssetCoverPool)
    (claimed : RewardClaimed env tx next synced) : CallFrame env tx next := by
  obtain ⟨⟨global, globalRun, userRun⟩, paid⟩ := claimed
  obtain ⟨first, globalEq⟩ :=
    checkpointGlobalRewards_accumulator tx.pool global env.self env.now globalRun
  obtain ⟨second, syncedEq⟩ :=
    checkpointUserRewards_accumulator global synced env.self env.now env.sender userRun
  subst globalEq syncedEq
  rcases paid with ⟨-, nextEq⟩ | ⟨-, -, transferred, poolEq, events⟩
  · subst nextEq
    exact CallFrame.ofSameQueue ⟨rfl, rfl, rfl, rfl⟩ rfl (fun _ _ _ _ => le_rfl)
  · apply CallFrame.ofSameQueue
    · rw [poolEq]
      exact ⟨rfl, rfl, rfl, rfl⟩
    · rw [events, settledEpochs_append]
      exact List.append_nil _
    · exact transfer_others _ env.self _ _ (Or.inl rfl) transferred

theorem profitReceived_frame (amount : Nat) (synced : SingleAssetCoverPool)
    (newDuration newRate : Nat)
    (profit : ProfitReceived env tx next amount synced newDuration newRate) :
    CallFrame env tx next := by
  obtain ⟨acc, syncedEq⟩ :=
    checkpointGlobalRewards_accumulator _ synced env.self env.now profit.checkpointed
  obtain ⟨finish, events⟩ := profit.events
  have poolEq := profit.pool
  subst syncedEq
  apply CallFrame.ofSameQueue
  · rw [poolEq]
    exact ⟨rfl, rfl, rfl, rfl⟩
  · rw [events, settledEpochs_append]
    exact List.append_nil _
  · exact transfer_others _ env.sender _ _ (Or.inr rfl) profit.received

theorem claimPaid_frame (recipient : Address) (amount : Nat)
    (paid : ClaimPaid env tx next recipient amount) : CallFrame env tx next := by
  rcases paid.paid with ⟨-, nextEq⟩ | ⟨-, -, transferred, poolEq, events⟩
  · subst nextEq
    exact CallFrame.ofSameQueue ⟨rfl, rfl, rfl, rfl⟩ rfl (fun _ _ _ _ => le_rfl)
  · apply CallFrame.ofSameQueue
    · rw [poolEq]
      exact ⟨rfl, rfl, rfl, rfl⟩
    · rw [events, settledEpochs_append]
      exact List.append_nil _
    · exact transfer_others _ env.self _ _ (Or.inl rfl) transferred

theorem exec_frame (call : PoolCall)
    (run : PoolTx.exec env tx call = .ok next) : CallFrame env tx next := by
  unfold PoolTx.exec at run
  obtain ⟨_, -, run⟩ := (bind_ok_iff _ _ _).mp run
  cases call with
  | deposit assets receiver =>
      obtain ⟨shares, deposited⟩ := deposit_ok env tx next assets receiver run
      exact deposited_frame receiver assets shares deposited
  | mint shares receiver =>
      obtain ⟨assets, deposited⟩ := mint_ok env tx next shares receiver run
      exact deposited_frame receiver assets shares deposited
  | transfer recipient value =>
      obtain ⟨-, pool, updated, nextEq⟩ := transfer_ok env tx next recipient value run
      subst nextEq
      exact CallFrame.ofSameQueue (update_sameQueue _ _ _ _ _ _ _ updated) rfl
        (fun _ _ _ _ => le_rfl)
  | requestRedeem shares =>
      obtain ⟨settled, exitEpoch, requested⟩ := requestRedeem_ok env tx next shares run
      exact requested_frame settled shares exitEpoch requested
  | settleMaturedExitEpochs maxEpochs =>
      exact settled_frame maxEpochs
        (settleMaturedExitEpochs_ok env tx next maxEpochs run).2
  | completeRedeem receiver =>
      obtain ⟨settled, assets, completed⟩ := completeRedeem_ok env tx next receiver run
      exact completed_frame settled receiver assets completed
  | claimReward =>
      obtain ⟨synced, claimed⟩ := claimReward_ok env tx next run
      exact rewardClaimed_frame synced claimed
  | receiveProfitDistribution amount =>
      obtain ⟨synced, newDuration, newRate, profit⟩ :=
        receiveProfitDistribution_ok env tx next amount run
      exact profitReceived_frame amount synced newDuration newRate profit
  | payClaim recipient amount =>
      exact claimPaid_frame recipient amount
        (payClaim_ok env tx next recipient amount run)
  | setRewardsDuration newDuration =>
      have nextEq := setRewardsDuration_ok env tx next newDuration run
      subst nextEq
      exact CallFrame.ofSameQueue ⟨rfl, rfl, rfl, rfl⟩ rfl (fun _ _ _ _ => le_rfl)
  | setDepositCap newCap =>
      have nextEq := setDepositCap_ok env tx next newCap run
      subst nextEq
      exact CallFrame.ofSameQueue ⟨rfl, rfl, rfl, rfl⟩ rfl (fun _ _ _ _ => le_rfl)
  | sweepToken token recipient =>
      obtain ⟨-, amount, -, transferred, poolEq, events⟩ :=
        sweepToken_ok env tx next token recipient run
      apply CallFrame.ofSameQueue
      · rw [poolEq]
        exact ⟨rfl, rfl, rfl, rfl⟩
      · rw [events, settledEpochs_append]
        exact List.append_nil _
      · exact transfer_others _ env.self _ _ (Or.inl rfl) transferred

end Frames

end Usd8Core.Pool
