import Usd8Core.Pool.PoolChanges

/-!
# Settled exits

A settled epoch is a receipt: what it was settled for, and who may still collect
which part of it.  Only a collection changes a receipt, and it changes it in a way
the receipt itself determines.  So what the requesters of an epoch receive does not
depend on anything else that happens.
-/

set_option autoImplicit false

namespace Usd8Core.Pool

open Usd8Core.Lib.ByteWords
open Usd8Core.Lib.CheckedCall
open Usd8Core.Lib.TraceRun
open Usd8Core.Chain
open Usd8Core.Insurance

/-! ## Receipts -/

/-- A settled epoch with the shares each account still holds of it. -/
@[ext] structure Receipt where
  epoch : ExitEpoch
  shares : Address → Nat

/-- What `completeRedeem` pays a holder. -/
def Receipt.owed (receipt : Receipt) (user : Address) : Nat :=
  if receipt.shares user = receipt.epoch.remainingShares then receipt.epoch.remainingAssets
  else receipt.epoch.totalAssets * receipt.shares user / receipt.epoch.totalShares

def Receipt.collect (receipt : Receipt) (user : Address) : Receipt where
  epoch := { receipt.epoch with
    remainingShares := receipt.epoch.remainingShares - receipt.shares user
    remainingAssets := receipt.epoch.remainingAssets - receipt.owed user }
  shares := Function.update receipt.shares user 0

/-- The receipt after the users have collected, one after another. -/
def Receipt.after (receipt : Receipt) (users : List Address) : Receipt :=
  users.foldl Receipt.collect receipt

/-- What the users receive who collect in this order. -/
def Receipt.payouts (receipt : Receipt) : List Address → List (Address × Nat)
  | [] => []
  | user :: later => (user, receipt.owed user) :: (receipt.collect user).payouts later

@[simp] theorem Receipt.collect_totalAssets (receipt : Receipt) (user : Address) :
    (receipt.collect user).epoch.totalAssets = receipt.epoch.totalAssets := rfl

theorem Receipt.after_totalAssets (receipt : Receipt) (users : List Address) :
    (receipt.after users).epoch.totalAssets = receipt.epoch.totalAssets := by
  induction users generalizing receipt with
  | nil => rfl
  | cons user later ih => exact ih (receipt.collect user)

theorem Receipt.payouts_append (receipt : Receipt) (users : List Address) (user : Address) :
    receipt.payouts (users ++ [user]) =
      receipt.payouts users ++ [(user, (receipt.after users).owed user)] := by
  induction users generalizing receipt with
  | nil => rfl
  | cons first later ih =>
      rw [List.cons_append, payouts, ih (receipt.collect first)]
      rfl

theorem Receipt.after_append (receipt : Receipt) (users : List Address) (user : Address) :
    receipt.after (users ++ [user]) = (receipt.after users).collect user := by
  simp [after]

/-- The first payouts depend on the first users only. -/
theorem Receipt.payouts_take (receipt : Receipt) (users : List Address) (n : Nat) :
    (receipt.payouts users).take n = receipt.payouts (users.take n) := by
  induction users generalizing receipt n with
  | nil => simp [payouts]
  | cons user later ih =>
      cases n with
      | zero => simp [payouts]
      | succ n => simp [payouts, ih]

/-- Just settled: nobody has collected yet. -/
structure Receipt.Fresh (receipt : Receipt) : Prop where
  shares : receipt.epoch.remainingShares = receipt.epoch.totalShares
  assets : receipt.epoch.remainingAssets = receipt.epoch.totalAssets
  whole : ∑ user, receipt.shares user = receipt.epoch.totalShares
  positive : 0 < receipt.epoch.totalShares

/-! ## Receipts in the exit book -/

def ExitLedger.receipt (book : ExitLedger) (exitEpoch : Nat) : Receipt where
  epoch := book.epochs exitEpoch
  shares user :=
    if (book.requests user).exitEpoch = exitEpoch then (book.requests user).shares else 0

namespace ExitBook

variable {now : Nat} {book : ExitLedger} {exitEpoch : Nat}

theorem settle_receipt (ordered : ExitBook now book) (settled : exitEpoch ∈ book.settled)
    (other assets : Nat) (atCursor : book.queue[book.index]? = some other) :
    exitEpoch ∈ (book.settle other assets).settled ∧
      (book.settle other assets).receipt exitEpoch = book.receipt exitEpoch := by
  obtain ⟨headEq, settledEq⟩ := settle_lists other assets atCursor
  have differ : exitEpoch ≠ other := by
    rintro rfl
    exact ordered.not_both exitEpoch settled (by rw [headEq]; simp)
  refine ⟨by rw [settledEq]; exact List.mem_append_left _ settled, ?_⟩
  exact Receipt.ext (Function.update_of_ne differ ..) rfl

/-- The epoch under the cursor turns into a fresh receipt. -/
theorem settle_fresh (ordered : ExitBook now book) (assets : Nat)
    (atCursor : book.queue[book.index]? = some exitEpoch) :
    ((book.settle exitEpoch assets).receipt exitEpoch).Fresh := by
  obtain ⟨headEq, -⟩ := settle_lists exitEpoch assets atCursor
  have isUnsettled : exitEpoch ∈ book.unsettled := by
    rw [headEq]
    exact List.mem_cons_self
  have written : ((book.settle exitEpoch assets).receipt exitEpoch).epoch =
      { book.epochs exitEpoch with
        totalAssets := assets
        remainingShares := (book.epochs exitEpoch).totalShares
        remainingAssets := assets } := Function.update_self ..
  refine ⟨?_, ?_, ?_, ?_⟩
  · rw [written]
  · rw [written]
  · rw [written]
    exact (ordered.unsettled_shares exitEpoch isUnsettled).symm
  · rw [written]
    exact Nat.pos_of_ne_zero (ordered.unsettled_open exitEpoch isUnsettled).1

theorem request_settled (ordered : ExitBook now book) (user : Address) (shares other : Nat) :
    (book.request user shares other).settled = book.settled := by
  have inside := ordered.index_le
  simp only [ExitLedger.settled, ExitLedger.request]
  split
  · rw [List.take_append_of_le_length inside]
  · rfl

theorem request_receipt (ordered : ExitBook now book) (settled : exitEpoch ∈ book.settled)
    (user : Address) (shares other : Nat) (noRequest : (book.requests user).shares = 0)
    (future : now < other) :
    (book.request user shares other).receipt exitEpoch = book.receipt exitEpoch := by
  have past := ordered.settled_past exitEpoch settled
  have differ : exitEpoch ≠ other := by omega
  refine Receipt.ext (Function.update_of_ne differ ..) ?_
  funext account
  by_cases same : account = user
  · subst same
    simp [ExitLedger.receipt, ExitLedger.request, noRequest, Ne.symm differ]
  · simp [ExitLedger.receipt, ExitLedger.request, Function.update_of_ne same]

theorem pay_other_receipt (user : Address) (assets : Nat)
    (elsewhere : (book.requests user).exitEpoch ≠ exitEpoch) :
    (book.pay user assets).receipt exitEpoch = book.receipt exitEpoch := by
  refine Receipt.ext (Function.update_of_ne (Ne.symm elsewhere) ..) ?_
  funext account
  by_cases same : account = user
  · subst same
    simp [ExitLedger.receipt, ExitLedger.pay, elsewhere]
  · simp [ExitLedger.receipt, ExitLedger.pay, Function.update_of_ne same]

theorem pay_receipt (user : Address) (assets : Nat)
    (here : (book.requests user).exitEpoch = exitEpoch)
    (owed : assets = (book.receipt exitEpoch).owed user) :
    (book.pay user assets).receipt exitEpoch = (book.receipt exitEpoch).collect user := by
  subst here owed
  refine Receipt.ext ?_ ?_
  · simp [ExitLedger.receipt, ExitLedger.pay, Receipt.collect]
  · funext account
    by_cases same : account = user
    · subst same
      simp [ExitLedger.receipt, ExitLedger.pay, Receipt.collect]
    · simp [ExitLedger.receipt, ExitLedger.pay, Receipt.collect, Function.update_of_ne same]

end ExitBook

/-! ## Receipts in the calls of a pool -/

/-- The epoch is still settled, with the same receipt. -/
structure ReceiptKept (exitEpoch : Nat) (pool next : SingleAssetCoverPool) : Prop where
  settled : exitEpoch ∈ (exitLedger next).settled
  receipt : (exitLedger next).receipt exitEpoch = (exitLedger pool).receipt exitEpoch

/-- A user has collected from the epoch and nothing else about it changed. -/
structure Collected (exitEpoch : Nat) (user : Address) (pool next : SingleAssetCoverPool) :
    Prop where
  settled : exitEpoch ∈ (exitLedger next).settled
  receipt : (exitLedger next).receipt exitEpoch =
    ((exitLedger pool).receipt exitEpoch).collect user

/-- Nobody collects from the epoch: a settled one keeps its receipt, and one that gets
settled starts with a fresh one. -/
structure Untouched (exitEpoch : Nat) (pool next : SingleAssetCoverPool) : Prop where
  kept : exitEpoch ∈ (exitLedger pool).settled → ReceiptKept exitEpoch pool next
  fresh : exitEpoch ∉ (exitLedger pool).settled → exitEpoch ∈ (exitLedger next).settled →
    ((exitLedger next).receipt exitEpoch).Fresh

section Calls

variable {env : PoolEnv} {tx next : PoolTx} {exitEpoch : Nat}

theorem ReceiptKept.trans {pool middle final : SingleAssetCoverPool}
    (first : ReceiptKept exitEpoch pool middle) (second : ReceiptKept exitEpoch middle final) :
    ReceiptKept exitEpoch pool final :=
  ⟨second.settled, second.receipt.trans first.receipt⟩

/-- Nothing was settled, and the receipt of a settled epoch is the same. -/
theorem Untouched.ofSettled {pool final : SingleAssetCoverPool}
    (same : (exitLedger final).settled = (exitLedger pool).settled)
    (receipt : exitEpoch ∈ (exitLedger pool).settled →
      (exitLedger final).receipt exitEpoch = (exitLedger pool).receipt exitEpoch) :
    Untouched exitEpoch pool final := by
  refine ⟨fun settled => ⟨?_, receipt settled⟩, fun absent settled => ?_⟩
  · rw [same]
    exact settled
  · rw [same] at settled
    exact absurd settled absent

theorem Untouched.refl (pool : SingleAssetCoverPool) : Untouched exitEpoch pool pool :=
  .ofSettled rfl fun _ => rfl

theorem Untouched.trans {pool middle final : SingleAssetCoverPool}
    (first : Untouched exitEpoch pool middle) (second : Untouched exitEpoch middle final) :
    Untouched exitEpoch pool final := by
  refine ⟨fun settled => ?_, fun absent settled => ?_⟩
  · have kept := first.kept settled
    exact kept.trans (second.kept kept.settled)
  · by_cases between : exitEpoch ∈ (exitLedger middle).settled
    · rw [(second.kept between).receipt]
      exact first.fresh absent between
    · exact second.fresh between settled

/-- A call that writes neither the queue nor the books. -/
theorem Untouched.ofSame {pool final : SingleAssetCoverPool} (queue : SameQueue pool final)
    (epochs : final.exitEpochs = pool.exitEpochs)
    (requests : final.exitRequests = pool.exitRequests) : Untouched exitEpoch pool final := by
  apply Untouched.ofSettled
  · change final.exitEpochQueue.take final.nextExitEpochIndex = _
    rw [queue.queue, queue.index]
    rfl
  · intro _
    apply Receipt.ext
    · exact congrFun epochs exitEpoch
    · funext user
      change (if (final.exitRequests user).exitEpoch = exitEpoch then
        (final.exitRequests user).shares else 0) = _
      rw [requests]
      rfl

/-- Seen from the exit book, a settled epoch is the entry under the cursor settled. -/
theorem settleEpoch_ledger {self : Address} {now : Nat} {before after : SingleAssetCoverPool}
    (index other : Nat) (event : Event)
    (run : before.settleEpoch self now other = .ok (after, event)) :
    ∃ assets, exitLedger (atIndex after (index + 1)) =
      (exitLedger (atIndex before index)).settle other assets := by
  obtain ⟨assets, -, -, selfNotZero, -, burnt⟩ :=
    settleEpoch_ok before after self now other event run
  obtain ⟨-, acc, moved⟩ := update_erc20 _ after self now self Address.zero _ burnt
  obtain ⟨-, afterEq⟩ := erc20Update_burn _ after self self _ selfNotZero moved
  refine ⟨assets, ?_⟩
  rw [afterEq]
  rfl

theorem settleMatured_untouched {self : Address} {now : Nat} {pool final : SingleAssetCoverPool}
    {balanceOf : Address → Nat} (maxEpochs : Nat) (events : List Event)
    (accounts : PoolAccounts self now pool balanceOf)
    (run : pool.settleMatured self now maxEpochs = .ok (final, events)) :
    Untouched exitEpoch pool final := by
  obtain ⟨index, reached, ⟨-, -, untouched⟩, finalEq⟩ := settleMatured_induct pool final self now
    maxEpochs events
    (fun index current _ => PoolAccounts self now (atIndex current index) balanceOf ∧
      current.exitEpochQueue = pool.exitEpochQueue ∧
      Untouched exitEpoch pool (atIndex current index))
    ⟨accounts, rfl, .refl pool⟩
    (by
      rintro index before earlier other after event ⟨holds, sameQueue, untouched⟩ atCursor
        matured epochRun
      rw [← sameQueue] at atCursor
      obtain ⟨holdsAfter, queueAfter⟩ :=
        settleEpoch_accounts index other after event holds atCursor matured epochRun
      refine ⟨holdsAfter, queueAfter.trans sameQueue, untouched.trans ?_⟩
      obtain ⟨assets, ledgerEq⟩ := settleEpoch_ledger index other event epochRun
      have entry : (exitLedger (atIndex before index)).queue[index]? = some other := atCursor
      refine ⟨fun settled => ?_, fun absent settled => ?_⟩
      · obtain ⟨stillSettled, same⟩ := holds.book.settle_receipt settled other assets entry
        exact ⟨by rw [ledgerEq]; exact stillSettled, by rw [ledgerEq, same]⟩
      · obtain ⟨-, settledEq⟩ := ExitBook.settle_lists other assets entry
        rw [ledgerEq, settledEq, List.mem_append, List.mem_singleton] at settled
        rcases settled with old | same
        · exact absurd old absent
        · subst same
          rw [ledgerEq]
          exact holds.book.settle_fresh assets entry)
    run
  rw [finalEq]
  exact untouched

theorem maybeSettled_untouched (maxEpochs : Nat) (accounts : TxAccounts env tx)
    (first : (env.payoutIncidentActive = false ∧ Settled env tx next maxEpochs) ∨ next = tx) :
    Untouched exitEpoch tx.pool next.pool := by
  rcases first with ⟨-, ⟨pool, events, run, nextEq⟩⟩ | same
  · subst nextEq
    exact settleMatured_untouched maxEpochs events accounts run
  · subst same
    exact .refl _

theorem requested_untouched (settledTx : PoolTx) (shares other : Nat) (caller : CallerOk env)
    (accounts : TxAccounts env tx)
    (requested : Requested env tx settledTx next shares other) :
    Untouched exitEpoch tx.pool next.pool := by
  have settledAccounts := maybeSettled_accounts _ accounts requested.first
  have first : Untouched exitEpoch tx.pool settledTx.pool :=
    maybeSettled_untouched _ accounts requested.first
  obtain ⟨future, -⟩ :=
    assigned_is_last env other settledAccounts caller.cooldown requested.assigned
  obtain ⟨pool, enqueued, nextEq⟩ := requested.enqueued
  obtain ⟨synced, userSynced, global, user, moved⟩ :=
    enqueueRedeem_ok env settledTx.pool pool shares other enqueued
  obtain ⟨acc, syncedEq⟩ := checkpointGlobalRewards_accumulator _ synced env.self env.now global
  obtain ⟨userAcc, userEq⟩ :=
    checkpointUserRewards_accumulator synced userSynced env.self env.now env.sender user
  subst syncedEq userEq
  obtain ⟨-, poolEq⟩ := erc20Update_move _ pool env.self env.sender env.self shares
    caller.senderNotZero caller.selfNotZero moved
  have ledgerEq : exitLedger next.pool =
      (exitLedger settledTx.pool).request env.sender shares other := by
    rw [nextEq, poolEq]
    rfl
  refine first.trans (.ofSettled ?_ ?_)
  · rw [ledgerEq, settledAccounts.book.request_settled]
  · intro settled
    rw [ledgerEq]
    exact settledAccounts.book.request_receipt settled env.sender shares other
      requested.noRequest future

/-- `completeRedeem` settles what has matured, then pays the caller out of its epoch. -/
theorem completed_receipt (settledTx : PoolTx) (receiver : Address) (assets : Nat)
    (accounts : TxAccounts env tx)
    (completed : Completed env tx settledTx next receiver assets) :
    Untouched exitEpoch tx.pool settledTx.pool ∧
      ((tx.pool.exitRequests env.sender).exitEpoch ≠ exitEpoch →
        Untouched exitEpoch tx.pool next.pool) ∧
      ((tx.pool.exitRequests env.sender).exitEpoch = exitEpoch →
        exitEpoch ∈ (exitLedger settledTx.pool).settled ∧
          Collected exitEpoch env.sender settledTx.pool next.pool ∧
          assets = ((exitLedger settledTx.pool).receipt exitEpoch).owed env.sender ∧
          ((exitLedger settledTx.pool).receipt exitEpoch).shares env.sender ≠ 0) := by
  have settledAccounts := maybeSettled_accounts _ accounts completed.first
  have first : Untouched exitEpoch tx.pool settledTx.pool :=
    maybeSettled_untouched _ accounts completed.first
  have sameRequests := maybeSettled_requests _ completed.first
  have owed := completed.owed
  have poolEq := completed.pool
  have positive := completed.positive
  have sharesLeft := completed.sharesLeft
  rw [← sameRequests] at owed poolEq positive sharesLeft ⊢
  have ledgerEq : exitLedger next.pool = (exitLedger settledTx.pool).pay env.sender assets := by
    rw [poolEq]
    rfl
  have sameSettled : (exitLedger next.pool).settled = (exitLedger settledTx.pool).settled := by
    rw [ledgerEq]
    rfl
  refine ⟨first, ?_, ?_⟩
  · intro elsewhere
    refine first.trans (.ofSettled sameSettled fun _ => ?_)
    rw [ledgerEq]
    exact ExitBook.pay_other_receipt env.sender assets elsewhere
  · intro here
    have held : ((exitLedger settledTx.pool).receipt exitEpoch).shares env.sender =
        (settledTx.pool.exitRequests env.sender).shares := if_pos here
    have amount : assets = ((exitLedger settledTx.pool).receipt exitEpoch).owed env.sender := by
      rw [here] at owed
      unfold PoolTx.redeemAssets at owed
      unfold Receipt.owed
      rw [held]
      rcases (ite_ok_iff _ _ _ _).mp owed with ⟨last, result⟩ | ⟨notLast, result⟩
      · have isLast : (settledTx.pool.exitRequests env.sender).shares =
            ((exitLedger settledTx.pool).receipt exitEpoch).epoch.remainingShares := last
        rw [if_pos isLast]
        exact ((pure_ok_iff _ _).mp result).symm
      · have isNotLast : ¬ (settledTx.pool.exitRequests env.sender).shares =
            ((exitLedger settledTx.pool).receipt exitEpoch).epoch.remainingShares := notLast
        rw [if_neg isNotLast]
        exact ((mulDiv_ok_iff _ _ _ _).mp result).2.2
    have isSettled : exitEpoch ∈ (exitLedger settledTx.pool).settled := by
      apply settledAccounts.book.settled_of_remaining
      change (settledTx.pool.exitEpochs exitEpoch).remainingShares ≠ 0
      rw [here] at sharesLeft
      omega
    refine ⟨isSettled, ⟨by rw [sameSettled]; exact isSettled, ?_⟩, amount,
      by rw [held]; exact positive⟩
    rw [ledgerEq, ExitBook.pay_receipt env.sender assets here amount]

/-- Every call but a collection leaves the epoch untouched. -/
theorem exec_untouched (call : PoolCall) (caller : CallerOk env) (accounts : TxAccounts env tx)
    (elsewhere : ∀ receiver, call = .completeRedeem receiver →
      (tx.pool.exitRequests env.sender).exitEpoch ≠ exitEpoch)
    (run : PoolTx.exec env tx call = .ok next) : Untouched exitEpoch tx.pool next.pool := by
  unfold PoolTx.exec at run
  obtain ⟨_, -, run⟩ := (bind_ok_iff _ _ _).mp run
  cases call with
  | deposit assets receiver =>
      obtain ⟨shares, deposited⟩ := deposit_ok env tx next assets receiver run
      obtain ⟨pool, minted, poolEq⟩ := deposited.minted
      have books := update_sameBooks _ _ _ _ _ _ _ minted
      have queue := update_sameQueue _ _ _ _ _ _ _ minted
      rw [poolEq]
      exact .ofSame ⟨queue.asset, queue.usd8, queue.queue, queue.index⟩ books.epochs
        books.requests
  | mint shares receiver =>
      obtain ⟨assets, deposited⟩ := mint_ok env tx next shares receiver run
      obtain ⟨pool, minted, poolEq⟩ := deposited.minted
      have books := update_sameBooks _ _ _ _ _ _ _ minted
      have queue := update_sameQueue _ _ _ _ _ _ _ minted
      rw [poolEq]
      exact .ofSame ⟨queue.asset, queue.usd8, queue.queue, queue.index⟩ books.epochs
        books.requests
  | transfer recipient value =>
      obtain ⟨-, pool, updated, nextEq⟩ := transfer_ok env tx next recipient value run
      have books := update_sameBooks _ _ _ _ _ _ _ updated
      subst nextEq
      exact .ofSame (update_sameQueue _ _ _ _ _ _ _ updated) books.epochs books.requests
  | requestRedeem shares =>
      obtain ⟨settledTx, other, requested⟩ := requestRedeem_ok env tx next shares run
      exact requested_untouched settledTx shares other caller accounts requested
  | settleMaturedExitEpochs maxEpochs =>
      obtain ⟨notFrozen, settled⟩ := settleMaturedExitEpochs_ok env tx next maxEpochs run
      exact maybeSettled_untouched maxEpochs accounts (Or.inl ⟨notFrozen, settled⟩)
  | completeRedeem receiver =>
      obtain ⟨settledTx, assets, completed⟩ := completeRedeem_ok env tx next receiver run
      exact (completed_receipt settledTx receiver assets accounts completed).2.1
        (elsewhere receiver rfl)
  | claimReward =>
      obtain ⟨synced, ⟨global, globalRun, userRun⟩, paid⟩ := claimReward_ok env tx next run
      obtain ⟨first, globalEq⟩ :=
        checkpointGlobalRewards_accumulator tx.pool global env.self env.now globalRun
      obtain ⟨second, syncedEq⟩ :=
        checkpointUserRewards_accumulator global synced env.self env.now env.sender userRun
      subst globalEq syncedEq
      rcases paid with ⟨-, nextEq⟩ | ⟨-, -, -, poolEq, -⟩
      · subst nextEq
        exact .ofSame ⟨rfl, rfl, rfl, rfl⟩ rfl rfl
      · rw [poolEq]
        exact .ofSame ⟨rfl, rfl, rfl, rfl⟩ rfl rfl
  | receiveProfitDistribution amount =>
      obtain ⟨synced, newDuration, newRate, profit⟩ :=
        receiveProfitDistribution_ok env tx next amount run
      obtain ⟨acc, syncedEq⟩ :=
        checkpointGlobalRewards_accumulator _ synced env.self env.now profit.checkpointed
      rw [profit.pool, syncedEq]
      exact .ofSame ⟨rfl, rfl, rfl, rfl⟩ rfl rfl
  | payClaim recipient amount =>
      rcases (payClaim_ok env tx next recipient amount run).paid with
        ⟨-, nextEq⟩ | ⟨-, -, -, poolEq, -⟩
      · subst nextEq
        exact .refl _
      · rw [poolEq]
        exact .ofSame ⟨rfl, rfl, rfl, rfl⟩ rfl rfl
  | setRewardsDuration newDuration =>
      rw [setRewardsDuration_ok env tx next newDuration run]
      exact .ofSame ⟨rfl, rfl, rfl, rfl⟩ rfl rfl
  | setDepositCap newCap =>
      rw [setDepositCap_ok env tx next newCap run]
      exact .ofSame ⟨rfl, rfl, rfl, rfl⟩ rfl rfl
  | sweepToken token recipient =>
      obtain ⟨-, amount, -, -, poolEq, -⟩ := sweepToken_ok env tx next token recipient run
      rw [poolEq]
      exact .refl _

/-- A call that is no `completeRedeem`. -/
def NotRedeem (call : PoolCall) : Prop := ∀ receiver, call ≠ .completeRedeem receiver

theorem untouched_respected (exitEpoch : Nat) : Respected NotRedeem (Untouched exitEpoch) where
  refl := Untouched.refl
  trans _ _ _ first second := first.trans second
  fromModule call fromModule := by
    rintro receiver rfl
    exact absurd fromModule id
  exec _ _ _ call notRedeem ground run :=
    exec_untouched call ground.caller ground.accounts
      (fun receiver redeems => absurd redeems (notRedeem receiver)) run

end Calls

/-! ## Receipts in a run -/

/-- The holder who collects from the epoch in this step, and what arrives at the
receiver he names. -/
def redemption (p : Address) (exitEpoch : Nat) (t : Transition World Tx) :
    Option (Address × Nat) :=
  match t.action with
  | .pool target user (.completeRedeem receiver) =>
      if target = p then
        (t.before.pools p).bind fun pool =>
          if (pool.exitRequests user).exitEpoch = exitEpoch then
            some (user, t.after.erc20 pool.asset receiver - t.before.erc20 pool.asset receiver)
          else none
      else none
  | _ => none

def redemptions (p : Address) (exitEpoch : Nat) (steps : List (Transition World Tx)) :
    List (Address × Nat) :=
  steps.filterMap (redemption p exitEpoch)

/-- The pool at `p` with the epoch settled. -/
structure HoldsReceipt (p : Address) (exitEpoch : Nat) (w : World)
    (pool : SingleAssetCoverPool) : Prop where
  present : w.pools p = some pool
  settled : exitEpoch ∈ (exitLedger pool).settled

section Runs

variable {platform : Platform} {p m sender : Address} {w next : World} {exitEpoch : Nat}
  {pool : SingleAssetCoverPool}

/-- A step either leaves the receipt alone or is a collection at its terms. -/
inductive ReceiptStep (p : Address) (exitEpoch : Nat) (t : Transition World Tx)
    (pool after : SingleAssetCoverPool) : Prop
  | kept (notCollected : redemption p exitEpoch t = none) (same : ReceiptKept exitEpoch pool after)
  | collected (user : Address)
      (paid : redemption p exitEpoch t =
        some (user, ((exitLedger pool).receipt exitEpoch).owed user))
      (moved : Collected exitEpoch user pool after)

theorem redemption_other {t : Transition World Tx}
    (other : ∀ user receiver, t.action ≠ .pool p user (.completeRedeem receiver)) :
    redemption p exitEpoch t = none := by
  unfold redemption
  split
  next target user receiver action =>
    rw [if_neg]
    rintro rfl
    exact other user receiver action
  next => rfl

/-- How far the step lowers the reserve below what the epoch is paid from. -/
def reserveFall (p : Address) (exitEpoch : Nat) (t : Transition World Tx) : Option Int :=
  match t.action with
  | .pool target user (.completeRedeem _) =>
      if target = p then
        (t.before.pools p).bind fun pool =>
          if (pool.exitRequests user).exitEpoch = exitEpoch then
            (paidFrom (t.before.poolEnv p user) ⟨pool, t.before.erc20, []⟩).toOption.bind
              fun settled => (t.after.pools p).map fun after =>
                (settled.pool.withdrawalReserve : Int) - after.withdrawalReserve
          else none
      else none
  | _ => none

/-- Seen from an epoch: nobody collects in the step, or one holder does, after the
settlements that the call makes first. -/
inductive EpochStep (p : Address) (exitEpoch : Nat) (t : Transition World Tx)
    (pool after : SingleAssetCoverPool) : Prop
  | untouched (notCollected : redemption p exitEpoch t = none)
      (same : Untouched exitEpoch pool after) (noFall : reserveFall p exitEpoch t = none)
  | collected (user : Address) (settled : SingleAssetCoverPool)
      (first : Untouched exitEpoch pool settled)
      (isSettled : exitEpoch ∈ (exitLedger settled).settled)
      (paid : redemption p exitEpoch t =
        some (user, ((exitLedger settled).receipt exitEpoch).owed user))
      (request : pool.exitRequests user =
        ⟨((exitLedger settled).receipt exitEpoch).shares user, exitEpoch⟩)
      (holds : ((exitLedger settled).receipt exitEpoch).shares user ≠ 0)
      (moved : Collected exitEpoch user settled after)
      (fall : reserveFall p exitEpoch t =
        some (((exitLedger settled).receipt exitEpoch).owed user : Int))

theorem reserveFall_other {t : Transition World Tx}
    (other : ∀ user receiver, t.action ≠ .pool p user (.completeRedeem receiver)) :
    reserveFall p exitEpoch t = none := by
  unfold reserveFall
  split
  next target user receiver action =>
    rw [if_neg]
    rintro rfl
    exact other user receiver action
  next => rfl

theorem completeRedeem_epochStep {t : Transition World Tx} {user receiver : Address}
    (action : t.action = .pool p user (.completeRedeem receiver))
    (present : t.before.pools p = some pool) (inOrder : PoolInOrder p t.before pool)
    (run : t.before.callPool p user (.completeRedeem receiver) = .ok t.after) :
    RelatesPool (EpochStep p exitEpoch t) p pool t.after := by
  obtain ⟨before, tx, presentBefore, executed, nextEq⟩ := callPool_ok user _ run
  cases present.symm.trans presentBefore
  have accounts : TxAccounts (t.before.poolEnv p user) ⟨pool, t.before.erc20, []⟩ :=
    inOrder.accounts
  obtain ⟨_, -, redeemRun⟩ := (bind_ok_iff _ _ _).mp executed
  obtain ⟨settledTx, assets, settleRun, completed⟩ :=
    completeRedeem_paidFrom _ _ tx receiver redeemRun
  obtain ⟨first, whenElsewhere, whenHere⟩ :=
    completed_receipt settledTx receiver assets accounts completed
  have poolsEq : t.after.pools p = some tx.pool := by
    rw [nextEq, emitAll_eq]
    exact Function.update_self ..
  refine ⟨tx.pool, poolsEq, ?_⟩
  have reduced : redemption p exitEpoch t =
      if (pool.exitRequests user).exitEpoch = exitEpoch then
        some (user, t.after.erc20 pool.asset receiver - t.before.erc20 pool.asset receiver)
      else none := by
    unfold redemption
    rw [action]
    dsimp only
    rw [if_pos rfl, present, Option.bind_some]
  have fall : reserveFall p exitEpoch t =
      if (pool.exitRequests user).exitEpoch = exitEpoch then
        some ((settledTx.pool.withdrawalReserve : Int) - tx.pool.withdrawalReserve)
      else none := by
    unfold reserveFall
    rw [action]
    dsimp only
    rw [if_pos rfl, present, Option.bind_some, settleRun, poolsEq]
    rfl
  by_cases here : (pool.exitRequests user).exitEpoch = exitEpoch
  · obtain ⟨isSettled, moved, assetsEq, holds⟩ := whenHere here
    have settledErc20 : settledTx.erc20 = t.before.erc20 := by
      rcases completed.first with ⟨-, ⟨_, _, _, settledEq⟩⟩ | same
      · rw [settledEq]
      · rw [same]
    have settledAsset : settledTx.pool.asset = pool.asset :=
      (maybeSettled_frame _ completed.first).asset
    have sameRequests : settledTx.pool.exitRequests = pool.exitRequests :=
      maybeSettled_requests _ completed.first
    have afterErc20 : t.after.erc20 = tx.erc20 := by rw [nextEq, emitAll_eq]
    have credit := erc20Transfer_credit _ _ _ _ _ _ completed.paid completed.receiverNotPool
      pool.asset
    rw [settledErc20, settledAsset, if_pos rfl] at credit
    have paid : ((exitLedger settledTx.pool).receipt exitEpoch).owed user = assets :=
      assetsEq.symm
    refine .collected user settledTx.pool first isSettled ?_ ?_ holds moved ?_
    · rw [reduced, if_pos here, afterErc20, credit, Nat.add_sub_cancel_left, paid]
    · have held : ((exitLedger settledTx.pool).receipt exitEpoch).shares user =
          (pool.exitRequests user).shares := by
        change (if (settledTx.pool.exitRequests user).exitEpoch = exitEpoch then
          (settledTx.pool.exitRequests user).shares else 0) = _
        rw [sameRequests, if_pos here]
      rw [held, ← here]
    · have enough := completed.reserveLeft
      have reserveEq : tx.pool.withdrawalReserve = settledTx.pool.withdrawalReserve - assets := by
        rw [completed.pool]
      rw [fall, if_pos here, paid, reserveEq, Nat.cast_sub enough]
      congr 1
      omega
  · exact .untouched (by rw [reduced, if_neg here]) (whenElsewhere here)
      (by rw [fall, if_neg here])

theorem step_epochStep {t : Transition World Tx} (reachable : Reachable platform t.before)
    (present : t.before.pools p = some pool)
    (ran : step platform t.before t.action = .ok t.after) :
    RelatesPool (EpochStep p exitEpoch t) p pool t.after := by
  by_cases collects : ∃ user receiver, t.action = .pool p user (.completeRedeem receiver)
  · obtain ⟨user, receiver, action⟩ := collects
    rw [action] at ran
    cases step_cases ran with
    | pool _ _ _ external run =>
        exact completeRedeem_epochStep action present (reachable_poolInOrder reachable present) run
    | tokens _ move erc20 erc1155 erc20Kept erc1155Kept nextEq => exact absurd move id
  · have other : ∀ user receiver, t.action ≠ .pool p user (.completeRedeem receiver) :=
      fun user receiver action => collects ⟨user, receiver, action⟩
    obtain ⟨after, presentAfter, untouched⟩ :=
      step_relates (untouched_respected exitEpoch) reachable present
        (by
          rintro user call action receiver rfl
          exact other user receiver action)
        ran
    exact ⟨after, presentAfter,
      .untouched (redemption_other other) untouched (reserveFall_other other)⟩

theorem step_receipt {t : Transition World Tx} (reachable : Reachable platform t.before)
    (holds : HoldsReceipt p exitEpoch t.before pool)
    (ran : step platform t.before t.action = .ok t.after) :
    ∃ after, t.after.pools p = some after ∧ ReceiptStep p exitEpoch t pool after := by
  have epochStep : RelatesPool (EpochStep p exitEpoch t) p pool t.after :=
    step_epochStep reachable holds.present ran
  obtain ⟨after, presentAfter, epochStep⟩ := epochStep
  refine ⟨after, presentAfter, ?_⟩
  cases epochStep with
  | untouched notCollected same _ => exact .kept notCollected (same.kept holds.settled)
  | collected user settled first _ paid _ _ moved _ =>
      have kept := first.kept holds.settled
      rw [kept.receipt] at paid
      exact .collected user paid ⟨moved.settled, by rw [moved.receipt, kept.receipt]⟩

/-- In any continuation the holders receive what the receipt owes in their order. -/
theorem run_receipt {steps : List (Transition World Tx)} (reachable : Reachable platform w)
    (holds : HoldsReceipt p exitEpoch w pool) (run : IsRun (step platform) w steps next) :
    let receipt := (exitLedger pool).receipt exitEpoch
    let users := (redemptions p exitEpoch steps).map Prod.fst
    redemptions p exitEpoch steps = receipt.payouts users ∧
      ∃ after, HoldsReceipt p exitEpoch next after ∧
        (exitLedger after).receipt exitEpoch = receipt.after users := by
  induction run with
  | nil => exact ⟨rfl, pool, holds, rfl⟩
  | snoc earlier middle tx final run last ih =>
      obtain ⟨paid, between, holdsBetween, receiptBetween⟩ := ih
      obtain ⟨after, presentAfter, moved⟩ :=
        step_receipt (t := ⟨middle, tx, final⟩) (reachable.extend run) holdsBetween last
      dsimp only
      cases moved with
      | kept notCollected same =>
          have listEq : redemptions p exitEpoch (earlier ++ [⟨middle, tx, final⟩]) =
              redemptions p exitEpoch earlier := by
            simp [redemptions, List.filterMap_append, notCollected]
          rw [listEq]
          exact ⟨paid, after, ⟨presentAfter, same.settled⟩, same.receipt.trans receiptBetween⟩
      | collected user paidLast moved =>
          have listEq : redemptions p exitEpoch (earlier ++ [⟨middle, tx, final⟩]) =
              redemptions p exitEpoch earlier ++
                [(user, ((exitLedger between).receipt exitEpoch).owed user)] := by
            simp [redemptions, List.filterMap_append, paidLast]
          rw [listEq, List.map_append, List.map_singleton, Receipt.payouts_append,
            Receipt.after_append, ← paid, ← receiptBetween]
          exact ⟨rfl, after, ⟨presentAfter, moved.settled⟩, moved.receipt⟩

end Runs

end Usd8Core.Pool
